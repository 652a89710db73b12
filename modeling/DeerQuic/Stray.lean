import DeerQuic.Run

/-!
# Datagrams that cannot be read

Until a datagram has been opened nothing is written. What fails before, for whatever reason, can
be put into a run anywhere without a trace.
-/

namespace DeerQuic.Connection

open Outcome Protection Transition

variable {σ : Type} {R : Rustls σ}

/-- Nothing, or something that `ingest` gives up on before it records a packet number: the header
does not parse or is not one to be decrypted, there are no keys for its space, header protection
or the AEAD refuses it, or the plaintext is no sequence of frames. -/
inductive Stray (c : Connection σ) : Bytes → Prop where
  | empty : Stray c []
  | unopened {buf : Bytes} {e : ConnectionError} : c.openPacket buf = err e → Stray c buf

lemma stray_iff {c : Connection σ} {buf : Bytes} :
    Stray c buf ↔ buf = [] ∨ ∃ e, c.openPacket buf = err e := by
  constructor
  · rintro (_ | ⟨hopen⟩)
    · exact .inl rfl
    · exact .inr ⟨_, hopen⟩
  · rintro (rfl | ⟨e, hopen⟩)
    · exact .empty
    · exact .unopened hopen

instance (c : Connection σ) (buf : Bytes) : Decidable (Stray c buf) :=
  match h : c.openPacket buf with
  | err e => isTrue (.unopened h)
  | ok _ | .panic => decidable_of_iff (buf = []) (by simp [stray_iff, h])

lemma ingest_stray {c : Connection σ} {buf : Bytes} (h : Stray c buf) : (c.ingest R buf).2 = c := by
  rcases ingest_cases R c buf with hsame | ⟨id, pn, frames, _, hopen, _⟩
  · exact hsame
  · rcases stray_iff.mp h with rfl | ⟨e, hunopened⟩
    · cases hopen
    · cases hunopened.symm.trans hopen

/-- What a method tells the caller: the packet or the error, the data, and how the queries answer
right afterwards. -/
inductive Reply where
  | packet (result : Outcome ConnectionError Bytes)
  | data (bytes : Bytes)
  | queries (isEstablished isClosed : Bool) (closeReason : Option ConnectionError)
      (version : UInt32)

def queries (c : Connection σ) : Reply :=
  .queries c.isEstablished c.isClosed c.closeReason c.version

/-- Of `ingest` the caller sees nothing here: its result is an error for a stray datagram. -/
def replies (R : Rustls σ) (c : Connection σ) (op : Op) : List Reply :=
  match op with
  | .ingest _ => []
  | .egest bufLen => [.packet (c.egest bufLen).1, queries (next R c op)]
  | .sendData _ => [queries (next R c op)]
  | .recvData bufLen => [.data (c.recvData bufLen).1, queries (next R c op)]

def StrayOp (c : Connection σ) (op : Op) : Prop := ∃ buf, op = .ingest buf ∧ Stray c buf

/-- Stray datagrams, put into a run anywhere, change neither the state it ends in nor anything a
caller sees on the way. -/
theorem strays_unnoticed {c : Connection σ} {ops longer : List Op}
    (h : Inserted (next R) StrayOp c ops longer) :
    run (next R) c longer = run (next R) c ops ∧
      observed (next R) (replies R) c longer = observed (next R) (replies R) c ops := by
  have still : ∀ (c : Connection σ) (op : Op), StrayOp c op → next R c op = c := by
    rintro c op ⟨buf, rfl, hstray⟩
    exact ingest_stray hstray
  have quiet : ∀ (c : Connection σ) (op : Op), StrayOp c op → replies R c op = [] := by
    rintro c op ⟨buf, rfl, _⟩
    rfl
  exact ⟨h.run_eq still, h.observed_eq still quiet⟩

/-- A run with an empty datagram, one that is no header and one that is not sealed. -/
theorem strays_unnoticed_three :
    run (next (scripted serverFlights)) (plainServer serverFlights)
        [.ingest [], .sendData [7], .ingest [0xff], .egest 2048,
          .ingest (plainLong .handshake 0 [.ping] ++ [1])] =
        run (next (scripted serverFlights)) (plainServer serverFlights)
          [.sendData [7], .egest 2048] ∧
      observed (next (scripted serverFlights)) (replies (scripted serverFlights))
        (plainServer serverFlights)
        [.ingest [], .sendData [7], .ingest [0xff], .egest 2048,
          .ingest (plainLong .handshake 0 [.ping] ++ [1])] =
        observed (next (scripted serverFlights)) (replies (scripted serverFlights))
          (plainServer serverFlights) [.sendData [7], .egest 2048] := by
  apply strays_unnoticed
  refine .put _ ⟨[], rfl, .empty⟩ (.keep _ (.put _ ⟨[0xff], rfl, ?_⟩ (.keep _
    (.put _ ⟨_, rfl, ?_⟩ (.nil _)))))
  · decide +kernel
  · decide +kernel

end DeerQuic.Connection
