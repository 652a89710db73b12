import DeerQuic.Acks
import DeerQuic.CryptoInput

/-!
# Datagrams that come twice

Nothing remembers which packet numbers were received. A second copy of a datagram has no effect
when it cannot be opened any more or comes after the connection was closed, and otherwise
it is processed like the first.
-/

namespace DeerQuic.Connection

open Outcome Protection Transition

variable {σ : Type} {R : Rustls σ}

/-- The same data for the application and for TLS, the same acknowledgements to send, the same
state. -/
structure SameEffect (c c' : Connection σ) : Prop where
  appData : c'.receivedAppData = c.receivedAppData
  acks : ∀ id, (c'.spaces id).pendingAcks.Perm (c.spaces id).pendingAcks
  offset : c'.cryptoRecvOffset = c.cryptoRecvOffset
  tlsInput : ∀ level, accepted level c'.history = accepted level c.history
  tls : c'.tls = c.tls
  state : c'.state = c.state

lemma SameEffect.refl (c : Connection σ) : SameEffect c c :=
  ⟨rfl, fun _ => .refl _, rfl, fun _ => rfl, rfl, rfl⟩

/-- What one more copy does, the question being only whether it is opened. -/
lemma sameEffect_ingest_iff (c : Connection σ) (buf : Bytes) :
    SameEffect c (c.ingest R buf).2 ↔
      c.state = .closed ∨ ∀ opened, c.openPacket buf ≠ ok opened := by
  constructor
  · intro h
    by_contra hlost
    obtain ⟨hstate, hopens⟩ := not_or.mp hlost
    obtain ⟨⟨id, pn, frames⟩, hopen⟩ := not_forall_not.mp hopens
    have hlength := (h.acks id).length_eq
    rw [pendingAcks_ingest hstate hopen, List.length_append] at hlength
    simp at hlength
  · intro hlost
    rcases ingest_cases R c buf with hsame | ⟨id, pn, frames, hstate, hopen, _⟩
    · rw [hsame]
      exact .refl c
    · rcases hlost with hclosed | hunopened
      · exact absurd hclosed hstate
      · exact absurd hopen (hunopened _)

variable (R) in
/-- The connection, and beside it the datagrams it has accepted so far. -/
def nextSeen (st : Connection σ × List Bytes) (op : Op) : Connection σ × List Bytes :=
  (next R st.1 op,
    match op with
    | .ingest buf => if (st.1.ingest R buf).1.isOk then buf :: st.2 else st.2
    | _ => st.2)

variable (R) in
/-- A second copy changes nothing. -/
def ReplayIgnored (st : Connection σ × List Bytes) (op : Op) : Prop :=
  ∀ buf ∈ st.2, op = .ingest buf → SameEffect st.1 (next R st.1 op)

/-- A second copy comes to a closed connection, or is not opened. -/
def ReplayLost (st : Connection σ × List Bytes) (op : Op) : Prop :=
  ∀ buf ∈ st.2, op = .ingest buf →
    st.1.state = .closed ∨ ∀ opened, st.1.openPacket buf ≠ ok opened

/-- In exactly the runs in which no second copy is opened by an open connection, second copies
change nothing. -/
theorem replays_ignored_iff (s : Connection σ) (ops : List Op) :
    Along (nextSeen R) (ReplayIgnored R) (s, []) ops ↔ Along (nextSeen R) ReplayLost (s, []) ops := by
  apply along_iff (P := fun _ => True) ?_ (fun _ _ _ _ => trivial) trivial
  intro st op _
  constructor
  · rintro hignored buf hseen rfl
    exact (sameEffect_ingest_iff st.1 buf).mp (hignored buf hseen rfl)
  · rintro hlost buf hseen rfl
    exact (sameEffect_ingest_iff st.1 buf).mpr (hlost buf hseen rfl)

/-- The application gets the byte of a duplicated packet twice. -/
theorem replay_delivers_again :
    Started (scripted serverFlights) (plainServer serverFlights) ∧
      ((plainServer serverFlights).ingest (scripted serverFlights)
        (plainLong .initial 1 [.stream 0 0 [7] false])).1.isOk = true ∧
      ¬ Along (nextSeen (scripted serverFlights)) (ReplayIgnored (scripted serverFlights))
        (plainServer serverFlights, [])
        [.ingest (plainLong .initial 1 [.stream 0 0 [7] false]),
          .ingest (plainLong .initial 1 [.stream 0 0 [7] false])] := by
  have haccepted : ((plainServer serverFlights).ingest (scripted serverFlights)
      (plainLong .initial 1 [.stream 0 0 [7] false])).1.isOk = true := by
    decide +kernel
  refine ⟨plainServer_started (by decide +kernel), haccepted, ?_⟩
  rintro ⟨_, hsecond, _⟩
  have hseen : plainLong .initial 1 [.stream 0 0 [7] false] ∈
      (nextSeen (scripted serverFlights) (plainServer serverFlights, [])
        (.ingest (plainLong .initial 1 [.stream 0 0 [7] false]))).2 := by
    simp only [nextSeen, haccepted, if_true]
    exact List.mem_singleton_self _
  have hsame := (hsecond _ hseen rfl).appData
  revert hsame
  decide +kernel

end DeerQuic.Connection
