import DeerQuic.Acks

/-!
# Packets that TLS refuses

The receipt of a packet is recorded before its frames are looked at, and the frames take effect one
by one. When TLS refuses a CRYPTO frame, all that came before it stays: the packet is acknowledged
although it was not processed.
-/

namespace DeerQuic.Connection

open Outcome Protection Transition

variable {σ : Type} {R : Rustls σ}

/-- The same connection but for the TLS session. -/
structure Untouched (c c' : Connection σ) : Prop where
  acks : ∀ id, (c'.spaces id).pendingAcks = (c.spaces id).pendingAcks
  largest : ∀ id, (c'.spaces id).largestRecvPn = (c.spaces id).largestRecvPn
  keys : ∀ id, (c'.spaces id).keys = (c.spaces id).keys
  appData : c'.receivedAppData = c.receivedAppData
  offset : c'.cryptoRecvOffset = c.cryptoRecvOffset
  crypto : c'.pendingCrypto = c.pendingCrypto
  state : c'.state = c.state

/-- The only frame that fails is a CRYPTO frame at the receive offset, which TLS refuses. -/
lemma processFrame_eq_err {id : PacketNumberSpace} {c c' : Connection σ} {frame : Frame}
    {e : ConnectionError} (h : c.processFrame R id frame = (err e, c')) :
    ∃ data reason, frame = .crypto (c.cryptoRecvOffset (pnSpaceToLevel id)) data ∧
      (R.readHs c.tls data).2 = .error reason ∧ e = .tls reason ∧
      c' = { c with tls := (R.readHs c.tls data).1 } := by
  cases frame with
  | crypto offset data =>
    by_cases hoffset : offset = c.cryptoRecvOffset (pnSpaceToLevel id)
    · have hfeed : c.feedCrypto R (pnSpaceToLevel id) data = (err e, c') := by
        rw [← h]
        simp only [processFrame, ← hoffset, Nat.le_of_lt_succ (level_lt id), and_self, if_true]
      rcases feedCrypto_cases R c (level_lt id) data with ⟨reason, hread, hrefused⟩ | ⟨_, c₁, hfed, _⟩
      · rw [hrefused] at hfeed
        cases hfeed
        exact ⟨data, reason, by rw [hoffset], hread, rfl, rfl⟩
      · rw [hfed] at hfeed
        cases hfeed
    · simp [processFrame, hoffset] at h
  | handshakeDone =>
    by_cases hside : c.side = .client <;> simp [processFrame, hside] at h
  | _ => simp [processFrame] at h

/-- What is left of a packet that fails: all frames before the refused one. -/
lemma processFrames_eq_err {id : PacketNumberSpace} {frames : List Frame} {c : Connection σ}
    {e : ConnectionError} (h : (processFrames R id frames c).1 = err e) :
    ∃ before data behind reason c₁,
      frames = before ++ .crypto (c₁.cryptoRecvOffset (pnSpaceToLevel id)) data :: behind ∧
      processFrames R id before c = (ok (), c₁) ∧
      (R.readHs c₁.tls data).2 = .error reason ∧ e = .tls reason ∧
      (processFrames R id frames c).2 = { c₁ with tls := (R.readHs c₁.tls data).1 } := by
  induction frames generalizing c with
  | nil => cases h
  | cons frame frames ih =>
    rcases hframe : c.processFrame R id frame with ⟨_ | e' | _, c'⟩
    · simp only [processFrames, hframe] at h
      obtain ⟨before, data, behind, reason, c₁, rfl, hbefore, hread, he, hlast⟩ := ih h
      refine ⟨frame :: before, data, behind, reason, c₁, rfl, ?_, hread, he, ?_⟩
      · simpa only [processFrames, hframe] using hbefore
      · simpa only [processFrames, hframe] using hlast
    · obtain ⟨data, reason, rfl, hread, rfl, rfl⟩ := processFrame_eq_err hframe
      simp only [processFrames, hframe, err.injEq] at h
      refine ⟨[], data, frames, reason, c, rfl, rfl, hread, h.symm, ?_⟩
      simp only [processFrames, hframe]
    · simp [processFrames, hframe] at h

/-- The receipt and the frames before the refused one are what such a packet leaves behind. -/
theorem ingest_refused {c : Connection σ} {buf : Bytes} {id : PacketNumberSpace} {pn : Nat}
    {frames : List Frame} {e : ConnectionError} (hstate : c.state ≠ .closed)
    (hopen : c.openPacket buf = ok (id, pn, frames))
    (hrefused : (processFrames R id frames (c.recordRecvPn id pn)).1 = err e) :
    ∃ before data behind reason c₁,
      frames = before ++ .crypto (c₁.cryptoRecvOffset (pnSpaceToLevel id)) data :: behind ∧
      processFrames R id before (c.recordRecvPn id pn) = (ok (), c₁) ∧
      c.ingest R buf = (err (.tls reason), { c₁ with tls := (R.readHs c₁.tls data).1 }) := by
  have hresult : (c.ingest R buf).1 = err e := by
    rw [ingest_result R hstate hopen, hrefused]
    rfl
  obtain ⟨before, data, behind, reason, c₁, hframes, hbefore, _, rfl, hlast⟩ :=
    processFrames_eq_err hrefused
  have hleft : (c.ingest R buf).2 = { c₁ with tls := (R.readHs c₁.tls data).1 } := by
    rw [ingest_of_open R hstate hopen, hlast]
  exact ⟨before, data, behind, reason, c₁, hframes, hbefore, Prod.ext hresult hleft⟩

/-- A packet that opens but that TLS refuses is an error, and it is acknowledged all the same. -/
theorem refused_packet_touches {c : Connection σ} {buf : Bytes} {id : PacketNumberSpace} {pn : Nat}
    {frames : List Frame} {e : ConnectionError} (hstate : c.state ≠ .closed)
    (hopen : c.openPacket buf = ok (id, pn, frames))
    (hrefused : (processFrames R id frames (c.recordRecvPn id pn)).1 = err e) :
    (∃ reason, (c.ingest R buf).1 = err (.tls reason)) ∧ ¬ Untouched c (c.ingest R buf).2 := by
  constructor
  · obtain ⟨_, _, _, reason, _, _, _, hresult⟩ := ingest_refused hstate hopen hrefused
    exact ⟨reason, by rw [hresult]⟩
  · intro h
    have hacks := h.acks id
    rw [pendingAcks_ingest hstate hopen] at hacks
    simp at hacks

/-- The prepared flights, behind a parser that knows one malformed message. -/
def wary (flights : Flights) : Rustls Flights :=
  { scripted flights with
    readHs := fun tls data =>
      if data = [0xff] then (tls, .error "malformed message") else (tls, .ok ()) }

def waryServer : Connection Flights :=
  (accept (wary serverFlights) (plainLong .initial 0 [.crypto 0 [1]])).getD
    (fresh .server .handshaking [] 1 [0x50] [0x51] (nullKeys plainMask))

/-- A STREAM frame, then a chunk that TLS refuses. -/
def refusedPacket : Bytes := plainLong .initial 1 [.stream 0 0 [7] false, .crypto 1 [0xff]]

theorem refused_packet_touches_server :
    (∃ reason, (waryServer.ingest (wary serverFlights) refusedPacket).1 = err (.tls reason)) ∧
      ¬ Untouched waryServer (waryServer.ingest (wary serverFlights) refusedPacket).2 := by
  have hopen : waryServer.openPacket refusedPacket =
      ok (.initial, 1, .stream 0 0 [7] false :: .crypto 1 [0xff] :: List.replicate 12 .padding) := by
    decide +kernel
  have hrefused : (processFrames (wary serverFlights) .initial
      (.stream 0 0 [7] false :: .crypto 1 [0xff] :: List.replicate 12 .padding)
      (waryServer.recordRecvPn .initial 1)).1 = err (.tls "malformed message") := by
    decide +kernel
  exact refused_packet_touches (by decide +kernel) hopen hrefused

/-- The packet number of the refused packet is due for acknowledgement, and the application gets
its byte. -/
theorem refused_packet_acknowledged :
    accept (wary serverFlights) (plainLong .initial 0 [.crypto 0 [1]]) = ok waryServer ∧
      (waryServer.openPacket refusedPacket).isOk = true ∧
      (waryServer.ingest (wary serverFlights) refusedPacket).1 = err (.tls "malformed message") ∧
      (waryServer.spaces .initial).pendingAcks = [0] ∧
      ((waryServer.ingest (wary serverFlights) refusedPacket).2.spaces .initial).pendingAcks =
        [0, 1] ∧
      (waryServer.ingest (wary serverFlights) refusedPacket).2.receivedAppData = [7] ∧
      ¬ Untouched waryServer (waryServer.ingest (wary serverFlights) refusedPacket).2 := by
  refine ⟨eq_ok_getD (by decide +kernel) _, by decide +kernel, by decide +kernel,
    by decide +kernel, by decide +kernel, by decide +kernel, ?_⟩
  intro h
  have hdata := h.appData
  revert hdata
  decide +kernel

end DeerQuic.Connection
