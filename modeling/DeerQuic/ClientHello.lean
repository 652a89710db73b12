import DeerQuic.CryptoInput
import DeerQuic.Levels

/-!
# Two readers of the ClientHello

A server takes its first CRYPTO data in `accept`, all later data in `process_frames`. The first
reader joins the data of all frames at offset 0; the second one goes on where it stopped. Both
are compared over the same frames.
-/

namespace DeerQuic

open Outcome Protection Transition

/-- The frames whose data `accept` joins. -/
def starting (frames : List Frame) : List Frame :=
  frames.filter fun
    | .crypto offset _ => decide (offset = 0)
    | _ => false

/-- The frames that carry on a stream of which `n` bytes have been read. -/
def continuing : Nat → List Frame → List Frame
  | _, [] => []
  | n, .crypto offset data :: frames =>
    if offset = n then .crypto offset data :: continuing (n + data.length) frames
    else continuing n frames
  | n, _ :: frames => continuing n frames

/-- Behind the first data at offset 0, the frames that start over carry the same bytes as the
frames that go on. Usually there are neither. -/
def ReadAlike (frames : List Frame) : Prop :=
  ∀ before data behind, frames = before ++ .crypto 0 data :: behind →
    cryptoData (starting before) = [] → data ≠ [] →
      cryptoData (starting behind) = cryptoData (continuing data.length behind)

lemma starting_cons (frame : Frame) (frames : List Frame) :
    cryptoData (starting (frame :: frames)) =
      cryptoData (starting [frame]) ++ cryptoData (starting frames) := by
  rw [← List.singleton_append, starting, List.filter_append, cryptoData, List.flatMap_append]
  rfl

lemma cryptoData_cons (frame : Frame) (frames : List Frame) :
    cryptoData (frame :: frames) = cryptoData [frame] ++ cryptoData frames := by
  simp [cryptoData]

/-- A frame without data at offset 0 leaves the comparison to the frames behind it. -/
lemma readAlike_cons_idle {frame : Frame} {frames : List Frame}
    (h : cryptoData (starting [frame]) = []) : ReadAlike (frame :: frames) ↔ ReadAlike frames := by
  constructor
  · intro hall before data behind hsplit hbefore hdata
    refine hall (frame :: before) data behind (by rw [hsplit]; rfl) ?_ hdata
    rw [starting_cons, h, hbefore]
    rfl
  · rintro hall (_ | ⟨first, before⟩) data behind hsplit hbefore hdata
    · obtain ⟨rfl, rfl⟩ := List.cons_eq_cons.mp hsplit
      exact absurd (by simpa [starting, cryptoData] using h) hdata
    · obtain ⟨rfl, rfl⟩ := List.cons_eq_cons.mp hsplit
      rw [starting_cons, h] at hbefore
      exact hall before data behind rfl hbefore hdata

/-- The first data at offset 0 decide what is compared. -/
lemma readAlike_cons_start {data : Bytes} {frames : List Frame} (hdata : data ≠ []) :
    ReadAlike (.crypto 0 data :: frames) ↔
      cryptoData (starting frames) = cryptoData (continuing data.length frames) := by
  constructor
  · intro hall
    exact hall [] data frames rfl rfl hdata
  · rintro hsame (_ | ⟨first, before⟩) data' behind hsplit hbefore -
    · obtain ⟨hfirst, rfl⟩ := List.cons_eq_cons.mp hsplit
      cases hfirst
      exact hsame
    · obtain ⟨rfl, rfl⟩ := List.cons_eq_cons.mp hsplit
      rw [starting_cons] at hbefore
      exact absurd (by simpa [starting, cryptoData] using (List.append_eq_nil_iff.mp hbefore).1) hdata

theorem starting_eq_continuing_iff (frames : List Frame) :
    cryptoData (starting frames) = cryptoData (continuing 0 frames) ↔ ReadAlike frames := by
  induction frames with
  | nil => exact ⟨fun _ before data behind hsplit => by simp at hsplit, fun _ => rfl⟩
  | cons frame frames ih =>
    cases frame with
    | crypto offset data =>
      by_cases hoffset : offset = 0
      · subst hoffset
        by_cases hdata : data = []
        · subst hdata
          rw [readAlike_cons_idle rfl, ← ih, starting_cons]
          simp [continuing, starting, cryptoData]
        · rw [readAlike_cons_start hdata, starting_cons, continuing, if_pos rfl, cryptoData_cons,
            Nat.zero_add]
          exact List.append_right_inj (cryptoData [.crypto 0 data])
      · have hidle : cryptoData (starting [.crypto offset data]) = [] := by
          simp [starting, cryptoData, hoffset]
        rw [readAlike_cons_idle hidle, ← ih, starting_cons, hidle, continuing, if_neg hoffset]
        rfl
    | _ => rw [readAlike_cons_idle rfl, ← ih, starting_cons]; rfl

lemma clientHelloOf_eq (frames : List Frame) :
    Connection.clientHelloOf frames = cryptoData (starting frames) := by
  induction frames with
  | nil => rfl
  | cons frame frames ih =>
    rw [starting_cons, ← ih]
    cases frame with
    | crypto offset data =>
      by_cases hoffset : offset = 0 <;>
        simp [Connection.clientHelloOf, starting, cryptoData, hoffset]
    | _ => rfl

namespace Connection

variable {σ τ : Type} {R : Rustls σ} {R' : Rustls τ}

/-- TLS has been given `data` at the level, and the receive offset has moved past them. -/
def TookIn (level : Nat) (data : Bytes) (c c' : Connection σ) : Prop :=
  accepted level c'.history = accepted level c.history ++ data ∧
    c'.cryptoRecvOffset level = c.cryptoRecvOffset level + data.length

lemma TookIn.nothing {level : Nat} {c c' : Connection σ} {es : List Event}
    (hhistory : c'.history = c.history ++ es) (hes : accepted level es = [])
    (hoffset : c'.cryptoRecvOffset = c.cryptoRecvOffset) : TookIn level [] c c' := by
  constructor
  · rw [hhistory, accepted_append, hes]
  · rw [hoffset]
    rfl

lemma TookIn.trans {level : Nat} {data more : Bytes} {c c' c'' : Connection σ}
    (h : TookIn level data c c') (hmore : TookIn level more c' c'') :
    TookIn level (data ++ more) c c'' := by
  constructor
  · rw [hmore.1, h.1, List.append_assoc]
  · rw [hmore.2, h.2, List.length_append, Nat.add_assoc]

lemma continuing_single (n : Nat) (frame : Frame) (frames : List Frame) :
    cryptoData (continuing n (frame :: frames)) = cryptoData (continuing n [frame]) ++
      cryptoData (continuing (n + (cryptoData (continuing n [frame])).length) frames) := by
  cases frame with
  | crypto offset data =>
    by_cases hoffset : offset = n <;> simp [continuing, cryptoData, hoffset]
  | _ => rfl

lemma tookIn_frameNext {id : PacketNumberSpace} {c c' : Connection σ} {frame : Frame}
    (h : c.processFrame R id frame = (ok (), c')) :
    TookIn (pnSpaceToLevel id)
      (cryptoData (continuing (c.cryptoRecvOffset (pnSpaceToLevel id)) [frame])) c
      (frameNext R id c frame) := by
  generalize hnext : frameNext R id c frame = after
  have hstep := frameNext_step R id c frame
  rw [hnext] at hstep
  cases hstep with
  | @refused offset data e hoffset hread =>
    have hlevel := Nat.le_of_lt_succ (level_lt id)
    simp [processFrame, feedCrypto, hoffset, hlevel, hread] at h
  | @fed offset data c'' hoffset hread hrun =>
    subst hoffset
    have hadvance := frameNext_offset R id hread
    rw [hnext] at hadvance
    have hdata : cryptoData (continuing (c.cryptoRecvOffset (pnSpaceToLevel id))
        [.crypto (c.cryptoRecvOffset (pnSpaceToLevel id)) data]) = data := by
      simp [continuing, cryptoData]
    rw [hdata]
    constructor
    · have hhistory : (c''.log (.processed id (.crypto (c.cryptoRecvOffset (pnSpaceToLevel id))
          data))).history = c.history ++ (.tlsRead (pnSpaceToLevel id) data ::
            (answers R (pnSpaceToLevel id) (R.readHs c.tls data).1 ++
              [.processed id (.crypto (c.cryptoRecvOffset (pnSpaceToLevel id)) data)])) := by
        simp [log, hrun.history_eq]
      rw [hhistory, accepted_append, ← List.singleton_append, accepted_append, accepted_append,
        accepted_answers]
      simp [accepted]
    · rw [hadvance, Function.update_self]
  | @skipped offset data hoffset =>
    have hdata : cryptoData (continuing (c.cryptoRecvOffset (pnSpaceToLevel id))
        [.crypto offset data]) = [] := by
      simp [continuing, cryptoData, hoffset]
    rw [hdata]
    exact TookIn.nothing rfl rfl rfl
  | closed _ | confirmed _ | stream => exact TookIn.nothing rfl rfl rfl
  | ignored hidle =>
    have hdata : cryptoData (continuing (c.cryptoRecvOffset (pnSpaceToLevel id)) [frame]) = [] := by
      cases frame with
      | crypto offset data => exact hidle.elim
      | _ => rfl
    rw [hdata]
    exact TookIn.nothing rfl rfl rfl

lemma tookIn_processFrames {id : PacketNumberSpace} {frames : List Frame} {c c' : Connection σ}
    (h : processFrames R id frames c = (ok (), c')) :
    TookIn (pnSpaceToLevel id)
      (cryptoData (continuing (c.cryptoRecvOffset (pnSpaceToLevel id)) frames)) c c' := by
  induction frames generalizing c with
  | nil =>
    cases h
    exact TookIn.nothing (List.append_nil _).symm rfl rfl
  | cons frame frames ih =>
    rcases hframe : c.processFrame R id frame with ⟨_ | _ | _, c₁⟩
    · have hfirst := tookIn_frameNext hframe
      rw [frameNext_of_ok hframe] at hfirst
      have hrest := ih (by simpa only [processFrames, hframe] using h)
      rw [hfirst.2] at hrest
      rw [continuing_single]
      exact hfirst.trans hrest
    · simp [processFrames, hframe] at h
    · simp [processFrames, hframe] at h

/-- The frames of a client's first packet, as the server decrypts them. -/
def firstFrames (R : Rustls σ) (datagram : Bytes) : Outcome ConnectionError (List Frame) := do
  let (hdr, _) ← (Packet.parseLongHeader datagram).mapErr .packet
  let keys ← ofOption .internal (R.initialKeys .server hdr.dstCid.bytes)
  let (frames, _) ← decryptInitial datagram hdr keys
  ok frames

lemma accept_reads {datagram : Bytes} {frames : List Frame} {server : Connection σ}
    (hframes : firstFrames R datagram = ok frames) (haccept : accept R datagram = ok server) :
    (∀ level, accepted level server.history = if level = 0 then clientHelloOf frames else []) ∧
      server.cryptoRecvOffset = Function.update (fun _ => 0) 0 (clientHelloOf frames).length := by
  obtain ⟨hdr, keys, frames', tls, c₁, ⟨⟨n, hparse⟩, hkeys, ⟨pn, hdecrypt⟩, -, -⟩, hrun, -, rfl⟩ :=
    accept_greeting haccept
  obtain rfl : frames' = frames := by
    simpa [firstFrames, hparse, hkeys, hdecrypt] using hframes
  have hhistory : (c₁.recordRecvPn .initial 0).history = .tlsRead 0 (clientHelloOf frames') ::
      (answers R 0 (R.readHs tls (clientHelloOf frames')).1 ++ [.received .initial 0]) := by
    rw [recordRecvPn, log, setSpace, hrun.history_eq]
    rfl
  refine ⟨fun level => ?_, rfl⟩
  rw [hhistory, ← List.singleton_append, accepted_append, accepted_append, accepted_answers]
  simp [accepted, eq_comm]

/-- Both readers give TLS the same bytes, and count as many, on frames that read alike. -/
theorem hello_read_alike {datagram : Bytes} {frames : List Frame} {server : Connection σ}
    {c c' : Connection τ} (hframes : firstFrames R datagram = ok frames)
    (haccept : accept R datagram = ok server) (hstart : c.cryptoRecvOffset 0 = 0)
    (hprocess : processFrames R' .initial frames c = (ok (), c')) :
    (accepted 0 c'.history = accepted 0 c.history ++ accepted 0 server.history ∧
      c'.cryptoRecvOffset 0 = server.cryptoRecvOffset 0) ↔ ReadAlike frames := by
  have hlevel : pnSpaceToLevel .initial = 0 := rfl
  have htook := tookIn_processFrames hprocess
  obtain ⟨hread, hoffset⟩ := accept_reads hframes haccept
  rw [hlevel, hstart] at htook
  rw [htook.1, htook.2, hread, if_pos rfl, hoffset, Function.update_self, hstart, Nat.zero_add,
    clientHelloOf_eq, ← starting_eq_continuing_iff, List.append_right_inj]
  constructor
  · intro hsame
    exact hsame.1.symm
  · intro hsame
    exact ⟨hsame.symm, by rw [hsame]⟩

def halves : List Frame := [.crypto 0 [1], .crypto 1 [9]]

/-- The server that a client's first packet with the frames creates. -/
def helloServer (frames : List Frame) : Connection Flights :=
  (accept (scripted serverFlights) (plainLong .initial 0 frames)).getD (plainServer serverFlights)

/-- A server that has not seen its ClientHello. -/
def unread : Connection Flights :=
  fresh .server .handshaking serverFlights 1 [0x50] [0x51] (nullKeys plainMask)

/-- The frames of the packet, with its padding. -/
def paddedHalves : List Frame := halves ++ List.replicate 12 .padding

/-- The halves are not read alike, as the runs of the two readers show. -/
theorem hello_read_alike_halves : ¬ ReadAlike paddedHalves := by
  intro h
  have hframes : firstFrames (scripted serverFlights) (plainLong .initial 0 halves) =
      ok paddedHalves := by decide +kernel
  have haccept : accept (scripted serverFlights) (plainLong .initial 0 halves) =
      ok (helloServer halves) := eq_ok_getD (by decide +kernel) _
  have hprocess : processFrames (scripted serverFlights) .initial paddedHalves unread =
      (ok (), (processFrames (scripted serverFlights) .initial paddedHalves unread).2) :=
    Prod.ext (by decide +kernel) rfl
  have hsame := (hello_read_alike hframes haccept rfl hprocess).mpr h
  exact absurd hsame.2 (by decide +kernel)

theorem split_hello_halved :
    firstFrames (scripted serverFlights) (plainLong .initial 0 halves) = ok paddedHalves ∧
      accept (scripted serverFlights) (plainLong .initial 0 halves) = ok (helloServer halves) ∧
      accepted 0 (helloServer halves).history = [1] ∧
      (helloServer halves).cryptoRecvOffset 0 = 1 ∧
      (processFrames (scripted serverFlights) .initial paddedHalves unread).1 = ok () ∧
      accepted 0 (processFrames (scripted serverFlights) .initial paddedHalves unread).2.history =
        [1, 9] ∧
      (processFrames (scripted serverFlights) .initial paddedHalves unread).2.cryptoRecvOffset 0 =
        2 :=
  ⟨by decide +kernel, eq_ok_getD (by decide +kernel) _, by decide +kernel, by decide +kernel,
    by decide +kernel, by decide +kernel, by decide +kernel⟩

end Connection
end DeerQuic
