import DeerQuic.Levels

/-!
# CRYPTO offsets

The CRYPTO frames of a level should tile what TLS wrote for it. Each of them is sent at
offset 0, so they do as long as each level is sent in a single packet, and that packet
leaves.
-/

namespace DeerQuic

open Outcome Protection Transition

/-- What TLS wrote while it was at this level, having started at level `n`. -/
def producedFrom (level : Nat) : Nat → List Event → Bytes
  | _, [] => []
  | n, .tlsWrite _ data change :: es =>
    (if n = level then data else []) ++
      producedFrom level (if change.isSome then n + 1 else n) es
  | n, _ :: es => producedFrom level n es

def produced (level : Nat) (events : List Event) : Bytes := producedFrom level 0 events

/-- The CRYPTO frames of the packets that left, with their offsets. -/
def sentChunks (id : PacketNumberSpace) (events : List Event) : List (Nat × Bytes) :=
  events.flatMap fun
    | .sent id' _ frames =>
      if id' = id then
        frames.filterMap fun
          | .crypto offset data => some (offset, data)
          | _ => none
      else []
    | _ => []

def chunkData (chunks : List (Nat × Bytes)) : Bytes := chunks.flatMap Prod.snd

/-- Each chunk starts where the one before it ends, the first at `start`. -/
def Tiles : Nat → List (Nat × Bytes) → Prop
  | _, [] => True
  | start, (offset, data) :: chunks => offset = start ∧ Tiles (start + data.length) chunks

lemma tiles_concat (start : Nat) (chunks : List (Nat × Bytes)) (offset : Nat) (data : Bytes) :
    Tiles start (chunks ++ [(offset, data)]) ↔
      Tiles start chunks ∧ offset = start + (chunkData chunks).length := by
  induction chunks generalizing start with
  | nil => simp [Tiles, chunkData]
  | cons chunk chunks ih =>
    simp only [List.cons_append, Tiles, ih, and_assoc]
    simp [chunkData, Nat.add_assoc]

lemma producedFrom_append (level n : Nat) (events more : List Event) :
    producedFrom level n (events ++ more) =
      producedFrom level n events ++ producedFrom level (n + keyChanges events) more := by
  induction events generalizing n with
  | nil => simp [producedFrom, keyChanges]
  | cons e events ih =>
    cases e with
    | tlsWrite l data change =>
      cases change <;> simp [producedFrom, ih, keyChanges, Nat.add_assoc, Nat.add_comm 1]
    | _ => simp [producedFrom, ih, keyChanges]

/-- As long as the levels are right, asking for a level is TLS being at it. -/
lemma written_eq_produced {events : List Event} (h : AtLevel events) (level : Nat) :
    written level events = produced level events := by
  induction events using List.reverseRecOn with
  | nil => rfl
  | append_singleton events e ih =>
    have hold : AtLevel events := (each_concat.mp h).1
    rw [written_append, produced, producedFrom_append, ih hold]
    congr 1
    cases e with
    | tlsWrite l data change =>
      have hlevel := ((Connection.atLevel_write l data change).mp h).2
      by_cases hdata : data = []
      · simp [written, producedFrom, hdata]
      · simp [written, producedFrom, hlevel hdata]
    | _ => rfl

namespace Connection

variable {σ : Type} {R : Rustls σ}

/-- Per space: the chunks that left tile what TLS wrote, up to what still waits. -/
def CryptoExact (c : Connection σ) : Prop :=
  ∀ id, Tiles 0 (sentChunks id c.history) ∧
    chunkData (sentChunks id c.history) ++ c.pendingCrypto (pnSpaceToLevel id) =
      produced (pnSpaceToLevel id) c.history

/-- A packet with CRYPTO data leaves and is the first of its space with such data. -/
def CryptoOnce (c : Connection σ) : Op → Prop
  | .egest bufLen => c.state ≠ .closed → ∀ id, c.firstBusy = some id →
      c.pendingCrypto (pnSpaceToLevel id) ≠ [] →
      c.Leaves bufLen id ∧ chunkData (sentChunks id c.history) = []
  | _ => True

/-- Per space: all that was taken from the queue has left, in tiles. -/
def TakenSent (events : List Event) : Prop :=
  ∀ id, Tiles 0 (sentChunks id events) ∧
    chunkData (sentChunks id events) = taken (pnSpaceToLevel id) events

lemma cryptoExact_iff {c : Connection σ} (hqueued : Queued c) (hlevel : AtLevel c.history) :
    CryptoExact c ↔ TakenSent c.history := by
  refine forall_congr' fun id => and_congr_right fun _ => ?_
  rw [← written_eq_produced hlevel, ← hqueued, List.append_cancel_right_eq]

lemma sentChunks_append (id : PacketNumberSpace) (events more : List Event) :
    sentChunks id (events ++ more) = sentChunks id events ++ sentChunks id more := by
  simp [sentChunks]

/-- Events that neither build nor send. -/
lemma unsent {es : List Event} (h : ∀ e ∈ es, e.Inbound ∨ (∃ data, e = .queued data) ∨
    ∃ bufLen data, e = .delivered bufLen data) :
    (∀ id, sentChunks id es = []) ∧ ∀ level, taken level es = [] := by
  constructor <;> intro _ <;> refine List.flatMap_eq_nil_iff.mpr fun e he => ?_ <;>
    rcases h e he with hin | ⟨data, rfl⟩ | ⟨bufLen, data, rfl⟩
  all_goals first | rfl | (cases e <;> first | rfl | exact hin.elim)

lemma chunks_framesOf (c : Connection σ) (id : PacketNumberSpace) (pn : Nat) :
    sentChunks id [.sent id pn (c.framesOf id)] =
      if c.pendingCrypto (pnSpaceToLevel id) = [] then []
      else [(0, c.pendingCrypto (pnSpaceToLevel id))] := by
  simp [sentChunks, List.filterMap_eq_flatMap_toList, flatMap_framesOf, ackFrame]

lemma taken_built (c : Connection σ) (id id' : PacketNumberSpace) :
    taken (pnSpaceToLevel id') (c.built id).history =
      taken (pnSpaceToLevel id') c.history ++
        if id' = id then c.pendingCrypto (pnSpaceToLevel id) else [] := by
  rw [(built_same c id).2.2.2, taken_append]
  by_cases hid : id' = id
  · subst hid
    simp [taken, cryptoData_framesOf]
  · have hlevel : pnSpaceToLevel id ≠ pnSpaceToLevel id' := fun h => hid (level_inj h).symm
    simp [taken, hid, hlevel]

lemma sentChunks_built (c : Connection σ) (id id' : PacketNumberSpace) :
    sentChunks id' (c.built id).history = sentChunks id' c.history := by
  rw [(built_same c id).2.2.2, sentChunks_append]
  simp [sentChunks]

lemma sentChunks_sent (c : Connection σ) (id id' : PacketNumberSpace) :
    sentChunks id' (c.sent id).history =
      sentChunks id' c.history ++
        if id' = id ∧ c.pendingCrypto (pnSpaceToLevel id) ≠ [] then
          [(0, c.pendingCrypto (pnSpaceToLevel id))]
        else [] := by
  change sentChunks id' ((c.built id).history ++ [_]) = _
  rw [sentChunks_append, sentChunks_built]
  by_cases hid : id' = id
  · subst hid
    rw [chunks_framesOf]
    by_cases hcrypto : c.pendingCrypto (pnSpaceToLevel id') = [] <;> simp [hcrypto]
  · simp [sentChunks, hid, Ne.symm hid]

lemma taken_sent (c : Connection σ) (id id' : PacketNumberSpace) :
    taken (pnSpaceToLevel id') (c.sent id).history =
      taken (pnSpaceToLevel id') c.history ++
        if id' = id then c.pendingCrypto (pnSpaceToLevel id) else [] := by
  change taken _ ((c.built id).history ++ [_]) = _
  rw [taken_append, ← taken_built]
  exact List.append_nil _

lemma takenSent_unsent {events es : List Event} (h : TakenSent events)
    (hes : ∀ e ∈ es, e.Inbound ∨ (∃ data, e = .queued data) ∨
      ∃ bufLen data, e = .delivered bufLen data) : TakenSent (events ++ es) := by
  obtain ⟨hchunks, htaken⟩ := unsent hes
  intro id
  rw [sentChunks_append, taken_append, hchunks, htaken, List.append_nil, List.append_nil]
  exact h id

/-- A packet that leaves takes the queue along at offset 0. -/
lemma takenSent_sent_iff {c : Connection σ} (h : TakenSent c.history) (id : PacketNumberSpace) :
    TakenSent (c.sent id).history ↔
      (c.pendingCrypto (pnSpaceToLevel id) ≠ [] → chunkData (sentChunks id c.history) = []) := by
  simp only [TakenSent, sentChunks_sent, taken_sent]
  constructor
  · intro hall hcrypto
    obtain ⟨htiles, _⟩ := hall id
    rw [if_pos ⟨rfl, hcrypto⟩, tiles_concat] at htiles
    exact List.length_eq_zero_iff.mp (by omega)
  · intro hone id'
    obtain ⟨htiles, hdata⟩ := h id'
    by_cases hid : id' = id
    · subst hid
      by_cases hcrypto : c.pendingCrypto (pnSpaceToLevel id') = []
      · simpa [hcrypto] using h id'
      · have hfirst := hone hcrypto
        rw [if_pos ⟨rfl, hcrypto⟩, if_pos rfl, tiles_concat, hfirst, ← hdata, hfirst]
        refine ⟨⟨htiles, rfl⟩, ?_⟩
        rw [chunkData, List.flatMap_append, ← chunkData, hfirst]
        simp
    · simpa [hid] using h id'

/-- A packet that does not leave loses the queue. -/
lemma takenSent_built_iff {c : Connection σ} (h : TakenSent c.history) (id : PacketNumberSpace) :
    TakenSent (c.built id).history ↔ c.pendingCrypto (pnSpaceToLevel id) = [] := by
  simp only [TakenSent, sentChunks_built, taken_built]
  constructor
  · intro hall
    have hdata := (hall id).2
    rw [if_pos rfl, (h id).2] at hdata
    exact List.append_right_eq_self.mp hdata.symm
  · intro hcrypto id'
    by_cases hid : id' = id
    · subst hid
      simpa [hcrypto] using h id'
    · simpa [hid] using h id'

lemma takenSent_egest_iff {c : Connection σ} (h : TakenSent c.history) (bufLen : Nat) :
    TakenSent (next R c (.egest bufLen)).history ↔ CryptoOnce c (.egest bufLen) := by
  by_cases hidle : c.state = .closed ∨ c.firstBusy = none
  · have hnext : next R c (.egest bufLen) = c := egest_idle bufLen hidle
    rw [hnext]
    refine iff_of_true h fun hopened id hbusy => ?_
    rw [hidle.resolve_left hopened] at hbusy
    cases hbusy
  · obtain ⟨hopened, hbusy⟩ := not_or.mp hidle
    obtain ⟨id, hbusy⟩ := Option.ne_none_iff_exists'.mp hbusy
    obtain ⟨hsentNext, hbuiltNext⟩ := egest_next bufLen hopened hbusy
    have hcond : CryptoOnce c (.egest bufLen) ↔ (c.pendingCrypto (pnSpaceToLevel id) ≠ [] →
        c.Leaves bufLen id ∧ chunkData (sentChunks id c.history) = []) := by
      refine ⟨fun hc => hc hopened id hbusy, fun hc _ id' hbusy' => ?_⟩
      obtain rfl := Option.some.inj (hbusy.symm.trans hbusy')
      exact hc
    rw [hcond]
    by_cases hleaves : c.Leaves bufLen id
    · have hnext : next R c (.egest bufLen) = c.sent id := hsentNext hleaves
      rw [hnext, takenSent_sent_iff h]
      exact forall_congr' fun _ => (and_iff_right hleaves).symm
    · have hnext : next R c (.egest bufLen) = c.built id := hbuiltNext hleaves
      rw [hnext, takenSent_built_iff h]
      refine ⟨fun hcrypto hne => absurd hcrypto hne, fun hone => ?_⟩
      by_contra hcrypto
      exact hleaves (hone hcrypto).1

lemma cryptoExact_next_iff {c : Connection σ} (hqueued : Queued c) (hlevel : AtLevel c.history)
    (hexact : CryptoExact c) {op : Op} (hop : RightLevelStep R c op) :
    CryptoExact (next R c op) ↔ CryptoOnce c op := by
  have hqueued' := queued_next (R := R) op hqueued
  have hlevel' := (atLevel_next_iff hlevel op).mpr hop
  have hsent := (cryptoExact_iff hqueued hlevel).mp hexact
  rw [cryptoExact_iff hqueued' hlevel']
  cases op with
  | ingest buf =>
    obtain ⟨es, hes, hin⟩ := ingest_history R c buf
    have hnext : (next R c (.ingest buf)).history = c.history ++ es := hes
    rw [hnext]
    exact iff_of_true (takenSent_unsent hsent fun e he => .inl (hin e he)) trivial
  | egest bufLen => exact takenSent_egest_iff hsent bufLen
  | sendData data =>
    refine iff_of_true (takenSent_unsent hsent fun e he => ?_) trivial
    exact .inr (.inl ⟨data, List.mem_singleton.mp he⟩)
  | recvData bufLen =>
    refine iff_of_true (takenSent_unsent hsent fun e he => ?_) trivial
    exact .inr (.inr ⟨bufLen, _, List.mem_singleton.mp he⟩)

lemma cryptoExact_started {c : Connection σ} (h : Started R c) : CryptoExact c := by
  rw [cryptoExact_iff (queued_started h) (atLevel_started h)]
  cases h with
  | connect _ _ hconnect =>
    obtain ⟨_, _, hello, _, _, _, rfl⟩ := connect_eq hconnect
    intro id
    cases id <;> simp [sentChunks, taken, cryptoData, chunkData, Tiles, pnSpaceToLevel]
  | accept haccept =>
    have hinbound : ∀ e ∈ c.history, e.Inbound ∨ (∃ data, e = .queued data) ∨
        ∃ bufLen data, e = .delivered bufLen data := by
      intro e he
      rcases accept_history haccept he with ⟨_, _, rfl⟩ | ⟨_, _, _, rfl⟩ | rfl <;>
        exact .inl trivial
    obtain ⟨hchunks, htaken⟩ := unsent hinbound
    intro id
    rw [hchunks, htaken]
    exact ⟨trivial, rfl⟩

/-- In runs in which TLS output is queued under the right level, the CRYPTO frames tile it as
long as each space sends CRYPTO data in one packet, which leaves, and not otherwise. -/
theorem crypto_offsets_iff {s : Connection σ} (hs : Started R s) {ops : List Op}
    (hright : Along (next R) (RightLevelStep R) s ops) :
    Always (next R) CryptoExact s ops ↔ Along (next R) CryptoOnce s ops :=
  always_iff_along (I := fun c => Queued c ∧ AtLevel c.history)
    (fun _ op h hop => ⟨queued_next op h.1, (atLevel_next_iff h.2 op).mpr hop⟩)
    (fun _ _ h hop hexact => cryptoExact_next_iff h.1 h.2 hexact hop)
    ⟨queued_started hs, atLevel_started hs⟩ (cryptoExact_started hs) hright

/-- The two flights of a server, in two packets. -/
theorem crypto_offsets_iff_server :
    Always (next (scripted serverFlights)) CryptoExact (plainServer serverFlights)
      [.egest 2048, .egest 2048] := by
  have hfirst : (plainServer serverFlights).firstBusy = some .initial := by decide +kernel
  have hsecond : (next (scripted serverFlights) (plainServer serverFlights)
      (.egest 2048)).firstBusy = some .handshake := by
    decide +kernel
  have hright : Along (next (scripted serverFlights)) (RightLevelStep (scripted serverFlights))
      (plainServer serverFlights) [.egest 2048, .egest 2048] := ⟨trivial, trivial, trivial⟩
  refine (crypto_offsets_iff (plainServer_started (by decide +kernel)) hright).mpr
    ⟨fun _ id hid _ => ?_, fun _ id hid _ => ?_, trivial⟩
  · obtain rfl := Option.some.inj (hfirst.symm.trans hid)
    exact ⟨by decide +kernel, by decide +kernel⟩
  · obtain rfl := Option.some.inj (hsecond.symm.trans hid)
    exact ⟨by decide +kernel, by decide +kernel⟩

/-- A client that is asked to retry sends its second ClientHello at offset 0 again. -/
theorem second_flight_at_zero :
    Started (scripted [([1], none), ([5], none)]) (plainClient [([1], none), ([5], none)]) ∧
      ¬ CryptoExact (run (next (scripted [([1], none), ([5], none)]))
        (plainClient [([1], none), ([5], none)])
        [.ingest (plainLong .initial 0 [.crypto 0 [2]]), .egest 2048]) := by
  refine ⟨plainClient_started (by decide +kernel), fun h => ?_⟩
  have hchunks : sentChunks .initial (run (next (scripted [([1], none), ([5], none)]))
      (plainClient [([1], none), ([5], none)])
      [.ingest (plainLong .initial 0 [.crypto 0 [2]]), .egest 2048]).history =
      [(0, [1]), (0, [5])] := by
    decide +kernel
  generalize run (next (scripted [([1], none), ([5], none)]))
    (plainClient [([1], none), ([5], none)])
    [.ingest (plainLong .initial 0 [.crypto 0 [2]]), .egest 2048] = c at h hchunks
  have htiles := (h .initial).1
  rw [hchunks] at htiles
  exact absurd htiles.2.1 (by decide)

end Connection
end DeerQuic
