import DeerQuic.Egest
import Mathlib.Data.Int.ConditionallyCompleteOrder
import Mathlib.Order.ConditionallyCompleteLattice.Finset
import Mathlib.Data.List.Basic

/-!
# Acknowledgements

An ACK frame lists ranges of packet numbers downwards from the largest. The one built here
has a single range, from the largest pending number down over as many numbers as are pending.
It denotes what was received exactly when the pending numbers fill a range, each once.
-/

namespace DeerQuic

open Outcome Protection Transition

/-- RFC 9000, section 19.3.1. The gap of the first range is not on the wire; a later range
ends two and its gap below the smallest number of the one before it. -/
def ackSet (largest : Int) : List AckRange → Set Int
  | [] => ∅
  | r :: rs => Set.Icc (largest - r.range) largest ∪
    match rs with
    | [] => ∅
    | next :: _ => ackSet (largest - r.range - next.gap - 2) rs

def Frame.acknowledged : Frame → Option (Set Int)
  | .ack largestAck _ ranges _ => some (ackSet largestAck ranges)
  | _ => none

def Frame.isAck : Frame → Bool
  | .ack _ _ _ _ => true
  | _ => false

/-- The numbers of the list, as a set. -/
def numbers (pns : List Nat) : Set Int := {x | ∃ pn ∈ pns, x = pn}

/-- The list fills a range of numbers, each of them once, in some order. -/
def Consecutive (pns : List Nat) : Prop := ∃ low, pns.Perm (List.range' low pns.length)

/-- As many numbers as a range has, which contain the range, are the range. -/
lemma consecutive_of_covers {pns : List Nat} {low : Nat}
    (h : ∀ n, low ≤ n → n < low + pns.length → n ∈ pns) : Consecutive pns := by
  have hsub : List.range' low pns.length ⊆ pns := by
    intro n hn
    rw [List.mem_range'_1] at hn
    exact h n hn.1 hn.2
  have hperm := List.subperm_of_subset List.nodup_range' hsub
  exact ⟨low, (hperm.perm_of_length_le (by simp)).symm⟩

lemma max?_getD_spec {pns : List Nat} (h : pns ≠ []) :
    pns.max?.getD 0 ∈ pns ∧ ∀ n ∈ pns, n ≤ pns.max?.getD 0 := by
  obtain ⟨m, hm⟩ := Option.ne_none_iff_exists'.mp (mt List.max?_eq_none_iff.mp h)
  rw [hm, Option.getD_some]
  exact List.max?_eq_some_iff.mp hm

/-- The single range is the set of pending numbers exactly when they are consecutive. -/
theorem ackFrame_exact_iff {pns : List Nat} (h : pns ≠ []) :
    (Connection.ackFrame pns).acknowledged = some (numbers pns) ↔ Consecutive pns := by
  obtain ⟨hmem, hmax⟩ := max?_getD_spec h
  have hlen : 1 ≤ pns.length := List.length_pos_iff.mpr h
  have hset : (Connection.ackFrame pns).acknowledged =
      some (Set.Icc ((pns.max?.getD 0 : Int) - (pns.length - 1 : Nat)) (pns.max?.getD 0)) := by
    simp [Connection.ackFrame, Frame.acknowledged, ackSet]
  generalize pns.max?.getD 0 = top at hmem hmax hset
  rw [hset, Option.some.injEq]
  constructor
  · intro hsame
    have hbottom : (top : Int) - (pns.length - 1 : Nat) ∈ numbers pns := by
      rw [← hsame]
      exact Set.mem_Icc.mpr ⟨Int.le_refl _, by omega⟩
    obtain ⟨low, _, hlow⟩ := hbottom
    refine consecutive_of_covers fun n (hn : low ≤ n) hn' => ?_
    have hcovered : (n : Int) ∈ numbers pns := by
      rw [← hsame]
      exact Set.mem_Icc.mpr ⟨by omega, by omega⟩
    obtain ⟨m, hm, hnm⟩ := hcovered
    rwa [Int.ofNat_inj.mp hnm]
  · rintro ⟨low, hperm⟩
    have hrange : ∀ n, n ∈ pns ↔ low ≤ n ∧ n < low + pns.length := fun n => by
      rw [hperm.mem_iff, List.mem_range'_1]
    have htop : top = low + pns.length - 1 := by
      have hupper := hmax (low + pns.length - 1) ((hrange _).mpr ⟨by omega, by omega⟩)
      have hlower := (hrange top).mp hmem
      omega
    ext x
    rw [Set.mem_Icc]
    constructor
    · rintro ⟨hlow, hhigh⟩
      exact ⟨x.toNat, (hrange _).mpr ⟨by omega, by omega⟩, by omega⟩
    · rintro ⟨n, hn, rfl⟩
      have hn' := (hrange n).mp hn
      omega

def recordStep (id : PacketNumberSpace) (recorded : List Nat) : Event → List Nat
  | .received id' pn => if id' = id then recorded ++ [pn] else recorded
  | .sent id' _ frames => if id' = id ∧ frames.any Frame.isAck then [] else recorded
  | _ => recorded

/-- The numbers recorded in a space since its last ACK went out. -/
def recordedSince (id : PacketNumberSpace) (events : List Event) : List Nat :=
  events.foldl (recordStep id) []

/-- Every ACK that went out denotes exactly the numbers recorded since the one before. -/
def AcksExact (events : List Event) : Prop :=
  ∀ past id pn frames later, events = past ++ .sent id pn frames :: later →
    ∀ f ∈ frames, f.isAck = true → f.acknowledged = some (numbers (recordedSince id past))

lemma recordedSince_append (id : PacketNumberSpace) (events more : List Event) :
    recordedSince id (events ++ more) = more.foldl (recordStep id) (recordedSince id events) := by
  simp [recordedSince]

lemma acksExact_nil : AcksExact [] := by
  intro past id pn frames later heq
  simp at heq

lemma acksExact_iff_each {events : List Event} :
    AcksExact events ↔ Transition.Each (fun past e => ∀ id pn frames, e = .sent id pn frames →
      ∀ f ∈ frames, f.isAck = true → f.acknowledged = some (numbers (recordedSince id past)))
      events := by
  constructor
  · intro h past e later heq id pn frames hsent
    subst hsent
    exact h past id pn frames later heq
  · intro h past id pn frames later heq
    exact h past _ later heq id pn frames rfl

/-- Only the packet just sent is new. -/
lemma acksExact_append {events : List Event} {e : Event} :
    AcksExact (events ++ [e]) ↔
      AcksExact events ∧ ∀ id pn frames, e = .sent id pn frames → ∀ f ∈ frames, f.isAck = true →
        f.acknowledged = some (numbers (recordedSince id events)) := by
  rw [acksExact_iff_each, Transition.each_concat, ← acksExact_iff_each]

/-- Neither a received packet nor a sent one. -/
def Event.Silent : Event → Prop
  | .received _ _ => False
  | .sent _ _ _ => False
  | _ => True

lemma recordedSince_silent {events more : List Event} (h : ∀ e ∈ more, e.Silent)
    (id : PacketNumberSpace) : recordedSince id (events ++ more) = recordedSince id events := by
  rw [recordedSince_append]
  generalize recordedSince id events = recorded
  induction more with
  | nil => rfl
  | cons e more ih =>
    have he : recordStep id recorded e = recorded := by
      have hsilent := h e List.mem_cons_self
      cases e <;> first | rfl | exact hsilent.elim
    rw [List.foldl_cons, he]
    exact ih fun e he => h e (List.mem_cons_of_mem _ he)

lemma acksExact_silent {events more : List Event} (h : ∀ e ∈ more, e.Silent) :
    AcksExact (events ++ more) ↔ AcksExact events := by
  induction more generalizing events with
  | nil => rw [List.append_nil]
  | cons e more ih =>
    have he : AcksExact (events ++ [e]) ↔ AcksExact events := by
      rw [acksExact_append]
      refine and_iff_left fun id pn frames heq => ?_
      have hsilent := h e List.mem_cons_self
      rw [heq] at hsilent
      exact hsilent.elim
    have hsplit : events ++ e :: more = (events ++ [e]) ++ more := by simp
    rw [hsplit, ih fun e he => h e (List.mem_cons_of_mem _ he), he]

namespace Connection

variable {σ : Type} {R : Rustls σ}

/-- The pending numbers are those received since the last ACK. -/
def Pending (c : Connection σ) : Prop :=
  ∀ id, recordedSince id c.history = (c.spaces id).pendingAcks

/-- A step that neither receives nor sends. -/
def SilentStep (c c' : Connection σ) : Prop :=
  (∃ es, c'.history = c.history ++ es ∧ ∀ e ∈ es, e.Silent) ∧
    ∀ id, (c'.spaces id).pendingAcks = (c.spaces id).pendingAcks

lemma SilentStep.refl (c : Connection σ) : SilentStep c c :=
  ⟨⟨[], (List.append_nil _).symm, fun _ h => absurd h List.not_mem_nil⟩, fun _ => rfl⟩

lemma SilentStep.trans {c c' c'' : Connection σ} (h : SilentStep c c') (h' : SilentStep c' c'') :
    SilentStep c c'' := by
  obtain ⟨⟨es, hes, hsilent⟩, hacks⟩ := h
  obtain ⟨⟨es', hes', hsilent'⟩, hacks'⟩ := h'
  refine ⟨⟨es ++ es', by rw [hes', hes, List.append_assoc], fun e he => ?_⟩,
    fun id => (hacks' id).trans (hacks id)⟩
  exact (List.mem_append.mp he).elim (hsilent e) (hsilent' e)

lemma SilentStep.log {c c' : Connection σ} (h : SilentStep c c') {e : Event} (he : e.Silent) :
    SilentStep c (c'.log e) :=
  h.trans ⟨⟨[e], rfl, fun _ hmem => List.mem_singleton.mp hmem ▸ he⟩, fun _ => rfl⟩

lemma SilentStep.pending {c c' : Connection σ} (h : SilentStep c c') (hc : Pending c) :
    Pending c' := by
  obtain ⟨⟨es, hes, hsilent⟩, hacks⟩ := h
  intro id
  rw [hes, recordedSince_silent hsilent, hacks, hc]

lemma SilentStep.acksExact_iff {c c' : Connection σ} (h : SilentStep c c') :
    AcksExact c'.history ↔ AcksExact c.history := by
  obtain ⟨⟨es, hes, hsilent⟩, _⟩ := h
  rw [hes, acksExact_silent hsilent]

lemma TlsRun.silentStep {c c' : Connection σ} {es : List Event} (h : TlsRun c es c') :
    SilentStep c c' := by
  refine ⟨⟨es, h.history_eq, fun e he => ?_⟩, fun id => (h.space_eq id).1⟩
  rcases h.events he with ⟨_, _, rfl⟩ | ⟨_, _, _, rfl⟩ <;> trivial

lemma frameNext_silent (id : PacketNumberSpace) (c : Connection σ) (frame : Frame) :
    SilentStep c (frameNext R id c frame) := by
  generalize hnext : frameNext R id c frame = c'
  have hstep := frameNext_step R id c frame
  rw [hnext] at hstep
  cases hstep with
  | refused _ _ => exact (SilentStep.refl c).trans ⟨⟨[], by simp, by simp⟩, fun _ => rfl⟩
  | fed _ _ hrun => exact hrun.silentStep.log trivial
  | skipped _ | closed _ | confirmed _ | stream | ignored _ =>
    exact ⟨⟨_, rfl, fun e he => List.mem_singleton.mp he ▸ trivial⟩, fun _ => rfl⟩

/-- A packet that opens is recorded in its own space, whatever was received before. -/
lemma pendingAcks_ingest_all {c : Connection σ} {buf : Bytes} {id : PacketNumberSpace} {pn : Nat}
    {frames : List Frame} (hstate : c.state ≠ .closed)
    (hopen : c.openPacket buf = ok (id, pn, frames)) (id' : PacketNumberSpace) :
    ((c.ingest R buf).2.spaces id').pendingAcks =
      (c.spaces id').pendingAcks ++ if id' = id then [pn] else [] := by
  rw [ingest_of_open R hstate hopen]
  apply processFrames_always R (P := fun c' => (c'.spaces id').pendingAcks =
    (c.spaces id').pendingAcks ++ if id' = id then [pn] else [])
  · intro c' frame h
    exact ((frameNext_silent id c' frame).2 id').trans h
  · exact pendingAcks_recorded c id id' pn

lemma pendingAcks_ingest {c : Connection σ} {buf : Bytes} {id : PacketNumberSpace} {pn : Nat}
    {frames : List Frame} (hstate : c.state ≠ .closed)
    (hopen : c.openPacket buf = ok (id, pn, frames)) :
    ((c.ingest R buf).2.spaces id).pendingAcks = (c.spaces id).pendingAcks ++ [pn] := by
  rw [pendingAcks_ingest_all hstate hopen, if_pos rfl]

lemma pending_recorded {c : Connection σ} (h : Pending c) (id : PacketNumberSpace) (pn : Nat) :
    Pending (c.recordRecvPn id pn) := by
  intro id'
  have hrecorded : recordedSince id' (c.recordRecvPn id pn).history =
      if id = id' then (c.spaces id').pendingAcks ++ [pn] else (c.spaces id').pendingAcks := by
    simp only [recordRecvPn, log, setSpace, recordedSince_append, h id']
    rfl
  rw [hrecorded, pendingAcks_recorded]
  by_cases hid : id' = id
  · rw [if_pos hid.symm, if_pos hid]
  · rw [if_neg (Ne.symm hid), if_neg hid, List.append_nil]

lemma acksExact_recorded (c : Connection σ) (id : PacketNumberSpace) (pn : Nat) :
    AcksExact (c.recordRecvPn id pn).history ↔ AcksExact c.history := by
  change AcksExact (c.history ++ [_]) ↔ _
  rw [acksExact_append]
  exact and_iff_left fun _ _ _ heq => by cases heq

lemma ingest_pending {c : Connection σ} (h : Pending c) (buf : Bytes) :
    Pending (c.ingest R buf).2 ∧
      (AcksExact (c.ingest R buf).2.history ↔ AcksExact c.history) := by
  refine ingest_always (P := fun c' => Pending c' ∧ (AcksExact c'.history ↔ AcksExact c.history))
    R ?_ ?_ ⟨h, Iff.rfl⟩ buf
  · rintro c' id pn ⟨hpending, hexact⟩
    exact ⟨pending_recorded hpending id pn, (acksExact_recorded c' id pn).trans hexact⟩
  · rintro id c' frame ⟨hpending, hexact⟩
    have hsilent := frameNext_silent (R := R) id c' frame
    exact ⟨hsilent.pending hpending, hsilent.acksExact_iff.trans hexact⟩

/-- A packet that carries an ACK leaves. -/
def AckLeaves (c : Connection σ) : Op → Prop
  | .egest bufLen => c.state ≠ .closed → ∀ id, c.firstBusy = some id →
      (c.spaces id).pendingAcks ≠ [] → c.Leaves bufLen id
  | _ => True

/-- The numbers that a packet acknowledges are consecutive. -/
def AckConsecutive (c : Connection σ) : Op → Prop
  | .egest _ => c.state ≠ .closed → ∀ id, c.firstBusy = some id →
      (c.spaces id).pendingAcks ≠ [] → Consecutive (c.spaces id).pendingAcks
  | _ => True

lemma isAck_framesOf {c : Connection σ} {id : PacketNumberSpace} {f : Frame} :
    f ∈ c.framesOf id ∧ f.isAck = true ↔
      (c.spaces id).pendingAcks ≠ [] ∧ f = ackFrame (c.spaces id).pendingAcks := by
  rw [mem_framesOf]
  constructor
  · rintro ⟨⟨_, rfl⟩ | ⟨hacks, rfl⟩ | ⟨_, rfl⟩ | ⟨_, rfl⟩, hack⟩
    · cases hack
    · exact ⟨hacks, rfl⟩
    · cases hack
    · cases hack
  · rintro ⟨hacks, rfl⟩
    exact ⟨.inr (.inl ⟨hacks, rfl⟩), rfl⟩

/-- Sending empties the list and the record alike. -/
lemma pending_sent {c : Connection σ} (h : Pending c) (id : PacketNumberSpace) :
    Pending (c.sent id) := by
  intro id'
  have hsent : recordedSince id' (c.sent id).history =
      recordStep id' (recordedSince id' (c.built id).history)
        (.sent id (c.spaces id).nextSendPn (c.framesOf id)) := by
    change recordedSince id' ((c.built id).history ++ [_]) = _
    rw [recordedSince_append]
    rfl
  have hbuilt : recordedSince id' (c.built id).history = (c.spaces id').pendingAcks := by
    rw [(built_same c id).2.2.2, recordedSince_silent (by simp [Event.Silent]), h]
  have hspace : ((c.sent id).spaces id').pendingAcks = ((c.built id).spaces id').pendingAcks := rfl
  rw [hsent, hbuilt, hspace, pendingAcks_built]
  by_cases hid : id' = id
  · subst hid
    by_cases hacks : (c.spaces id').pendingAcks = []
    · simp [recordStep, hacks]
    · have hany : (c.framesOf id').any Frame.isAck = true :=
        List.any_eq_true.mpr ⟨_, isAck_framesOf.mpr ⟨hacks, rfl⟩⟩
      simp [recordStep, hany]
  · rw [if_neg hid]
    exact if_neg fun hboth => hid hboth.1.symm

/-- A packet without an ACK, whether it leaves or not, changes nothing here. -/
lemma built_silent {c : Connection σ} {id : PacketNumberSpace} (h : (c.spaces id).pendingAcks = []) :
    SilentStep c (c.built id) := by
  refine ⟨⟨_, (built_same c id).2.2.2, by simp [Event.Silent]⟩, fun id' => ?_⟩
  rw [pendingAcks_built]
  split_ifs with hid
  · rw [hid, h]
  · rfl

lemma acksExact_sent {c : Connection σ} (h : Pending c) (id : PacketNumberSpace) :
    AcksExact (c.sent id).history ↔
      AcksExact c.history ∧
        ((c.spaces id).pendingAcks ≠ [] → Consecutive (c.spaces id).pendingAcks) := by
  have hbuilt : AcksExact (c.built id).history ↔ AcksExact c.history := by
    rw [(built_same c id).2.2.2]
    exact acksExact_silent (by simp [Event.Silent])
  have hrecorded : recordedSince id (c.built id).history = (c.spaces id).pendingAcks := by
    rw [(built_same c id).2.2.2, recordedSince_silent (by simp [Event.Silent]), h]
  change AcksExact ((c.built id).history ++ [_]) ↔ _
  rw [acksExact_append, hbuilt]
  refine and_congr_right fun _ => ?_
  constructor
  · intro hframes hacks
    obtain ⟨hmem, hack⟩ := isAck_framesOf.mpr ⟨hacks, rfl⟩
    have hexact := hframes id _ _ rfl _ hmem hack
    rw [hrecorded] at hexact
    exact (ackFrame_exact_iff hacks).mp hexact
  · intro hconsecutive id' pn frames heq f hf hack
    obtain ⟨rfl, rfl, rfl⟩ := Event.sent.inj heq
    obtain ⟨hacks, rfl⟩ := isAck_framesOf.mp ⟨hf, hack⟩
    rw [hrecorded]
    exact (ackFrame_exact_iff hacks).mpr (hconsecutive hacks)

lemma pending_next {c : Connection σ} (h : Pending c) {op : Op} (hop : AckLeaves c op) :
    Pending (next R c op) := by
  cases op with
  | ingest buf => exact (ingest_pending h buf).1
  | egest bufLen =>
    refine egest_induction bufLen h (fun id hopened hbusy hleaves => ?_)
      fun id _ _ _ => pending_sent h id
    have hacks : (c.spaces id).pendingAcks = [] := by
      by_contra hacks
      exact hleaves (hop hopened id hbusy hacks)
    exact (built_silent hacks).pending h
  | sendData data => exact ((SilentStep.refl c).log (e := .queued data) trivial).pending h
  | recvData bufLen =>
    exact ((SilentStep.refl c).log (e := .delivered bufLen _) trivial).pending h

lemma acksExact_next_iff {c : Connection σ} (h : Pending c) {op : Op} (hop : AckLeaves c op)
    (hexact : AcksExact c.history) :
    AcksExact (next R c op).history ↔ AckConsecutive c op := by
  have hsame : ∀ c', SilentStep c c' → AcksExact c'.history := fun c' hc' =>
    hc'.acksExact_iff.mpr hexact
  cases op with
  | ingest buf => exact iff_of_true ((ingest_pending h buf).2.mpr hexact) trivial
  | egest bufLen =>
    by_cases hidle : c.state = .closed ∨ c.firstBusy = none
    · simp only [next]
      rw [egest_idle bufLen hidle]
      refine iff_of_true hexact fun hopened id hbusy => ?_
      rw [hidle.resolve_left hopened] at hbusy
      cases hbusy
    · obtain ⟨hopened, hbusy⟩ := not_or.mp hidle
      obtain ⟨id, hbusy⟩ := Option.ne_none_iff_exists'.mp hbusy
      have hcond : AckConsecutive c (.egest bufLen) ↔
          ((c.spaces id).pendingAcks ≠ [] → Consecutive (c.spaces id).pendingAcks) := by
        refine ⟨fun hc => hc hopened id hbusy, fun hc _ id' hbusy' => ?_⟩
        obtain rfl := Option.some.inj (hbusy.symm.trans hbusy')
        exact hc
      obtain ⟨hsent, hbuilt⟩ := egest_next bufLen hopened hbusy
      simp only [next]
      rw [hcond]
      by_cases hleaves : c.Leaves bufLen id
      · rw [hsent hleaves, acksExact_sent h id]
        exact and_iff_right hexact
      · have hacks : (c.spaces id).pendingAcks = [] := by
          by_contra hacks
          exact hleaves (hop hopened id hbusy hacks)
        rw [hbuilt hleaves]
        exact iff_of_true (hsame _ (built_silent hacks)) fun hne => absurd hacks hne
  | sendData data =>
    exact iff_of_true (hsame _ ((SilentStep.refl c).log (e := .queued data) trivial)) trivial
  | recvData bufLen =>
    exact iff_of_true (hsame _ ((SilentStep.refl c).log (e := .delivered bufLen _) trivial)) trivial

lemma pending_started {c : Connection σ} (h : Started R c) :
    Pending c ∧ AcksExact c.history := by
  cases h with
  | connect _ _ hconnect =>
    obtain ⟨_, _, hello, change, _, _, rfl⟩ := connect_eq hconnect
    constructor
    · intro id
      cases id <;> rfl
    · change AcksExact ([.tlsWrite 0 hello change, .built .initial 0 [.crypto 0 hello]] ++
        [.sent .initial 0 [.crypto 0 hello]])
      rw [acksExact_append]
      have hsilent : AcksExact ([] ++
          [.tlsWrite 0 hello change, .built .initial 0 [.crypto 0 hello]]) :=
        (acksExact_silent (by simp [Event.Silent])).mpr acksExact_nil
      refine ⟨hsilent, ?_⟩
      intro id pn frames heq f hf hack
      obtain ⟨rfl, rfl, rfl⟩ := Event.sent.inj heq
      rw [List.mem_singleton.mp hf] at hack
      cases hack
  | accept haccept =>
    obtain ⟨_, _, _, _, _, _, c₁, hrun, _, rfl⟩ := accept_eq haccept
    have hsilent := hrun.silentStep
    exact ⟨pending_recorded (hsilent.pending fun id => by cases id <;> rfl) .initial 0,
      (acksExact_recorded c₁ .initial 0).mpr (hsilent.acksExact_iff.mpr acksExact_nil)⟩

/-- In runs in which packets with an ACK leave, every ACK denotes exactly the numbers recorded
since the one before as long as these are always consecutive, and not otherwise. -/
theorem acks_exact_iff {s : Connection σ} (hs : Started R s) {ops : List Op}
    (hleaves : Along (next R) AckLeaves s ops) :
    Always (next R) (fun c => AcksExact c.history) s ops ↔ Along (next R) AckConsecutive s ops :=
  always_iff_along (I := Pending) (fun _ _ h hop => pending_next h hop)
    (fun _ _ h hop hexact => acksExact_next_iff h hop hexact) (pending_started hs).1
    (pending_started hs).2 hleaves

/-- Packets 0 and 1 of the client are acknowledged together. -/
theorem acks_exact_iff_two :
    Always (next (scripted serverFlights)) (fun c => AcksExact c.history)
      (plainServer serverFlights) [.ingest (plainLong .initial 1 [.ping]), .egest 2048] := by
  have hbusy : (next (scripted serverFlights) (plainServer serverFlights)
      (.ingest (plainLong .initial 1 [.ping]))).firstBusy = some .initial := by
    decide +kernel
  have hleaves : Along (next (scripted serverFlights)) AckLeaves (plainServer serverFlights)
      [.ingest (plainLong .initial 1 [.ping]), .egest 2048] := by
    refine ⟨trivial, fun _ id hid _ => ?_, trivial⟩
    obtain rfl := Option.some.inj (hbusy.symm.trans hid)
    decide +kernel
  refine (acks_exact_iff (plainServer_started (by decide +kernel)) hleaves).mpr
    ⟨trivial, fun _ id hid _ => ?_, trivial⟩
  obtain rfl := Option.some.inj (hbusy.symm.trans hid)
  exact ⟨0, by decide +kernel⟩

set_option maxRecDepth 20000 in
/-- Packets 0 and 2 arrive; the ACK says 1 and 2. -/
theorem ack_covers_missing_packet :
    Started (scripted serverFlights) (plainServer serverFlights) ∧
      ¬ AcksExact (run (next (scripted serverFlights)) (plainServer serverFlights)
        [.ingest (plainLong .initial 2 [.ping]), .egest 2048]).history := by
  refine ⟨plainServer_started (by decide +kernel), fun hexact => ?_⟩
  have hack := hexact (run (next (scripted serverFlights)) (plainServer serverFlights)
      [.ingest (plainLong .initial 2 [.ping]), .egest 2048]).history.dropLast .initial 0
    [.crypto 0 [2], .ack 2 0 [⟨0, 1⟩] none] [] rfl (.ack 2 0 [⟨0, 1⟩] none) (by decide) rfl
  have hrecorded : recordedSince .initial (run (next (scripted serverFlights))
      (plainServer serverFlights)
      [.ingest (plainLong .initial 2 [.ping]), .egest 2048]).history.dropLast = [0, 2] := by
    decide +kernel
  have hzero : (0 : Int) ∈ numbers [0, 2] := ⟨0, by decide, rfl⟩
  rw [hrecorded] at hack
  rw [← Option.some.inj hack] at hzero
  simp [ackSet] at hzero

end Connection
end DeerQuic
