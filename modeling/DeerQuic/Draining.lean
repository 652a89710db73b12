import DeerQuic.Endpoint

/-!
# Egress drains

Without another operation in between, `egest` makes a packet for each space with something to send,
one more when HANDSHAKE_DONE lets the server send application data, and then none. The backlog
measures it: a packet that leaves makes it smaller. The loop of `flush_egress` is under the same
measure, whatever comes of its calls.
-/

namespace DeerQuic

open Outcome

namespace Connection

variable {σ : Type}

/-- The state that the call of this number meets, when `egest` is called again and again with these
buffer sizes. -/
def egestRun (c : Connection σ) (bufLens : Nat → Nat) : Nat → Connection σ
  | 0 => c
  | k + 1 => ((c.egestRun bufLens k).egest (bufLens k)).2

def egestOutput (c : Connection σ) (bufLens : Nat → Nat) (k : Nat) :
    Outcome ConnectionError Bytes :=
  ((c.egestRun bufLens k).egest (bufLens k)).1

/-- Every packet that a call sets out to make can be encrypted and fits the buffer of the call. -/
def Ample (c : Connection σ) (bufLens : Nat → Nat) : Prop :=
  ∀ k id, (c.egestRun bufLens k).firstBusy = some id → (c.egestRun bufLens k).Leaves (bufLens k) id

/-- Nothing waits that could be sent. -/
structure Drained (c : Connection σ) : Prop where
  spaces : ∀ id, (c.spaces id).hasKeys = true →
    c.pendingCrypto (pnSpaceToLevel id) = [] ∧ (c.spaces id).pendingAcks = []
  appData : c.state = .established → (c.spaces .applicationData).hasKeys = true →
    c.pendingAppData = []

/-- The first `n` calls return a packet each, all later ones return nothing and find nothing. -/
structure Settles (c : Connection σ) (bufLens : Nat → Nat) (n : Nat) : Prop where
  packets : ∀ k < n, ∃ packet, c.egestOutput bufLens k = ok packet ∧ packet ≠ []
  silence : ∀ k, n ≤ k → c.egestOutput bufLens k = ok [] ∧
    c.egestRun bufLens k = c.egestRun bufLens n
  drained : (c.egestRun bufLens n).Drained

lemma drained_of_idle {c : Connection σ} (h : c.firstBusy = none) : c.Drained := by
  have hidle : ∀ id, (c.spaces id).hasKeys = true → c.framesOf id = [] := by
    intro id hkeys
    have hquiet : ¬ c.Busy id := by
      have hall := List.find?_eq_none.mp h id (by cases id <;> simp)
      simpa using hall
    by_contra hne
    exact hquiet ⟨hkeys, hne⟩
  constructor
  · intro id hkeys
    have hframes := hidle id hkeys
    rw [framesOf_eq] at hframes
    simp only [List.append_eq_nil_iff, ite_eq_left_iff, reduceCtorEq, imp_false, not_not]
      at hframes
    exact hframes.1.1
  · intro hestablished hkeys
    have hframes := hidle .applicationData hkeys
    by_contra hdata
    have hmem := mem_framesOf.mpr (.inr (.inr (.inr ⟨⟨rfl, hestablished, hdata⟩, rfl⟩)))
    rw [hframes] at hmem
    cases hmem

lemma egest_none {c : Connection σ} (hopen : c.state ≠ .closed) (h : c.firstBusy = none)
    (bufLen : Nat) : c.egest bufLen = (ok [], c) := by
  rw [egest_eq, if_neg hopen, h]

lemma egest_leaves {c : Connection σ} {bufLen : Nat} {id : PacketNumberSpace}
    (hopen : c.state ≠ .closed) (hbusy : c.firstBusy = some id) (h : c.Leaves bufLen id) :
    ∃ packet, c.egest bufLen = (ok packet, c.sent id) ∧ packet ≠ [] := by
  obtain ⟨packet, hpacket, hfits⟩ := h
  refine ⟨packet, ?_, List.ne_nil_of_length_pos ((packetOf_safe c id).of_ok hpacket)⟩
  rw [egest_eq, if_neg hopen, hbusy]
  dsimp only
  rw [hpacket]
  exact if_neg (Nat.not_lt.mpr hfits)

lemma open_sent {c : Connection σ} (id : PacketNumberSpace) (hopen : c.state ≠ .closed) :
    (c.sent id).state ≠ .closed := by
  rw [(sent_same c id).2.1]
  split_ifs
  · simp
  · exact hopen

/-- The calls after the first are the calls on the state that it leaves. -/
lemma egestRun_succ (c : Connection σ) (bufLens : Nat → Nat) (k : Nat) :
    c.egestRun bufLens (k + 1) =
      (c.egest (bufLens 0)).2.egestRun (fun j => bufLens (j + 1)) k := by
  induction k with
  | zero => rfl
  | succ k ih =>
    rw [egestRun, ih]
    rfl

lemma egestOutput_succ (c : Connection σ) (bufLens : Nat → Nat) (k : Nat) :
    c.egestOutput bufLens (k + 1) =
      (c.egest (bufLens 0)).2.egestOutput (fun j => bufLens (j + 1)) k := by
  rw [egestOutput, egestRun_succ]
  rfl

lemma Ample.tail {c : Connection σ} {bufLens : Nat → Nat} (h : c.Ample bufLens) :
    (c.egest (bufLens 0)).2.Ample (fun j => bufLens (j + 1)) := by
  intro k id hbusy
  rw [← egestRun_succ] at hbusy ⊢
  exact h (k + 1) id hbusy

lemma settles_idle {c : Connection σ} (hopen : c.state ≠ .closed) (h : c.firstBusy = none)
    (bufLens : Nat → Nat) : Settles c bufLens 0 := by
  have hsame : ∀ k, c.egestRun bufLens k = c := by
    intro k
    induction k with
    | zero => rfl
    | succ k ih => rw [egestRun, ih, egest_none hopen h]
  refine ⟨fun k hk => absurd hk (Nat.not_lt_zero k), fun k _ => ⟨?_, hsame k⟩, drained_of_idle h⟩
  rw [egestOutput, hsame k, egest_none hopen h]

lemma settles_succ {c c' : Connection σ} {bufLens : Nat → Nat} {n : Nat} {packet : Bytes}
    (hfirst : c.egest (bufLens 0) = (ok packet, c')) (hne : packet ≠ [])
    (h : Settles c' (fun j => bufLens (j + 1)) n) : Settles c bufLens (n + 1) := by
  have hrun : ∀ k, c.egestRun bufLens (k + 1) = c'.egestRun (fun j => bufLens (j + 1)) k := by
    intro k
    rw [egestRun_succ, hfirst]
  have houtput : ∀ k, c.egestOutput bufLens (k + 1) =
      c'.egestOutput (fun j => bufLens (j + 1)) k := by
    intro k
    rw [egestOutput_succ, hfirst]
  constructor
  · intro k hk
    cases k with
    | zero => exact ⟨packet, congrArg Prod.fst hfirst, hne⟩
    | succ k =>
      rw [houtput]
      exact h.packets k (Nat.lt_of_succ_lt_succ hk)
  · intro k hk
    cases k with
    | zero => cases hk
    | succ k =>
      rw [houtput, hrun, hrun]
      exact h.silence k (Nat.le_of_succ_le_succ hk)
  · rw [hrun]
    exact h.drained

/-- There are at most as many packets as the backlog says. -/
lemma settles_within_backlog {c : Connection σ} {bufLens : Nat → Nat} (hopen : c.state ≠ .closed)
    (h : c.Ample bufLens) : ∃ n ≤ c.backlog, Settles c bufLens n := by
  induction hb : c.backlog using Nat.strongRecOn generalizing c bufLens with
  | ind b ih =>
    subst hb
    cases hbusy : c.firstBusy with
    | none => exact ⟨0, Nat.zero_le _, settles_idle hopen hbusy bufLens⟩
    | some id =>
      obtain ⟨packet, hfirst, hne⟩ := egest_leaves hopen hbusy (h 0 id hbusy)
      have hless := backlog_sent (firstBusy_busy hbusy)
      have htail := h.tail
      rw [hfirst] at htail
      obtain ⟨n, hn, hrest⟩ := ih _ hless (open_sent id hopen) htail rfl
      exact ⟨n + 1, by omega, settles_succ hfirst hne hrest⟩

/-- From every state that is not closed, `egest` returns at most four packets and then nothing any
more, with nothing left that could be sent, as long as packets can be made and fit. The loop of
`flush_egress` ends from every state, whatever its calls and its backend answer. -/
theorem egress_drains :
    (∀ (c : Connection σ) (bufLens : Nat → Nat), c.state ≠ .closed → c.Ample bufLens →
      ∃ n ≤ 4, Settles c bufLens n) ∧
    ∀ (accepts : Bytes → Bool) (e : Endpoint σ), ∃ k out, k ≤ 4 ∧
      Loop.Leaves (Endpoint.flushTurn accepts) k e out ∧ Endpoint.flushEgress accepts e = out ∧
      out.1 ≠ .panic := by
  refine ⟨fun c bufLens hopen hample => ?_, Endpoint.flushEgress_leaves⟩
  obtain ⟨n, hn, hsettles⟩ := settles_within_backlog hopen hample
  exact ⟨n, hn.trans c.backlog_le, hsettles⟩

/-- The form in which concrete states are checked. -/
lemma ample_of_idle {c : Connection σ} {bufLens : Nat → Nat} {n : Nat}
    (hopen : (c.egestRun bufLens n).state ≠ .closed)
    (hidle : (c.egestRun bufLens n).firstBusy = none)
    (h : ∀ k < n, (c.egestRun bufLens k).firstBusy.all
      (fun id => decide ((c.egestRun bufLens k).Leaves (bufLens k) id)) = true) :
    c.Ample bufLens := by
  have hlater : ∀ j, c.egestRun bufLens (n + j) = c.egestRun bufLens n := by
    intro j
    induction j with
    | zero => rfl
    | succ j ih => rw [← Nat.add_assoc, egestRun, ih, egest_none hopen hidle]
  intro k id hbusy
  rcases Nat.lt_or_ge k n with hk | hk
  · exact leaves_of_all (h k hk) id hbusy
  · obtain ⟨j, rfl⟩ := Nat.exists_eq_add_of_le hk
    rw [hlater, hidle] at hbusy
    cases hbusy

/-- A server that has an Initial packet to acknowledge and data to send. -/
def owingServer : Connection Unit :=
  ((plainConnection plainMask).recordRecvPn .initial 3).sendData [0x61]

theorem egress_drains_two : ∃ n ≤ 4, Settles owingServer (fun _ => 2048) n := by
  refine egress_drains.1 owingServer (fun _ => 2048) (by decide) ?_
  exact ample_of_idle (n := 2) (by decide +kernel) (by decide +kernel) (by decide +kernel)

end Connection
end DeerQuic
