import DeerQuic.Numbering
import DeerQuic.Loop

/-!
# The event loop

An endpoint polls its backend, ingests what there is to receive and sends what `egest` returns. The
backend is what it answers: whether there are data, which datagrams, and which packets it takes.
-/

namespace DeerQuic

open Outcome

/-- The answers of the backend in one step. A failed poll has none; after the datagrams a `recv`
would block. -/
structure Answers where
  polled : Option Bool
  datagrams : List Bytes
  accepts : Bytes → Bool

/-- A connection, and the packets that the backend has taken. -/
structure Endpoint (σ : Type) where
  conn : Connection σ
  sent : List Bytes

namespace Endpoint

variable {σ : Type} (R : Rustls σ)

/-- Max datagram size, the size of both buffers. -/
def maxDgram : Nat := 2048

/-- A datagram without bytes ends the loop, a datagram that is not ingested ends the step. -/
def recvLoop : List Bytes → Connection σ → Outcome ConnectionError Unit × Connection σ
  | [], c => (ok (), c)
  | datagram :: rest, c =>
    if datagram.isEmpty then (ok (), c)
    else match c.ingest R datagram with
      | (ok _, c) => recvLoop rest c
      | (err e, c) => (err e, c)
      | (.panic, c) => (.panic, c)

/-- The loop of `flush_egress`, which ends when there is nothing to send. -/
def flushEgressFuel (accepts : Bytes → Bool) :
    Nat → Endpoint σ → Outcome ConnectionError Unit × Endpoint σ
  | 0, e => (.panic, e)
  | fuel + 1, e =>
    match e.conn.egest maxDgram with
    | (ok [], c) => (ok (), { e with conn := c })
    | (ok packet, c) =>
      if accepts packet then
        flushEgressFuel accepts fuel { conn := c, sent := e.sent ++ [packet] }
      else (err .internal, { e with conn := c })
    | (err x, c) => (err x, { e with conn := c })
    | (.panic, c) => (.panic, { e with conn := c })

/-- Three spaces and HANDSHAKE_DONE make at most four packets. -/
def flushEgress (accepts : Bytes → Bool) (e : Endpoint σ) :
    Outcome ConnectionError Unit × Endpoint σ :=
  flushEgressFuel accepts 5 e

/-- The part of `step` behind a poll that found data. -/
def receiveAndFlush (answers : Answers) (e : Endpoint σ) :
    Outcome ConnectionError Unit × Endpoint σ :=
  match recvLoop R answers.datagrams e.conn with
  | (ok _, c) => flushEgress answers.accepts { e with conn := c }
  | (err x, c) => (err x, { e with conn := c })
  | (.panic, c) => (.panic, { e with conn := c })

/-- Whether there was something to receive. -/
def step (answers : Answers) (e : Endpoint σ) : Outcome ConnectionError Bool × Endpoint σ :=
  match answers.polled with
  | none => (err .internal, e)
  | some worked =>
    match if worked then receiveAndFlush R answers e else flushEgress answers.accepts e with
    | (ok _, e) => (ok worked, e)
    | (err x, e) => (err x, e)
    | (.panic, e) => (.panic, e)

/-- Steps until the connection is established, but not more than are left. The last step that is
left ends in an error whatever came of it. -/
def handshakeLoop (step : Answers → Endpoint σ → Outcome ConnectionError Bool × Endpoint σ) :
    Nat → (Nat → Answers) → Endpoint σ → Outcome ConnectionError Unit × Endpoint σ
  | 0, _, e => (err .internal, e)
  | left + 1, answers, e =>
    if e.conn.isEstablished then (ok (), e)
    else match step (answers 0) e with
      | (ok _, e) => handshakeLoop step left (fun k => answers (k + 1)) e
      | (err x, e) => (err x, e)
      | (.panic, e) => (.panic, e)

def handshake (answers : Nat → Answers) (e : Endpoint σ) :
    Outcome ConnectionError Unit × Endpoint σ :=
  handshakeLoop (step R) 1001 answers e

end Endpoint

namespace Connection

variable {σ : Type}

/-- What is left to send: the spaces with something to send, and the change of state that lets the
server send application data. -/
def backlog (c : Connection σ) : Nat :=
  [PacketNumberSpace.initial, .handshake, .applicationData].countP (fun id => decide (c.Busy id)) +
    if c.side = .server ∧ c.state = .handshaking then 1 else 0

lemma backlog_le (c : Connection σ) : c.backlog ≤ 4 := by
  have hcount := List.countP_le_length (p := fun id => decide (c.Busy id))
    (l := [PacketNumberSpace.initial, .handshake, .applicationData])
  simp only [List.length_cons, List.length_nil] at hcount
  unfold backlog
  split_ifs <;> omega

lemma sent_same (c : Connection σ) (id : PacketNumberSpace) :
    (c.sent id).side = c.side ∧
      (c.sent id).state = (if c.Confirms id then .established else c.state) ∧
      (c.sent id).pendingAppData = if c.Streams id then [] else c.pendingAppData :=
  ⟨(built_same c id).2.1, state_built c id, pendingAppData_built c id⟩

/-- Only the space that sends has less to send afterwards. -/
lemma busy_sent_other {c : Connection σ} {id id' : PacketNumberSpace} (h : id' ≠ id) :
    (c.sent id).Busy id' ↔ c.Busy id' := by
  obtain ⟨hside, hstate, hdata⟩ := sent_same c id
  have hkeys : ((c.sent id).spaces id').hasKeys = (c.spaces id').hasKeys := hasKeys_built c id id'
  have hcrypto : (c.sent id).pendingCrypto (pnSpaceToLevel id') =
      c.pendingCrypto (pnSpaceToLevel id') := by
    have hlevel : pnSpaceToLevel id' ≠ pnSpaceToLevel id := fun heq => h (level_inj heq)
    have hbuilt := congrFun (pendingCrypto_built c id) (pnSpaceToLevel id')
    rw [Function.update_of_ne hlevel] at hbuilt
    exact hbuilt
  have hacks : ((c.sent id).spaces id').pendingAcks = (c.spaces id').pendingAcks :=
    (pendingAcks_built c id id').trans (if_neg h)
  -- Another space than ApplicationData leaves the state and the application's data alone.
  have happ : id' = .applicationData → (c.sent id).state = c.state ∧
      (c.sent id).pendingAppData = c.pendingAppData ∧
      (c.sent id).streamSendOffset = c.streamSendOffset := by
    intro happ
    have hid : id ≠ .applicationData := fun heq => h (happ.trans heq.symm)
    have hquiet : ¬ c.Streams id := fun hs => hid hs.1
    rw [hstate, if_neg fun hc => hid hc.1, hdata, if_neg hquiet]
    exact ⟨rfl, rfl, (streamSendOffset_built c id).trans (if_neg hquiet)⟩
  have hconfirms : (c.sent id).Confirms id' ↔ c.Confirms id' :=
    and_congr_right fun hid => by rw [hside, (happ hid).1]
  have hstreams : (c.sent id).Streams id' ↔ c.Streams id' :=
    and_congr_right fun hid => by rw [(happ hid).1, (happ hid).2.1]
  have hframes : (c.sent id).framesOf id' = c.framesOf id' := by
    rw [framesOf_eq, framesOf_eq, hcrypto, hacks, if_congr hconfirms rfl rfl,
      if_congr hstreams rfl rfl]
    by_cases hid : id' = .applicationData
    · rw [(happ hid).2.1, (happ hid).2.2]
    · have hquiet : ¬ c.Streams id' := fun hs => hid hs.1
      rw [if_neg hquiet, if_neg hquiet]
  rw [Busy, Busy, hframes, hkeys]

lemma not_busy_sent {c : Connection σ} {id : PacketNumberSpace} (h : ¬ c.Confirms id) :
    ¬ (c.sent id).Busy id := by
  rintro ⟨-, hframes⟩
  obtain ⟨hside, hstate, hdata⟩ := sent_same c id
  rw [if_neg h] at hstate
  have hcrypto : (c.sent id).pendingCrypto (pnSpaceToLevel id) = [] := by
    have hbuilt := congrFun (pendingCrypto_built c id) (pnSpaceToLevel id)
    rw [Function.update_self] at hbuilt
    exact hbuilt
  have hacks : ((c.sent id).spaces id).pendingAcks = [] :=
    (pendingAcks_built c id id).trans (if_pos rfl)
  have hconfirms : ¬ (c.sent id).Confirms id := by
    rw [Confirms, hside, hstate]
    exact h
  have hstreams : ¬ (c.sent id).Streams id := by
    rintro ⟨hid, hestablished, hnew⟩
    rw [hstate] at hestablished
    rw [hdata] at hnew
    by_cases hs : c.Streams id
    · exact hnew (if_pos hs)
    · rw [if_neg hs] at hnew
      exact hs ⟨hid, hestablished, hnew⟩
  apply hframes
  rw [framesOf_eq, hcrypto, hacks, if_neg hconfirms, if_neg hstreams]
  rfl

/-- A packet that leaves makes the backlog smaller. -/
lemma backlog_sent {c : Connection σ} {id : PacketNumberSpace} (h : c.Busy id) :
    (c.sent id).backlog < c.backlog := by
  obtain ⟨hside, hstate, -⟩ := sent_same c id
  have hother : ∀ id', id' ≠ id → decide ((c.sent id).Busy id') = decide (c.Busy id') :=
    fun id' hid => decide_eq_decide.mpr (busy_sent_other hid)
  have hcount : [PacketNumberSpace.initial, .handshake, .applicationData].countP
        (fun id' => decide ((c.sent id).Busy id')) + 1 =
      [PacketNumberSpace.initial, .handshake, .applicationData].countP
        (fun id' => decide (c.Busy id')) + (decide ((c.sent id).Busy id)).toNat := by
    have hbusy : decide (c.Busy id) = true := decide_eq_true h
    generalize hleft : decide ((c.sent id).Busy id) = left
    cases id <;> cases left <;> simp [List.countP_cons, hother, hleft, hbusy] <;> omega
  by_cases hconfirms : c.Confirms id
  · -- The space may still be busy, with the application's data.
    have hbefore : c.side = .server ∧ c.state = .handshaking := hconfirms.2
    have hafter : ¬ ((c.sent id).side = .server ∧ (c.sent id).state = .handshaking) := by
      rw [hstate, if_pos hconfirms]
      simp
    have hone := Bool.toNat_le (decide ((c.sent id).Busy id))
    rw [backlog, backlog, if_pos hbefore, if_neg hafter]
    omega
  · rw [decide_eq_false (not_busy_sent hconfirms), Bool.toNat_false] at hcount
    rw [backlog, backlog, hside, hstate, if_neg hconfirms]
    omega

end Connection

namespace Endpoint

variable {σ : Type}

/-- The body of the loop. -/
def flushTurn (accepts : Bytes → Bool) (e : Endpoint σ) :
    Loop.Turn (Endpoint σ) (Outcome ConnectionError Unit × Endpoint σ) :=
  match e.conn.egest maxDgram with
  | (ok [], c) => .done (ok (), { e with conn := c })
  | (ok packet, c) =>
    if accepts packet then .again { conn := c, sent := e.sent ++ [packet] }
    else .done (err .internal, { e with conn := c })
  | (err x, c) => .done (err x, { e with conn := c })
  | (.panic, c) => .done (.panic, { e with conn := c })

/-- The fuelled loop takes its turns. -/
lemma flushEgressFuel_turn (accepts : Bytes → Bool) (fuel : Nat) (e : Endpoint σ) :
    flushEgressFuel accepts (fuel + 1) e =
      match flushTurn accepts e with
      | .again e' => flushEgressFuel accepts fuel e'
      | .done out => out := by
  rw [flushEgressFuel, flushTurn]
  rcases e.conn.egest maxDgram with ⟨packet | x | _, c⟩
  · cases packet with
    | nil => rfl
    | cons b rest =>
      dsimp only
      split_ifs <;> rfl
  · rfl
  · rfl

/-- A turn ends the loop, with an error when the connection is closed or after a packet was built,
or takes a packet from the backlog. -/
inductive FlushStep (e : Endpoint σ) :
    Loop.Turn (Endpoint σ) (Outcome ConnectionError Unit × Endpoint σ) → Prop where
  | quiet (c : Connection σ) : FlushStep e (.done (ok (), { e with conn := c }))
  | closed (x : ConnectionError) {c : Connection σ} : c.state = .closed →
      FlushStep e (.done (err x, { e with conn := c }))
  | failed (x : ConnectionError) {c : Connection σ} {id : PacketNumberSpace} :
      (c.spaces id).nextSendPn = (e.conn.spaces id).nextSendPn + 1 →
      FlushStep e (.done (err x, { e with conn := c }))
  | left {id : PacketNumberSpace} (packet : Bytes) : e.conn.Busy id →
      FlushStep e (.again { conn := e.conn.sent id, sent := e.sent ++ [packet] })

lemma flushStep (accepts : Bytes → Bool) (e : Endpoint σ) : FlushStep e (flushTurn accepts e) := by
  have hbuilt : ∀ id,
      ((e.conn.built id).spaces id).nextSendPn = (e.conn.spaces id).nextSendPn + 1 := by
    intro id
    rw [Connection.nextSendPn_built, if_pos rfl]
  have hstep := Connection.egest_step e.conn maxDgram
  rw [flushTurn]
  generalize e.conn.egest maxDgram = out at hstep ⊢
  obtain ⟨result, c⟩ := out
  cases hstep with
  | closed hclosed => exact .closed _ hclosed
  | idle _ _ => exact .quiet _
  | @failed id x _ _ _ => exact .failed x (hbuilt id)
  | tooLong _ _ _ _ => exact .quiet _
  | @left id packet _ hbusy _ _ hne =>
    obtain ⟨b, rest, rfl⟩ := List.exists_cons_of_ne_nil hne
    dsimp only
    by_cases htaken : accepts (b :: rest) = true
    · rw [if_pos htaken]
      exact .left (b :: rest) (Connection.firstBusy_busy hbusy)
    · rw [if_neg htaken]
      exact .failed .internal (hbuilt id)

lemma flushTurn_again {accepts : Bytes → Bool} {e e' : Endpoint σ}
    (h : flushTurn accepts e = .again e') : ∃ id, e.conn.Busy id ∧ e'.conn = e.conn.sent id := by
  have hstep := flushStep accepts e
  rw [h] at hstep
  cases hstep with
  | @left id packet hbusy => exact ⟨id, hbusy, rfl⟩

lemma backlog_turn (accepts : Bytes → Bool) (e e' : Endpoint σ)
    (h : flushTurn accepts e = .again e') : e'.conn.backlog < e.conn.backlog := by
  obtain ⟨id, hbusy, hconn⟩ := flushTurn_again h
  rw [hconn]
  exact Connection.backlog_sent hbusy

lemma flushEgressFuel_reaches {accepts : Bytes → Bool} {k : Nat} {e e' : Endpoint σ}
    (h : Loop.Reaches (flushTurn accepts) k e e') (fuel : Nat) :
    flushEgressFuel accepts (fuel + k) e = flushEgressFuel accepts fuel e' := by
  induction h generalizing fuel with
  | start e => rfl
  | @turn k e e' e'' _ hlast ih =>
    rw [← Nat.add_assoc, Nat.add_right_comm, ih (fuel + 1), flushEgressFuel_turn, hlast]

/-- The loop is left after four packets at most, and `flushEgress` is what comes of it. -/
theorem flushEgress_leaves (accepts : Bytes → Bool) (e : Endpoint σ) :
    ∃ k out, k ≤ 4 ∧ Loop.Leaves (flushTurn accepts) k e out ∧ flushEgress accepts e = out ∧
      out.1 ≠ .panic := by
  obtain ⟨k, out, hk, e', hreach, hout⟩ := Loop.leaves (backlog_turn accepts) e
  have hfour := hk.trans e.conn.backlog_le
  have hflush : flushEgress accepts e = out := by
    have hfive : 5 = 4 - k + 1 + k := by omega
    rw [flushEgress, hfive, flushEgressFuel_reaches hreach, flushEgressFuel_turn, hout]
  refine ⟨k, out, hfour, ⟨e', hreach, hout⟩, hflush, ?_⟩
  have hstep := flushStep accepts e'
  rw [hout] at hstep
  cases hstep with
  | quiet _ | closed _ _ | failed _ _ => simp

lemma nextSendPn_sent (c : Connection σ) (id id' : PacketNumberSpace) :
    (c.spaces id').nextSendPn ≤ ((c.sent id).spaces id').nextSendPn := by
  change _ ≤ ((c.built id).spaces id').nextSendPn
  rw [Connection.nextSendPn_built]
  split_ifs
  · exact Nat.le_succ _
  · exact Nat.le_refl _

/-- A flush that fails has used up a packet number, or has found the connection closed. -/
lemma flushEgress_err {accepts : Bytes → Bool} {e e' : Endpoint σ} {x : ConnectionError}
    (h : flushEgress accepts e = (err x, e')) :
    e'.conn.state = .closed ∨
      ∃ id, (e.conn.spaces id).nextSendPn < (e'.conn.spaces id).nextSendPn := by
  obtain ⟨k, out, -, ⟨e₁, hreach, hout⟩, hflush, -⟩ := flushEgress_leaves accepts e
  rw [h] at hflush
  subst hflush
  -- The numbers only go up on the way to the turn that fails.
  have hnumbers : ∀ id, (e.conn.spaces id).nextSendPn ≤ (e₁.conn.spaces id).nextSendPn := by
    intro id
    refine hreach.invariant
      (P := fun s => (e.conn.spaces id).nextSendPn ≤ (s.conn.spaces id).nextSendPn) ?_
      (Nat.le_refl _)
    intro s s' hs hturn
    obtain ⟨id', -, hconn⟩ := flushTurn_again hturn
    rw [hconn]
    exact hs.trans (nextSendPn_sent s.conn id' id)
  have hstep := flushStep accepts e₁
  rw [hout] at hstep
  cases hstep with
  | closed _ hclosed => exact .inl hclosed
  | @failed _ c id hused => exact .inr ⟨id, (hnumbers id).trans_lt (by dsimp only; omega)⟩

end Endpoint

end DeerQuic
