import DeerQuic.Acks
import DeerQuic.Endpoint
import DeerQuic.Stray

/-!
# Stray datagrams in the event loop

For the connection a stray datagram is as good as none. For `step` it is not: the error of `ingest`
ends the loop, the datagrams behind are left to the next step and nothing is flushed. `handshake`
hands the error on to its caller.
-/

namespace DeerQuic

open Outcome

namespace Connection

variable {σ : Type} (R : Rustls σ)

/-- What remains of the datagrams without the stray ones, each judged by the connection that it
comes to. -/
def genuine : Connection σ → List Bytes → List Bytes
  | _, [] => []
  | c, datagram :: rest =>
    if Stray c datagram then genuine c rest
    else datagram :: genuine (c.ingest R datagram).2 rest

/-- The receive loop gets to no stray datagram as long as the connection is open. -/
def NoStrayReached : Connection σ → List Bytes → Prop
  | _, [] => True
  | c, datagram :: rest => c.state = .closed ∨ ¬ Stray c datagram ∧
      ((c.ingest R datagram).1.isOk = true → NoStrayReached (c.ingest R datagram).2 rest)

/-- Equal but for the log of the model. -/
def SameButHistory (c c' : Connection σ) : Prop :=
  { c with history := [] } = { c' with history := [] }

variable {R}

lemma SameButHistory.fields {c c' : Connection σ} (h : SameButHistory c c') :
    c.state = c'.state ∧ c.spaces = c'.spaces := by
  have hsame : { c with history := [] } = { c' with history := [] } := h
  have hstate := congrArg Connection.state hsame
  have hspaces := congrArg Connection.spaces hsame
  exact ⟨hstate, hspaces⟩

lemma not_stray_nonempty {c : Connection σ} {datagram : Bytes} (h : ¬ Stray c datagram) :
    datagram ≠ [] := by
  rintro rfl
  exact h .empty

/-- The empty datagram is no error, the others are. -/
lemma ingest_stray_err {c : Connection σ} {datagram : Bytes} (hopened : c.state ≠ .closed)
    (hne : datagram ≠ []) (h : Stray c datagram) : ∃ x, c.ingest R datagram = (err x, c) := by
  obtain ⟨x, hopen⟩ := (stray_iff.mp h).resolve_left hne
  refine ⟨x, ?_⟩
  unfold ingest
  rw [if_neg hopened, if_neg (by simpa using hne), hopen]

lemma ingest_closed {c : Connection σ} (h : c.state = .closed) (datagram : Bytes) :
    c.ingest R datagram = (err .closed, c) := by
  unfold ingest
  rw [if_pos h]

lemma genuine_sublist (c : Connection σ) (datagrams : List Bytes) :
    (c.genuine R datagrams).Sublist datagrams := by
  induction datagrams generalizing c with
  | nil => exact .slnil
  | cons datagram rest ih =>
    rw [genuine]
    split_ifs
    · exact (ih c).cons datagram
    · exact (ih _).cons_cons datagram

lemma genuine_head {c : Connection σ} {datagrams rest : List Bytes} {datagram : Bytes}
    (h : c.genuine R datagrams = datagram :: rest) : ¬ Stray c datagram := by
  induction datagrams with
  | nil => cases h
  | cons first datagrams ih =>
    by_cases hstray : Stray c first
    · rw [genuine, if_pos hstray] at h
      exact ih h
    · rw [genuine, if_neg hstray] at h
      obtain ⟨rfl, -⟩ := List.cons.inj h
      exact hstray

/-- What `ingest` records stays recorded. -/
lemma pendingAcks_ingest_le (c : Connection σ) (datagram : Bytes) (id : PacketNumberSpace) :
    (c.spaces id).pendingAcks.length ≤ ((c.ingest R datagram).2.spaces id).pendingAcks.length := by
  rcases ingest_cases R c datagram with hsame | ⟨id', pn, frames, hopened, hopen, -⟩
  · rw [hsame]
  · rw [pendingAcks_ingest_all hopened hopen, List.length_append]
    exact Nat.le_add_right _ _

end Connection

/-- The datagrams of the answers without the stray ones. -/
def Answers.genuine {σ : Type} (R : Rustls σ) (c : Connection σ) (answers : Answers) : Answers :=
  { answers with datagrams := c.genuine R answers.datagrams }

/-- A step with these answers gets to no stray datagram. -/
def Answers.StrayFree {σ : Type} (R : Rustls σ) (c : Connection σ) (answers : Answers) : Prop :=
  answers.polled = some true → c.NoStrayReached R answers.datagrams

namespace Endpoint

open Connection

variable {σ : Type} {R : Rustls σ}

/-- Neither the result nor the packets sent nor the connection tells two runs apart. -/
structure SameEnd {α : Type} (a b : Outcome ConnectionError α × Endpoint σ) : Prop where
  result : a.1 = b.1
  conn : SameButHistory a.2.conn b.2.conn
  sent : a.2.sent = b.2.sent

lemma SameEnd.refl {α : Type} (a : Outcome ConnectionError α × Endpoint σ) : SameEnd a a :=
  ⟨rfl, rfl, rfl⟩

lemma recvLoop_always {P : Connection σ → Prop}
    (step : ∀ c datagram, P c → P (c.ingest R datagram).2) {c : Connection σ} (start : P c)
    (datagrams : List Bytes) : P (recvLoop R datagrams c).2 := by
  induction datagrams generalizing c with
  | nil => exact start
  | cons datagram rest ih =>
    rw [recvLoop]
    split_ifs
    · exact start
    · have hnext := step c datagram start
      rcases hingest : c.ingest R datagram with ⟨_ | x | _, c'⟩
      · rw [hingest] at hnext
        exact ih hnext
      · rw [hingest] at hnext
        exact hnext
      · rw [hingest] at hnext
        exact hnext

/-- What the first datagram leaves to be acknowledged is left by all of them. -/
lemma pendingAcks_recvLoop (c : Connection σ) {datagram : Bytes} (hne : datagram ≠ [])
    (rest : List Bytes) (id : PacketNumberSpace) :
    ((c.ingest R datagram).2.spaces id).pendingAcks.length ≤
      ((recvLoop R (datagram :: rest) c).2.spaces id).pendingAcks.length := by
  rw [recvLoop, if_neg (by simpa using hne)]
  rcases c.ingest R datagram with ⟨_ | x | _, c'⟩
  · exact recvLoop_always
      (P := fun c => (c'.spaces id).pendingAcks.length ≤ (c.spaces id).pendingAcks.length)
      (fun c d h => h.trans (pendingAcks_ingest_le c d id)) (Nat.le_refl _) rest
  · exact Nat.le_refl _
  · exact Nat.le_refl _

/-- The first datagram, and then the others when it was ingested. -/
lemma receiveAndFlush_cons {polled : Option Bool} {accepts : Bytes → Bool} {datagram : Bytes}
    (hne : datagram ≠ []) (rest : List Bytes) (e : Endpoint σ) :
    receiveAndFlush R ⟨polled, datagram :: rest, accepts⟩ e =
      match e.conn.ingest R datagram with
      | (ok _, c) => receiveAndFlush R ⟨polled, rest, accepts⟩ { e with conn := c }
      | (err x, c) => (err x, { e with conn := c })
      | (.panic, c) => (.panic, { e with conn := c }) := by
  have hempty : ¬ datagram.isEmpty = true := by simpa using hne
  simp only [receiveAndFlush, recvLoop, hempty]
  rcases e.conn.ingest R datagram with ⟨_ | x | _, c⟩ <;> rfl

/-- A closed connection ingests nothing and sends nothing. -/
lemma receiveAndFlush_closed {answers : Answers} {e : Endpoint σ} (h : e.conn.state = .closed)
    (hne : ∀ datagram ∈ answers.datagrams, datagram ≠ []) :
    receiveAndFlush R answers e = (err .closed, e) := by
  obtain ⟨polled, datagrams, accepts⟩ := answers
  cases datagrams with
  | nil =>
    have hegest : e.conn.egest maxDgram = (err .closed, e.conn) := by
      rw [egest_eq, if_pos h]
    simp only [receiveAndFlush, recvLoop, flushEgress, flushEgressFuel, hegest]
  | cons datagram rest =>
    rw [receiveAndFlush_cons (hne datagram List.mem_cons_self), ingest_closed h]

/-- Where no stray datagram is reached there is none to remove. -/
lemma receiveAndFlush_genuine {polled : Option Bool} {accepts : Bytes → Bool}
    {datagrams : List Bytes} {e : Endpoint σ} (hne : ∀ datagram ∈ datagrams, datagram ≠ [])
    (h : NoStrayReached R e.conn datagrams) :
    receiveAndFlush R ⟨polled, datagrams, accepts⟩ e =
      receiveAndFlush R ⟨polled, e.conn.genuine R datagrams, accepts⟩ e := by
  induction datagrams generalizing e with
  | nil => rfl
  | cons datagram rest ih =>
    have hrest : ∀ d ∈ rest, d ≠ [] := fun d hd => hne d (List.mem_cons_of_mem _ hd)
    rcases h with hclosed | ⟨hgenuine, hnext⟩
    · have hsome : ∀ d ∈ e.conn.genuine R (datagram :: rest), d ≠ [] :=
        fun d hd => hne d ((genuine_sublist _ _).mem hd)
      rw [receiveAndFlush_closed hclosed hne, receiveAndFlush_closed hclosed hsome]
    · rw [genuine, if_neg hgenuine, receiveAndFlush_cons (not_stray_nonempty hgenuine),
        receiveAndFlush_cons (not_stray_nonempty hgenuine)]
      rcases hingest : e.conn.ingest R datagram with ⟨n | x | _, c⟩
      · rw [hingest] at hnext
        exact ih hrest (hnext rfl)
      · rfl
      · rfl

/-- When the loop fails on genuine datagrams, at least the first of them was recorded. -/
lemma recvLoop_err_records {datagrams : List Bytes} {c c' : Connection σ} {x : ConnectionError}
    (hopened : c.state ≠ .closed)
    (hhead : ∀ datagram rest, datagrams = datagram :: rest → ¬ Stray c datagram)
    (h : recvLoop R datagrams c = (err x, c')) :
    ∃ id, (c.spaces id).pendingAcks.length < (c'.spaces id).pendingAcks.length := by
  cases datagrams with
  | nil => cases h
  | cons datagram rest =>
    have hgenuine := hhead datagram rest rfl
    have hne := not_stray_nonempty hgenuine
    cases hopen : c.openPacket datagram with
    | err x => exact absurd (.unopened hopen) hgenuine
    | panic =>
      have hingest : c.ingest R datagram = (.panic, c) := by
        unfold ingest
        rw [if_neg hopened, if_neg (by simpa using hne), hopen]
      rw [recvLoop, if_neg (by simpa using hne), hingest] at h
      cases h
    | ok opened =>
      obtain ⟨id, pn, frames⟩ := opened
      have hmore := pendingAcks_recvLoop (R := R) c hne rest id
      rw [h, pendingAcks_ingest hopened hopen, List.length_append, List.length_singleton] at hmore
      exact ⟨id, hmore⟩

lemma nextSendPn_recvLoop (datagrams : List Bytes) (c : Connection σ) (id : PacketNumberSpace) :
    ((recvLoop R datagrams c).2.spaces id).nextSendPn = (c.spaces id).nextSendPn :=
  recvLoop_always (P := fun c' => (c'.spaces id).nextSendPn = (c.spaces id).nextSendPn)
    (fun c' datagram h => (nextSendPn_ingest c' datagram id).trans h) rfl datagrams

/-- When a step fails on its genuine datagrams, it does not leave an open connection as it was: a
packet was recorded, or a packet was built. -/
lemma receiveAndFlush_moves {answers : Answers} {e e' : Endpoint σ} {x : ConnectionError}
    (hopened : e.conn.state ≠ .closed)
    (hhead : ∀ datagram rest, answers.datagrams = datagram :: rest → ¬ Stray e.conn datagram)
    (h : receiveAndFlush R answers e = (err x, e')) : ¬ SameButHistory e'.conn e.conn := by
  intro hsame
  obtain ⟨hstate, hspaces⟩ := hsame.fields
  rw [receiveAndFlush] at h
  rcases hloop : recvLoop R answers.datagrams e.conn with ⟨_ | x' | _, c⟩
  · -- The datagrams were ingested, so the flush failed.
    rw [hloop] at h
    have hnumbers := nextSendPn_recvLoop (R := R) answers.datagrams e.conn
    rw [hloop] at hnumbers
    rcases flushEgress_err h with hclosed | ⟨id, hused⟩
    · exact hopened (hstate.symm.trans hclosed)
    · rw [hspaces, ← hnumbers id] at hused
      exact Nat.lt_irrefl _ hused
  · obtain ⟨id, hrecorded⟩ := recvLoop_err_records hopened hhead hloop
    rw [hloop] at h
    cases h
    rw [hspaces] at hrecorded
    exact Nat.lt_irrefl _ hrecorded
  · rw [hloop] at h
    cases h

/-- A stray datagram that is reached ends the step with an error, where the genuine datagrams
behind it would have been next. -/
lemma stray_reached (polled : Option Bool) (accepts : Bytes → Bool) {datagrams : List Bytes}
    {e : Endpoint σ} (hne : ∀ datagram ∈ datagrams, datagram ≠ [])
    (h : ¬ NoStrayReached R e.conn datagrams) :
    ∃ c x rest, c.state ≠ .closed ∧
      receiveAndFlush R ⟨polled, datagrams, accepts⟩ e = (err x, { e with conn := c }) ∧
      receiveAndFlush R ⟨polled, e.conn.genuine R datagrams, accepts⟩ e =
        receiveAndFlush R ⟨polled, c.genuine R rest, accepts⟩ { e with conn := c } := by
  induction datagrams generalizing e with
  | nil => exact absurd trivial h
  | cons datagram rest ih =>
    obtain ⟨hopened, hreached⟩ := not_or.mp h
    have hfirst : datagram ≠ [] := hne datagram List.mem_cons_self
    by_cases hstray : Stray e.conn datagram
    · obtain ⟨x, hingest⟩ := ingest_stray_err (R := R) hopened hfirst hstray
      refine ⟨e.conn, x, rest, hopened, ?_, ?_⟩
      · rw [receiveAndFlush_cons hfirst, hingest]
      · rw [genuine, if_pos hstray]
    · have hrest : ¬ ((e.conn.ingest R datagram).1.isOk = true →
          NoStrayReached R (e.conn.ingest R datagram).2 rest) :=
        fun hnext => hreached ⟨hstray, hnext⟩
      obtain ⟨hok, hlater⟩ := Classical.not_imp.mp hrest
      rw [genuine, if_neg hstray, receiveAndFlush_cons hfirst, receiveAndFlush_cons hfirst]
      rcases hingest : e.conn.ingest R datagram with ⟨n | x | _, c⟩
      · rw [hingest] at hlater
        exact ih (e := { e with conn := c }) (fun d hd => hne d (List.mem_cons_of_mem _ hd)) hlater
      · rw [hingest] at hok
        cases hok
      · rw [hingest] at hok
        cases hok

lemma receiveAndFlush_genuine_iff {answers : Answers} {e : Endpoint σ}
    (hne : ∀ datagram ∈ answers.datagrams, datagram ≠ []) :
    SameEnd (receiveAndFlush R answers e) (receiveAndFlush R (answers.genuine R e.conn) e) ↔
      NoStrayReached R e.conn answers.datagrams := by
  constructor
  · intro hsame
    by_contra hreached
    obtain ⟨c, x, rest, hopened, hwith, hwithout⟩ :=
      stray_reached answers.polled answers.accepts hne hreached
    generalize hend : receiveAndFlush R ⟨answers.polled, c.genuine R rest, answers.accepts⟩
      { e with conn := c } = b at hwithout
    obtain ⟨result, e'⟩ := b
    rw [Answers.genuine, hwith, hwithout] at hsame
    obtain rfl : err x = result := hsame.result
    exact receiveAndFlush_moves hopened (fun _ _ => genuine_head) hend hsame.conn.symm
  · intro h
    have hequal : receiveAndFlush R answers e =
        receiveAndFlush R (answers.genuine R e.conn) e := receiveAndFlush_genuine hne h
    rw [← hequal]
    exact .refl _

/-- Without data there are no datagrams. -/
lemma step_idle {answers : Answers} (h : answers.polled ≠ some true) (answers' : Answers)
    (hpolled : answers'.polled = answers.polled) (haccepts : answers'.accepts = answers.accepts)
    (e : Endpoint σ) : step R answers' e = step R answers e := by
  unfold step
  rw [hpolled, haccepts]
  rcases hdata : answers.polled with _ | _ | _
  · rfl
  · rfl
  · exact absurd hdata h

lemma step_worked {answers : Answers} (h : answers.polled = some true) (e : Endpoint σ) :
    step R answers e = ((receiveAndFlush R answers e).1 >>= fun _ => ok true,
      (receiveAndFlush R answers e).2) := by
  unfold step
  rw [h]
  dsimp only
  rw [if_pos rfl]
  rcases receiveAndFlush R answers e with ⟨_ | x | _, e'⟩ <;> rfl

lemma bind_ok_inj {ε α : Type} {a b : Outcome ε Unit} {x : α}
    (h : (a >>= fun _ => ok x) = b >>= fun _ => ok x) : a = b := by
  cases a <;> cases b <;> simp_all

lemma sameEnd_step {answers answers' : Answers} (h : answers.polled = some true)
    (h' : answers'.polled = some true) (e : Endpoint σ) :
    SameEnd (step R answers e) (step R answers' e) ↔
      SameEnd (receiveAndFlush R answers e) (receiveAndFlush R answers' e) := by
  rw [step_worked h, step_worked h']
  constructor
  · rintro ⟨hresult, hconn, hsent⟩
    exact ⟨bind_ok_inj hresult, hconn, hsent⟩
  · rintro ⟨hresult, hconn, hsent⟩
    exact ⟨by rw [hresult], hconn, hsent⟩

/-- No step of the handshake gets to a stray datagram. -/
def StepsStrayFree (R : Rustls σ) : Nat → (Nat → Answers) → Endpoint σ → Prop
  | 0, _, _ => True
  | left + 1, answers, e => e.conn.isEstablished = true ∨ (answers 0).StrayFree R e.conn ∧
      ((step R (answers 0) e).1.isOk = true →
        StepsStrayFree R left (fun k => answers (k + 1)) (step R (answers 0) e).2)

/-- A step whose backend yields the genuine datagrams only. -/
def genuineStep (R : Rustls σ) (answers : Answers) (e : Endpoint σ) :
    Outcome ConnectionError Bool × Endpoint σ :=
  step R (answers.genuine R e.conn) e

lemma step_genuine {answers : Answers} {e : Endpoint σ}
    (hne : ∀ datagram ∈ answers.datagrams, datagram ≠ []) (h : answers.StrayFree R e.conn) :
    genuineStep R answers e = step R answers e := by
  by_cases hdata : answers.polled = some true
  · have hequal : receiveAndFlush R answers e = receiveAndFlush R (answers.genuine R e.conn) e :=
      receiveAndFlush_genuine hne (h hdata)
    have hdata' : (answers.genuine R e.conn).polled = some true := hdata
    rw [genuineStep, step_worked hdata', step_worked hdata, hequal]
  · exact step_idle hdata (answers.genuine R e.conn) rfl rfl e

/-- A step that goes well has reached no stray datagram. -/
lemma strayFree_of_ok {answers : Answers} {e : Endpoint σ}
    (hne : ∀ datagram ∈ answers.datagrams, datagram ≠ [])
    (h : (step R answers e).1.isOk = true) : answers.StrayFree R e.conn := by
  intro hdata
  by_contra hreached
  obtain ⟨c, x, rest, -, hwith, -⟩ := stray_reached answers.polled answers.accepts hne hreached
  rw [step_worked hdata, hwith] at h
  cases h

lemma handshakeLoop_genuine {left : Nat} {answers : Nat → Answers} {e : Endpoint σ}
    (hne : ∀ k, ∀ datagram ∈ (answers k).datagrams, datagram ≠ [])
    (h : StepsStrayFree R left answers e) :
    handshakeLoop (genuineStep R) left answers e = handshakeLoop (step R) left answers e := by
  induction left generalizing answers e with
  | zero => rfl
  | succ left ih =>
    rw [handshakeLoop, handshakeLoop]
    by_cases hestablished : e.conn.isEstablished = true
    · rw [if_pos hestablished, if_pos hestablished]
    · obtain ⟨hfree, hrest⟩ := h.resolve_left hestablished
      rw [if_neg hestablished, if_neg hestablished, step_genuine (hne 0) hfree]
      rcases hstep : step R (answers 0) e with ⟨worked | x | _, e'⟩
      · rw [hstep] at hrest
        exact ih (fun k => hne (k + 1)) (hrest rfl)
      · rfl
      · rfl

lemma stepsStrayFree_of_ok {left : Nat} {answers : Nat → Answers} {e : Endpoint σ}
    (hne : ∀ k, ∀ datagram ∈ (answers k).datagrams, datagram ≠ [])
    (h : (handshakeLoop (step R) left answers e).1 = ok ()) : StepsStrayFree R left answers e := by
  induction left generalizing answers e with
  | zero => trivial
  | succ left ih =>
    rw [handshakeLoop] at h
    by_cases hestablished : e.conn.isEstablished = true
    · exact .inl hestablished
    · rw [if_neg hestablished] at h
      rcases hstep : step R (answers 0) e with ⟨worked | x | _, e'⟩
      · rw [hstep] at h
        have hok : (step R (answers 0) e).1.isOk = true := by rw [hstep]; rfl
        refine .inr ⟨strayFree_of_ok (hne 0) hok, fun _ => ?_⟩
        rw [hstep]
        exact ih (fun k => hne (k + 1)) h
      · rw [hstep] at h
        cases h
      · rw [hstep] at h
        cases h

/-- A step goes as it would have gone without the stray datagrams exactly when it gets to none. A
handshake whose steps get to none goes as it would have gone, and one that succeeds has met none. -/
theorem step_undisturbed_iff :
    (∀ (answers : Answers) (e : Endpoint σ), (∀ datagram ∈ answers.datagrams, datagram ≠ []) →
      (SameEnd (step R answers e) (genuineStep R answers e) ↔ answers.StrayFree R e.conn)) ∧
    ∀ (answers : Nat → Answers) (e : Endpoint σ),
      (∀ k, ∀ datagram ∈ (answers k).datagrams, datagram ≠ []) →
      (StepsStrayFree R 1001 answers e →
        handshake R answers e = handshakeLoop (genuineStep R) 1001 answers e) ∧
      ((handshake R answers e).1 = ok () → StepsStrayFree R 1001 answers e) := by
  constructor
  · intro answers e hne
    constructor
    · intro hsame hdata
      have hdata' : (answers.genuine R e.conn).polled = some true := hdata
      exact (receiveAndFlush_genuine_iff hne).mp ((sameEnd_step hdata hdata' e).mp hsame)
    · intro hfree
      rw [step_genuine hne hfree]
      exact .refl _
  · intro answers e hne
    exact ⟨fun hfree => (handshakeLoop_genuine hne hfree).symm, stepsStrayFree_of_ok hne⟩

/-- A server that has not sent anything yet. -/
def idleServer : Endpoint Flights where
  conn := plainServer serverFlights
  sent := []

def pingPacket : Bytes := plainLong .handshake 0 [.ping]

/-- One byte that is no header comes before the packet. The backend takes all that is sent. -/
def strayFirst : Answers where
  polled := some true
  datagrams := [[0xff], pingPacket]
  accepts _ := true

lemma strayFirst_nonempty : ∀ datagram ∈ strayFirst.datagrams, datagram ≠ [] := by
  decide +kernel

lemma strayFirst_reached : ¬ strayFirst.StrayFree (scripted serverFlights) idleServer.conn := by
  intro hfree
  rcases hfree rfl with hclosed | ⟨hgenuine, -⟩
  · revert hclosed
    decide +kernel
  · revert hgenuine
    decide +kernel

/-- The byte makes a difference to the step, and a handshake that meets it does not succeed. -/
theorem step_undisturbed_iff_stray :
    ¬ SameEnd (step (scripted serverFlights) strayFirst idleServer)
        (genuineStep (scripted serverFlights) strayFirst idleServer) ∧
      (handshake (scripted serverFlights) (fun _ => strayFirst) idleServer).1 ≠ ok () := by
  obtain ⟨hstep, hhandshake⟩ := step_undisturbed_iff (R := scripted serverFlights)
  constructor
  · intro hsame
    exact strayFirst_reached ((hstep strayFirst idleServer strayFirst_nonempty).mp hsame)
  · intro hok
    have hfree := (hhandshake (fun _ => strayFirst) idleServer fun _ => strayFirst_nonempty).2 hok
    rcases hfree with hestablished | ⟨hfirst, -⟩
    · revert hestablished
      decide +kernel
    · exact strayFirst_reached hfirst

/-- Alone the packet is ingested, the server's three packets leave and the handshake is done. Behind
the byte nothing of this happens. -/
theorem stray_byte_disturbs :
    accept (scripted serverFlights) (plainLong .initial 0 [.crypto 0 [1]]) =
        ok (plainServer serverFlights) ∧
      idleServer.conn.state = .handshaking ∧ Stray idleServer.conn [0xff] ∧
      (strayFirst.genuine (scripted serverFlights) idleServer.conn).datagrams = [pingPacket] ∧
      (step (scripted serverFlights) strayFirst idleServer).1 =
        err (.packet (.bufferTooShort 5 1)) ∧
      (step (scripted serverFlights) strayFirst idleServer).2.sent = [] ∧
      (genuineStep (scripted serverFlights) strayFirst idleServer).1 = ok true ∧
      (genuineStep (scripted serverFlights) strayFirst idleServer).2.sent.length = 3 ∧
      (handshake (scripted serverFlights) (fun _ => strayFirst) idleServer).1 =
        err (.packet (.bufferTooShort 5 1)) ∧
      (handshakeLoop (genuineStep (scripted serverFlights)) 1001 (fun _ => strayFirst)
        idleServer).1 = ok () ∧
      ¬ SameEnd (step (scripted serverFlights) strayFirst idleServer)
        (genuineStep (scripted serverFlights) strayFirst idleServer) := by
  refine ⟨eq_ok_getD (by decide +kernel) _, by decide +kernel, by decide +kernel,
    by decide +kernel, by decide +kernel, by decide +kernel, by decide +kernel, by decide +kernel,
    by decide +kernel, by decide +kernel, ?_⟩
  intro hsame
  have hresult := hsame.result
  revert hresult
  decide +kernel

end Endpoint
end DeerQuic
