import DeerQuic.Egest

/-!
# Packet numbers as nonces

The AEAD nonce of a packet is its number, so a number must not come back in its space. Every
packet that is built, also one that cannot be encrypted or does not fit the buffer, uses its
number up. `connect` builds its packet before there is a space and takes number 0 out of it
afterwards.
-/

namespace DeerQuic

open Outcome Checked Protection Transition

/-- What `f` makes depends on the AEAD at this packet number only. -/
def SealsAt {ε α : Type} (f : DirectionalKeys → Outcome ε α) (pn : Nat) : Prop :=
  ∀ (header : HeaderProtectionKey) (packet packet' : PacketKey), packet.tagLen = packet'.tagLen →
    (∀ aad payload, packet.encryptInPlace pn aad payload = packet'.encryptInPlace pn aad payload) →
    f ⟨header, packet⟩ = f ⟨header, packet'⟩

lemma protectHeader_congr (header : HeaderProtectionKey) (packet packet' : PacketKey) :
    protectHeader ⟨header, packet⟩ = protectHeader ⟨header, packet'⟩ := rfl

lemma encryptLong_sealsAt (pnSpace : PacketNumberSpace) (version : UInt32)
    (dstCid srcCid frames : Bytes) (pn pnLen : Nat) (token : Option Bytes) :
    SealsAt (fun keys => encryptLong keys pnSpace version dstCid srcCid frames pn pnLen token)
      pn := by
  intro header packet packet' htag hseal
  simp only [encryptLong, htag, hseal, protectHeader_congr header packet packet']

lemma encryptShort_sealsAt (dstCid frames : Bytes) (pn pnLen : Nat) (keyPhase : Bool) :
    SealsAt (fun keys => encryptShort keys dstCid frames pn pnLen keyPhase) pn := by
  intro header packet packet' htag hseal
  simp only [encryptShort, hseal, protectHeader_congr header packet packet']

/-- The space with other keys to send with. -/
def Space.sendingWith (space : Space) (remote keys : DirectionalKeys) : Space :=
  space.setKeys ⟨keys, remote⟩

lemma encryptPacket_sealsAt (space : Space) (remote : DirectionalKeys)
    (pnSpace : PacketNumberSpace) (version : UInt32) (dstCid srcCid : Bytes)
    (frames : List Frame) (pn pnLen : Nat) (isEstablished : Bool) :
    SealsAt (fun keys => encryptPacket (space.sendingWith remote keys) pnSpace version dstCid
      srcCid frames pn pnLen isEstablished) pn := by
  intro header packet packet' htag hseal
  have hlong := fun buf token =>
    encryptLong_sealsAt pnSpace version dstCid srcCid buf pn pnLen token header packet packet' htag
      hseal
  have hshort := fun buf =>
    encryptShort_sealsAt dstCid buf pn pnLen false header packet packet' htag hseal
  dsimp only at hlong hshort
  simp only [encryptPacket, Space.sendingWith, Space.setKeys, Space.localKeys, Option.map_some,
    ofOption_some, ok_bind, htag, hlong, hshort]

lemma buildInitialPacket_sealsAt (remote : DirectionalKeys) (dstCid srcCid clientHello : Bytes)
    (tokenLen : Nat) :
    SealsAt (fun keys => buildInitialPacket ⟨keys, remote⟩ dstCid srcCid clientHello tokenLen)
      0 := by
  intro header packet packet' htag hseal
  have hlong := fun buf =>
    encryptLong_sealsAt .initial Packet.version1 dstCid srcCid buf 0 1 (some []) header packet
      packet' htag hseal
  dsimp only at hlong
  simp only [buildInitialPacket, htag, hlong]

/-- The numbers the packets of the space were built with, in order. -/
def numbersOf (id : PacketNumberSpace) (events : List Event) : List Nat :=
  events.filterMap fun
    | .built id' pn _ => if id' = id then some pn else none
    | _ => none

lemma numbersOf_append (id : PacketNumberSpace) (events more : List Event) :
    numbersOf id (events ++ more) = numbersOf id events ++ numbersOf id more := by
  simp [numbersOf]

lemma numbersOf_eq_nil {id : PacketNumberSpace} {events : List Event}
    (h : ∀ e ∈ events, ∀ pn frames, e ≠ .built id pn frames) : numbersOf id events = [] := by
  apply List.filterMap_eq_nil_iff.mpr
  intro e he
  have hother := h e he
  cases e with
  | built id' pn frames =>
    apply if_neg
    rintro rfl
    exact hother pn frames rfl
  | _ => rfl

lemma Event.Inbound.not_built {e : Event} (h : e.Inbound) (id : PacketNumberSpace) (pn : Nat)
    (frames : List Frame) : e ≠ .built id pn frames := by
  rintro rfl
  exact h

def Op.isEgest : Op → Bool
  | .egest _ => true
  | _ => false

namespace Connection

variable {σ : Type} {R : Rustls σ}

/-- Numbers go up and stay below the next one. -/
def Numbered (c : Connection σ) : Prop :=
  ∀ id, (numbersOf id c.history).Pairwise (· < ·) ∧
    ∀ pn ∈ numbersOf id c.history, pn < (c.spaces id).nextSendPn

/-- The next packet of the space is sealed with the next number of the space. -/
def SealsNext (c : Connection σ) (id : PacketNumberSpace) : Prop :=
  ∀ remote, SealsAt
    (fun keys => (c.setSpace id ((c.spaces id).sendingWith remote keys)).packetOf id)
    (c.spaces id).nextSendPn

lemma framesOf_sendingWith (c : Connection σ) (id id' : PacketNumberSpace)
    (remote keys : DirectionalKeys) :
    (c.setSpace id ((c.spaces id).sendingWith remote keys)).framesOf id' = c.framesOf id' := by
  have hacks : ((c.setSpace id ((c.spaces id).sendingWith remote keys)).spaces id').pendingAcks =
      (c.spaces id').pendingAcks := by
    by_cases hid : id' = id
    · subst hid
      simp [setSpace, Space.sendingWith, Space.setKeys]
    · simp [setSpace, hid]
  rw [framesOf_eq, framesOf_eq, hacks]
  rfl

lemma hasKeys_sendingWith (c : Connection σ) (id id' : PacketNumberSpace)
    (remote keys : DirectionalKeys) :
    ((c.setSpace id ((c.spaces id).sendingWith remote keys)).spaces id').hasKeys =
      if id' = id then true else (c.spaces id').hasKeys := by
  by_cases hid : id' = id
  · subst hid
    simp [setSpace, Space.sendingWith, Space.setKeys, Space.hasKeys]
  · simp [setSpace, hid]

lemma packetOf_sendingWith (c : Connection σ) (id : PacketNumberSpace)
    (remote keys : DirectionalKeys) :
    (c.setSpace id ((c.spaces id).sendingWith remote keys)).packetOf id =
      encryptPacket ((c.spaces id).sendingWith remote keys) id c.version c.dstCid c.srcCid
        (c.framesOf id) (c.spaces id).nextSendPn
        (encodedPnLen (c.spaces id).nextSendPn (c.spaces id).largestRecvPn) c.isEstablished := by
  have hspace : (c.setSpace id ((c.spaces id).sendingWith remote keys)).spaces id =
      (c.spaces id).sendingWith remote keys := Function.update_self _ _ _
  rw [packetOf, framesOf_sendingWith, hspace]
  rfl

lemma sealsNext (c : Connection σ) (id : PacketNumberSpace) : SealsNext c id := by
  intro remote header packet packet' htag hseal
  dsimp only
  rw [packetOf_sendingWith, packetOf_sendingWith]
  exact encryptPacket_sealsAt _ remote id _ _ _ _ _ _ _ header packet packet' htag hseal

/-- Whatever `egest` returns, it depends on the AEAD of a space at the next number of the space only. -/
lemma egest_sealsAt (c : Connection σ) (bufLen : Nat) (id : PacketNumberSpace)
    (remote : DirectionalKeys) :
    SealsAt (fun keys => ((c.setSpace id ((c.spaces id).sendingWith remote keys)).egest bufLen).1)
      (c.spaces id).nextSendPn := by
  intro header packet packet' htag hseal
  have hsame := sealsNext c id remote header packet packet' htag hseal
  dsimp only at hsame ⊢
  generalize hc₁ : c.setSpace id ((c.spaces id).sendingWith remote ⟨header, packet⟩) = c₁ at hsame ⊢
  generalize hc₂ : c.setSpace id ((c.spaces id).sendingWith remote ⟨header, packet'⟩) = c₂ at hsame ⊢
  have hframes : ∀ id', c₁.framesOf id' = c₂.framesOf id' := by
    intro id'
    rw [← hc₁, ← hc₂, framesOf_sendingWith, framesOf_sendingWith]
  have hstate : c₁.state = c₂.state := by
    rw [← hc₁, ← hc₂]
    rfl
  have hpackets : ∀ id', c₁.packetOf id' = c₂.packetOf id' := by
    intro id'
    by_cases hid : id' = id
    · rw [hid]
      exact hsame
    · have hspace : c₁.spaces id' = c₂.spaces id' := by
        rw [← hc₁, ← hc₂]
        exact (Function.update_of_ne hid _ _).trans (Function.update_of_ne hid _ _).symm
      rw [packetOf, packetOf, hframes, hspace, ← hc₁, ← hc₂]
      rfl
  have hbusy : c₁.firstBusy = c₂.firstBusy := by
    have hkeys : ∀ id', (c₁.spaces id').hasKeys = (c₂.spaces id').hasKeys := by
      intro id'
      rw [← hc₁, ← hc₂, hasKeys_sendingWith, hasKeys_sendingWith]
    have hboth : (fun id' => decide (c₁.Busy id')) = fun id' => decide (c₂.Busy id') :=
      funext fun id' => decide_eq_decide.mpr (by rw [Busy, Busy, hkeys, hframes])
    rw [firstBusy, firstBusy, hboth]
  rw [egest_eq, egest_eq, hstate, hbusy]
  split_ifs
  · rfl
  · cases c₂.firstBusy with
    | none => rfl
    | some id' =>
      dsimp only
      rw [hpackets id']
      cases c₂.packetOf id' with
      | err e | panic => rfl
      | ok out =>
        dsimp only
        split_ifs <;> rfl

/-- The number is logged. -/
lemma numbersOf_built (c : Connection σ) (id : PacketNumberSpace) :
    numbersOf id (c.built id).history = numbersOf id c.history ++ [(c.spaces id).nextSendPn] := by
  rw [(built_same c id).2.2.2, numbersOf_append]
  simp [numbersOf]

lemma numbered_same {c c' : Connection σ} {es : List Event} (h : Numbered c)
    (hhistory : c'.history = c.history ++ es)
    (hes : ∀ e ∈ es, ∀ id pn frames, e ≠ .built id pn frames)
    (hnext : ∀ id, (c'.spaces id).nextSendPn = (c.spaces id).nextSendPn) : Numbered c' := by
  intro id
  have hnothing : numbersOf id es = [] := numbersOf_eq_nil fun e he => hes e he id
  rw [hhistory, numbersOf_append, hnothing, List.append_nil, hnext]
  exact h id

lemma numbered_log {c : Connection σ} {e : Event} (h : Numbered c)
    (he : ∀ id pn frames, e ≠ .built id pn frames) : Numbered (c.log e) := by
  refine numbered_same h rfl ?_ fun _ => rfl
  intro e' he'
  rw [List.mem_singleton.mp he']
  exact he

lemma numbered_recorded {c : Connection σ} (h : Numbered c) (id : PacketNumberSpace) (pn : Nat) :
    Numbered (c.recordRecvPn id pn) := by
  refine numbered_same h rfl ?_ fun id' => nextSendPn_recorded c id id' pn
  intro e he
  rw [List.mem_singleton.mp he]
  simp

/-- Receiving takes no numbers. -/
lemma nextSendPn_ingest (c : Connection σ) (buf : Bytes) (id : PacketNumberSpace) :
    ((c.ingest R buf).2.spaces id).nextSendPn = (c.spaces id).nextSendPn := by
  apply ingest_always (P := fun c' => (c'.spaces id).nextSendPn = (c.spaces id).nextSendPn) R ?_ ?_
    rfl buf
  · intro c' id' pn h
    rw [nextSendPn_recorded]
    exact h
  · intro id' c' frame h
    generalize hnext : frameNext R id' c' frame = c''
    have hstep := frameNext_step R id' c' frame
    rw [hnext] at hstep
    cases hstep with
    | fed _ _ hrun => exact (hrun.space_eq id).2.2.trans h
    | refused _ _ | skipped _ | closed _ | confirmed _ | stream | ignored _ => exact h

lemma numbered_built {c : Connection σ} (h : Numbered c) (id : PacketNumberSpace) :
    Numbered (c.built id) := by
  intro id'
  obtain ⟨hsorted, hbelow⟩ := h id'
  rw [(built_same c id).2.2.2, numbersOf_append, nextSendPn_built]
  by_cases hid : id' = id
  · subst hid
    have hnew : numbersOf id' [.built id' (c.spaces id').nextSendPn (c.framesOf id')] =
        [(c.spaces id').nextSendPn] := by simp [numbersOf]
    rw [hnew, if_pos rfl]
    constructor
    · rw [List.pairwise_append]
      refine ⟨hsorted, List.pairwise_singleton _ _, fun pn hpn pn' hpn' => ?_⟩
      rw [List.mem_singleton.mp hpn']
      exact hbelow pn hpn
    · intro pn hpn
      rcases List.mem_append.mp hpn with hold | hnew
      · exact Nat.lt_succ_of_lt (hbelow pn hold)
      · rw [List.mem_singleton.mp hnew]
        exact Nat.lt_succ_self _
  · have hother : numbersOf id' [.built id (c.spaces id).nextSendPn (c.framesOf id)] = [] := by
      simp [numbersOf, Ne.symm hid]
    rw [hother, List.append_nil, if_neg hid]
    exact ⟨hsorted, hbelow⟩

lemma numbered_next {c : Connection σ} (op : Op) (h : Numbered c) : Numbered (next R c op) := by
  cases op with
  | ingest buf =>
    obtain ⟨es, hes, hin⟩ := ingest_history R c buf
    exact numbered_same h hes (fun e he => (hin e he).not_built) (nextSendPn_ingest c buf)
  | egest bufLen =>
    refine egest_induction bufLen h (fun id _ _ _ => numbered_built h id) fun id _ _ _ => ?_
    exact numbered_log (numbered_built h id) (by simp)
  | sendData data => exact numbered_log (e := .queued data) h (by simp)
  | recvData bufLen => exact numbered_log (e := .delivered bufLen _) h (by simp)

/-- A call of `egest` takes one number at most, the other operations take none. -/
lemma nextSendPn_next (c : Connection σ) (op : Op) (id : PacketNumberSpace) :
    ((next R c op).spaces id).nextSendPn ≤
      (c.spaces id).nextSendPn + if op.isEgest then 1 else 0 := by
  cases op with
  | ingest buf => exact (nextSendPn_ingest c buf id).le
  | egest bufLen =>
    have hbuilt : ∀ id', ((c.built id').spaces id).nextSendPn ≤ (c.spaces id).nextSendPn + 1 := by
      intro id'
      rw [nextSendPn_built]
      split_ifs
      · exact Nat.le_refl _
      · exact Nat.le_succ _
    exact egest_induction (P := fun c' => (c'.spaces id).nextSendPn ≤ (c.spaces id).nextSendPn + 1)
      bufLen (Nat.le_succ _) (fun id' _ _ _ => hbuilt id') fun id' _ _ _ => hbuilt id'
  | sendData data | recvData bufLen => exact Nat.le_refl _

lemma nextSendPn_run (s : Connection σ) (ops : List Op) (id : PacketNumberSpace) :
    ((run (next R) s ops).spaces id).nextSendPn ≤
      (s.spaces id).nextSendPn + ops.countP Op.isEgest := by
  induction ops generalizing s with
  | nil => exact Nat.le_refl _
  | cons op ops ih =>
    have hstep := nextSendPn_next (R := R) s op id
    have hrest := ih (next R s op)
    rw [run_cons, List.countP_cons]
    omega

lemma numbered_started {c : Connection σ} (h : Started R c) :
    Numbered c ∧ ∀ id, (c.spaces id).nextSendPn ≤ 1 := by
  cases h with
  | connect _ _ hconnect =>
    obtain ⟨_, _, hello, change, _, _, rfl⟩ := connect_eq hconnect
    constructor
    · intro id
      cases id <;> simp [numbersOf]
    · intro id
      cases id <;> simp [Space.new]
  | accept haccept =>
    obtain ⟨_, _, _, _, _, _, c₁, hrun, _, rfl⟩ := accept_eq haccept
    constructor
    · have hfresh : Numbered c₁ := by
        refine numbered_same ?_ hrun.history_eq ?_ fun id => (hrun.space_eq id).2.2
        · intro id
          exact ⟨.nil, by simp [numbersOf, fresh]⟩
        · intro e he
          rcases hrun.events he with ⟨_, _, rfl⟩ | ⟨_, _, _, rfl⟩ <;> simp
      exact numbered_recorded hfresh .initial 0
    · intro id
      have hnone : ((c₁.recordRecvPn .initial 0).spaces id).nextSendPn = 0 := by
        rw [nextSendPn_recorded, (hrun.space_eq id).2.2]
        cases id <;> rfl
      exact hnone.le.trans (Nat.zero_le 1)

/-- In runs with fewer than `2^62` calls of `egest` the numbers of the packets built in a space
go up, the one of `connect` included, and every packet, also one that then cannot be sealed
or does not fit, is sealed with its own number only: what `egest` makes is the packet of a space, and
depends on the AEAD of that space at the number that it logs. -/
theorem no_nonce_reuse {s : Connection σ} (hs : Started R s) {ops : List Op}
    (hfew : ops.countP Op.isEgest < 2 ^ 62) :
    (∀ id, (numbersOf id (run (next R) s ops).history).Pairwise (· < ·) ∧
      ∀ pn ∈ numbersOf id (run (next R) s ops).history, pn < 2 ^ 62) ∧
    (∀ (c : Connection σ) (bufLen : Nat),
      EgestStep c bufLen (c.egest bufLen).1 (c.egest bufLen).2 ∧
      ∀ id, SealsNext c id ∧
        (∀ remote, SealsAt (fun keys =>
          ((c.setSpace id ((c.spaces id).sendingWith remote keys)).egest bufLen).1)
          (c.spaces id).nextSendPn) ∧
        numbersOf id (c.built id).history =
          numbersOf id c.history ++ [(c.spaces id).nextSendPn]) ∧
    ∀ remote dstCid srcCid clientHello tokenLen,
      SealsAt (fun keys => buildInitialPacket ⟨keys, remote⟩ dstCid srcCid clientHello tokenLen)
        0 := by
  obtain ⟨hstart, hfirst⟩ := numbered_started hs
  have hrun : Numbered (run (next R) s ops) :=
    invariant (P := Numbered) (fun _ op h => numbered_next op h) hstart ops
  refine ⟨fun id => ⟨(hrun id).1, fun pn hpn => ?_⟩, fun c bufLen => ⟨egest_step c bufLen, fun id =>
    ⟨sealsNext c id, egest_sealsAt c bufLen id, numbersOf_built c id⟩⟩, buildInitialPacket_sealsAt⟩
  have hbelow := (hrun id).2 pn hpn
  have hcount := nextSendPn_run (R := R) s ops id
  have hone := hfirst id
  omega

/-- The server's first packet does not fit, and still the second has another number. -/
theorem no_nonce_reuse_server :
    (∀ id, (numbersOf id (run (next (scripted serverFlights)) (plainServer serverFlights)
        [.egest 16, .egest 2048]).history).Pairwise (· < ·) ∧
      ∀ pn ∈ numbersOf id (run (next (scripted serverFlights)) (plainServer serverFlights)
        [.egest 16, .egest 2048]).history, pn < 2 ^ 62) ∧
    (∀ (c : Connection Flights) (bufLen : Nat),
      EgestStep c bufLen (c.egest bufLen).1 (c.egest bufLen).2 ∧
      ∀ id, SealsNext c id ∧
        (∀ remote, SealsAt (fun keys =>
          ((c.setSpace id ((c.spaces id).sendingWith remote keys)).egest bufLen).1)
          (c.spaces id).nextSendPn) ∧
        numbersOf id (c.built id).history =
          numbersOf id c.history ++ [(c.spaces id).nextSendPn]) ∧
    ∀ remote dstCid srcCid clientHello tokenLen,
      SealsAt (fun keys => buildInitialPacket ⟨keys, remote⟩ dstCid srcCid clientHello tokenLen)
        0 :=
  no_nonce_reuse (plainServer_started (by decide +kernel)) (by decide)

end Connection
end DeerQuic
