import DeerQuic.Connection

/-!
# What a call into TLS can do

Between two packets the connection talks to TLS in a few ways only: it hands over a chunk,
takes output for a level, installs keys that came with earlier output, and declares itself
established once the ApplicationData space has keys. `TlsRun` lists them; everything that
a CRYPTO frame causes is such a run, and every invariant below is an induction on it.
-/

namespace DeerQuic

open Outcome

/-- Some output among these events came with the keys. -/
def Delivers (keys : Keys) (events : List Event) : Prop :=
  ∃ level data change, .tlsWrite level data (some change) ∈ events ∧ change.keys = keys

lemma Delivers.append_right {keys : Keys} {events : List Event} (h : Delivers keys events)
    (more : List Event) : Delivers keys (events ++ more) := by
  obtain ⟨level, data, change, hmem, hkeys⟩ := h
  exact ⟨level, data, change, List.mem_append_left more hmem, hkeys⟩

lemma Delivers.append_left {keys : Keys} {events : List Event} (h : Delivers keys events)
    (past : List Event) : Delivers keys (past ++ events) := by
  obtain ⟨level, data, change, hmem, hkeys⟩ := h
  exact ⟨level, data, change, List.mem_append_right past hmem, hkeys⟩

/-- What TLS wrote for a level, in order. -/
def written (level : Nat) (events : List Event) : Bytes :=
  events.flatMap fun
    | .tlsWrite l data _ => if l = level then data else []
    | _ => []

lemma written_append (level : Nat) (events more : List Event) :
    written level (events ++ more) = written level events ++ written level more := by
  simp [written]

namespace Connection

variable {σ : Type} (R : Rustls σ)

/-- From `c`, with these events logged. -/
inductive TlsRun (c : Connection σ) : List Event → Connection σ → Prop where
  | start : TlsRun c [] c
  | session {es : List Event} {c' : Connection σ} (tls : σ) :
      TlsRun c es c' → TlsRun c es { c' with tls }
  | read {es : List Event} {c' : Connection σ} (level : Nat) (data : Bytes) :
      TlsRun c es c' → TlsRun c (es ++ [.tlsRead level data]) (c'.log (.tlsRead level data))
  | write {es : List Event} {c' : Connection σ} (level : Nat) (data : Bytes)
      (change : Option KeyChange) : TlsRun c es c' →
      TlsRun c (es ++ [.tlsWrite level data change])
        { c'.log (.tlsWrite level data change) with
          pendingCrypto :=
            Function.update c'.pendingCrypto level (c'.pendingCrypto level ++ data) }
  | install {es : List Event} {c' : Connection σ} (id : PacketNumberSpace) {keys : Keys} :
      Delivers keys es → TlsRun c es c' → TlsRun c es (c'.installKeys id keys)
  | establish {es : List Event} {c' : Connection σ} :
      (c'.spaces .applicationData).hasKeys = true → TlsRun c es c' →
      TlsRun c es { c' with state := .established }
  | offset {es : List Event} {c' : Connection σ} (cryptoRecvOffset : Nat → Nat) :
      TlsRun c es c' → TlsRun c es { c' with cryptoRecvOffset }

/-- What TLS answers at a level, and at the next one when the answer came with keys. -/
def answers (level : Nat) (tls : σ) : List Event :=
  .tlsWrite level (R.writeHs tls).2.1 (R.writeHs tls).2.2 ::
    if (R.writeHs tls).2.2.isSome ∧ level < 2 then
      [.tlsWrite (level + 1) (R.writeHs (R.writeHs tls).1).2.1 (R.writeHs (R.writeHs tls).1).2.2]
    else []

/-- Taking output and queueing it is one step, also when there is nothing to queue. -/
lemma queueCrypto_writeHs (c : Connection σ) {level : Nat} (hlevel : level < 3) :
    (c.writeHs R level).2.queueCrypto (processTlsOutput (some (c.writeHs R level).1) level).1 =
      { { c with tls := (R.writeHs c.tls).1 }.log
          (.tlsWrite level (c.writeHs R level).1.1 (c.writeHs R level).1.2) with
        pendingCrypto := Function.update c.pendingCrypto level
          (c.pendingCrypto level ++ (c.writeHs R level).1.1) } := by
  by_cases hdata : (R.writeHs c.tls).2.1 = []
  · simp [writeHs, processTlsOutput, queueCrypto, log, hdata]
  · simp [writeHs, processTlsOutput, queueCrypto, log, hdata, hlevel]

lemma queueCrypto_nothing (c : Connection σ) {level : Nat}
    (h : ¬ ((c.writeHs R level).1.1.isEmpty = false ∨ (c.writeHs R level).1.2.isSome)) :
    (c.writeHs R level).2.queueCrypto (processTlsOutput (some (c.writeHs R level).1) level).1 =
      (c.writeHs R level).2 := by
  have hdata : (c.writeHs R level).1.1.isEmpty = true := by
    by_contra hne
    exact h (.inl (by simpa using hne))
  simp [processTlsOutput, hdata, queueCrypto]

namespace TlsRun

variable {R} {c c' : Connection σ} {es : List Event}

lemma writeHs (h : TlsRun c es c') {level : Nat} (hlevel : level < 3) :
    TlsRun c (es ++ [.tlsWrite level (c'.writeHs R level).1.1 (c'.writeHs R level).1.2])
      ((c'.writeHs R level).2.queueCrypto
        (processTlsOutput (some (c'.writeHs R level).1) level).1) := by
  rw [queueCrypto_writeHs R c' hlevel]
  exact .write level _ _ (h.session _)

/-- Keys that the output just taken came with. -/
lemma delivers_last {level : Nat} {out : Bytes × Option KeyChange} {keys : Keys}
    (h : (processTlsOutput (some out) level).2 = some keys) :
    Delivers keys (es ++ [.tlsWrite level out.1 out.2]) := by
  obtain ⟨data, change⟩ := out
  simp only [processTlsOutput, Option.map_eq_some_iff] at h
  obtain ⟨change, rfl, hkeys⟩ := h
  exact ⟨level, data, change, by simp, hkeys⟩

lemma hasKeys_installKeys (c : Connection σ) (id : PacketNumberSpace) (keys : Keys) :
    ((c.installKeys id keys).spaces id).hasKeys = true := by
  simp [installKeys, setSpace, Space.setKeys, Space.hasKeys]

lemma afterInitialKeys (h : TlsRun c es c') {keys : Keys} (hkeys : Delivers keys es) :
    TlsRun c (es ++ [.tlsWrite 1 (R.writeHs c'.tls).2.1 (R.writeHs c'.tls).2.2])
      (c'.afterInitialKeys R keys) := by
  have hinstall : TlsRun c es (if (c'.spaces .handshake).hasKeys then c'
      else c'.installKeys .handshake keys) := by
    split_ifs
    · exact h
    · exact .install .handshake hkeys h
  have htls : (if (c'.spaces .handshake).hasKeys then c'
      else c'.installKeys .handshake keys).tls = c'.tls := by
    split_ifs <;> rfl
  unfold Connection.afterInitialKeys
  rw [← htls]
  generalize (if (c'.spaces .handshake).hasKeys then c'
    else c'.installKeys .handshake keys) = c₁ at hinstall ⊢
  have hwrite := hinstall.writeHs (R := R) (by decide : 1 < 3)
  dsimp only
  by_cases hout : (Connection.writeHs R c₁ 1).1.1.isEmpty = false ∨
      (Connection.writeHs R c₁ 1).1.2.isSome
  · rw [if_pos hout]
    cases hnext : (processTlsOutput (some (c₁.writeHs R 1).1) 1).2 with
    | none => exact hwrite
    | some keys2 =>
      dsimp only
      split_ifs
      · exact hwrite
      · exact .establish (hasKeys_installKeys _ _ _)
          (.install .applicationData (delivers_last hnext) hwrite)
  · rw [if_neg hout]
    rw [queueCrypto_nothing R c₁ hout] at hwrite
    exact hwrite

lemma afterHandshakeKeys (h : TlsRun c es c') {keys : Keys} (hkeys : Delivers keys es) :
    TlsRun c (es ++ [.tlsWrite 2 (R.writeHs c'.tls).2.1 (R.writeHs c'.tls).2.2])
      (c'.afterHandshakeKeys R keys) := by
  have hinstall : TlsRun c es (if (c'.spaces .applicationData).hasKeys then c'
      else { c'.installKeys .applicationData keys with state := .established }) := by
    split_ifs
    · exact h
    · exact .establish (hasKeys_installKeys _ _ _) (.install .applicationData hkeys h)
  have htls : (if (c'.spaces .applicationData).hasKeys then c'
      else { c'.installKeys .applicationData keys with state := .established }).tls = c'.tls := by
    split_ifs <;> rfl
  unfold Connection.afterHandshakeKeys
  rw [← htls]
  generalize (if (c'.spaces .applicationData).hasKeys then c'
    else { c'.installKeys .applicationData keys with state := .established }) = c₁
    at hinstall ⊢
  have hwrite := hinstall.writeHs (R := R) (by decide : 2 < 3)
  dsimp only
  split_ifs with hout
  · cases hnext : (processTlsOutput (some (c₁.writeHs R 2).1) 2).2 with
    | none => exact hwrite
    | some keys2 => exact .install .applicationData (delivers_last hnext) hwrite
  · rw [queueCrypto_nothing R c₁ hout] at hwrite
    exact hwrite

lemma handleCryptoOutput (h : TlsRun c es c') {level : Nat} (hlevel : level < 3) :
    TlsRun c (es ++ answers R level c'.tls)
      ((c'.writeHs R level).2.handleCryptoOutput R
        (processTlsOutput (some (c'.writeHs R level).1) level).1
        (processTlsOutput (some (c'.writeHs R level).1) level).2 level) := by
  have hwrite : TlsRun c
      (es ++ [.tlsWrite level (R.writeHs c'.tls).2.1 (R.writeHs c'.tls).2.2]) _ :=
    h.writeHs (R := R) hlevel
  have htls : ((c'.writeHs R level).2.queueCrypto
      (processTlsOutput (some (c'.writeHs R level).1) level).1).tls = (R.writeHs c'.tls).1 := by
    rw [queueCrypto_writeHs R c' hlevel]
    rfl
  have hkeysOf : (processTlsOutput (some (c'.writeHs R level).1) level).2 =
      (R.writeHs c'.tls).2.2.map KeyChange.keys := rfl
  unfold Connection.handleCryptoOutput answers
  cases hchange : (R.writeHs c'.tls).2.2 with
  | none =>
    rw [hkeysOf, hchange]
    rw [hchange] at hwrite
    simpa using hwrite
  | some change =>
    have hdelivers : Delivers change.keys
        (es ++ [.tlsWrite level (R.writeHs c'.tls).2.1 (some change)]) := by
      rw [← hchange]
      exact delivers_last (hkeysOf.trans (by rw [hchange]; rfl))
    rw [hkeysOf, hchange]
    rw [hchange] at hwrite
    match level, hlevel with
    | 0, _ =>
      have hrun := hwrite.afterInitialKeys (R := R) hdelivers
      rw [htls, List.append_assoc] at hrun
      exact hrun
    | 1, _ =>
      have hrun := hwrite.afterHandshakeKeys (R := R) hdelivers
      rw [htls, List.append_assoc] at hrun
      exact hrun
    | 2, _ => exact hwrite

end TlsRun

/-- A CRYPTO frame at the expected offset: TLS refuses the chunk and nothing but its own
state changes, or the chunk is read and a run follows. -/
lemma feedCrypto_cases (c : Connection σ) {level : Nat} (hlevel : level < 3) (data : Bytes) :
    (∃ e, (R.readHs c.tls data).2 = .error e ∧ c.feedCrypto R level data =
        (err (.tls e), { c with tls := (R.readHs c.tls data).1 })) ∨
      (R.readHs c.tls data).2 = .ok () ∧ ∃ c', c.feedCrypto R level data = (ok (), c') ∧
        TlsRun c (.tlsRead level data :: answers R level (R.readHs c.tls data).1) c' := by
  cases hread : (R.readHs c.tls data).2 with
  | error e => exact .inl ⟨e, rfl, by simp only [feedCrypto, hread]⟩
  | ok _ =>
    have hstart : TlsRun c [.tlsRead level data]
        ({ c with tls := (R.readHs c.tls data).1 }.log (.tlsRead level data)) :=
      .read level data (.session _ .start)
    have hrun := hstart.handleCryptoOutput (R := R) hlevel
    exact .inr ⟨rfl, _, by simp only [feedCrypto, hread]; rfl, .offset _ hrun⟩

namespace TlsRun

variable {c c' : Connection σ} {es : List Event}

lemma history_eq (h : TlsRun c es c') : c'.history = c.history ++ es := by
  induction h with
  | start => simp
  | session _ _ ih | install _ _ _ ih | establish _ _ ih | offset _ _ ih => exact ih
  | read _ _ _ ih | write _ _ _ _ ih => simp [log, ih]

/-- A run logs calls to TLS and nothing else. -/
lemma events (h : TlsRun c es c') {e : Event} (he : e ∈ es) :
    (∃ level data, e = .tlsRead level data) ∨
      ∃ level data change, e = .tlsWrite level data change := by
  induction h with
  | start => simp at he
  | session _ _ ih | install _ _ _ ih | establish _ _ ih | offset _ _ ih => exact ih he
  | read level data _ ih =>
    rcases List.mem_append.mp he with he | he
    · exact ih he
    · exact .inl ⟨level, data, List.mem_singleton.mp he⟩
  | write level data change _ ih =>
    rcases List.mem_append.mp he with he | he
    · exact ih he
    · exact .inr ⟨level, data, change, List.mem_singleton.mp he⟩

/-- Everything TLS writes is queued, at the level it was asked for. -/
lemma pendingCrypto_eq (h : TlsRun c es c') (level : Nat) :
    c'.pendingCrypto level = c.pendingCrypto level ++ written level es := by
  induction h with
  | start => simp [written]
  | session _ _ ih | install _ _ _ ih | establish _ _ ih | offset _ _ ih => exact ih
  | read _ _ _ ih => simpa [log, written_append, written] using ih
  | write l data change _ ih =>
    by_cases hl : level = l
    · subst hl
      simp [written, ih]
    · simp [written, ih, hl, Ne.symm hl]

/-- The rest of a space is not TLS's business. -/
lemma space_eq (h : TlsRun c es c') (id : PacketNumberSpace) :
    (c'.spaces id).pendingAcks = (c.spaces id).pendingAcks ∧
      (c'.spaces id).largestRecvPn = (c.spaces id).largestRecvPn ∧
      (c'.spaces id).nextSendPn = (c.spaces id).nextSendPn := by
  induction h with
  | start => exact ⟨rfl, rfl, rfl⟩
  | session _ _ ih | establish _ _ ih | offset _ _ ih | read _ _ _ ih | write _ _ _ _ ih => exact ih
  | install id' _ _ ih =>
    by_cases hid : id = id'
    · subst hid
      simpa [installKeys, setSpace, Space.setKeys] using ih
    · simpa [installKeys, setSpace, hid] using ih

lemma hasKeys_mono (h : TlsRun c es c') {id : PacketNumberSpace}
    (hkeys : (c.spaces id).hasKeys = true) : (c'.spaces id).hasKeys = true := by
  induction h with
  | start => exact hkeys
  | session _ _ ih | establish _ _ ih | offset _ _ ih | read _ _ _ ih | write _ _ _ _ ih => exact ih
  | install id' _ _ ih =>
    by_cases hid : id = id'
    · subst hid
      exact hasKeys_installKeys _ _ _
    · simpa [installKeys, setSpace, hid] using ih

/-- Keys that were not there before came with output of this run. -/
lemma keys_delivered (h : TlsRun c es c') {id : PacketNumberSpace} {keys : Keys}
    (hkeys : (c'.spaces id).keys = some keys) :
    (c.spaces id).keys = some keys ∨ Delivers keys es := by
  induction h with
  | start => exact .inl hkeys
  | session _ _ ih | establish _ _ ih | offset _ _ ih => exact ih hkeys
  | read _ _ _ ih | write _ _ _ _ ih => exact (ih hkeys).imp_right fun hd => hd.append_right _
  | install id' hd _ ih =>
    by_cases hid : id = id'
    · subst hid
      simp only [installKeys, setSpace, Function.update_self, Space.setKeys,
        Option.some.injEq] at hkeys
      exact .inr (hkeys ▸ hd)
    · exact ih (by simpa [installKeys, setSpace, hid] using hkeys)

/-- The application data, the peer and the role are not touched. -/
lemma same (h : TlsRun c es c') :
    c'.receivedAppData = c.receivedAppData ∧ c'.pendingAppData = c.pendingAppData ∧
      c'.streamSendOffset = c.streamSendOffset ∧ c'.side = c.side ∧ c'.dstCid = c.dstCid := by
  induction h with
  | start => exact ⟨rfl, rfl, rfl, rfl, rfl⟩
  | session _ _ ih | install _ _ _ ih | establish _ _ ih | offset _ _ ih | read _ _ _ ih
  | write _ _ _ _ ih => exact ih

end TlsRun

/-- TLS accepts the chunk and announces keys with each of the two outputs that follow. -/
def AnnouncesTwice (tls : σ) (data : Bytes) : Prop :=
  (R.readHs tls data).2 = .ok () ∧ (R.writeHs (R.readHs tls data).1).2.2.isSome ∧
    (R.writeHs (R.writeHs (R.readHs tls data).1).1).2.2.isSome

/-- The state stays and no 1-RTT keys are new. -/
def Settled (c c' : Connection σ) : Prop :=
  c'.state = c.state ∧
    ((c'.spaces .applicationData).hasKeys = true → (c.spaces .applicationData).hasKeys = true)

lemma queueCrypto_settled (c : Connection σ) (out : Bytes × Option KeyChange) (level : Nat) :
    Settled c (c.queueCrypto (processTlsOutput (some out) level).1) ∧
      (c.queueCrypto (processTlsOutput (some out) level).1).tls = c.tls ∧
      (c.queueCrypto (processTlsOutput (some out) level).1).spaces = c.spaces := by
  unfold Settled
  by_cases hdata : out.1 = [] <;> by_cases hlevel : level < 3 <;>
    simp [processTlsOutput, queueCrypto, hdata, hlevel]

lemma afterInitialKeys_settled (c : Connection σ) (keys : Keys) :
    Settled c (c.afterInitialKeys R keys) ∨
      (c.afterInitialKeys R keys).state = .established ∧
        (c.spaces .applicationData).hasKeys = false ∧ (R.writeHs c.tls).2.2.isSome := by
  unfold afterInitialKeys
  generalize hinstall : (if (c.spaces .handshake).hasKeys then c
    else c.installKeys .handshake keys) = c₁
  have hsame : Settled c c₁ ∧ c₁.tls = c.tls ∧
      (c₁.spaces .applicationData).keys = (c.spaces .applicationData).keys := by
    rw [← hinstall]
    split_ifs <;> simp [Settled, installKeys, setSpace]
  obtain ⟨hsettled, htls, happ⟩ := hsame
  obtain ⟨hqueued, _, hspaces⟩ := queueCrypto_settled (c₁.writeHs R 1).2 (c₁.writeHs R 1).1 1
  dsimp only
  by_cases hout : (c₁.writeHs R 1).1.1.isEmpty = false ∨ (c₁.writeHs R 1).1.2.isSome
  · rw [if_pos hout]
    cases hnext : (processTlsOutput (some (c₁.writeHs R 1).1) 1).2 with
    | none => exact .inl ⟨hqueued.1.trans hsettled.1, fun h => hsettled.2 (hqueued.2 h)⟩
    | some keys2 =>
      dsimp only
      split_ifs with hkeys
      · exact .inl ⟨hqueued.1.trans hsettled.1, fun h => hsettled.2 (hqueued.2 h)⟩
      · refine .inr ⟨rfl, ?_, ?_⟩
        · rw [hspaces] at hkeys
          have hunkeyed : (c₁.spaces .applicationData).hasKeys = false := by
            simpa [writeHs, log] using hkeys
          rwa [Space.hasKeys, happ] at hunkeyed
        · have hchange : (c₁.writeHs R 1).1.2.isSome := by
            by_contra hnone
            simp [processTlsOutput, Option.not_isSome_iff_eq_none.mp hnone] at hnext
          rwa [writeHs, htls] at hchange
  · rw [if_neg hout]
    exact .inl hsettled

lemma afterHandshakeKeys_settled (c : Connection σ) (keys : Keys) :
    Settled c (c.afterHandshakeKeys R keys) ∨
      (c.afterHandshakeKeys R keys).state = .established ∧
        (c.spaces .applicationData).hasKeys = false := by
  unfold afterHandshakeKeys
  generalize hinstall : (if (c.spaces .applicationData).hasKeys then c
    else { c.installKeys .applicationData keys with state := .established }) = c₁
  have hfirst : c₁.state = c.state ∧ (c.spaces .applicationData).hasKeys = true ∨
      c₁.state = .established ∧ (c.spaces .applicationData).hasKeys = false := by
    rw [← hinstall]
    split_ifs with hkeys
    · exact .inl ⟨rfl, hkeys⟩
    · exact .inr ⟨rfl, by simpa using hkeys⟩
  have hstate := (queueCrypto_settled (c₁.writeHs R 2).2 (c₁.writeHs R 2).1 2).1.1
  have hrest : ∀ c' : Connection σ, c'.state = c₁.state →
      Settled c c' ∨ c'.state = .established ∧ (c.spaces .applicationData).hasKeys = false := by
    intro c' hc'
    rcases hfirst with ⟨hsame, hkeys⟩ | ⟨hestablished, hunkeyed⟩
    · exact .inl ⟨hc'.trans hsame, fun _ => hkeys⟩
    · exact .inr ⟨hc'.trans hestablished, hunkeyed⟩
  dsimp only
  split_ifs
  · cases (processTlsOutput (some (c₁.writeHs R 2).1) 2).2 with
    | none => exact hrest _ hstate
    | some keys2 => exact hrest _ hstate
  · exact hrest _ rfl

lemma handleCryptoOutput_settled (c : Connection σ) (out : Bytes × Option KeyChange) {level : Nat}
    (hlevel : level < 3) :
    Settled c (c.handleCryptoOutput R (processTlsOutput (some out) level).1
        (processTlsOutput (some out) level).2 level) ∨
      (c.handleCryptoOutput R (processTlsOutput (some out) level).1
        (processTlsOutput (some out) level).2 level).state = .established ∧
        (c.spaces .applicationData).hasKeys = false ∧
        (level = 1 ∨ level = 0 ∧ out.2.isSome ∧ (R.writeHs c.tls).2.2.isSome) := by
  obtain ⟨hqueued, htls, hspaces⟩ := queueCrypto_settled c out level
  unfold handleCryptoOutput
  cases hkeys : (processTlsOutput (some out) level).2 with
  | none => exact .inl hqueued
  | some keys =>
    have hchange : out.2.isSome := by
      by_contra hnone
      simp [processTlsOutput, Option.not_isSome_iff_eq_none.mp hnone] at hkeys
    generalize c.queueCrypto (processTlsOutput (some out) level).1 = c₁ at hqueued htls hspaces ⊢
    have hback : ∀ c', Settled c₁ c' → Settled c c' := fun c' h =>
      ⟨h.1.trans hqueued.1, fun hk => hqueued.2 (h.2 hk)⟩
    match level, hlevel with
    | 0, _ =>
      rcases afterInitialKeys_settled R c₁ keys with h | ⟨hstate, hunkeyed, hsecond⟩
      · exact .inl (hback _ h)
      · rw [hspaces] at hunkeyed
        rw [htls] at hsecond
        exact .inr ⟨hstate, hunkeyed, .inr ⟨rfl, hchange, hsecond⟩⟩
    | 1, _ =>
      rcases afterHandshakeKeys_settled R c₁ keys with h | ⟨hstate, hunkeyed⟩
      · exact .inl (hback _ h)
      · rw [hspaces] at hunkeyed
        exact .inr ⟨hstate, hunkeyed, .inl rfl⟩
    | 2, _ => exact .inl hqueued

/-- A chunk establishes a connection without 1-RTT keys at the Handshake level, or at the Initial
level when TLS answers it with two sets of keys. -/
lemma feedCrypto_settled (c : Connection σ) {level : Nat} (hlevel : level < 3) (data : Bytes) :
    Settled c (c.feedCrypto R level data).2 ∨
      (c.feedCrypto R level data).2.state = .established ∧
        (c.spaces .applicationData).hasKeys = false ∧
        (level = 1 ∨ level = 0 ∧ AnnouncesTwice R c.tls data) := by
  cases hread : (R.readHs c.tls data).2 with
  | error e => exact .inl (by simp [feedCrypto, hread, Settled])
  | ok _ =>
    have hhandled := handleCryptoOutput_settled R
      (({ c with tls := (R.readHs c.tls data).1 }.log (.tlsRead level data)).writeHs R level).2
      (({ c with tls := (R.readHs c.tls data).1 }.log (.tlsRead level data)).writeHs R level).1
      hlevel
    simp only [feedCrypto, hread]
    rcases hhandled with hsettled | ⟨hstate, hunkeyed, hlevel | ⟨hzero, hfirst, hsecond⟩⟩
    · exact .inl hsettled
    · exact .inr ⟨hstate, hunkeyed, .inl hlevel⟩
    · exact .inr ⟨hstate, hunkeyed, .inr ⟨hzero, hread, hfirst, hsecond⟩⟩

lemma queueCrypto_offset (c : Connection σ) (cryptoOut : List (Nat × Bytes)) :
    (c.queueCrypto cryptoOut).cryptoRecvOffset = c.cryptoRecvOffset := by
  unfold queueCrypto
  induction cryptoOut generalizing c with
  | nil => rfl
  | cons out cryptoOut ih =>
    rw [List.foldl_cons, ih]
    split_ifs <;> rfl

lemma afterInitialKeys_offset (c : Connection σ) (keys : Keys) :
    (c.afterInitialKeys R keys).cryptoRecvOffset = c.cryptoRecvOffset := by
  have hstart : (if (c.spaces .handshake).hasKeys then c
      else c.installKeys .handshake keys).cryptoRecvOffset = c.cryptoRecvOffset := by
    split_ifs <;> rfl
  unfold afterInitialKeys
  generalize (if (c.spaces .handshake).hasKeys then c
    else c.installKeys .handshake keys) = c₁ at hstart ⊢
  have hqueued := (queueCrypto_offset (c₁.writeHs R 1).2
    (processTlsOutput (some (c₁.writeHs R 1).1) 1).1).trans hstart
  dsimp only
  by_cases hout : (c₁.writeHs R 1).1.1.isEmpty = false ∨ (c₁.writeHs R 1).1.2.isSome
  · rw [if_pos hout]
    cases (processTlsOutput (some (c₁.writeHs R 1).1) 1).2 with
    | none => exact hqueued
    | some keys2 =>
      dsimp only
      split_ifs <;> exact hqueued
  · rw [if_neg hout]
    exact hstart

lemma afterHandshakeKeys_offset (c : Connection σ) (keys : Keys) :
    (c.afterHandshakeKeys R keys).cryptoRecvOffset = c.cryptoRecvOffset := by
  have hstart : (if (c.spaces .applicationData).hasKeys then c
      else { c.installKeys .applicationData keys with
        state := .established }).cryptoRecvOffset = c.cryptoRecvOffset := by
    split_ifs <;> rfl
  unfold afterHandshakeKeys
  generalize (if (c.spaces .applicationData).hasKeys then c
    else { c.installKeys .applicationData keys with state := .established }) = c₁ at hstart ⊢
  have hqueued := (queueCrypto_offset (c₁.writeHs R 2).2
    (processTlsOutput (some (c₁.writeHs R 2).1) 2).1).trans hstart
  dsimp only
  split_ifs
  · cases (processTlsOutput (some (c₁.writeHs R 2).1) 2).2 with
    | none | some _ => exact hqueued
  · exact hstart

lemma handleCryptoOutput_offset (c : Connection σ) (cryptoOut : List (Nat × Bytes))
    (newKeys : Option Keys) (level : Nat) :
    (c.handleCryptoOutput R cryptoOut newKeys level).cryptoRecvOffset = c.cryptoRecvOffset := by
  have hqueued := queueCrypto_offset c cryptoOut
  unfold handleCryptoOutput
  cases newKeys with
  | none => exact hqueued
  | some keys =>
    match level with
    | 0 => exact (afterInitialKeys_offset R _ keys).trans hqueued
    | 1 => exact (afterHandshakeKeys_offset R _ keys).trans hqueued
    | _ + 2 => exact hqueued

lemma feedCrypto_offset {c : Connection σ} (level : Nat) {data : Bytes}
    (hread : (R.readHs c.tls data).2 = .ok ()) :
    (c.feedCrypto R level data).2.cryptoRecvOffset =
      Function.update c.cryptoRecvOffset level (c.cryptoRecvOffset level + data.length) := by
  simp only [feedCrypto, hread, handleCryptoOutput_offset]
  rfl

end Connection
end DeerQuic
