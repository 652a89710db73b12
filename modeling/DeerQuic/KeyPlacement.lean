import DeerQuic.Established

/-!
# Where keys are installed

TLS says with each key change which keys it brings. The connection forgets this and goes by the
level of the packet at hand: what comes with Initial-level output goes to the Handshake space
and what comes next to the ApplicationData space, unless there are keys already.
-/

namespace DeerQuic

open Outcome Protection Transition

/-- The key changes TLS announced, in order. -/
def changes (events : List Event) : List KeyChange :=
  events.filterMap fun
    | .tlsWrite _ _ change => change
    | _ => none

/-- TLS announces its Handshake keys once and later its 1-RTT keys once. -/
def OnceEach (events : List Event) : Prop :=
  changes events = [] ∨ (∃ hs, changes events = [.handshake hs]) ∨
    ∃ hs rtt, changes events = [.handshake hs, .oneRtt rtt]

def KeyChange.isHandshake : KeyChange → Bool
  | handshake _ => true
  | oneRtt _ => false

lemma onceEach_iff {events : List Event} :
    OnceEach events ↔
      (changes events).map KeyChange.isHandshake ∈ [[], [true], [true, false]] := by
  unfold OnceEach
  constructor
  · rintro (h | ⟨hs, h⟩ | ⟨hs, rtt, h⟩) <;> simp [h, KeyChange.isHandshake]
  · intro h
    rcases hchanges : changes events with _ | ⟨_ | _, _ | ⟨_ | _, _ | _⟩⟩ <;>
      simp [hchanges, KeyChange.isHandshake] at h ⊢

instance (events : List Event) : Decidable (OnceEach events) := decidable_of_iff _ onceEach_iff.symm

/-- The keys TLS announced for the space. -/
def announced (events : List Event) : PacketNumberSpace → Option Keys
  | .initial => none
  | .handshake => (changes events).findSome? fun
      | .handshake keys => some keys
      | .oneRtt _ => none
  | .applicationData => (changes events).findSome? fun
      | .handshake _ => none
      | .oneRtt keys => some keys

lemma changes_append (events more : List Event) :
    changes (events ++ more) = changes events ++ changes more := by
  simp [changes]

lemma OnceEach.left {events more : List Event} (h : OnceEach (events ++ more)) : OnceEach events := by
  unfold OnceEach at h ⊢
  rw [changes_append] at h
  rcases h with h | ⟨hs, h⟩ | ⟨hs, rtt, h⟩
  · exact .inl (List.append_eq_nil_iff.mp h).1
  · cases hpast : changes events with
    | nil => exact .inl rfl
    | cons change rest =>
      rw [hpast, List.cons_append, List.cons_eq_cons] at h
      obtain ⟨rfl, h⟩ := h
      exact .inr (.inl ⟨hs, by rw [(List.append_eq_nil_iff.mp h).1]⟩)
  · rcases hpast : changes events with _ | ⟨change, _ | ⟨change', rest⟩⟩
    · exact .inl rfl
    · rw [hpast, List.cons_append, List.cons_eq_cons] at h
      obtain ⟨rfl, _⟩ := h
      exact .inr (.inl ⟨hs, rfl⟩)
    · rw [hpast, List.cons_append, List.cons_append, List.cons_eq_cons, List.cons_eq_cons] at h
      obtain ⟨rfl, rfl, h⟩ := h
      exact .inr (.inr ⟨hs, rtt, by rw [(List.append_eq_nil_iff.mp h).1]⟩)

lemma OnceEach.of_cons {events : List Event} (h : OnceEach events) {change : KeyChange}
    {more : List KeyChange} (hlist : changes events = change :: more) :
    ∃ hs, change = .handshake hs ∧ (more = [] ∨ ∃ rtt, more = [.oneRtt rtt]) := by
  rcases h with h | ⟨hs, h⟩ | ⟨hs, rtt, h⟩ <;> rw [hlist] at h
  · cases h
  · obtain ⟨rfl, rfl⟩ := List.cons_eq_cons.mp h
    exact ⟨hs, rfl, .inl rfl⟩
  · obtain ⟨rfl, rfl⟩ := List.cons_eq_cons.mp h
    exact ⟨hs, rfl, .inr ⟨rtt, rfl⟩⟩

namespace Connection

variable {σ : Type} (R : Rustls σ)

def keysOf (c : Connection σ) (id : PacketNumberSpace) : Option Keys := (c.spaces id).keys

lemma keysOf_installKeys (c : Connection σ) (id : PacketNumberSpace) (keys : Keys) :
    (c.installKeys id keys).keysOf = Function.update c.keysOf id (some keys) := by
  funext id'
  by_cases hid : id' = id
  · subst hid
    simp [keysOf, installKeys, setSpace, Space.setKeys]
  · simp [keysOf, installKeys, setSpace, hid]

lemma keysOf_queueCrypto (c : Connection σ) (cryptoOut : List (Nat × Bytes)) :
    (c.queueCrypto cryptoOut).keysOf = c.keysOf := by
  unfold queueCrypto
  induction cryptoOut generalizing c with
  | nil => rfl
  | cons out cryptoOut ih =>
    rw [List.foldl_cons, ih]
    split_ifs <;> rfl

lemma keysOf_installMissing (c : Connection σ) (id : PacketNumberSpace) (keys : Keys) :
    (if (c.spaces id).hasKeys then c else c.installKeys id keys).keysOf =
      Function.update c.keysOf id ((c.keysOf id).or (some keys)) := by
  cases hkeys : c.keysOf id with
  | none =>
    have hnone : (c.spaces id).hasKeys = false := by
      rw [Space.hasKeys, Option.isSome_eq_false_iff, Option.isNone_iff_eq_none]
      exact hkeys
    rw [hnone, if_neg Bool.false_ne_true, keysOf_installKeys]
    rfl
  | some old =>
    have hsome : (c.spaces id).hasKeys = true := by
      rw [Space.hasKeys, Option.isSome_iff_exists]
      exact ⟨old, hkeys⟩
    rw [if_pos hsome, Option.some_or, ← hkeys, Function.update_eq_self]

lemma keysOf_establishMissing (c : Connection σ) (keys : Keys) :
    (if (c.spaces .applicationData).hasKeys then c
      else { c.installKeys .applicationData keys with state := .established }).keysOf =
      Function.update c.keysOf .applicationData ((c.keysOf .applicationData).or (some keys)) := by
  rw [← keysOf_installMissing]
  split_ifs <;> rfl

/-- A second answer for the ApplicationData space. -/
lemma keysOf_afterInitialKeys (c : Connection σ) (keys : Keys) :
    (c.afterInitialKeys R keys).keysOf =
      Function.update
        (Function.update c.keysOf .handshake ((c.keysOf .handshake).or (some keys)))
        .applicationData
        ((c.keysOf .applicationData).or ((R.writeHs c.tls).2.2.map KeyChange.keys)) := by
  have hfirst := keysOf_installMissing c .handshake keys
  have htls : (if (c.spaces .handshake).hasKeys then c
      else c.installKeys .handshake keys).tls = c.tls := by
    split_ifs <;> rfl
  unfold afterInitialKeys
  generalize (if (c.spaces .handshake).hasKeys then c
    else c.installKeys .handshake keys) = c₁ at hfirst htls ⊢
  rw [← hfirst, ← htls]
  have happ : c.keysOf .applicationData = c₁.keysOf .applicationData := by
    rw [hfirst, Function.update_of_ne (by simp)]
  have hqueued : ((c₁.writeHs R 1).2.queueCrypto
      (processTlsOutput (some (c₁.writeHs R 1).1) 1).1).keysOf = c₁.keysOf :=
    keysOf_queueCrypto _ _
  have hnext : (processTlsOutput (some (c₁.writeHs R 1).1) 1).2 =
      (R.writeHs c₁.tls).2.2.map KeyChange.keys := rfl
  have hchange : (c₁.writeHs R 1).1.2 = (R.writeHs c₁.tls).2.2 := rfl
  rw [happ]
  dsimp only
  cases hsecond : (R.writeHs c₁.tls).2.2 with
  | none =>
    rw [hnext, hsecond, Option.map_none, Option.or_none, Function.update_eq_self]
    dsimp only
    split_ifs
    · exact hqueued
    · rfl
  | some change =>
    rw [hnext, hsecond, Option.map_some]
    rw [hchange, hsecond, if_pos (.inr rfl), ← hqueued]
    exact keysOf_establishMissing _ _

lemma keysOf_afterHandshakeKeys (c : Connection σ) (keys : Keys) :
    (c.afterHandshakeKeys R keys).keysOf =
      Function.update c.keysOf .applicationData
        (((R.writeHs c.tls).2.2.map KeyChange.keys).or
          ((c.keysOf .applicationData).or (some keys))) := by
  have hfirst := keysOf_establishMissing c keys
  have htls : (if (c.spaces .applicationData).hasKeys then c
      else { c.installKeys .applicationData keys with state := .established }).tls = c.tls := by
    split_ifs <;> rfl
  unfold afterHandshakeKeys
  generalize (if (c.spaces .applicationData).hasKeys then c
    else { c.installKeys .applicationData keys with state := .established }) = c₁
    at hfirst htls ⊢
  rw [← htls]
  have hqueued : ((c₁.writeHs R 2).2.queueCrypto
      (processTlsOutput (some (c₁.writeHs R 2).1) 2).1).keysOf = c₁.keysOf :=
    keysOf_queueCrypto _ _
  have hnext : (processTlsOutput (some (c₁.writeHs R 2).1) 2).2 =
      (R.writeHs c₁.tls).2.2.map KeyChange.keys := rfl
  have hchange : (c₁.writeHs R 2).1.2 = (R.writeHs c₁.tls).2.2 := rfl
  dsimp only
  cases hsecond : (R.writeHs c₁.tls).2.2 with
  | none =>
    rw [hnext, hsecond, Option.map_none, Option.none_or, ← hfirst]
    dsimp only
    split_ifs
    · exact hqueued
    · rfl
  | some change =>
    rw [hnext, hsecond, Option.map_some, Option.some_or]
    rw [hchange, hsecond, if_pos (.inr rfl)]
    dsimp only
    rw [keysOf_installKeys, hqueued, hfirst, Function.update_idem]

/-- The keys after a chunk that TLS accepted. -/
def keysAfter (keysBefore : PacketNumberSpace → Option Keys) (level : Nat)
    (first second : Option KeyChange) : PacketNumberSpace → Option Keys :=
  match first, level with
  | none, _ => keysBefore
  | some change, 0 => Function.update
      (Function.update keysBefore .handshake ((keysBefore .handshake).or (some change.keys)))
      .applicationData ((keysBefore .applicationData).or (second.map KeyChange.keys))
  | some change, 1 => Function.update keysBefore .applicationData
      ((second.map KeyChange.keys).or ((keysBefore .applicationData).or (some change.keys)))
  | some _, _ => keysBefore

lemma keysOf_handleCryptoOutput (c : Connection σ) (out : Bytes × Option KeyChange) (level : Nat) :
    (c.handleCryptoOutput R (processTlsOutput (some out) level).1
      (processTlsOutput (some out) level).2 level).keysOf =
      keysAfter c.keysOf level out.2 (R.writeHs c.tls).2.2 := by
  obtain ⟨_, htls, _⟩ := queueCrypto_settled c out level
  have hqueued := keysOf_queueCrypto c (processTlsOutput (some out) level).1
  have hkeys : (processTlsOutput (some out) level).2 = out.2.map KeyChange.keys := rfl
  unfold handleCryptoOutput
  rw [hkeys]
  generalize c.queueCrypto (processTlsOutput (some out) level).1 = c₁ at htls hqueued ⊢
  rw [← hqueued, ← htls]
  cases out.2 with
  | none => rfl
  | some change =>
    match level with
    | 0 => exact keysOf_afterInitialKeys R c₁ change.keys
    | 1 => exact keysOf_afterHandshakeKeys R c₁ change.keys
    | _ + 2 => rfl

lemma keysOf_feedCrypto {c : Connection σ} (level : Nat) {data : Bytes}
    (hread : (R.readHs c.tls data).2 = .ok ()) :
    (c.feedCrypto R level data).2.keysOf =
      keysAfter c.keysOf level (R.writeHs (R.readHs c.tls data).1).2.2
        (R.writeHs (R.writeHs (R.readHs c.tls data).1).1).2.2 := by
  simp only [feedCrypto, hread]
  exact keysOf_handleCryptoOutput R
    (({ c with tls := (R.readHs c.tls data).1 }.log (.tlsRead level data)).writeHs R level).2
    (({ c with tls := (R.readHs c.tls data).1 }.log (.tlsRead level data)).writeHs R level).1 level

lemma keysOf_frameNext (id : PacketNumberSpace) {c : Connection σ} {data : Bytes}
    (hread : (R.readHs c.tls data).2 = .ok ()) :
    (frameNext R id c (.crypto (c.cryptoRecvOffset (pnSpaceToLevel id)) data)).keysOf =
      keysAfter c.keysOf (pnSpaceToLevel id) (R.writeHs (R.readHs c.tls data).1).2.2
        (R.writeHs (R.writeHs (R.readHs c.tls data).1).1).2.2 := by
  rw [← keysOf_feedCrypto R (pnSpaceToLevel id) hread]
  simp only [frameNext, processFrame, Nat.le_of_lt_succ (level_lt id), and_self, if_true]
  rcases c.feedCrypto R (pnSpaceToLevel id) data with ⟨_ | _ | _, c'⟩ <;> rfl

/-- The server's first answer, while there are only Initial keys, places keys likewise. -/
lemma keysOf_acceptTlsOutput {c : Connection σ} (hempty : ∀ level, c.pendingCrypto level = [])
    (hhandshake : c.keysOf .handshake = none) (happ : c.keysOf .applicationData = none) :
    (c.acceptTlsOutput R).keysOf =
      keysAfter c.keysOf 0 (R.writeHs c.tls).2.2 (R.writeHs (R.writeHs c.tls).1).2.2 := by
  rw [acceptTlsOutput_eq hempty]
  cases (R.writeHs c.tls).2.2 with
  | none => rfl
  | some change =>
    have hfirst : (tlsWritten R ((tlsWritten R c 0).installKeys .handshake change.keys) 1).keysOf =
        Function.update c.keysOf .handshake (some change.keys) := keysOf_installKeys _ _ _
    have hnone : Function.update c.keysOf .handshake (some change.keys) .applicationData = none := by
      rw [Function.update_of_ne (by simp), happ]
    simp only [keysAfter, hhandshake, happ, Option.none_or]
    cases (R.writeHs (R.writeHs c.tls).1).2.2 with
    | none =>
      rw [Option.map_none, ← hnone, Function.update_eq_self]
      exact hfirst
    | some change2 =>
      rw [Option.map_some, ← hfirst]
      exact keysOf_installKeys _ _ _

/-- The announced keys are where they belong, and no others; the Initial keys are the first
ones, `initial`. -/
def Placed (initial : Option Keys) (c : Connection σ) : Prop :=
  c.keysOf = Function.update (announced c.history) .initial initial

/-- A chunk of the Initial level that TLS answers at once with keys comes before any keys. -/
def NoLateKeys (id : PacketNumberSpace) (c : Connection σ) (frame : Frame) : Prop :=
  ∀ offset data, frame = .crypto offset data → id = .initial →
    offset = c.cryptoRecvOffset (pnSpaceToLevel id) → (R.readHs c.tls data).2 = .ok () →
    changes c.history ≠ [] → (R.writeHs (R.readHs c.tls data).1).2.2 = none

variable {R}

lemma changes_answers (level : Nat) (tls : σ) :
    changes (answers R level tls) = (R.writeHs tls).2.2.toList ++
      if (R.writeHs tls).2.2.isSome ∧ level < 2 then
        (R.writeHs (R.writeHs tls).1).2.2.toList
      else [] := by
  unfold answers
  cases (R.writeHs tls).2.2 <;> split_ifs <;>
    cases (R.writeHs (R.writeHs tls).1).2.2 <;> simp_all [changes]

/-- The first keys are Handshake keys, and only 1-RTT keys come behind them. -/
lemma placed_fed_initial {initial : Option Keys} {past now : List Event} {change : KeyChange}
    {second : Option KeyChange} (hpast : changes past = [])
    (hnow : changes now = change :: second.toList) (honce : OnceEach now) :
    keysAfter (Function.update (announced past) .initial initial) 0 (some change) second =
      Function.update (announced now) .initial initial := by
  obtain ⟨hs, rfl, hsecond | ⟨rtt, hsecond⟩⟩ := honce.of_cons hnow
  · obtain rfl := Option.toList_eq_nil_iff.mp hsecond
    funext id
    cases id <;> simp [keysAfter, announced, hnow, hpast, KeyChange.keys]
  · obtain rfl := Option.toList_eq_singleton_iff.mp hsecond
    funext id
    cases id <;> simp [keysAfter, announced, hnow, hpast, KeyChange.keys]

/-- Behind the Handshake keys come the 1-RTT keys, and nothing more. -/
lemma placed_fed_handshake {initial : Option Keys} {past now : List Event} {change : KeyChange}
    {second : Option KeyChange} (hpast : changes past ≠ [])
    (hnow : changes now = changes past ++ change :: second.toList) (honce : OnceEach now) :
    keysAfter (Function.update (announced past) .initial initial) 1 (some change) second =
      Function.update (announced now) .initial initial := by
  obtain ⟨old, rest, hpast⟩ := List.exists_cons_of_ne_nil hpast
  rw [hpast, List.cons_append] at hnow
  obtain ⟨hs, rfl, hmore | ⟨rtt, hmore⟩⟩ := honce.of_cons hnow
  · simp at hmore
  · rcases List.append_eq_singleton_iff.mp hmore with ⟨rfl, hlast⟩ | ⟨_, hlast⟩
    · obtain ⟨rfl, hsecond⟩ := List.cons_eq_cons.mp hlast
      obtain rfl := Option.toList_eq_nil_iff.mp hsecond
      funext id
      cases id <;> simp [keysAfter, announced, hnow, hpast, KeyChange.keys]
    · cases hlast

/-- Before the last key change there are no 1-RTT keys. -/
lemma announced_before {past now : List Event} {change : KeyChange}
    (hnow : changes now = changes past ++ [change]) (honce : OnceEach now) :
    announced past .applicationData = none := by
  cases hpast : changes past with
  | nil => simp [announced, hpast]
  | cons old rest =>
    rw [hpast, List.cons_append] at hnow
    obtain ⟨hs, rfl, hmore | ⟨rtt, hmore⟩⟩ := honce.of_cons hnow
    · simp at hmore
    · rcases List.append_eq_singleton_iff.mp hmore with ⟨rfl, _⟩ | ⟨_, hlast⟩
      · simp [announced, hpast]
      · cases hlast

/-- A chunk that TLS accepts leaves the keys where they belong. A chunk of another level than
Initial came in a packet for which there were keys. -/
lemma placed_fed (id : PacketNumberSpace) {initial : Option Keys} {past now : List Event}
    {keysBefore : PacketNumberSpace → Option Keys} {first second : Option KeyChange}
    (hplaced : keysBefore = Function.update (announced past) .initial initial)
    (hkeys : id ≠ .initial → (keysBefore id).isSome = true)
    (hnow : changes now = changes past ++ (first.toList ++
      if first.isSome ∧ pnSpaceToLevel id < 2 then second.toList else []))
    (honce : OnceEach now) (hlate : id = .initial → changes past ≠ [] → first = none) :
    keysAfter keysBefore (pnSpaceToLevel id) first second =
      Function.update (announced now) .initial initial := by
  subst hplaced
  cases first with
  | none =>
    have hsame : announced now = announced past := by
      funext id'
      cases id' <;> simp [announced, hnow]
    rw [hsame]
    rfl
  | some change =>
    cases id with
    | initial =>
      have hpast : changes past = [] := by
        by_contra hne
        cases hlate rfl hne
      exact placed_fed_initial hpast (by simp [hnow, hpast, pnSpaceToLevel]) honce
    | handshake =>
      have hpast : changes past ≠ [] := by
        intro hnone
        simp [announced, hnone] at hkeys
      exact placed_fed_handshake hpast (by simp [hnow, pnSpaceToLevel]) honce
    | applicationData =>
      have hlist : changes now = changes past ++ [change] := by simp [hnow, pnSpaceToLevel]
      have hnone := announced_before hlist honce
      have hsome := hkeys (by simp)
      rw [Function.update_of_ne (by simp), hnone] at hsome
      cases hsome

lemma placed_same {initial : Option Keys} {c c' : Connection σ} (es : List Event)
    (h : OnceEach c.history → Placed initial c) (hhistory : c'.history = c.history ++ es)
    (hes : changes es = []) (hkeys : c'.keysOf = c.keysOf) :
    OnceEach c'.history → Placed initial c' := by
  intro honce
  rw [hhistory] at honce
  have hannounced : announced (c.history ++ es) = announced c.history := by
    funext id
    cases id <;> simp [announced, changes_append, hes]
  rw [Placed, hkeys, hhistory, hannounced]
  exact h honce.left

lemma placed_frameNext {id : PacketNumberSpace} {initial : Option Keys} {c : Connection σ}
    {frame : Frame} (h : OnceEach c.history → Placed initial c)
    (hkeys : id ≠ .initial → (c.keysOf id).isSome = true) (hlate : NoLateKeys R id c frame) :
    OnceEach (frameNext R id c frame).history → Placed initial (frameNext R id c frame) := by
  generalize hnext : frameNext R id c frame = c'
  have hstep := frameNext_step R id c frame
  rw [hnext] at hstep
  cases hstep with
  | refused _ _ => exact h
  | @fed offset data c' hoffset hread hrun =>
    subst hoffset
    intro honce
    have hkept := keysOf_frameNext R id hread
    rw [hnext] at hkept
    have hnow : changes (c'.log (.processed id (.crypto (c.cryptoRecvOffset (pnSpaceToLevel id))
        data))).history = changes c.history ++ ((R.writeHs (R.readHs c.tls data).1).2.2.toList ++
        if (R.writeHs (R.readHs c.tls data).1).2.2.isSome ∧ pnSpaceToLevel id < 2 then
          (R.writeHs (R.writeHs (R.readHs c.tls data).1).1).2.2.toList
        else []) := by
      rw [← changes_answers, log, hrun.history_eq]
      simp [changes]
    have hbefore : OnceEach c.history := by
      have hlogged := honce
      rw [log, hrun.history_eq, List.append_assoc] at hlogged
      exact hlogged.left
    rw [Placed, hkept]
    exact placed_fed id (h hbefore) hkeys hnow honce
      fun hid hpast => hlate _ _ rfl hid rfl hread hpast
  | skipped _ | closed _ | confirmed _ | stream | ignored _ => exact placed_same [_] h rfl rfl rfl

variable (R) in
def NoLateKeysStep (c : Connection σ) : Op → Prop
  | .ingest buf => IngestAlong R (NoLateKeys R) c buf
  | _ => True

lemma keysOf_recorded (c : Connection σ) (id : PacketNumberSpace) (pn : Nat) :
    (c.recordRecvPn id pn).keysOf = c.keysOf :=
  funext fun id' => keys_recorded c id id' pn

lemma placed_ingest {initial : Option Keys} {c : Connection σ} {buf : Bytes}
    (h : OnceEach c.history → Placed initial c) (hlate : IngestAlong R (NoLateKeys R) c buf) :
    OnceEach (c.ingest R buf).2.history → Placed initial (c.ingest R buf).2 := by
  rcases ingest_cases R c buf with hsame | ⟨id, pn, frames, hopened, hopen, hnext⟩
  · rw [hsame]
    exact h
  · rw [hnext]
    have hrecorded := keysOf_recorded c id pn
    have hkeys : ((c.recordRecvPn id pn).keysOf id).isSome = true := by
      rw [hrecorded]
      exact openPacket_keys hopen
    have hstart : OnceEach (c.recordRecvPn id pn).history → Placed initial (c.recordRecvPn id pn) :=
      placed_same [.received id pn] h rfl rfl hrecorded
    exact (processFrames_along (P := fun c' => (OnceEach c'.history → Placed initial c') ∧
      (c'.keysOf id).isSome = true) R
      (fun c' frame hc hframe => ⟨placed_frameNext hc.1 (fun _ => hc.2) hframe,
        hasKeys_frameNext frame hc.2⟩)
      ⟨hstart, hkeys⟩ (hlate hopened id pn frames hopen)).1

lemma placed_next {initial : Option Keys} {c : Connection σ} (op : Op)
    (h : OnceEach c.history → Placed initial c) (hop : NoLateKeysStep R c op) :
    OnceEach (next R c op).history → Placed initial (next R c op) := by
  cases op with
  | ingest buf => exact placed_ingest h hop
  | egest bufLen =>
    have hbuilt : ∀ id, OnceEach (c.built id).history → Placed initial (c.built id) := by
      intro id
      obtain ⟨_, _, hkeys, hhistory⟩ := built_same c id
      exact placed_same _ h hhistory rfl (funext hkeys)
    refine egest_induction (P := fun c' => OnceEach c'.history → Placed initial c') bufLen h
      (fun id _ _ _ => hbuilt id) fun id _ _ _ => ?_
    exact placed_same [.sent id _ _] (hbuilt id) rfl rfl rfl
  | sendData data => exact placed_same [.queued data] h rfl rfl rfl
  | recvData bufLen => exact placed_same [.delivered bufLen _] h rfl rfl rfl

/-- The server's first flight comes as the answer to an Initial chunk. -/
lemma placed_accept {initialPacket : Bytes} {c : Connection σ}
    (haccept : accept R initialPacket = ok c) (honce : OnceEach c.history) :
    Placed (c.keysOf .initial) c := by
  simp only [accept, bind_eq_ok, ofOption_eq_ok, ofExcept_eq_ok] at haccept
  obtain ⟨⟨hdr, _⟩, _, keys, _, ⟨frames, _⟩, _, tls, _, _, _, hc⟩ := haccept
  generalize hc₀ : ((fresh .server .handshaking (R.readHs tls (clientHelloOf frames)).1 hdr.version
    hdr.srcCid.bytes hdr.dstCid.bytes keys).log (.tlsRead 0 (clientHelloOf frames)) :
    Connection σ) = c₀ at hc
  have hbefore : c₀.keysOf =
      Function.update (announced [.tlsRead 0 (clientHelloOf frames)]) .initial (some keys) := by
    rw [← hc₀]
    funext id
    cases id <;> rfl
  have hhistory : c₀.history = [.tlsRead 0 (clientHelloOf frames)] := by
    rw [← hc₀]
    rfl
  have hempty : ∀ level, c₀.pendingCrypto level = [] := by
    rw [← hc₀]
    exact fun _ => rfl
  have hkeys : (c₀.acceptTlsOutput R).keysOf = keysAfter c₀.keysOf 0 (R.writeHs c₀.tls).2.2
      (R.writeHs (R.writeHs c₀.tls).1).2.2 := by
    apply keysOf_acceptTlsOutput R hempty
    · rw [hbefore]
      rfl
    · rw [hbefore]
      rfl
  obtain ⟨hrun, _⟩ := TlsRun.acceptTlsOutput (R := R) (TlsRun.start (c := c₀)) hempty
  have hnow : c.history = [.tlsRead 0 (clientHelloOf frames)] ++
      (answers R 0 c₀.tls ++ [.received .initial 0]) := by
    rw [← ok.inj hc, recordRecvPn, log]
    simp only [setSpace, hrun.history_eq, hhistory, List.append_assoc, List.nil_append]
  have hchanges : changes c.history = changes [.tlsRead 0 (clientHelloOf frames)] ++
      ((R.writeHs c₀.tls).2.2.toList ++
        if (R.writeHs c₀.tls).2.2.isSome ∧ pnSpaceToLevel .initial < 2 then
          (R.writeHs (R.writeHs c₀.tls).1).2.2.toList
        else []) := by
    rw [hnow, changes_append, changes_append, changes_answers]
    simp [changes, pnSpaceToLevel]
  have hplaced := placed_fed .initial hbefore (by simp) hchanges honce
    fun _ hpast => absurd rfl hpast
  have hfinal : c.keysOf = Function.update (announced c.history) .initial (some keys) := by
    rw [← hplaced]
    refine Eq.trans ?_ hkeys
    rw [← ok.inj hc]
    exact keysOf_recorded _ .initial 0
  have hinitial : c.keysOf .initial = some keys := by rw [hfinal, Function.update_self]
  rw [Placed, hinitial]
  exact hfinal

lemma placed_started {c : Connection σ} (h : Started R c)
    (hhello : c.side = .client → changes c.history = []) (honce : OnceEach c.history) :
    Placed (c.keysOf .initial) c := by
  cases h with
  | connect _ _ hconnect =>
    obtain ⟨_, _, hello, change, _, _, rfl⟩ := connect_eq hconnect
    have hnone := hhello rfl
    funext id
    cases id <;> simp [announced, hnone, keysOf, Space.new]
  | accept haccept => exact placed_accept haccept honce

/-- As long as TLS announces Handshake keys once and then 1-RTT keys once, they are the keys of
their spaces and nothing else is, if the first does not come with the ClientHello of a client
and the second is no answer to a chunk of the Initial level. -/
theorem keys_placed {s : Connection σ} (hs : Started R s)
    (hhello : s.side = .client → changes s.history = []) {ops : List Op}
    (hlate : Along (next R) (NoLateKeysStep R) s ops) :
    Always (next R) (fun c => OnceEach c.history → Placed (s.keysOf .initial) c) s ops :=
  always_of_along (fun _ op h hop => placed_next op h hop) (placed_started hs hhello) hlate

/-- Keys in both packets of the server. -/
theorem keys_placed_client :
    Always (next (scripted clientFlights))
      (fun c => OnceEach c.history → Placed ((plainClient clientFlights).keysOf .initial) c)
      (plainClient clientFlights) [.ingest (plainLong .initial 0 [.crypto 0 [2]]),
        .ingest (plainLong .handshake 0 [.crypto 0 [3]])] := by
  have hnone : (changes (plainClient clientFlights).history).length = 0 := by decide +kernel
  have hearly : changes (plainClient clientFlights).history = [] := List.length_eq_zero_iff.mp hnone
  have hfirst : (plainClient clientFlights).openPacket (plainLong .initial 0 [.crypto 0 [2]]) =
      ok (.initial, 0, .crypto 0 [2] :: List.replicate 16 .padding) := by
    decide +kernel
  have hsecond : (next (scripted clientFlights) (plainClient clientFlights)
      (.ingest (plainLong .initial 0 [.crypto 0 [2]]))).openPacket
      (plainLong .handshake 0 [.crypto 0 [3]]) =
      ok (.handshake, 0, .crypto 0 [3] :: List.replicate 16 .padding) := by
    decide +kernel
  refine keys_placed (plainClient_started (by decide +kernel)) (fun _ => hearly) ⟨?_, ?_, trivial⟩
  · apply ingestAlong_of_open _ hfirst
    refine ⟨fun _ _ _ _ _ _ hlate => absurd hearly ?_, fun _ => framesAlong_padding _ ?_ _ _⟩
    · simpa [recordRecvPn, log, setSpace, changes] using hlate
    · intro c offset data heq
      cases heq
  · apply ingestAlong_of_open _ hsecond
    apply framesAlong_of_forall
    intro c frame _ offset data _ hid
    cases hid

/-- The 1-RTT keys come with the answer to a second Initial chunk. The Handshake space has keys
already, and the 1-RTT keys are gone. -/
theorem late_keys_dropped :
    Started (scripted clientFlights) (plainClient clientFlights) ∧
      OnceEach (run (next (scripted clientFlights)) (plainClient clientFlights)
        [.ingest (plainLong .initial 0 [.crypto 0 [2], .crypto 1 [3]])]).history ∧
      ¬ Placed ((plainClient clientFlights).keysOf .initial)
        (run (next (scripted clientFlights)) (plainClient clientFlights)
          [.ingest (plainLong .initial 0 [.crypto 0 [2], .crypto 1 [3]])]) := by
  refine ⟨plainClient_started (by decide +kernel), by decide +kernel, fun hplaced => ?_⟩
  have hannounced : (announced (run (next (scripted clientFlights)) (plainClient clientFlights)
      [.ingest (plainLong .initial 0 [.crypto 0 [2], .crypto 1 [3]])]).history
      .applicationData).isSome = true := by
    decide +kernel
  have hnone : ((run (next (scripted clientFlights)) (plainClient clientFlights)
      [.ingest (plainLong .initial 0 [.crypto 0 [2], .crypto 1 [3]])]).keysOf
      .applicationData).isSome = false := by
    decide +kernel
  rw [hplaced, Function.update_of_ne (by simp), hannounced] at hnone
  cases hnone

end Connection
end DeerQuic
