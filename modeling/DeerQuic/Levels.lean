import DeerQuic.Egest

/-!
# Levels of TLS output

TLS moves on to the next encryption level with each key change it announces. What it writes
is queued under the level it was asked for, which is the level of the packet that made the
connection ask, or the one after it.
-/

namespace DeerQuic

open Outcome Protection Transition

/-- The level TLS is at: 0 writes Initial packets, 1 Handshake packets, 2 1-RTT packets. -/
def keyChanges (events : List Event) : Nat :=
  events.countP fun
    | .tlsWrite _ _ (some _) => true
    | _ => false

/-- Every chunk is asked for, and queued, under the level TLS is at. -/
def AtLevel : List Event → Prop :=
  Each fun past e =>
    match e with
    | .tlsWrite level data _ => data ≠ [] → level = keyChanges past
    | _ => True

/-- Everything TLS writes, whatever the level. -/
def outputs (events : List Event) : Bytes :=
  events.flatMap fun
    | .tlsWrite _ data _ => data
    | _ => []

def cryptoData (frames : List Frame) : Bytes :=
  frames.flatMap fun
    | .crypto _ data => data
    | _ => []

/-- What went from the queue of a level into packets. -/
def taken (level : Nat) (events : List Event) : Bytes :=
  events.flatMap fun
    | .built id _ frames => if pnSpaceToLevel id = level then cryptoData frames else []
    | _ => []

lemma keyChanges_append (events more : List Event) :
    keyChanges (events ++ more) = keyChanges events + keyChanges more :=
  List.countP_append

lemma taken_append (level : Nat) (events more : List Event) :
    taken level (events ++ more) = taken level events ++ taken level more := by
  simp [taken]

namespace Connection

variable {σ : Type} {R : Rustls σ}

/-- What TLS wrote for a level has gone into packets or waits in the queue of the level. -/
def Queued (c : Connection σ) : Prop :=
  ∀ level, taken level c.history ++ c.pendingCrypto level = written level c.history

lemma TlsRun.taken_eq {c c' : Connection σ} {es : List Event} (h : TlsRun c es c') (level : Nat) :
    taken level es = [] := by
  apply List.flatMap_eq_nil_iff.mpr
  intro e he
  rcases h.events he with ⟨_, _, rfl⟩ | ⟨_, _, _, rfl⟩ <;> rfl

lemma TlsRun.queued {c c' : Connection σ} {es : List Event} (h : TlsRun c es c') (hc : Queued c) :
    Queued c' := by
  intro level
  rw [h.history_eq, taken_append, written_append, h.taken_eq, List.append_nil,
    h.pendingCrypto_eq, ← List.append_assoc, hc level]

/-- Logging what neither writes nor takes. -/
lemma queued_log {c : Connection σ} (h : Queued c) {e : Event}
    (htaken : ∀ level, taken level [e] = []) (hwritten : ∀ level, written level [e] = []) :
    Queued (c.log e) := by
  intro level
  have hlevel := h level
  simp only [log, taken_append, written_append, htaken, hwritten, List.append_nil, hlevel]

lemma queued_frameNext (id : PacketNumberSpace) {c : Connection σ} (frame : Frame) (h : Queued c) :
    Queued (frameNext R id c frame) := by
  have hlog : ∀ c' : Connection σ, Queued c' → Queued (c'.log (.processed id frame)) :=
    fun c' hc' => queued_log hc' (fun _ => rfl) (fun _ => rfl)
  generalize hnext : frameNext R id c frame = c'
  have hstep := frameNext_step R id c frame
  rw [hnext] at hstep
  cases hstep with
  | refused _ _ => exact h
  | fed _ _ hrun => exact hlog _ (hrun.queued h)
  | skipped _ | closed _ | confirmed _ | stream | ignored _ => exact hlog _ h

lemma cryptoData_framesOf (c : Connection σ) (id : PacketNumberSpace) :
    cryptoData (c.framesOf id) = c.pendingCrypto (pnSpaceToLevel id) := by
  rw [cryptoData, flatMap_framesOf]
  simp only [ackFrame, List.append_nil, ite_self, ite_eq_right_iff]
  exact fun hempty => hempty.symm

lemma queued_built {c : Connection σ} (h : Queued c) (id : PacketNumberSpace) :
    Queued (c.built id) := by
  intro level
  have hlevel := h level
  rw [(built_same c id).2.2.2, pendingCrypto_built, taken_append, written_append, ← hlevel]
  by_cases hid : level = pnSpaceToLevel id
  · subst hid
    simp [taken, written, cryptoData_framesOf]
  · simp [taken, written, hid, Ne.symm hid]

lemma queued_next {c : Connection σ} (op : Op) (h : Queued c) : Queued (next R c op) := by
  cases op with
  | ingest buf =>
    exact ingest_always (P := Queued) R
      (fun c id pn hc => queued_log (e := .received id pn) hc (fun _ => rfl) (fun _ => rfl))
      (fun id c frame hc => queued_frameNext id frame hc) h buf
  | egest bufLen =>
    exact egest_induction bufLen h (fun id _ _ _ => queued_built h id)
      (fun id _ _ _ => queued_log (queued_built h id) (fun _ => rfl) (fun _ => rfl))
  | sendData data => exact queued_log (e := .queued data) h (fun _ => rfl) (fun _ => rfl)
  | recvData bufLen => exact queued_log (e := .delivered bufLen _) h (fun _ => rfl) (fun _ => rfl)

lemma queued_started {c : Connection σ} (h : Started R c) : Queued c := by
  cases h with
  | connect _ _ hconnect =>
    obtain ⟨_, _, hello, _, _, _, rfl⟩ := connect_eq hconnect
    intro level
    by_cases hlevel : level = 0
    · subst hlevel
      simp [taken, written, cryptoData, pnSpaceToLevel, fresh]
    · simp [taken, written, pnSpaceToLevel, fresh, Ne.symm hlevel]
  | accept haccept =>
    obtain ⟨_, _, _, _, _, _, c₁, hrun, _, rfl⟩ := accept_eq haccept
    exact queued_log (e := .received .initial 0) (hrun.queued fun _ => rfl) (fun _ => rfl)
      (fun _ => rfl)

/-- When TLS accepts the chunk of a CRYPTO frame and answers with bytes, it is at the level of
the packet that brought the frame. -/
def RightLevel (R : Rustls σ) (id : PacketNumberSpace) (c : Connection σ) (frame : Frame) : Prop :=
  ∀ offset data, frame = .crypto offset data → offset = c.cryptoRecvOffset (pnSpaceToLevel id) →
    (R.readHs c.tls data).2 = .ok () →
    outputs (answers R (pnSpaceToLevel id) (R.readHs c.tls data).1) ≠ [] →
    pnSpaceToLevel id = keyChanges c.history

def RightLevelStep (R : Rustls σ) (c : Connection σ) : Op → Prop
  | .ingest buf => IngestAlong R (RightLevel R) c buf
  | _ => True

lemma atLevel_other {events : List Event} {e : Event} (he : ∀ level data change,
    e ≠ .tlsWrite level data change) : AtLevel (events ++ [e]) ↔ AtLevel events := by
  unfold AtLevel
  rw [each_concat]
  refine and_iff_left ?_
  cases e with
  | tlsWrite level data change => exact absurd rfl (he level data change)
  | _ => trivial

lemma atLevel_write {events : List Event} (level : Nat) (data : Bytes) (change : Option KeyChange) :
    AtLevel (events ++ [.tlsWrite level data change]) ↔
      AtLevel events ∧ (data ≠ [] → level = keyChanges events) :=
  each_concat

/-- Both answers are at the right level when the first is asked for at it: the second is asked
for one level higher, after one more key change. -/
lemma atLevel_answers (events : List Event) (level : Nat) (tls : σ) :
    AtLevel (events ++ answers R level tls) ↔
      AtLevel events ∧ (outputs (answers R level tls) ≠ [] → level = keyChanges events) := by
  unfold answers
  split_ifs with hagain
  · obtain ⟨change, hchange⟩ := Option.isSome_iff_exists.mp hagain.1
    have hsplit : ∀ e₁ e₂ : Event, events ++ [e₁, e₂] = (events ++ [e₁]) ++ [e₂] := by simp
    have hlevel : keyChanges (events ++ [.tlsWrite level (R.writeHs tls).2.1 (some change)]) =
        keyChanges events + 1 := keyChanges_append _ _
    rw [hsplit, atLevel_write, atLevel_write, hchange, hlevel]
    simp only [outputs, List.flatMap_cons, List.flatMap_nil, List.append_nil, ne_eq,
      List.append_eq_nil_iff, Nat.add_right_cancel_iff]
    by_cases hfirst : (R.writeHs tls).2.1 = [] <;>
      by_cases hsecond : (R.writeHs (R.writeHs tls).1).2.1 = [] <;> simp [hfirst, hsecond]
  · rw [atLevel_write]
    simp [outputs]

lemma atLevel_frameNext_iff {id : PacketNumberSpace} {c : Connection σ} {frame : Frame}
    (h : AtLevel c.history) :
    AtLevel (frameNext R id c frame).history ↔ RightLevel R id c frame := by
  have hlog : ∀ c' : Connection σ, AtLevel (c'.log (.processed id frame)).history ↔
      AtLevel c'.history := fun c' => atLevel_other (by simp)
  have hother : (∀ offset data, frame = .crypto offset data →
      offset ≠ c.cryptoRecvOffset (pnSpaceToLevel id) ∨ (R.readHs c.tls data).2 ≠ .ok ()) →
      RightLevel R id c frame := fun hframe offset data heq hoffset hread =>
    ((hframe offset data heq).elim (absurd hoffset) (absurd hread))
  generalize hnext : frameNext R id c frame = c'
  have hstep := frameNext_step R id c frame
  rw [hnext] at hstep
  cases hstep with
  | @refused offset data e _ hread =>
    refine iff_of_true h (hother fun offset' data' heq => .inr ?_)
    obtain ⟨rfl, rfl⟩ := Frame.crypto.inj heq
    rw [hread]
    simp
  | @fed offset data c₁ hoffset hread hrun =>
    have hsplit : c.history ++ .tlsRead (pnSpaceToLevel id) data ::
        answers R (pnSpaceToLevel id) (R.readHs c.tls data).1 =
        (c.history ++ [.tlsRead (pnSpaceToLevel id) data]) ++
          answers R (pnSpaceToLevel id) (R.readHs c.tls data).1 := by simp
    have hlevel : keyChanges (c.history ++ [.tlsRead (pnSpaceToLevel id) data]) =
        keyChanges c.history := keyChanges_append _ _
    rw [hlog, hrun.history_eq, hsplit, atLevel_answers, atLevel_other (by simp), hlevel,
      and_iff_right h]
    constructor
    · intro hright offset' data' heq _ _
      obtain ⟨rfl, rfl⟩ := Frame.crypto.inj heq
      exact hright
    · exact fun hright => hright offset data rfl hoffset hread
  | skipped hoffset =>
    refine (hlog c).trans (iff_of_true h (hother fun offset' data' heq => .inl ?_))
    obtain ⟨rfl, rfl⟩ := Frame.crypto.inj heq
    exact hoffset
  | closed _ | confirmed _ | stream => exact (hlog _).trans (iff_of_true h (hother (by simp)))
  | ignored hidle =>
    refine (hlog _).trans (iff_of_true h (hother fun offset data heq => ?_))
    subst heq
    exact hidle.elim

/-- A chunk under the wrong level stays one. -/
lemma atLevel_lasting {id : PacketNumberSpace} {c : Connection σ} {frame : Frame}
    (h : AtLevel (frameNext R id c frame).history) : AtLevel c.history := by
  obtain ⟨es, hes, _⟩ := frameNext_history R id c frame
  rw [hes] at h
  exact (each_append.mp h).1

lemma atLevel_next_iff {c : Connection σ} (h : AtLevel c.history) (op : Op) :
    AtLevel (next R c op).history ↔ RightLevelStep R c op := by
  have hlog : ∀ (c' : Connection σ) (e : Event), (∀ level data change,
      e ≠ .tlsWrite level data change) → AtLevel c'.history → AtLevel (c'.log e).history :=
    fun c' e he hc' => (atLevel_other he).mpr hc'
  cases op with
  | ingest buf =>
    exact ingest_along_iff (P := fun c => AtLevel c.history) R
      (fun c id pn => atLevel_other (e := .received id pn) (by simp))
      (fun id c frame hc => atLevel_frameNext_iff hc) (fun id c frame => atLevel_lasting) buf h
  | egest bufLen =>
    have hbuilt : ∀ id, AtLevel (c.built id).history := by
      intro id
      rw [(built_same c id).2.2.2]
      exact (atLevel_other (by simp)).mpr h
    exact iff_of_true (egest_induction (P := fun c => AtLevel c.history) bufLen h
      (fun id _ _ _ => hbuilt id) (fun id _ _ _ => hlog _ _ (by simp) (hbuilt id))) trivial
  | sendData data => exact iff_of_true (hlog c (.queued data) (by simp) h) trivial
  | recvData bufLen => exact iff_of_true (hlog c (.delivered bufLen _) (by simp) h) trivial

lemma atLevel_started {c : Connection σ} (h : Started R c) : AtLevel c.history := by
  cases h with
  | connect _ _ hconnect =>
    obtain ⟨_, _, hello, change, _, _, rfl⟩ := connect_eq hconnect
    have hwrite : AtLevel ([] ++ [.tlsWrite 0 hello change]) :=
      (atLevel_write 0 hello change).mpr ⟨each_nil _, fun _ => rfl⟩
    have hbuilt : AtLevel ([.tlsWrite 0 hello change] ++ [.built .initial 0 [.crypto 0 hello]]) :=
      (atLevel_other (by simp)).mpr hwrite
    have hsent := (atLevel_other (e := .sent .initial 0 [.crypto 0 hello]) (by simp)).mpr hbuilt
    exact hsent
  | accept haccept =>
    obtain ⟨tls, _, _, _, _, hello, c₁, hrun, _, rfl⟩ := accept_eq haccept
    refine (atLevel_other (e := .received .initial 0) (by simp)).mpr ?_
    have hread : AtLevel ([] ++ [.tlsRead 0 hello]) :=
      (atLevel_other (by simp)).mpr (each_nil _)
    change AtLevel c₁.history
    rw [hrun.history_eq]
    exact (atLevel_answers [.tlsRead 0 hello] 0 tls).mpr ⟨hread, fun _ => rfl⟩

/-- Every chunk TLS writes is queued under the level TLS is at exactly in the runs in which TLS,
when it answers a chunk with bytes, is at the level of the packet that brought the chunk. -/
theorem tls_output_level_iff {s : Connection σ} (hs : Started R s) (ops : List Op) :
    Always (next R) (fun c => Queued c ∧ AtLevel c.history) s ops ↔
      Along (next R) (RightLevelStep R) s ops := by
  have hany : Along (next R) (fun _ _ => True) s ops := along_of_forall (fun _ _ => trivial) s ops
  refine always_iff_along (I := Queued) (fun c op h _ => queued_next op h)
    (fun c op h _ hc => ?_) (queued_started hs) ⟨queued_started hs, atLevel_started hs⟩ hany
  rw [and_iff_right (queued_next op h)]
  exact atLevel_next_iff hc.2 op

/-- The client's answer to the server's first packet goes out at Handshake level. -/
theorem tls_output_level_iff_client :
    Always (next (scripted [([1], none), ([], some (.handshake (nullKeys plainMask))), ([5], none)]))
      (fun c => Queued c ∧ AtLevel c.history)
      (plainClient [([1], none), ([], some (.handshake (nullKeys plainMask))), ([5], none)])
      [.ingest (plainLong .initial 0 [.crypto 0 [2]])] := by
  have hopen : (plainClient
      [([1], none), ([], some (.handshake (nullKeys plainMask))), ([5], none)]).openPacket
      (plainLong .initial 0 [.crypto 0 [2]]) =
      ok (.initial, 0, .crypto 0 [2] :: List.replicate 16 .padding) := by
    decide +kernel
  refine (tls_output_level_iff (plainClient_started (by decide +kernel)) _).mpr
    ⟨ingestAlong_of_open _ hopen ⟨?_, fun _ => framesAlong_padding _ ?_ _ _⟩, trivial⟩
  · intro offset data _ _ _ _
    decide +kernel
  · intro c offset data heq
    cases heq

/-- What a server writes after it has read the client's Finished is queued for Handshake
packets. -/
theorem tickets_at_handshake_level :
    Started (scripted (serverFlights ++ [([4], none)]))
        (plainServer (serverFlights ++ [([4], none)])) ∧
      (run (next (scripted (serverFlights ++ [([4], none)])))
        (plainServer (serverFlights ++ [([4], none)]))
        [.ingest (plainLong .handshake 0 [.crypto 0 [9]])]).pendingCrypto 1 = [3, 4] ∧
      ¬ AtLevel (run (next (scripted (serverFlights ++ [([4], none)])))
        (plainServer (serverFlights ++ [([4], none)]))
        [.ingest (plainLong .handshake 0 [.crypto 0 [9]])]).history := by
  have hstarted : Started (scripted (serverFlights ++ [([4], none)]))
      (plainServer (serverFlights ++ [([4], none)])) := plainServer_started (by decide +kernel)
  refine ⟨hstarted, by decide +kernel, fun h => ?_⟩
  have hopen : (plainServer (serverFlights ++ [([4], none)])).openPacket
      (plainLong .handshake 0 [.crypto 0 [9]]) =
      ok (.handshake, 0, .crypto 0 [9] :: List.replicate 16 .padding) := by
    decide +kernel
  have hstep := (atLevel_next_iff (atLevel_started hstarted) (.ingest _)).mp h
  have hlevel := (hstep (by decide +kernel) _ _ _ hopen).1 0 [9] rfl (by decide +kernel) rfl
    (by decide +kernel)
  revert hlevel
  decide +kernel

end Connection
end DeerQuic
