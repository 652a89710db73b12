import DeerQuic.Egest

/-!
# Established and keyed

A connection that calls itself established should have 1-RTT keys from TLS. Every way of
getting there sees to it but one: the HANDSHAKE_DONE arm asks neither for the space of the
packet nor for keys. In runs in which no Initial or Handshake packet brings HANDSHAKE_DONE
to a client without 1-RTT keys, established connections are keyed.
-/

namespace DeerQuic.Connection

open Outcome Protection Transition

variable {σ : Type} {R : Rustls σ}

/-- Keys that were not there in `c` came with TLS output logged since then. -/
def KeysSince (c c' : Connection σ) : Prop :=
  ∃ es, c'.history = c.history ++ es ∧
    ∀ keys, (c'.spaces .applicationData).keys = some keys →
      (c.spaces .applicationData).keys = some keys ∨ Delivers keys es

/-- An operation that only logs. -/
lemma keysSince_same {c c' : Connection σ} {es : List Event}
    (hkeys : (c'.spaces .applicationData).keys = (c.spaces .applicationData).keys)
    (hhistory : c'.history = c.history ++ es) : KeysSince c c' :=
  ⟨es, hhistory, fun _ h => .inl (hkeys ▸ h)⟩

lemma KeysSince.trans {c c' c'' : Connection σ} (h : KeysSince c c') (h' : KeysSince c' c'') :
    KeysSince c c'' := by
  obtain ⟨es, hes, hkeys⟩ := h
  obtain ⟨es', hes', hkeys'⟩ := h'
  refine ⟨es ++ es', by rw [hes', hes, List.append_assoc], fun keys hk => ?_⟩
  rcases hkeys' keys hk with hk' | hd
  · exact (hkeys keys hk').imp_right fun hd => hd.append_right es'
  · exact .inr (hd.append_left es)

lemma keysSince_recorded (c : Connection σ) (id : PacketNumberSpace) (pn : Nat) :
    KeysSince c (c.recordRecvPn id pn) := by
  have hlogged : (c.recordRecvPn id pn).history = c.history ++ [.received id pn] := rfl
  refine keysSince_same ?_ hlogged
  cases id <;> rfl

lemma keysSince_frameNext (id : PacketNumberSpace) (c : Connection σ) (frame : Frame) :
    KeysSince c (frameNext R id c frame) := by
  generalize hnext : frameNext R id c frame = c'
  have hstep := frameNext_step R id c frame
  rw [hnext] at hstep
  cases hstep with
  | refused _ _ => exact keysSince_same rfl (List.append_nil _).symm
  | fed _ _ hrun =>
    have hrest : KeysSince _ _ := ⟨_, hrun.history_eq, fun keys hk => hrun.keys_delivered hk⟩
    exact hrest.trans (keysSince_same rfl rfl)
  | skipped _ | closed _ | confirmed _ | stream | ignored _ => exact keysSince_same rfl rfl

lemma keysSince_next (c : Connection σ) (op : Op) : KeysSince c (next R c op) := by
  cases op with
  | ingest buf =>
    exact ingest_always (P := KeysSince c) R
      (fun _ id pn h => h.trans (keysSince_recorded _ id pn))
      (fun id _ frame h => h.trans (keysSince_frameNext id _ frame))
      (keysSince_same rfl (List.append_nil _).symm) buf
  | egest bufLen =>
    have hbuilt : ∀ id, KeysSince c (c.built id) := fun id =>
      keysSince_same ((built_same c id).2.2.1 _) (built_same c id).2.2.2
    exact egest_induction bufLen (keysSince_same rfl (List.append_nil _).symm)
      (fun id _ _ _ => hbuilt id)
      (fun id _ _ _ => (hbuilt id).trans (keysSince_same rfl rfl))
  | sendData data => exact ⟨[.queued data], rfl, fun _ hk => .inl hk⟩
  | recvData bufLen => exact ⟨[.delivered bufLen _], rfl, fun _ hk => .inl hk⟩

/-- An established connection has 1-RTT keys, and a client with 1-RTT keys is established
unless it is closed. -/
structure Sound (c : Connection σ) : Prop where
  established : c.state = .established → (c.spaces .applicationData).hasKeys = true
  client : c.side = .client → (c.spaces .applicationData).hasKeys = true →
    c.state = .established ∨ c.state = .closed

lemma hasKeys_frameNext {id id' : PacketNumberSpace} {c : Connection σ} (frame : Frame)
    (h : (c.spaces id').hasKeys = true) : ((frameNext R id c frame).spaces id').hasKeys = true := by
  generalize hnext : frameNext R id c frame = c'
  have hstep := frameNext_step R id c frame
  rw [hnext] at hstep
  cases hstep with
  | fed _ _ hrun => exact hrun.hasKeys_mono h
  | refused _ _ | skipped _ | closed _ | confirmed _ | stream | ignored _ => exact h

lemma side_frameNext (id : PacketNumberSpace) (c : Connection σ) (frame : Frame) :
    (frameNext R id c frame).side = c.side := by
  generalize hnext : frameNext R id c frame = c'
  have hstep := frameNext_step R id c frame
  rw [hnext] at hstep
  cases hstep with
  | fed _ _ hrun => exact hrun.same.2.2.2.1
  | refused _ _ | skipped _ | closed _ | confirmed _ | stream | ignored _ => rfl

lemma hasKeys_of_remoteKeys {space : Space} {remote : DirectionalKeys}
    (h : space.remoteKeys = some remote) : space.hasKeys = true := by
  simp only [Space.remoteKeys, Option.map_eq_some_iff] at h
  obtain ⟨keys, hkeys, _⟩ := h
  rw [Space.hasKeys, hkeys]
  rfl

/-- A packet of a space is opened with its keys. -/
lemma openPacket_keys {c : Connection σ} {buf : Bytes} {id : PacketNumberSpace} {pn : Nat}
    {frames : List Frame} (h : c.openPacket buf = ok (id, pn, frames)) :
    (c.spaces id).hasKeys = true := by
  simp only [openPacket, bind_eq_ok] at h
  obtain ⟨first, _, h⟩ := h
  split_ifs at h
  · simp only [bind_eq_ok, decryptAndParse, ofOption_eq_ok] at h
    obtain ⟨_, _, _, ⟨remote, hkeys, _⟩, h⟩ := h
    obtain ⟨rfl, _⟩ := Prod.mk.inj (ok.inj h)
    exact hasKeys_of_remoteKeys hkeys
  · simp only [bind_eq_ok] at h
    obtain ⟨⟨hdr, _⟩, _, ⟨_, _⟩, hopen, id', hid, h⟩ := h
    obtain ⟨rfl, _⟩ := Prod.mk.inj (ok.inj h)
    cases hty : hdr.ty with
    | initial | handshake | zeroRtt =>
      simp only [hty, decryptAndParseLong, bind_eq_ok, ofOption_eq_ok] at hopen
      obtain ⟨remote, hkeys, _⟩ := hopen
      simp only [hty, spaceOfType, ok.injEq] at hid
      subst hid
      exact hasKeys_of_remoteKeys hkeys
    | retry | versionNegotiation => simp [hty, spaceOfType] at hid

end DeerQuic.Connection
