import DeerQuic.Ingest
import DeerQuic.Transition

/-!
# Runs of a connection

A run starts from a connection that `connect` or `accept` returned and goes on with the
four operations in any order, on any datagrams and with any buffer sizes. An operation that
returns an error is part of the run: the state is what it left behind.
-/

namespace DeerQuic

open Outcome Protection

inductive Op where
  | ingest (datagram : Bytes)
  | egest (bufLen : Nat)
  | sendData (data : Bytes)
  | recvData (bufLen : Nat)

namespace Connection

variable {σ : Type} (R : Rustls σ)

def next (c : Connection σ) : Op → Connection σ
  | .ingest datagram => (c.ingest R datagram).2
  | .egest bufLen => (c.egest bufLen).2
  | .sendData data => c.sendData data
  | .recvData bufLen => (c.recvData bufLen).2

/-- A connection as the application gets it. A client draws connection IDs of 8 bytes. -/
inductive Started : Connection σ → Prop where
  | connect {serverName : String} {dstCid srcCid packet : Bytes} {c : Connection σ} :
      dstCid.length = 8 → srcCid.length = 8 →
      connect R serverName dstCid srcCid = ok (c, packet) → Started c
  | accept {initialPacket : Bytes} {c : Connection σ} :
      accept R initialPacket = ok c → Started c

def Reachable (c : Connection σ) : Prop :=
  ∃ s ops, Started R s ∧ Transition.run (next R) s ops = c

variable {R}

/-- The client's state behind the ClientHello packet. -/
lemma connect_eq {serverName : String} {dstCid srcCid packet : Bytes} {c : Connection σ}
    (h : connect R serverName dstCid srcCid = ok (c, packet)) :
    ∃ tls keys hello change,
      (R.writeHs tls).2 = (hello, change) ∧
      buildInitialPacket keys dstCid srcCid hello 0 = ok packet ∧
      c = { fresh .client .connecting (R.writeHs tls).1 Packet.version1 dstCid srcCid keys with
        spaces := Function.update Space.new .initial
          { (Space.new .initial).setKeys keys with nextSendPn := 1 }
        history := [.tlsWrite 0 hello change, .built .initial 0 [.crypto 0 hello],
          .sent .initial 0 [.crypto 0 hello]] } := by
  simp only [connect, bind_eq_ok, ofOption_eq_ok, ofExcept_eq_ok] at h
  obtain ⟨_, _, tls, _, keys, _, built, hbuild, h⟩ := h
  simp only [ok.injEq, Prod.mk.injEq] at h
  obtain ⟨hc, rfl⟩ := h
  refine ⟨tls, keys, _, _, rfl, hbuild, ?_⟩
  rw [← hc]
  simp [fresh, writeHs, log, setSpace, Space.takeNextSendPn, Space.setKeys, Space.new]

lemma storeCrypto_eq_queueCrypto (c : Connection σ) {level : Nat}
    (h : c.pendingCrypto level = []) (out : Bytes × Option KeyChange) :
    c.storeCrypto (processTlsOutput (some out) level).1 =
      c.queueCrypto (processTlsOutput (some out) level).1 := by
  by_cases hdata : out.1 = [] <;> simp [processTlsOutput, storeCrypto, queueCrypto, hdata, h]

/-- The output of TLS behind what is queued at the level, if there is any. -/
def tlsWritten (R : Rustls σ) (c : Connection σ) (level : Nat) : Connection σ :=
  { { c with tls := (R.writeHs c.tls).1 }.log
      (.tlsWrite level (R.writeHs c.tls).2.1 (R.writeHs c.tls).2.2) with
    pendingCrypto := Function.update c.pendingCrypto level
      (c.pendingCrypto level ++ (R.writeHs c.tls).2.1) }

lemma TlsRun.tlsWritten {c c' : Connection σ} {es : List Event} (h : TlsRun c es c') (level : Nat) :
    TlsRun c (es ++ [.tlsWrite level (R.writeHs c'.tls).2.1 (R.writeHs c'.tls).2.2])
      (tlsWritten R c' level) :=
  .write level _ _ (.session _ h)

/-- On an empty queue replacing is appending. -/
lemma storeCrypto_writeHs {c : Connection σ} {level : Nat} (hlevel : level < 3)
    (hempty : c.pendingCrypto level = []) :
    (c.writeHs R level).2.storeCrypto (processTlsOutput (some (c.writeHs R level).1) level).1 =
      tlsWritten R c level := by
  have hempty' : (c.writeHs R level).2.pendingCrypto level = [] := hempty
  rw [storeCrypto_eq_queueCrypto _ hempty']
  exact queueCrypto_writeHs R c hlevel

/-- What `accept` makes of the answers of TLS, while the queues are empty. -/
lemma acceptTlsOutput_eq {c : Connection σ} (hempty : ∀ level, c.pendingCrypto level = []) :
    c.acceptTlsOutput R =
      match (R.writeHs c.tls).2.2 with
      | none => tlsWritten R c 0
      | some change =>
        let c₁ := tlsWritten R ((tlsWritten R c 0).installKeys .handshake change.keys) 1
        match (R.writeHs (R.writeHs c.tls).1).2.2 with
        | none => c₁
        | some change2 => c₁.installKeys .applicationData change2.keys := by
  have hfirst : (processTlsOutput (some (c.writeHs R 0).1) 0).2 =
      (R.writeHs c.tls).2.2.map KeyChange.keys := rfl
  unfold acceptTlsOutput
  dsimp only
  rw [storeCrypto_writeHs (by decide) (hempty 0), hfirst]
  cases (R.writeHs c.tls).2.2 with
  | none => rfl
  | some change =>
    rw [Option.map_some]
    dsimp only
    generalize hc₁ : (tlsWritten R c 0).installKeys .handshake change.keys = c₁
    have htls : c₁.tls = (R.writeHs c.tls).1 := by
      rw [← hc₁]
      rfl
    have hempty₁ : c₁.pendingCrypto 1 = [] := by
      rw [← hc₁]
      simp [tlsWritten, installKeys, setSpace, hempty]
    have hsecond : (processTlsOutput (some (c₁.writeHs R 1).1) 1).2 =
        (R.writeHs (R.writeHs c.tls).1).2.2.map KeyChange.keys := by
      rw [← htls]
      rfl
    rw [storeCrypto_writeHs (by decide) hempty₁, hsecond]
    by_cases hout : (c₁.writeHs R 1).1.1.isEmpty = false ∨ (c₁.writeHs R 1).1.2.isSome
    · rw [if_pos hout]
      cases (R.writeHs (R.writeHs c.tls).1).2.2 <;> rfl
    · -- Without data and without keys the queue stays as it is.
      have hnone : (R.writeHs (R.writeHs c.tls).1).2.2 = none := by
        rw [← htls]
        exact Option.not_isSome_iff_eq_none.mp (not_or.mp hout).2
      have hnothing := (queueCrypto_nothing R c₁ hout).symm.trans
        (queueCrypto_writeHs R c₁ (by decide))
      rw [if_neg hout, hnone]
      exact hnothing

/-- Accepting is a run as well. -/
lemma TlsRun.acceptTlsOutput {c c' : Connection σ} {es : List Event} (h : TlsRun c es c')
    (hempty : ∀ level, c'.pendingCrypto level = []) :
    TlsRun c (es ++ answers R 0 c'.tls) (c'.acceptTlsOutput R) ∧
      (c'.acceptTlsOutput R).state = c'.state := by
  have hwrite := h.tlsWritten (R := R) 0
  rw [acceptTlsOutput_eq hempty, answers]
  cases hchange : (R.writeHs c'.tls).2.2 with
  | none =>
    rw [hchange] at hwrite
    exact ⟨by simpa using hwrite, rfl⟩
  | some change =>
    rw [hchange] at hwrite
    have hkeys : Delivers change.keys
        (es ++ [.tlsWrite 0 (R.writeHs c'.tls).2.1 (some change)]) :=
      ⟨0, (R.writeHs c'.tls).2.1, change, by simp, rfl⟩
    have hboth := (hwrite.install .handshake hkeys).tlsWritten (R := R) 1
    have htls : ((Connection.tlsWritten R c' 0).installKeys .handshake change.keys).tls =
        (R.writeHs c'.tls).1 := rfl
    rw [htls, List.append_assoc, List.singleton_append] at hboth
    rw [if_pos ⟨rfl, by decide⟩]
    cases hchange2 : (R.writeHs (R.writeHs c'.tls).1).2.2 with
    | none =>
      rw [hchange2] at hboth
      exact ⟨hboth, rfl⟩
    | some change2 =>
      rw [hchange2] at hboth
      have hkeys2 : Delivers change2.keys (es ++
          [.tlsWrite 0 (R.writeHs c'.tls).2.1 (some change),
            .tlsWrite 1 (R.writeHs (R.writeHs c'.tls).1).2.1 (some change2)]) :=
        ⟨1, (R.writeHs (R.writeHs c'.tls).1).2.1, change2, by simp, rfl⟩
      exact ⟨.install .applicationData hkeys2 hboth, rfl⟩

/-- A first packet that the server can decrypt, with a ClientHello that TLS accepts. -/
structure Greeting (R : Rustls σ) (datagram : Bytes) (hdr : LongHeader) (keys : Keys)
    (frames : List Frame) (tls : σ) : Prop where
  parsed : ∃ n, Packet.parseLongHeader datagram = ok (hdr, n)
  keyed : R.initialKeys .server hdr.dstCid.bytes = some keys
  decrypted : ∃ pn, decryptInitial datagram hdr keys = ok (frames, pn)
  session : R.newServer = .ok tls
  read : (R.readHs tls (clientHelloOf frames)).2 = .ok ()

/-- The server before TLS has answered the ClientHello. -/
def greeted (R : Rustls σ) (hdr : LongHeader) (keys : Keys) (frames : List Frame) (tls : σ) :
    Connection σ :=
  fresh .server .handshaking (R.readHs tls (clientHelloOf frames)).1 hdr.version hdr.srcCid.bytes
    hdr.dstCid.bytes keys

/-- The server's state: what the ClientHello made TLS do, packet number 0 recorded. -/
lemma accept_greeting {datagram : Bytes} {c : Connection σ} (h : accept R datagram = ok c) :
    ∃ hdr keys frames tls c₁, Greeting R datagram hdr keys frames tls ∧
      TlsRun (greeted R hdr keys frames tls) (.tlsRead 0 (clientHelloOf frames) ::
        answers R 0 (R.readHs tls (clientHelloOf frames)).1) c₁ ∧
      c₁.state = .handshaking ∧
      c = { c₁.recordRecvPn .initial 0 with
        cryptoRecvOffset := Function.update (fun _ => 0) 0 (clientHelloOf frames).length } := by
  simp only [accept, bind_eq_ok, ofOption_eq_ok, ofExcept_eq_ok, mapErr_eq_ok] at h
  obtain ⟨⟨hdr, n⟩, hparse, keys, hkeys, ⟨frames, pn⟩, hdecrypt, tls, htls, ⟨⟩, hread, hc⟩ := h
  obtain ⟨hrun, hstate⟩ := TlsRun.acceptTlsOutput (R := R) (c := greeted R hdr keys frames tls)
    (.read 0 (clientHelloOf frames) .start) (fun _ => rfl)
  exact ⟨hdr, keys, frames, tls, _, ⟨⟨n, hparse⟩, hkeys, ⟨pn, hdecrypt⟩, htls, hread⟩, hrun, hstate,
    (ok.inj hc).symm⟩

/-- Such a packet is all that `accept` asks for. -/
lemma accept_of_greeting {datagram : Bytes} {hdr : LongHeader} {keys : Keys}
    {frames : List Frame} {tls : σ} (h : Greeting R datagram hdr keys frames tls) :
    ∃ c, accept R datagram = ok c := by
  obtain ⟨⟨n, hparse⟩, hkeys, ⟨pn, hdecrypt⟩, htls, hread⟩ := h
  simp only [accept, hparse, hkeys, hdecrypt, htls, hread, mapErr_ok, ofOption_some, ofExcept_ok,
    ok_bind]
  exact ⟨_, rfl⟩

lemma accept_eq {initialPacket : Bytes} {c : Connection σ} (h : accept R initialPacket = ok c) :
    ∃ tls version dstCid srcCid keys hello c₁,
      TlsRun (fresh .server .handshaking tls version dstCid srcCid keys)
        (.tlsRead 0 hello :: answers R 0 tls) c₁ ∧
      c₁.state = .handshaking ∧
      c = { c₁.recordRecvPn .initial 0 with
        cryptoRecvOffset := Function.update (fun _ => 0) 0 hello.length } := by
  obtain ⟨hdr, keys, frames, tls, c₁, _, hrun, hstate, hc⟩ := accept_greeting h
  exact ⟨_, _, _, _, _, _, _, hrun, hstate, hc⟩

/-- What a server has done when it starts: calls to TLS, and the record of the first packet. -/
lemma accept_history {initialPacket : Bytes} {c : Connection σ}
    (h : accept R initialPacket = ok c) {e : Event} (he : e ∈ c.history) :
    (∃ level data, e = .tlsRead level data) ∨
      (∃ level data change, e = .tlsWrite level data change) ∨ e = .received .initial 0 := by
  obtain ⟨_, _, _, _, _, _, c₁, hrun, _, rfl⟩ := accept_eq h
  change e ∈ c₁.history ++ [.received .initial 0] at he
  rw [hrun.history_eq] at he
  rcases List.mem_append.mp he with he | he
  · rcases hrun.events he with hread | hwrite
    · exact .inl hread
    · exact .inr (.inl hwrite)
  · exact .inr (.inr (List.mem_singleton.mp he))

lemma not_processed_started {c : Connection σ} (h : Started R c) (id : PacketNumberSpace)
    (frame : Frame) : .processed id frame ∉ c.history := by
  intro hmem
  cases h with
  | connect _ _ hconnect =>
    obtain ⟨_, _, hello, _, _, _, rfl⟩ := connect_eq hconnect
    simp at hmem
  | accept haccept =>
    rcases accept_history haccept hmem with ⟨_, _, heq⟩ | ⟨_, _, _, heq⟩ | heq <;> cases heq

/-- An established connection with keys in the Initial and the ApplicationData space. -/
def plainConnection (mask : Bytes → Bytes) : Connection Unit :=
  (fresh .server .established () 1 [0x50] [0x51] (nullKeys mask)).installKeys .applicationData
    (nullKeys mask)

def plainMask : Bytes → Bytes := fun _ => [0, 0, 0, 0, 0]

abbrev Flights := List (Bytes × Option KeyChange)

/-- TLS sessions that take every chunk and answer with prepared flights. -/
def scripted (flights : Flights) : Rustls Flights where
  serverNameValid _ := true
  newClient := .ok flights
  newServer := .ok flights
  readHs tls _ := (tls, .ok ())
  writeHs
    | [] => ([], [], none)
    | flight :: flights => (flights, flight)
  initialKeys _ _ := some (nullKeys plainMask)

/-- Frames and padding, just enough of it for a sample. -/
def plainLong (pnSpace : PacketNumberSpace) (pn : Nat) (frames : List Frame) : Bytes :=
  (encryptLong (nullDirection plainMask) pnSpace 1 [0x51] [0x50]
    (padTo 20 (frames.flatMap Frame.wire)) pn 1
    (if pnSpace = .initial then some [] else none)).getD []

def plainShort (pn : Nat) (frames : List Frame) : Bytes :=
  (encryptShort (nullDirection plainMask) [0x51] (padTo 20 (frames.flatMap Frame.wire)) pn 1
    false).getD []

/-- The server that a ClientHello packet creates. -/
def plainServer (flights : Flights) : Connection Flights :=
  (accept (scripted flights) (plainLong .initial 0 [.crypto 0 [1]])).getD
    (fresh .server .handshaking [] 1 [0x50] [0x51] (nullKeys plainMask))

lemma plainServer_started {flights : Flights}
    (h : (accept (scripted flights) (plainLong .initial 0 [.crypto 0 [1]])).isOk = true) :
    Started (scripted flights) (plainServer flights) :=
  .accept (eq_ok_getD h _)

/-- A client whose first flight is its ClientHello. -/
def plainClient (flights : Flights) : Connection Flights :=
  ((connect (scripted flights) "" (List.replicate 8 0x50) (List.replicate 8 0x51)).getD
    (fresh .client .connecting [] 1 [] [] (nullKeys plainMask), [])).1

lemma plainClient_connect (flights : Flights)
    (h : (connect (scripted flights) "" (List.replicate 8 0x50)
      (List.replicate 8 0x51)).isOk = true) :
    ∃ packet, connect (scripted flights) "" (List.replicate 8 0x50) (List.replicate 8 0x51) =
      ok (plainClient flights, packet) :=
  ⟨_, eq_ok_getD h _⟩

lemma plainClient_started {flights : Flights}
    (h : (connect (scripted flights) "" (List.replicate 8 0x50)
      (List.replicate 8 0x51)).isOk = true) :
    Started (scripted flights) (plainClient flights) := by
  obtain ⟨_, hconnect⟩ := plainClient_connect flights h
  exact .connect (by decide) (by decide) hconnect

/-- What rustls does for a server: both key changes before it reads the client Finished. -/
def serverFlights : Flights :=
  [([2], some (.handshake (nullKeys plainMask))), ([3], some (.oneRtt (nullKeys plainMask)))]

/-- What it does for a client: the Handshake keys with the ServerHello and the 1-RTT keys with the
server's Handshake flight. -/
def clientFlights : Flights :=
  [([1], none), ([], some (.handshake (nullKeys plainMask))), ([], none),
    ([5], some (.oneRtt (nullKeys plainMask)))]

end Connection
end DeerQuic
