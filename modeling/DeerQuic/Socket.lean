import DeerQuic.Endpoint
import DeerQuic.Pipe

/-!
# An endpoint on a socket

The backend of `ep_client` and `ep_server` reads one UDP socket. A server's backend takes the sender
of the first datagram for its peer and sends everything there. Where datagrams come from is not
looked at again. What goes wrong in a step may end the step, but costs no datagram that is not read.
-/

namespace DeerQuic

open Outcome Transition

/-- The peer, once it is known, the datagrams that have arrived and are not read, and those sent. -/
structure EpollBackend (Addr : Type) where
  peer : Option Addr
  inbox : List (Addr × Bytes)
  outbox : List (Addr × Bytes)

/-- How the system calls of one step go. `epoll_wait` may fail, or say that there is something to
read or nothing; `recv_from` may fail after some datagrams even if more have arrived; and `send_to`
may fail. -/
structure Kernel (Addr : Type) where
  polled : Option Bool
  ready : Nat
  takes : Addr → Bytes → Bool

namespace EpollBackend

variable {Addr : Type}

/-- What does not fit the buffer is cut off. -/
def recv (b : EpollBackend Addr) (bufLen : Nat) : Option (Bytes × Addr) × EpollBackend Addr :=
  match b.inbox with
  | [] => (none, b)
  | (addr, datagram) :: rest =>
    (some (datagram.take bufLen, addr),
      { b with peer := if b.peer.isNone then some addr else b.peer, inbox := rest })

/-- Whether the datagram was sent. -/
def send (takes : Addr → Bytes → Bool) (b : EpollBackend Addr) (data : Bytes) :
    Bool × EpollBackend Addr :=
  match b.peer with
  | some addr =>
    if takes addr data then (true, { b with outbox := b.outbox ++ [(addr, data)] }) else (false, b)
  | none => (false, b)

end EpollBackend

structure EpEndpoint (Addr σ : Type) where
  conn : Connection σ
  backend : EpollBackend Addr

/-- What happens to an endpoint from outside. -/
inductive Call (Addr : Type) where
  | arrives (addr : Addr) (datagram : Bytes)
  | step (kernel : Kernel Addr)
  | sendAppData (kernel : Kernel Addr) (data : Bytes)
  | recvAppData (kernel : Kernel Addr) (bufLen : Nat)

namespace EpEndpoint

variable {Addr σ : Type} (R : Rustls σ)

open Endpoint (maxDgram)

/-- Any error of `recv` ends the loop, as a datagram without bytes does. -/
def recvLoop : Nat → EpEndpoint Addr σ → Outcome ConnectionError Unit × EpEndpoint Addr σ
  | 0, e => (ok (), e)
  | ready + 1, e =>
    match e.backend.recv maxDgram with
    | (none, _) => (ok (), e)
    | (some (data, _), backend) =>
      if data.isEmpty then (ok (), { e with backend })
      else match e.conn.ingest R data with
        | (ok _, conn) => recvLoop ready { conn, backend }
        | (err x, conn) => (err x, { conn, backend })
        | (.panic, conn) => (.panic, { conn, backend })

/-- The loop of `flush_egress`. -/
def flushEgressFuel (takes : Addr → Bytes → Bool) :
    Nat → EpEndpoint Addr σ → Outcome ConnectionError Unit × EpEndpoint Addr σ
  | 0, e => (.panic, e)
  | fuel + 1, e =>
    match e.conn.egest maxDgram with
    | (ok [], conn) => (ok (), { e with conn })
    | (ok packet, conn) =>
      match e.backend.send takes packet with
      | (true, backend) => flushEgressFuel takes fuel { conn, backend }
      | (false, backend) => (err .internal, { conn, backend })
    | (err x, conn) => (err x, { e with conn })
    | (.panic, conn) => (.panic, { e with conn })

/-- Four packets at most, as for any backend. -/
def flushEgress (takes : Addr → Bytes → Bool) (e : EpEndpoint Addr σ) :
    Outcome ConnectionError Unit × EpEndpoint Addr σ :=
  flushEgressFuel takes 5 e

/-- The part of `step` behind a poll that found data. -/
def receiveAndFlush (kernel : Kernel Addr) (e : EpEndpoint Addr σ) :
    Outcome ConnectionError Unit × EpEndpoint Addr σ :=
  match recvLoop R kernel.ready e with
  | (ok _, e) => flushEgress kernel.takes e
  | (err x, e) => (err x, e)
  | (.panic, e) => (.panic, e)

def step (kernel : Kernel Addr) (e : EpEndpoint Addr σ) :
    Outcome ConnectionError Bool × EpEndpoint Addr σ :=
  match kernel.polled with
  | none => (err .internal, e)
  | some worked =>
    match if worked then receiveAndFlush R kernel e else flushEgress kernel.takes e with
    | (ok _, e) => (ok worked, e)
    | (err x, e) => (err x, e)
    | (.panic, e) => (.panic, e)

def sendAppData (kernel : Kernel Addr) (e : EpEndpoint Addr σ) (data : Bytes) :
    Outcome ConnectionError Unit × EpEndpoint Addr σ :=
  flushEgress kernel.takes { e with conn := e.conn.sendData data }

/-- What the step returns is ignored. -/
def recvAppData (kernel : Kernel Addr) (e : EpEndpoint Addr σ) (bufLen : Nat) :
    Bytes × EpEndpoint Addr σ :=
  let e := (step R kernel e).2
  let out := e.conn.recvData bufLen
  (out.1, { e with conn := out.2 })

def next (e : EpEndpoint Addr σ) : Call Addr → EpEndpoint Addr σ
  | .arrives addr datagram =>
    { e with backend := { e.backend with inbox := e.backend.inbox ++ [(addr, datagram)] } }
  | .step kernel => (step R kernel e).2
  | .sendAppData kernel data => (sendAppData kernel e data).2
  | .recvAppData kernel bufLen => (recvAppData R kernel e bufLen).2

end EpEndpoint

def Op.datagram : Op → Option Bytes
  | .ingest datagram => some datagram
  | _ => none

/-- The packet that a call of `egest` returns. -/
def egested {σ : Type} (c : Connection σ) : Op → List Bytes
  | .egest bufLen =>
    match (c.egest bufLen).1 with
    | ok (b :: packet) => [b :: packet]
    | _ => []
  | _ => []

/-- What the endpoint's buffer holds of a datagram. -/
def payload {Addr : Type} (d : Addr × Bytes) : Bytes := d.2.take Endpoint.maxDgram

namespace EpEndpoint

variable {Addr σ : Type} {R : Rustls σ}

open Endpoint (maxDgram)

/-- With these operations of the connection and these datagrams from the socket the endpoint gets
from one state to the other, while others arrive. -/
structure ServedBy (R : Rustls σ) (e : EpEndpoint Addr σ) (arrived : List (Addr × Bytes))
    (e' : EpEndpoint Addr σ) (ops : List Op) (taken sent : List (Addr × Bytes)) : Prop where
  conn : e'.conn = run (Connection.next R) e.conn ops
  inbox : e.backend.inbox ++ arrived = taken ++ e'.backend.inbox
  read : ops.filterMap Op.datagram = (taken.map payload).filter (· ≠ [])
  peer : e'.backend.peer = e.backend.peer.or (taken.head?.map Prod.fst)
  outbox : e'.backend.outbox = e.backend.outbox ++ sent
  addressed : ∀ d ∈ sent, e'.backend.peer = some d.1
  packets : (sent.map Prod.snd).Sublist (observed (Connection.next R) egested e.conn ops)

def Served (R : Rustls σ) (e : EpEndpoint Addr σ) (arrived : List (Addr × Bytes))
    (e' : EpEndpoint Addr σ) : Prop :=
  ∃ ops taken sent, ServedBy R e arrived e' ops taken sent

lemma Served.refl (e : EpEndpoint Addr σ) : Served R e [] e :=
  ⟨[], [], [], rfl, List.append_nil _, rfl, (Option.or_none).symm, (List.append_nil _).symm,
    fun _ hd => absurd hd List.not_mem_nil, List.Sublist.refl _⟩

lemma Served.trans {e e' e'' : EpEndpoint Addr σ} {arrived more : List (Addr × Bytes)}
    (h : Served R e arrived e') (h' : Served R e' more e'') : Served R e (arrived ++ more) e'' := by
  obtain ⟨ops, taken, sent, hconn, hinbox, hread, hpeer, houtbox, haddressed, hpackets⟩ := h
  obtain ⟨ops', taken', sent', hconn', hinbox', hread', hpeer', houtbox', haddressed', hpackets'⟩ :=
    h'
  refine ⟨ops ++ ops', taken ++ taken', sent ++ sent', ?_, ?_, ?_, ?_, ?_, ?_, ?_⟩
  · rw [hconn', hconn, run_append]
  · rw [← List.append_assoc, hinbox, List.append_assoc, hinbox', List.append_assoc]
  · rw [List.filterMap_append, hread, hread', List.map_append, List.filter_append]
  · rw [hpeer', hpeer, Option.or_assoc, List.head?_append, ← Option.map_or]
  · rw [houtbox', houtbox, List.append_assoc]
  · intro d hd
    rcases List.mem_append.mp hd with hd | hd
    · rw [hpeer', haddressed d hd]
      rfl
    · exact haddressed' d hd
  · rw [List.map_append, observed_append, ← hconn]
    exact hpackets.append hpackets'

/-- An operation that leaves the socket alone. -/
lemma served_op (e : EpEndpoint Addr σ) (op : Op) (hop : op.datagram = none) :
    Served R e [] { e with conn := Connection.next R e.conn op } := by
  refine ⟨[op], [], [], rfl, List.append_nil _, ?_, (Option.or_none).symm, (List.append_nil _).symm,
    fun _ hd => absurd hd List.not_mem_nil, List.nil_sublist _⟩
  rw [List.filterMap_cons_none hop]
  rfl

lemma served_arrives (e : EpEndpoint Addr σ) (d : Addr × Bytes) :
    Served R e [d] { e with backend := { e.backend with inbox := e.backend.inbox ++ [d] } } :=
  ⟨[], [], [], rfl, rfl, rfl, (Option.or_none).symm, (List.append_nil _).symm,
    fun _ hd => absurd hd List.not_mem_nil, List.Sublist.refl _⟩

/-- The peer is the one there was, or the sender of the first datagram. -/
lemma peer_learned (peer : Option Addr) (addr : Addr) :
    (if peer.isNone then some addr else peer) = peer.or (some addr) := by
  cases peer <;> rfl

/-- A datagram is read, and ingested unless it is empty. -/
lemma served_recv {e : EpEndpoint Addr σ} {data : Bytes} {addr : Addr} {backend : EpollBackend Addr}
    (h : e.backend.recv maxDgram = (some (data, addr), backend)) :
    Served R e [] { e with backend, conn := if data.isEmpty then e.conn
      else (e.conn.ingest R data).2 } := by
  rw [EpollBackend.recv] at h
  cases hinbox : e.backend.inbox with
  | nil => rw [hinbox] at h; cases h
  | cons d rest =>
    rw [hinbox] at h
    obtain ⟨hdata, rfl⟩ := Prod.mk.inj h
    obtain ⟨rfl, rfl⟩ := Prod.mk.inj (Option.some.inj hdata)
    have hpayload : payload d = d.2.take maxDgram := rfl
    cases hempty : (d.2.take maxDgram).isEmpty with
    | true =>
      have hnil := List.isEmpty_iff.mp hempty
      refine ⟨[], [d], [], rfl, ?_, ?_, peer_learned _ _, (List.append_nil _).symm,
        fun _ hd => absurd hd List.not_mem_nil, List.Sublist.refl _⟩
      · rw [hinbox, List.append_nil, List.singleton_append]
      · simp [hpayload, hnil]
    | false =>
      have hne : d.2.take maxDgram ≠ [] := fun hnil => by
        rw [hnil] at hempty
        cases hempty
      refine ⟨[.ingest (d.2.take maxDgram)], [d], [], rfl, ?_, ?_, peer_learned _ _,
        (List.append_nil _).symm, fun _ hd => absurd hd List.not_mem_nil, List.nil_sublist _⟩
      · rw [hinbox, List.append_nil, List.singleton_append]
      · simp [hpayload, hne, Op.datagram]

lemma served_recvLoop (ready : Nat) (e : EpEndpoint Addr σ) :
    Served R e [] (recvLoop R ready e).2 := by
  induction ready generalizing e with
  | zero => exact Served.refl e
  | succ ready ih =>
    rw [recvLoop]
    rcases hrecv : e.backend.recv maxDgram with ⟨_ | ⟨data, addr⟩, backend⟩
    · exact Served.refl e
    · have hread := served_recv (R := R) hrecv
      dsimp only
      cases hempty : data.isEmpty with
      | true =>
        rw [hempty] at hread
        exact hread
      | false =>
        rw [hempty] at hread
        rcases hingest : e.conn.ingest R data with ⟨_ | _ | _, conn⟩ <;> rw [hingest] at hread
        · exact hread.trans (ih _)
        · exact hread
        · exact hread

/-- A packet leaves for the peer, or the backend is as it was. -/
lemma send_cases {takes : Addr → Bytes → Bool} {b b' : EpollBackend Addr} {data : Bytes}
    {sent : Bool} (h : b.send takes data = (sent, b')) :
    sent = true ∧ (∃ addr, b.peer = some addr ∧
        b' = { b with outbox := b.outbox ++ [(addr, data)] }) ∨
      sent = false ∧ b' = b := by
  obtain ⟨_ | addr, inbox, outbox⟩ := b
  · obtain ⟨rfl, rfl⟩ := Prod.mk.inj h
    exact .inr ⟨rfl, rfl⟩
  · rw [EpollBackend.send] at h
    by_cases htaken : takes addr data = true
    · simp only [if_pos htaken] at h
      obtain ⟨rfl, rfl⟩ := Prod.mk.inj h
      exact .inl ⟨rfl, addr, rfl, rfl⟩
    · simp only [if_neg htaken] at h
      obtain ⟨rfl, rfl⟩ := Prod.mk.inj h
      exact .inr ⟨rfl, rfl⟩

/-- A call of `egest` whose packet leaves. -/
lemma served_egest {e : EpEndpoint Addr σ} {b : UInt8} {rest : Bytes} {conn : Connection σ}
    {addr : Addr} (h : e.conn.egest maxDgram = (ok (b :: rest), conn))
    (hpeer : e.backend.peer = some addr) :
    Served R e [] { conn, backend := { e.backend with
      outbox := e.backend.outbox ++ [(addr, b :: rest)] } } := by
  have hconn : conn = Connection.next R e.conn (.egest maxDgram) := by
    rw [Connection.next, h]
  refine ⟨[.egest maxDgram], [], [(addr, b :: rest)], hconn, List.append_nil _, rfl,
    (Option.or_none).symm, rfl, ?_, ?_⟩
  · intro d hd
    rw [List.mem_singleton.mp hd]
    exact hpeer
  · simp [observed, egested, h]

lemma served_flush (takes : Addr → Bytes → Bool) (fuel : Nat) (e : EpEndpoint Addr σ) :
    Served R e [] (flushEgressFuel takes fuel e).2 := by
  induction fuel generalizing e with
  | zero => exact Served.refl e
  | succ fuel ih =>
    have hcall := served_op (R := R) e (.egest maxDgram) rfl
    rw [Connection.next] at hcall
    rw [flushEgressFuel]
    rcases hegest : e.conn.egest maxDgram with ⟨packet | _ | _, conn⟩ <;> rw [hegest] at hcall
    · cases packet with
      | nil => exact hcall
      | cons b rest =>
        dsimp only
        rcases hsend : e.backend.send takes (b :: rest) with ⟨sent, backend⟩
        rcases send_cases hsend with ⟨rfl, addr, hpeer, rfl⟩ | ⟨rfl, rfl⟩
        · exact (served_egest hegest hpeer).trans (ih _)
        · exact hcall
    · exact hcall
    · exact hcall

lemma served_step (kernel : Kernel Addr) (e : EpEndpoint Addr σ) :
    Served R e [] (step R kernel e).2 := by
  have hreceive : Served R e [] (receiveAndFlush R kernel e).2 := by
    have hloop := served_recvLoop (R := R) kernel.ready e
    rw [receiveAndFlush]
    rcases hread : recvLoop R kernel.ready e with ⟨_ | _ | _, e'⟩ <;> rw [hread] at hloop
    · exact hloop.trans (served_flush kernel.takes 5 e')
    · exact hloop
    · exact hloop
  have hflush := served_flush (R := R) kernel.takes 5 e
  rw [step]
  rcases kernel.polled with _ | _ | _
  · exact Served.refl e
  · dsimp only
    rcases hout : flushEgress kernel.takes e with ⟨_ | _ | _, e'⟩ <;>
      rw [flushEgress] at hout <;> rw [hout] at hflush <;> exact hflush
  · dsimp only
    rcases hout : receiveAndFlush R kernel e with ⟨_ | _ | _, e'⟩ <;> rw [hout] at hreceive <;>
      exact hreceive

end EpEndpoint

def Call.arrivals {Addr : Type} : Call Addr → List (Addr × Bytes)
  | .arrives addr datagram => [(addr, datagram)]
  | _ => []

namespace EpEndpoint

variable {Addr σ : Type} {R : Rustls σ}

lemma served_next (e : EpEndpoint Addr σ) (call : Call Addr) :
    Served R e call.arrivals (e.next R call) := by
  cases call with
  | arrives addr datagram => exact served_arrives e (addr, datagram)
  | step kernel => exact served_step kernel e
  | sendAppData kernel data =>
    exact (served_op e (.sendData data) rfl).trans (served_flush kernel.takes 5 _)
  | recvAppData kernel bufLen =>
    exact (served_step kernel e).trans (served_op _ (.recvData bufLen) rfl)

/-- A run of an endpoint is a run of its connection. The connection is given the datagrams that were
waiting or arrive, once each and in their order, without the empty ones and cut to the size of the
buffer. Those not given to it are still in the socket, also behind steps that failed. All packets
that are sent come from `egest`, in its order, and go to the peer, which is the sender of the first
datagram read unless there was one before. -/
theorem endpoint_run_served (e : EpEndpoint Addr σ) (calls : List (Call Addr)) :
    Served R e (calls.flatMap Call.arrivals) (run (next R) e calls) := by
  induction calls generalizing e with
  | nil => exact Served.refl e
  | cons call calls ih =>
    rw [List.flatMap_cons, run_cons]
    exact (served_next e call).trans (ih _)

/-- The same connection, peer and datagrams, which may come from elsewhere. -/
structure SameBut (e e' : EpEndpoint Addr σ) : Prop where
  conn : e'.conn = e.conn
  known : ∃ addr, e.backend.peer = some addr ∧ e'.backend.peer = some addr
  inbox : e'.backend.inbox.map Prod.snd = e.backend.inbox.map Prod.snd
  outbox : e'.backend.outbox = e.backend.outbox

/-- Outcomes that differ in that only. -/
def SameOut {α : Type} (a b : Outcome ConnectionError α × EpEndpoint Addr σ) : Prop :=
  b.1 = a.1 ∧ SameBut a.2 b.2

lemma SameBut.setConn {e e' : EpEndpoint Addr σ} (h : SameBut e e') (c : Connection σ) :
    SameBut { e with conn := c } { e' with conn := c } :=
  ⟨rfl, h.known, h.inbox, h.outbox⟩

/-- Both read nothing, or the same datagram. -/
lemma SameBut.recv {e e' : EpEndpoint Addr σ} (h : SameBut e e') (bufLen : Nat) :
    e.backend.recv bufLen = (none, e.backend) ∧ e'.backend.recv bufLen = (none, e'.backend) ∨
      ∃ data addr addr' backend backend', e.backend.recv bufLen = (some (data, addr), backend) ∧
        e'.backend.recv bufLen = (some (data, addr'), backend') ∧
        ∀ c : Connection σ, SameBut { conn := c, backend } { conn := c, backend := backend' } := by
  obtain ⟨c, ⟨peer, inbox, outbox⟩⟩ := e
  obtain ⟨c', ⟨peer', inbox', outbox'⟩⟩ := e'
  obtain ⟨-, ⟨addr, hpeer, hpeer'⟩, hinbox, houtbox⟩ := h
  dsimp only at hpeer hpeer' hinbox houtbox
  subst hpeer hpeer' houtbox
  cases inbox with
  | nil =>
    rw [List.map_nil, List.map_eq_nil_iff] at hinbox
    subst hinbox
    exact .inl ⟨rfl, rfl⟩
  | cons d rest =>
    cases inbox' with
    | nil => cases hinbox
    | cons d' rest' =>
      rw [List.map_cons, List.map_cons, List.cons_eq_cons] at hinbox
      obtain ⟨hdatagram, hrest⟩ := hinbox
      refine .inr ⟨d.2.take bufLen, d.1, d'.1, ⟨some addr, rest, outbox'⟩,
        ⟨some addr, rest', outbox'⟩, rfl, ?_, fun c => ⟨rfl, ⟨addr, rfl, rfl⟩, hrest, rfl⟩⟩
      rw [← hdatagram]
      rfl

lemma sameOut_recvLoop (ready : Nat) {e e' : EpEndpoint Addr σ} (h : SameBut e e') :
    SameOut (recvLoop R ready e) (recvLoop R ready e') := by
  induction ready generalizing e e' with
  | zero => exact ⟨rfl, h⟩
  | succ ready ih =>
    rw [recvLoop, recvLoop]
    rcases h.recv Endpoint.maxDgram with
      ⟨hnone, hnone'⟩ | ⟨data, addr, addr', backend, backend', hread, hread', hsame⟩
    · rw [hnone, hnone']
      exact ⟨rfl, h⟩
    · rw [hread, hread', h.conn]
      dsimp only
      cases data.isEmpty with
      | true => exact ⟨rfl, hsame _⟩
      | false =>
        rcases e.conn.ingest R data with ⟨_ | _ | _, c⟩
        · exact ih (hsame c)
        · exact ⟨rfl, hsame c⟩
        · exact ⟨rfl, hsame c⟩

lemma SameBut.send {e e' : EpEndpoint Addr σ} (h : SameBut e e') (takes : Addr → Bytes → Bool)
    (data : Bytes) (c : Connection σ) :
    (e'.backend.send takes data).1 = (e.backend.send takes data).1 ∧
      SameBut { conn := c, backend := (e.backend.send takes data).2 }
        { conn := c, backend := (e'.backend.send takes data).2 } := by
  obtain ⟨_, ⟨peer, inbox, outbox⟩⟩ := e
  obtain ⟨_, ⟨peer', inbox', outbox'⟩⟩ := e'
  obtain ⟨-, ⟨addr, hpeer, hpeer'⟩, hinbox, houtbox⟩ := h
  dsimp only at hpeer hpeer' hinbox houtbox
  subst hpeer hpeer' houtbox
  by_cases htaken : takes addr data = true
  · simp only [EpollBackend.send, if_pos htaken]
    exact ⟨trivial, rfl, ⟨addr, rfl, rfl⟩, hinbox, rfl⟩
  · simp only [EpollBackend.send, if_neg htaken]
    exact ⟨trivial, rfl, ⟨addr, rfl, rfl⟩, hinbox, rfl⟩

lemma sameOut_flush (takes : Addr → Bytes → Bool) (fuel : Nat) {e e' : EpEndpoint Addr σ}
    (h : SameBut e e') : SameOut (flushEgressFuel takes fuel e) (flushEgressFuel takes fuel e') := by
  induction fuel generalizing e e' with
  | zero => exact ⟨rfl, h⟩
  | succ fuel ih =>
    rw [flushEgressFuel, flushEgressFuel, h.conn]
    rcases e.conn.egest Endpoint.maxDgram with ⟨packet | _ | _, c⟩
    · cases packet with
      | nil => exact ⟨rfl, h.setConn c⟩
      | cons b rest =>
        obtain ⟨hsent, hsame⟩ := h.send takes (b :: rest) c
        dsimp only
        rcases hout : e.backend.send takes (b :: rest) with ⟨_ | _, backend⟩ <;>
          rcases hout' : e'.backend.send takes (b :: rest) with ⟨_ | _, backend'⟩ <;>
          rw [hout, hout'] at hsent hsame
        · exact ⟨rfl, hsame⟩
        · cases hsent
        · cases hsent
        · exact ih hsame
    · exact ⟨rfl, h.setConn c⟩
    · exact ⟨rfl, h.setConn c⟩

lemma sameOut_step (kernel : Kernel Addr) {e e' : EpEndpoint Addr σ} (h : SameBut e e') :
    SameOut (step R kernel e) (step R kernel e') := by
  have hreceive : SameOut (receiveAndFlush R kernel e) (receiveAndFlush R kernel e') := by
    have hloop := sameOut_recvLoop (R := R) kernel.ready h
    rw [receiveAndFlush, receiveAndFlush]
    generalize recvLoop R kernel.ready e = out at hloop ⊢
    generalize recvLoop R kernel.ready e' = out' at hloop ⊢
    obtain ⟨result, e₁⟩ := out
    obtain ⟨result', e₁'⟩ := out'
    obtain ⟨hresult, hsame⟩ := hloop
    dsimp only at hresult
    subst hresult
    cases result' with
    | ok _ => exact sameOut_flush kernel.takes 5 hsame
    | err _ | panic => exact ⟨rfl, hsame⟩
  have hflush : SameOut (flushEgress kernel.takes e) (flushEgress kernel.takes e') :=
    sameOut_flush kernel.takes 5 h
  have hresult : ∀ (worked : Bool) (a b : Outcome ConnectionError Unit × EpEndpoint Addr σ),
      SameOut a b → SameOut
        (match a with
          | (ok _, e) => (ok worked, e)
          | (err x, e) => (err x, e)
          | (.panic, e) => (.panic, e))
        (match b with
          | (ok _, e) => (ok worked, e)
          | (err x, e) => (err x, e)
          | (.panic, e) => (.panic, e)) := by
    rintro worked ⟨a, ea⟩ ⟨b, eb⟩ ⟨hab, hsame⟩
    dsimp only at hab
    subst hab
    cases b <;> exact ⟨rfl, hsame⟩
  rw [step, step]
  rcases kernel.polled with _ | _ | _
  · exact ⟨rfl, h⟩
  · exact hresult false _ _ hflush
  · exact hresult true _ _ hreceive

end EpEndpoint

/-- The same call, but a datagram may come from elsewhere. -/
def Call.Alike {Addr : Type} : Call Addr → Call Addr → Prop
  | .arrives _ datagram, .arrives _ datagram' => datagram' = datagram
  | .step kernel, .step kernel' => kernel' = kernel
  | .sendAppData kernel data, .sendAppData kernel' data' => kernel' = kernel ∧ data' = data
  | .recvAppData kernel bufLen, .recvAppData kernel' bufLen' => kernel' = kernel ∧ bufLen' = bufLen
  | _, _ => False

namespace EpEndpoint

variable {Addr σ : Type} {R : Rustls σ}

lemma sameBut_next {e e' : EpEndpoint Addr σ} (h : SameBut e e') {call call' : Call Addr}
    (hcall : call.Alike call') : SameBut (e.next R call) (e'.next R call') := by
  cases call with
  | arrives addr datagram =>
    cases call' with
    | arrives addr' datagram' =>
      obtain rfl : datagram' = datagram := hcall
      refine ⟨h.conn, h.known, ?_, h.outbox⟩
      rw [next, next, List.map_append, List.map_append, h.inbox]
      rfl
    | step | sendAppData | recvAppData => exact hcall.elim
  | step kernel =>
    cases call' with
    | step kernel' =>
      obtain rfl : kernel' = kernel := hcall
      exact (sameOut_step kernel' h).2
    | arrives | sendAppData | recvAppData => exact hcall.elim
  | sendAppData kernel data =>
    cases call' with
    | sendAppData kernel' data' =>
      obtain ⟨rfl, rfl⟩ : kernel' = kernel ∧ data' = data := hcall
      have hqueued := h.setConn (e.conn.sendData data')
      rw [← h.conn] at hqueued
      rw [next, next, sendAppData, sendAppData, h.conn]
      rw [h.conn] at hqueued
      exact (sameOut_flush kernel'.takes 5 hqueued).2
    | arrives | step | recvAppData => exact hcall.elim
  | recvAppData kernel bufLen =>
    cases call' with
    | recvAppData kernel' bufLen' =>
      obtain ⟨rfl, rfl⟩ : kernel' = kernel ∧ bufLen' = bufLen := hcall
      have hstep := (sameOut_step (R := R) kernel' h).2
      rw [next, next, recvAppData, recvAppData]
      dsimp only
      rw [hstep.conn]
      exact hstep.setConn _
    | arrives | step | sendAppData => exact hcall.elim

/-- Once the peer is known it does not matter where datagrams come from: the connection gets into
the same state and the same packets are sent to the same peer. So datagrams from anywhere are
answered, but only to the peer. -/
theorem senders_indifferent {e e' : EpEndpoint Addr σ} {calls calls' : List (Call Addr)}
    (h : SameBut e e') (hcalls : List.Forall₂ Call.Alike calls calls') :
    SameBut (run (next R) e calls) (run (next R) e' calls') := by
  induction hcalls generalizing e e' with
  | nil => exact h
  | cons hcall _ ih => exact ih (sameBut_next h hcall)

/-- A server that knows its peer. -/
def servingPeer : EpEndpoint Nat Connection.Flights where
  conn := Connection.plainServer Connection.serverFlights
  backend := { peer := some 1, inbox := [], outbox := [] }

/-- All system calls succeed. -/
def willing : Kernel Nat := { polled := some true, ready := 8, takes := fun _ _ => true }

/-- A datagram of the peer, or the same datagram from someone else. -/
theorem senders_indifferent_spoofed :
    SameBut
      (run (next (Connection.scripted Connection.serverFlights)) servingPeer
        [.arrives 1 (Connection.plainLong .initial 0 [.ping]), .step willing])
      (run (next (Connection.scripted Connection.serverFlights)) servingPeer
        [.arrives 2 (Connection.plainLong .initial 0 [.ping]), .step willing]) :=
  senders_indifferent ⟨rfl, ⟨1, rfl, rfl⟩, rfl, rfl⟩ (.cons rfl (.cons rfl .nil))

end EpEndpoint
end DeerQuic
