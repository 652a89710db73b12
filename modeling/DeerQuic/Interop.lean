import DeerQuic.Introduction
import Mathlib.Data.List.DropRight

/-!
# A file over HTTP/0.9

In the interop binary the client asks for a file with one line. The server hands the file over in
pieces and sends what it can after each of them, without reading anything in between. Files, logging
and sleeping are left out.
-/

namespace DeerQuic

open Outcome Transition Connection

namespace Interop

/-- Rust's `char::is_whitespace`. -/
def isWhitespace (c : Char) : Bool :=
  let n := c.toNat
  (0x09 ≤ n && n ≤ 0x0d) || (0x2000 ≤ n && n ≤ 0x200a) ||
    [0x20, 0x85, 0xa0, 0x1680, 0x2028, 0x2029, 0x202f, 0x205f, 0x3000].contains n

def trim (s : List Char) : List Char := (s.dropWhile isWhitespace).rdropWhile isWhitespace

/-- The words of a text, the first of which has begun. -/
def wordsFrom : List Char → List Char → List (List Char)
  | word, [] => if word.isEmpty then [] else [word]
  | word, c :: rest =>
    if isWhitespace c then
      if word.isEmpty then wordsFrom [] rest else word :: wordsFrom [] rest
    else wordsFrom (word ++ [c]) rest

def splitWhitespace (s : String) : List (List Char) := wordsFrom [] s.toList

def behindSlashes : Nat → List Char → Option (List Char)
  | 0, s => some s
  | n + 1, s =>
    match s.dropWhile (· ≠ '/') with
    | [] => none
    | _ :: rest => behindSlashes n rest

/-- What the client asks for, which is what stands behind the third slash. -/
def urlPath (url : List Char) : String :=
  match behindSlashes 3 url with
  | some path => String.ofList path
  | none => "index.html"

def asBytes (s : String) : Bytes := s.toUTF8.data.toList

/-- What is not UTF-8 is read as the empty string. -/
def fromUtf8 (bytes : Bytes) : String := (String.fromUTF8? ⟨bytes.toArray⟩).getD ""

def reqLine (path : String) : String := "GET /" ++ path ++ "\r\n"

/-- A request without the method is a path as a whole. -/
def requestPath (req : List Char) : String :=
  let path := if "GET /".toList.isPrefixOf req then req.drop 5 else req
  String.ofList ((path.rdropWhile (· = '\r')).rdropWhile (· = '\n'))

/-- No whitespace is in it. -/
def Solid (s : List Char) : Prop := ∀ c ∈ s, isWhitespace c = false

lemma solid_wordsFrom {word s url : List Char} (hword : Solid word) (h : url ∈ wordsFrom word s) :
    Solid url := by
  have hnil : Solid [] := fun c hc => absurd hc List.not_mem_nil
  induction s generalizing word with
  | nil =>
    rw [wordsFrom] at h
    split at h
    · cases h
    · obtain rfl := List.mem_singleton.mp h
      exact hword
  | cons c rest ih =>
    rw [wordsFrom] at h
    cases hc : isWhitespace c with
    | true =>
      rw [hc, if_pos rfl] at h
      split at h
      · exact ih hnil h
      · rcases List.mem_cons.mp h with rfl | h
        · exact hword
        · exact ih hnil h
    | false =>
      rw [hc, if_neg (by decide)] at h
      refine ih (fun d hd => ?_) h
      rcases List.mem_append.mp hd with hd | hd
      · exact hword d hd
      · obtain rfl := List.mem_singleton.mp hd
        exact hc

lemma behindSlashes_suffix {n : Nat} {s rest : List Char} (h : behindSlashes n s = some rest) :
    rest <:+ s := by
  induction n generalizing s with
  | zero => rw [Option.some.inj h]
  | succ n ih =>
    rw [behindSlashes] at h
    have hdrop := List.dropWhile_suffix (l := s) (fun c => decide (c ≠ '/'))
    cases hs : s.dropWhile (fun c => decide (c ≠ '/')) with
    | nil => rw [hs] at h; cases h
    | cons c tail =>
      rw [hs] at h hdrop
      exact ((ih h).trans (List.suffix_cons c tail)).trans hdrop

/-- A path that the client asks for comes from one of the words of its list. -/
lemma solid_urlPath {requests : String} {url : List Char} (h : url ∈ splitWhitespace requests) :
    Solid (urlPath url).toList := by
  have hurl : Solid url := solid_wordsFrom (fun c hc => absurd hc List.not_mem_nil) h
  rw [urlPath]
  cases hpath : behindSlashes 3 url with
  | none =>
    have hall : "index.html".toList.all (fun c => !isWhitespace c) = true := by decide +kernel
    intro c hc
    simpa using List.all_eq_true.mp hall c hc
  | some path =>
    intro c hc
    rw [String.toList_ofList] at hc
    exact hurl c ((behindSlashes_suffix hpath).subset hc)

lemma fromUtf8_asBytes (s : String) : fromUtf8 (asBytes s) = s := by
  have hvalid : ByteArray.IsValidUTF8 ⟨s.toUTF8.data⟩ := s.isValidUTF8
  rw [fromUtf8, asBytes, Array.toArray_toList, String.fromUTF8?, dif_pos hvalid]
  rfl

lemma rdropWhile_same {p : Char → Bool} {s : List Char} (h : ∀ c ∈ s, p c = false) :
    s.rdropWhile p = s := by
  refine List.rdropWhile_eq_self_iff.mpr fun hne => ?_
  rw [h _ (List.getLast_mem hne)]
  decide

/-- The line ends with the path once it is trimmed. -/
lemma trim_reqLine {path : String} (h : Solid path.toList) :
    trim (reqLine path).toList = "GET /".toList ++ path.toList := by
  have hline : (reqLine path).toList = "GET /".toList ++ path.toList ++ ['\r'] ++ ['\n'] := by
    rw [reqLine, String.toList_append, String.toList_append, List.append_assoc _ ['\r']]
    rfl
  have hfront : ((reqLine path).toList).dropWhile isWhitespace = (reqLine path).toList := by
    rw [hline]
    exact List.dropWhile_cons_of_neg (by decide)
  have hlast : ("GET /".toList ++ path.toList).rdropWhile isWhitespace =
      "GET /".toList ++ path.toList := by
    by_cases hpath : path.toList = []
    · rw [hpath]
      decide
    · refine List.rdropWhile_eq_self_iff.mpr fun hne => ?_
      rw [List.getLast_append_of_ne_nil hne hpath, h _ (List.getLast_mem hpath)]
      decide
  rw [trim, hfront, hline, List.rdropWhile_concat_pos _ _ _ (by decide),
    List.rdropWhile_concat_pos _ _ _ (by decide), hlast]

lemma requestPath_trimmed {path : String} (h : Solid path.toList) :
    requestPath ("GET /".toList ++ path.toList) = path := by
  have hprefix : "GET /".toList.isPrefixOf ("GET /".toList ++ path.toList) = true :=
    List.isPrefixOf_iff_prefix.mpr (List.prefix_append _ _)
  have hdrop : ("GET /".toList ++ path.toList).drop 5 = path.toList := rfl
  have hother : ∀ c ∈ path.toList, ∀ d, isWhitespace d = true → decide (c = d) = false := by
    intro c hc d hd
    refine decide_eq_false ?_
    rintro rfl
    rw [h c hc] at hd
    cases hd
  rw [requestPath, if_pos hprefix, hdrop, rdropWhile_same fun c hc => hother c hc _ (by decide),
    rdropWhile_same fun c hc => hother c hc _ (by decide), String.ofList_toList]

/-- The size of the buffers of `run_server`. -/
def bufLen : Nat := 2048

def chunk : Nat := 1024

def chunksFuel (size : Nat) : Nat → Bytes → List Bytes
  | 0, _ => []
  | _ + 1, [] => []
  | fuel + 1, b :: rest => (b :: rest).take size :: chunksFuel size fuel ((b :: rest).drop size)

/-- Rust's `chunks`. -/
def chunks (size : Nat) (data : Bytes) : List Bytes := chunksFuel size data.length data

section

variable {σ : Type}

/-- The loop over `egest`. An error of `egest` ends it as an empty packet does, and what comes of
sending is ignored. -/
def drain : Nat → Connection σ → List Bytes → Outcome ConnectionError (List Bytes) × Connection σ
  | 0, c, _ => (.panic, c)
  | fuel + 1, c, sent =>
    match c.egest bufLen with
    | (ok [], c) => (ok sent, c)
    | (ok packet, c) => drain fuel c (sent ++ [packet])
    | (err _, c) => (ok sent, c)
    | (.panic, c) => (.panic, c)

/-- The loop over the pieces of a file. -/
def serve : List Bytes → Connection σ → List Bytes →
    Outcome ConnectionError (List Bytes) × Connection σ
  | [], c, sent => (ok sent, c)
  | piece :: rest, c, sent =>
    match drain 5 (c.sendData piece) sent with
    | (ok sent, c) => serve rest c sent
    | (err e, c) => (err e, c)
    | (.panic, c) => (.panic, c)

/-- The answer to a path, where `docs` is what reading the file comes to. -/
def reply (docs : String → Option Bytes) (path : String) (c : Connection σ) :
    Outcome ConnectionError (List Bytes) × Connection σ :=
  match docs path with
  | some data => serve (chunks chunk data) c []
  | none => (ok [], c)

inductive Answer where
  | waits
  | ends
  | replies (out : Outcome ConnectionError (List Bytes))

/-- What the server does once it has read. Without data it goes on stepping, and an empty request
ends it. -/
def answer (docs : String → Option Bytes) (c : Connection σ) : Answer × Connection σ :=
  let (bytes, c) := c.recvData bufLen
  if bytes.isEmpty then (.waits, c)
  else
    let req := trim (fromUtf8 bytes).toList
    if req.isEmpty then (.ends, c)
    else
      let out := reply docs (requestPath req) c
      (.replies out.1, out.2)

lemma asBytes_reqLine_ne (path : String) : asBytes (reqLine path) ≠ [] := by
  intro hnil
  have hsame := fromUtf8_asBytes (reqLine path)
  rw [hnil] at hsame
  have hempty : (reqLine path).toList = [] := by
    rw [← hsame]
    decide +kernel
  simp [reqLine] at hempty

/-- A request line is answered with the file that it names. -/
lemma answer_reqLine {docs : String → Option Bytes} {path : String} {c : Connection σ}
    (hpath : Solid path.toList)
    (hread : (c.recvData bufLen).1 = asBytes (reqLine path)) :
    answer docs c = (.replies (reply docs path (c.recvData bufLen).2).1,
      (reply docs path (c.recvData bufLen).2).2) := by
  have hbytes : (asBytes (reqLine path)).isEmpty = false :=
    List.isEmpty_eq_false_iff.mpr (asBytes_reqLine_ne path)
  have hsome : ("GET /".toList ++ path.toList).isEmpty = false := rfl
  simp only [answer, hread, hbytes, fromUtf8_asBytes, trim_reqLine hpath, hsome,
    requestPath_trimmed hpath]
  rfl

lemma egest_of_idle {c : Connection σ} (hopen : c.state ≠ .closed) (hidle : c.firstBusy = none)
    (n : Nat) : c.egest n = (ok [], c) := by
  rw [egest_eq, if_neg hopen, hidle]

lemma framesOf_recvData (c : Connection σ) (n : Nat) (id : PacketNumberSpace) :
    (c.recvData n).2.framesOf id = c.framesOf id := by
  rw [framesOf_eq, framesOf_eq]
  rfl

lemma idle_recvData {c : Connection σ} (h : c.firstBusy = none) (n : Nat) :
    (c.recvData n).2.firstBusy = none := by
  refine List.find?_eq_none.mpr fun id _ => ?_
  have hbusy : ¬ (c.recvData n).2.Busy id := by
    rw [Busy, framesOf_recvData]
    exact not_busy_of_idle h id
  simpa using hbusy

lemma egest_of_leaves {c : Connection σ} {id : PacketNumberSpace} {packet : Bytes} {n : Nat}
    (hopen : c.state ≠ .closed) (hbusy : c.firstBusy = some id) (hpacket : c.packetOf id = ok packet)
    (hfits : packet.length ≤ n) : c.egest n = (ok packet, c.sent id) ∧ packet ≠ [] := by
  refine ⟨?_, List.ne_nil_of_length_pos ((packetOf_safe c id).of_ok hpacket)⟩
  simp only [egest_eq, if_neg hopen, hbusy, hpacket, if_neg (Nat.not_lt.mpr hfits)]

end

lemma flatten_chunksFuel {size fuel : Nat} {data : Bytes} (hsize : 0 < size)
    (h : data.length ≤ fuel) : (chunksFuel size fuel data).flatten = data := by
  induction fuel generalizing data with
  | zero => rw [chunksFuel, List.length_eq_zero_iff.mp (Nat.le_zero.mp h)]; rfl
  | succ fuel ih =>
    cases data with
    | nil => rfl
    | cons b rest =>
      have hrest : ((b :: rest).drop size).length ≤ fuel := by
        rw [List.length_drop]
        omega
      rw [chunksFuel, List.flatten_cons, ih hrest, List.take_append_drop]

/-- No byte of the file is left out. -/
lemma flatten_chunks (data : Bytes) : (chunks chunk data).flatten = data :=
  flatten_chunksFuel (by decide) (Nat.le_refl _)

end Interop

namespace Wire

open Interop

/-- What the server's connection goes through when the pieces are served. -/
def handing (pieces : List Bytes) : List Hop :=
  pieces.flatMap fun piece => .queue .server piece :: List.replicate 4 (.emit .server bufLen)

/-- The request is read and the file handed over. -/
def answering (data : Bytes) : List Hop := .read .server bufLen :: handing (chunks chunk data)

lemma handed_emits (side : Side) (n : Nat) :
    (List.replicate n (.emit .server bufLen)).flatMap (Hop.handed side) = [] := by
  induction n with
  | zero => rfl
  | succ n ih => rw [List.replicate_succ, List.flatMap_cons, ih]; rfl

lemma handed_handing (pieces : List Bytes) :
    (handing pieces).flatMap (Hop.handed .server) = pieces.flatten := by
  induction pieces with
  | nil => rfl
  | cons piece rest ih =>
    rw [handing, List.flatMap_cons, List.cons_append, List.flatMap_cons, List.flatMap_append,
      handed_emits, List.nil_append, List.flatten_cons, ← ih]
    rfl

lemma handed_answering (data : Bytes) :
    (answering data).flatMap (Hop.handed .server) = data := by
  rw [answering, List.flatMap_cons, handed_handing, flatten_chunks]
  rfl

variable {σ : Type} {R : Rustls σ} {keys : Side → PacketNumberSpace → Keys} {done : σ → Prop}

/-- Nothing is handed over before the run: `introduced_early` says so of the connections that
`ep_client` and `ep_server` leave behind. -/
lemma met_carried (hR : Rested R done) (hkeys : Matched keys) {x : Wire σ} {hops : List Hop}
    (h : Met R keys done x) (hnone : ∀ side, x.unread side = [])
    (hsmooth : Along (next R) Smooth x hops) :
    Met R keys done (run (next R) x hops) ∧ ∀ side, hops.flatMap (Hop.handed (peer side)) =
      observed (next R) (output side) x hops ++ (run (next R) x hops).unread side := by
  obtain ⟨hmet, hcarried⟩ := carried (P := Met R keys done)
    (fun _ _ h hhop => met_next hR hkeys h hhop) h hsmooth
  refine ⟨hmet, fun side => ?_⟩
  have hbytes := hcarried side
  rwa [hnone, List.nil_append] at hbytes

lemma met_along (hR : Rested R done) (hkeys : Matched keys) {x : Wire σ} {hops : List Hop}
    (h : Met R keys done x) (hsmooth : Along (next R) Smooth x hops) :
    Met R keys done (run (next R) x hops) :=
  (carried (P := Met R keys done) (fun _ _ h hhop => met_next hR hkeys h hhop) h hsmooth).1

lemma emits_idle {x : Wire σ} (hopen : (x.ends .server).state ≠ .closed)
    (hidle : (x.ends .server).firstBusy = none) (n : Nat) :
    run (next R) x (List.replicate n (.emit .server bufLen)) = x := by
  induction n with
  | zero => rfl
  | succ n ih =>
    have hnext : x.next R (.emit .server bufLen) = x := by
      rw [next, egest_of_idle hopen hidle]
      exact setEnd_same x .server
    rw [List.replicate_succ, run_cons, hnext, ih]

/-- The loop ends when the backlog is sent, with the packets that are then on their way. -/
lemma drain_run (hR : Rested R done) (hkeys : Matched keys) (n : Nat) {x : Wire σ}
    (h : Met R keys done x)
    (hsmooth : Along (next R) Smooth x (List.replicate n (.emit .server bufLen)))
    (hbacklog : (x.ends .server).backlog ≤ n) (sent : List Bytes) :
    ∃ packets, drain (n + 1) (x.ends .server) sent = (ok (sent ++ packets),
        (run (next R) x (List.replicate n (.emit .server bufLen))).ends .server) ∧
      ((run (next R) x (List.replicate n (.emit .server bufLen))).flight .client).map
        Flying.datagram = (x.flight .client).map Flying.datagram ++ packets := by
  induction n generalizing x sent with
  | zero =>
    have hidle : (x.ends .server).firstBusy = none := by
      cases hbusy : (x.ends .server).firstBusy with
      | none => rfl
      | some id =>
        have hless := backlog_sent (firstBusy_busy hbusy)
        omega
    refine ⟨[], ?_, (List.append_nil _).symm⟩
    rw [drain, egest_of_idle (h.open .server) hidle, List.append_nil]
    rfl
  | succ n ih =>
    rcases next_emit (R := R) (h.open .server) hsmooth.1.2.1 with
      ⟨hidle, -⟩ | ⟨id, packet, hbusy, hpacket, hfits, hnext⟩
    · rw [emits_idle (h.open .server) hidle]
      refine ⟨[], ?_, (List.append_nil _).symm⟩
      rw [drain, egest_of_idle (h.open .server) hidle, List.append_nil]
    · have hmet := (met_next hR hkeys h hsmooth.1).1
      have hrest := hsmooth.2
      have hless := backlog_sent (firstBusy_busy hbusy)
      rw [hnext] at hmet hrest
      obtain ⟨packets, hdrain, hflight⟩ := ih hmet hrest
        (by rw [ends_departed]; omega) (sent ++ [packet])
      refine ⟨packet :: packets, ?_, ?_⟩
      · obtain ⟨hegest, hne⟩ := egest_of_leaves (h.open .server) hbusy hpacket hfits
        obtain ⟨b, rest, rfl⟩ := List.exists_cons_of_ne_nil hne
        rw [ends_departed, List.append_assoc, List.singleton_append] at hdrain
        rw [drain, hegest, List.replicate_succ, run_cons, hnext]
        exact hdrain
      · have hleft : (x.departed .server id packet).flight .client =
            x.flight .client ++ [flying (x.ends .server) id packet] :=
          flight_departed_peer x .server id packet
        rw [List.replicate_succ, run_cons, hnext, hflight, hleft, List.map_append, List.append_assoc]
        rfl

lemma serve_run (hR : Rested R done) (hkeys : Matched keys) (pieces : List Bytes) {x : Wire σ}
    (h : Met R keys done x) (hsmooth : Along (next R) Smooth x (handing pieces))
    (hidle : (x.ends .server).firstBusy = none) (sent : List Bytes) :
    ∃ packets, serve pieces (x.ends .server) sent =
        (ok (sent ++ packets), (run (next R) x (handing pieces)).ends .server) ∧
      ((run (next R) x (handing pieces)).flight .client).map Flying.datagram =
        (x.flight .client).map Flying.datagram ++ packets ∧
      ((run (next R) x (handing pieces)).ends .server).firstBusy = none := by
  induction pieces generalizing x sent with
  | nil =>
    refine ⟨[], ?_, (List.append_nil _).symm, hidle⟩
    rw [serve, List.append_nil]
    rfl
  | cons piece rest ih =>
    have hhops : handing (piece :: rest) = .queue .server piece ::
        (List.replicate 4 (.emit .server bufLen) ++ handing rest) := rfl
    rw [hhops] at hsmooth ⊢
    rw [run_cons, run_append]
    obtain ⟨hqueue, hsplit⟩ := hsmooth
    obtain ⟨hemits, hrest⟩ := along_append.mp hsplit
    have hqueued := (met_next hR hkeys h hqueue).1
    have hends : (x.next R (.queue .server piece)).ends .server = (x.ends .server).sendData piece := by
      rw [next, ends_setEnd, Function.update_self]
    obtain ⟨packets, hdrain, hflight⟩ := drain_run hR hkeys 4 hqueued hemits (backlog_le _) sent
    have hdrained := (idle_after_emits hR hkeys 4 bufLen hqueued hemits (backlog_le _)).1
    obtain ⟨more, hserve, hflight', hidle'⟩ := ih (met_along hR hkeys hqueued hemits) hrest hdrained
      (sent ++ packets)
    rw [hends] at hdrain
    refine ⟨packets ++ more, ?_, ?_, hidle'⟩
    · rw [serve, hdrain, ← List.append_assoc]
      exact hserve
    · rw [hflight', hflight, List.append_assoc]
      rfl

lemma answer_run (hR : Rested R done) (hkeys : Matched keys) {data : Bytes} {x : Wire σ}
    (h : Met R keys done x) (hsmooth : Along (next R) Smooth x (answering data))
    (hidle : (x.ends .server).firstBusy = none) :
    ∃ packets, serve (chunks chunk data) ((x.ends .server).recvData bufLen).2 [] =
        (ok packets, (run (next R) x (answering data)).ends .server) ∧
      ((run (next R) x (answering data)).flight .client).map Flying.datagram =
        (x.flight .client).map Flying.datagram ++ packets ∧
      ((run (next R) x (answering data)).ends .server).firstBusy = none := by
  have hends : (x.next R (.read .server bufLen)).ends .server =
      ((x.ends .server).recvData bufLen).2 := by
    rw [next, ends_setEnd, Function.update_self]
  obtain ⟨packets, hserve⟩ := serve_run hR hkeys (chunks chunk data)
    (met_next hR hkeys h hsmooth.1).1 hsmooth.2 (by rw [hends]; exact idle_recvData hidle bufLen) []
  rw [hends] at hserve
  exact ⟨packets, hserve⟩

/-- With its keys and nothing to send, a server has no data of its application left. -/
lemma pending_of_idle {keys : PacketNumberSpace → Keys} {c : Connection σ} (h : Steady keys done c)
    (hidle : c.firstBusy = none) : c.pendingAppData = [] := by
  by_contra hpending
  have hstreams : c.Streams .applicationData :=
    ⟨rfl, established_of_idle h fun _ => hidle, hpending⟩
  exact not_busy_of_idle hidle .applicationData ⟨hasKeys_of_keys (h.keyed .applicationData),
    List.ne_nil_of_mem (mem_framesOf.mpr (.inr (.inr (.inr ⟨hstreams, rfl⟩))))⟩

end Wire

/-- The server's application hands nothing over. -/
def Hop.KeepsBack : Hop → Prop
  | .queue .server _ => False
  | _ => True

namespace Wire

variable {σ : Type} {R : Rustls σ} {keys : Side → PacketNumberSpace → Keys} {done : σ → Prop}

open Interop

/-- Nothing but `send_data` fills the queue. -/
lemma pendingAppData_next {c : Connection σ} {op : Op} (hqueue : c.pendingAppData = [])
    (hop : ∀ data, op ≠ .sendData data) : (Connection.next R c op).pendingAppData = [] := by
  cases op with
  | ingest buf =>
    refine ingest_always (P := fun c => c.pendingAppData = []) R (fun _ _ _ h => h) ?_ hqueue buf
    intro id c frame h
    generalize hnext : frameNext R id c frame = c'
    have hstep := frameNext_step R id c frame
    rw [hnext] at hstep
    cases hstep with
    | fed _ _ hrun => exact hrun.same.2.1.trans h
    | refused _ _ | skipped _ | closed _ | confirmed _ | stream | ignored _ => exact h
  | egest n =>
    have hbuilt : ∀ id, (c.built id).pendingAppData = [] := by
      intro id
      rw [pendingAppData_built, hqueue, ite_self]
    exact egest_induction (P := fun c => c.pendingAppData = []) n hqueue (fun id _ _ _ => hbuilt id)
      (fun id _ _ _ => hbuilt id)
  | sendData data => exact absurd rfl (hop data)
  | recvData n => exact hqueue

lemma server_kept (x : Wire σ) {hops : List Hop} (h : ∀ hop ∈ hops, hop.KeepsBack)
    (hqueue : (x.ends .server).pendingAppData = []) :
    ((run (next R) x hops).ends .server).pendingAppData = [] ∧
      hops.flatMap (Hop.handed .server) = [] := by
  induction hops generalizing x with
  | nil => exact ⟨hqueue, rfl⟩
  | cons hop hops ih =>
    have hhop := h hop List.mem_cons_self
    have hnext : ((x.next R hop).ends .server).pendingAppData = [] := by
      rw [ends_next]
      cases hop' : x.opAt .server hop with
      | none => exact hqueue
      | some op =>
        refine pendingAppData_next hqueue ?_
        rintro data rfl
        cases hop with
        | queue side data =>
          cases side with
          | server => exact hhop.elim
          | client => cases hop'
        | _ => simp [opAt] at hop'
    obtain ⟨hrest, hhanded⟩ := ih (x.next R hop) (fun hop' hmem => h hop' (.tail _ hmem)) hnext
    refine ⟨hrest, ?_⟩
    rw [List.flatMap_cons, hhanded, List.append_nil]
    cases hop with
    | queue side data =>
      cases side with
      | server => exact hhop.elim
      | client => rfl
    | _ => rfl

/-- All of a request has arrived at the server, which has read the ones before it and has nothing
to send. -/
structure Requested (R : Rustls σ) (x : Wire σ) (hops : List Hop) (path : String) : Prop where
  asked : hops.flatMap (Hop.handed .client) =
    observed (next R) (output .server) x hops ++ asBytes (reqLine path)
  queue : ((run (next R) x hops).ends .client).pendingAppData = []
  arrived : (run (next R) x hops).flight .server = []
  idle : ((run (next R) x hops).ends .server).firstBusy = none

/-- The server's application reads the request and no more. -/
lemma request_read (hR : Rested R done) (hkeys : Matched keys) {x : Wire σ} {hops : List Hop}
    {path : String} (hx : Met R keys done x) (hnone : ∀ side, x.unread side = [])
    (hsmooth : Along (next R) Smooth x hops) (h : Requested R x hops path)
    (hsize : (asBytes (reqLine path)).length ≤ bufLen) :
    (((run (next R) x hops).ends .server).recvData bufLen).1 = asBytes (reqLine path) := by
  have hcarried := (met_carried hR hkeys hx hnone hsmooth).2 .server
  have hpeer : peer .server = .client := rfl
  rw [hpeer, h.asked, List.append_cancel_left_eq, unread, h.arrived, hpeer, h.queue,
    List.flatMap_nil, List.append_nil, List.append_nil] at hcarried
  rw [recvData, ← hcarried]
  exact List.take_of_length_le (by rw [Nat.min_eq_left hsize])

/-- A file that the server hands over while it sends, and the client's reading of it. -/
lemma file_carried (hR : Rested R done) (hkeys : Matched keys) {x : Wire σ} {hops later : List Hop}
    {data : Bytes} (hx : Met R keys done x) (hnone : ∀ side, x.unread side = [])
    (hsmooth : Along (next R) Smooth x (hops ++ (answering data ++ later)))
    (hidle : ((run (next R) x hops).ends .server).firstBusy = none)
    (hlater : ∀ hop ∈ later, hop.KeepsBack)
    (hflight : (run (next R) x (hops ++ (answering data ++ later))).flight .client = [])
    (hread : ((run (next R) x (hops ++ (answering data ++ later))).ends .client).receivedAppData =
      []) :
    observed (next R) (output .client) x (hops ++ (answering data ++ later)) =
      hops.flatMap (Hop.handed .server) ++ data := by
  obtain ⟨hmet, hcarried⟩ := met_carried hR hkeys hx hnone hsmooth
  obtain ⟨hbefore, hrest⟩ := along_append.mp hsmooth
  obtain ⟨packets, -, -, hidle'⟩ := answer_run hR hkeys (met_along hR hkeys hx hbefore)
    (along_append.mp hrest).1 hidle
  have hsettled := met_along hR hkeys (met_along hR hkeys hx hbefore) (along_append.mp hrest).1
  obtain ⟨hpending, hhanded⟩ := server_kept (R := R)
    (run (next R) (run (next R) x hops) (answering data)) hlater
    (pending_of_idle hsettled.server hidle')
  rw [← run_append, ← run_append] at hpending
  have hpeer : peer .client = .server := rfl
  have hbytes := hcarried .client
  rw [hpeer, List.flatMap_append, List.flatMap_append, hhanded, handed_answering, List.append_nil,
    unread, hflight, hread, hpeer, hpending, List.flatMap_nil, List.append_nil, List.append_nil,
    List.append_nil] at hbytes
  exact hbytes.symm

/-- A file that is asked for is downloaded, in a smooth run. The server takes the path out of the
request and hands the file over, and what its loops send is then on its way. Whatever else happens,
as long as the server's application hands over no more: once the client has read all of it, its
application has got the file, behind what it got for earlier requests. -/
theorem file_downloaded (hR : Rested R done) (hkeys : Matched keys) {x : Wire σ}
    {hops later : List Hop} {requests : String} {url : List Char} {docs : String → Option Bytes}
    {data : Bytes} (hx : Met R keys done x) (hnone : ∀ side, x.unread side = [])
    (hurl : url ∈ splitWhitespace requests)
    (hsize : (asBytes (reqLine (urlPath url))).length ≤ bufLen)
    (hdocs : docs (urlPath url) = some data) (hrequested : Requested R x hops (urlPath url))
    (hsmooth : Along (next R) Smooth x (hops ++ (answering data ++ later)))
    (hlater : ∀ hop ∈ later, hop.KeepsBack)
    (hflight : (run (next R) x (hops ++ (answering data ++ later))).flight .client = [])
    (hread : ((run (next R) x (hops ++ (answering data ++ later))).ends .client).receivedAppData =
      []) :
    (∃ packets, answer docs ((run (next R) x hops).ends .server) =
        (.replies (ok packets), (run (next R) x (hops ++ answering data)).ends .server) ∧
      ((run (next R) x (hops ++ answering data)).flight .client).map Flying.datagram =
        ((run (next R) x hops).flight .client).map Flying.datagram ++ packets) ∧
    observed (next R) (output .client) x (hops ++ (answering data ++ later)) =
      hops.flatMap (Hop.handed .server) ++ data := by
  obtain ⟨hbefore, hrest⟩ := along_append.mp hsmooth
  have hrequest := request_read hR hkeys hx hnone hbefore hrequested hsize
  obtain ⟨packets, hserve, hsent, -⟩ := answer_run hR hkeys (met_along hR hkeys hx hbefore)
    (along_append.mp hrest).1 hrequested.idle
  refine ⟨⟨packets, ?_, ?_⟩,
    file_carried hR hkeys hx hnone hsmooth hrequested.idle hlater hflight hread⟩
  · rw [answer_reqLine (solid_urlPath hurl) hrequest, reply, hdocs, run_append]
    exact congrArg (fun out => (Answer.replies out.1, out.2)) hserve
  · rw [run_append]
    exact hsent

/-- A client asks for a file, and the server acknowledges that. -/
def plainRequest : List Hop :=
  [.queue .client (asBytes (reqLine "a")), .emit .client bufLen, .arrive .server 0,
    .emit .server bufLen]

/-- The client acknowledges what it gets and reads all of it. -/
def plainReading : List Hop :=
  [.arrive .client 0, .emit .client bufLen, .arrive .client 0, .emit .client bufLen,
    .arrive .server 0, .read .client 8]

def plainDocs (path : String) : Option Bytes := if path = "a" then some [7, 8, 9] else none

lemma plainUrls : splitWhitespace "https://server/a" = ["https://server/a".toList] := by
  decide +kernel

lemma plainRequest_made : Requested (scripted []) plainPair plainRequest "a" where
  asked := by decide +kernel
  queue := by decide +kernel
  arrived := List.length_eq_zero_iff.mp (by decide +kernel)
  idle := by decide +kernel

lemma plainDownload_smooth :
    Along (next (scripted [])) Smooth plainPair
      (plainRequest ++ (answering [7, 8, 9] ++ plainReading)) := by
  decide +kernel

lemma plainReading_keepsBack : ∀ hop ∈ plainReading, hop.KeepsBack := by
  simp [plainReading, Hop.KeepsBack]

theorem file_downloaded_plainly :
    (∃ packets, answer plainDocs
        ((run (next (scripted [])) plainPair plainRequest).ends .server) =
        (.replies (ok packets), (run (next (scripted [])) plainPair
          (plainRequest ++ answering [7, 8, 9])).ends .server) ∧
      ((run (next (scripted [])) plainPair
        (plainRequest ++ answering [7, 8, 9])).flight .client).map Flying.datagram =
        ((run (next (scripted [])) plainPair plainRequest).flight .client).map Flying.datagram ++
          packets) ∧
    observed (next (scripted [])) (output .client) plainPair
        (plainRequest ++ (answering [7, 8, 9] ++ plainReading)) =
      plainRequest.flatMap (Hop.handed .server) ++ [7, 8, 9] :=
  file_downloaded plain_rested plain_matched (.inr plainPair_joined)
    (fun side => by cases side <;> rfl)
    (show "https://server/a".toList ∈ splitWhitespace "https://server/a" from
      plainUrls ▸ List.mem_singleton_self _)
    (by decide +kernel) rfl plainRequest_made plainDownload_smooth plainReading_keepsBack
    (List.length_eq_zero_iff.mp (by decide +kernel)) (by decide +kernel)

end Wire
end DeerQuic
