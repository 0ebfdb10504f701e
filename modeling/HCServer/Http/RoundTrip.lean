import HCServer.Http.Dump
import HCServer.Http.KeepAlive
import HCServer.Http.RequestHead

/-! A request that is written by `dump` and received by `recvRequest`. -/
namespace HCServer.Http
open Lib Lib.Regex
open Uris (Chars Grammar)

/-- What `dump` may write so that the grammar has it: the headers are tokens with values that have
no control characters and do not start with a blank. -/
structure Sendable (r : HttpRequest) : Prop where
  version : r.version = 0x10 ∨ r.version = 0x11
  method : ∃ e ∈ httpMethodMap, e.2 = r.method ∧ ∀ b ∈ bytes e.1, Chars.has Grammar.alpha b = true
  path : r.path ∈ Grammar.pathAbsolute.lang
  query : r.query ∈ Grammar.query.lang
  fragment : r.fragment ∈ Grammar.query.lang
  websocket : r.websocket = false
  plain : ∀ i ∈ r.headers, PlainField i
  distinct : r.headers.Pairwise fun i j => strcasecmpEq i.1 j.1 = false
  reserved : ∀ i ∈ r.headers, strcasecmpEq i.1 (bytes "connection") = false ∧
    strcasecmpEq i.1 (bytes "content-length") = false
  body : r.body.length < 2 ^ 31

namespace HttpRequest
variable (r : HttpRequest)

def connectionField : Bytes × Bytes :=
  (bytes "connection", if r.close then bytes "close" else bytes "keep-alive")

def lengthFields : MapType :=
  if r.body = [] then [] else [(bytes "content-length", decimal r.body.length)]

/-- The same request, with the headers that `dump` has written besides its own. -/
structure SameAs (req : HttpRequest) : Prop where
  method : req.method = r.method
  version : req.version = r.version
  path : req.path = r.path
  query : req.query = r.query
  fragment : req.fragment = r.fragment
  close : req.close = r.close
  body : req.body = r.body
  headers : req.headers.Perm (r.headers ++ r.connectionField :: r.lengthFields)

/-- The fields in the order in which they are written. -/
def fields : MapType := r.connectionField :: (r.headers.inOrder ++ r.lengthFields)

end HttpRequest

theorem strcasecmpEq_comm (a b : Bytes) : strcasecmpEq a b = strcasecmpEq b a := by
  rw [Bool.eq_iff_iff, strcasecmpEq, strcasecmpEq, beq_iff_eq, beq_iff_eq]
  exact eq_comm

/-- Two names that the map keeps apart. -/
abbrev Apart (i j : Bytes × Bytes) : Prop := strcasecmpEq i.1 j.1 = false

theorem MapType.assign_new {m : MapType} {key : Bytes} (h : ∀ e ∈ m, strcasecmpEq e.1 key = false)
    (val : Bytes) : m.assign key val = m ++ [(key, val)] := by
  have hnone : ¬ m.any (fun e => strcasecmpEq e.1 key) = true := by
    intro hany
    obtain ⟨e, he, hequal⟩ := List.any_eq_true.mp hany
    rw [h e he] at hequal
    cases hequal
  rw [assign, if_neg hnone]

/-- Fields with different names are all kept, in their order. -/
theorem Parsed.foldl_fields {is : MapType} (p : Parsed) (hne : ∀ i ∈ is, i.1 ≠ [])
    (hapart : (p.data.headers ++ is).Pairwise Apart) :
    is.foldl (fun p i => p.onRequestHttpField i.1 i.2) p =
      { p with data := { p.data with headers := p.data.headers ++ is } } := by
  induction is generalizing p with
  | nil => rw [List.append_nil, List.foldl_nil]
  | cons i is ih =>
      have hname : i.1.length ≠ 0 := fun h =>
        hne i List.mem_cons_self (List.length_eq_zero_iff.mp h)
      have hnew : ∀ e ∈ p.data.headers, strcasecmpEq e.1 i.1 = false := by
        intro e he
        exact (List.pairwise_append.mp hapart).2.2 e he i List.mem_cons_self
      have hfield : p.onRequestHttpField i.1 i.2 =
          { p with data := { p.data with headers := p.data.headers ++ [i] } } := by
        rw [onRequestHttpField, if_neg hname, HttpRequest.setHeader, MapType.assign_new hnew]
      rw [List.foldl_cons, hfield, ih]
      · simp only [List.append_assoc, List.singleton_append]
      · exact fun j hj => hne j (List.mem_cons_of_mem i hj)
      · simpa only [List.append_assoc, List.singleton_append] using hapart

namespace Sendable
variable {r : HttpRequest}

theorem mem_inOrder {m : MapType} {i : Bytes × Bytes} : i ∈ m.inOrder ↔ i ∈ m :=
  List.mem_insertionSort _

theorem writtenHeaders_eq (h : Sendable r) :
    writtenHeaders r.websocket r.headers = r.headers.inOrder := by
  refine List.filter_eq_self.mpr fun i hi => ?_
  rw [(h.reserved i (mem_inOrder.mp hi)).1]
  exact Bool.or_true _

theorem fields_apart (h : Sendable r) : r.fields.Pairwise Apart := by
  have hsymm : ∀ {i j}, Apart i j → Apart j i := fun hij => (strcasecmpEq_comm _ _).trans hij
  have hheaders : r.headers.inOrder.Pairwise Apart :=
    h.distinct.perm (List.perm_insertionSort _ _).symm hsymm
  have hlength : ∀ j ∈ r.lengthFields, j.1 = bytes "content-length" := by
    intro j hj
    unfold HttpRequest.lengthFields at hj
    split at hj
    · cases hj
    · rw [List.mem_singleton.mp hj]
  have hlengths : r.lengthFields.Pairwise Apart := by
    unfold HttpRequest.lengthFields
    split
    · exact List.Pairwise.nil
    · exact List.pairwise_singleton _ _
  refine List.pairwise_cons.mpr ⟨?_, List.pairwise_append.mpr ⟨hheaders, hlengths, ?_⟩⟩
  · intro j hj
    obtain hj | hj := List.mem_append.mp hj
    · exact hsymm (h.reserved j (mem_inOrder.mp hj)).1
    · change strcasecmpEq (bytes "connection") j.1 = false
      rw [hlength j hj]
      decide
  · intro i hi j hj
    change strcasecmpEq i.1 j.1 = false
    rw [hlength j hj]
    exact (h.reserved i (mem_inOrder.mp hi)).2

theorem fields_plain (h : Sendable r) : ∀ i ∈ r.fields, PlainField i := by
  have hall (cs : Chars) (w : Bytes) (hw : w.all (Chars.has cs) = true) :
      ∀ b ∈ w, Chars.has cs b = true :=
    List.all_eq_true.mp hw
  have hdigits (n : Nat) :
      ∀ b ∈ decimal n, Chars.has valueStart b = true ∧ Chars.has valueChars b = true := by
    intro b hb
    have hdigit := mem_decimal hb
    constructor
    · refine List.any_eq_true.mpr ⟨(33, 126), by decide, ?_⟩
      simp only [Bool.and_eq_true, decide_eq_true_eq]
      omega
    · refine List.any_eq_true.mpr ⟨(32, 126), by decide, ?_⟩
      simp only [Bool.and_eq_true, decide_eq_true_eq]
      omega
  intro i hi
  obtain rfl | hi := List.mem_cons.mp hi
  · cases hclose : r.close
    all_goals
      simp only [HttpRequest.connectionField, hclose]
      exact ⟨by decide, hall _ _ (by decide), by decide, by rintro b ⟨⟩; decide,
        hall _ _ (by decide)⟩
  · obtain hi | hi := List.mem_append.mp hi
    · exact h.plain i (mem_inOrder.mp hi)
    · unfold HttpRequest.lengthFields at hi
      split at hi
      · cases hi
      · have hname : bytes "content-length" ≠ [] ∧
            (bytes "content-length").all (Chars.has tokenChars) = true := by decide
        rw [List.mem_singleton.mp hi]
        exact ⟨hname.1, hall _ _ hname.2, decimal_ne_nil _,
          fun b hb => (hdigits _ b (List.mem_of_mem_head? hb)).1, fun b hb => (hdigits _ b hb).2⟩

theorem methodToken (h : Sendable r) : MethodToken (httpMethodToString r.method) ∧
    charsToHttpMethod (httpMethodToString r.method) = r.method ∧ r.method ≠ .invalidMethod := by
  have hstring : ∀ e ∈ httpMethodMap, httpMethodToString e.2 = bytes e.1 := by decide
  obtain ⟨e, he, hmethod, hletters⟩ := h.method
  have hsearch : bytes e.1 ≠ bytes "M-SEARCH" := by
    intro heq
    have hhyphen := hletters 45 (heq ▸ by decide)
    exact absurd hhyphen (by decide)
  rw [← hmethod, hstring e he]
  exact ⟨name_token e he hsearch, charsToHttpMethod_of_leads he List.prefix_rfl, name_valid e he⟩

theorem version_cases (h : Sendable r) :
    versionText r.version = bytes "HTTP/1.1" ∧ r.version = 0x11 ∨
      versionText r.version = bytes "HTTP/1.0" ∧ r.version = 0x10 := by
  have hone : decimal 1 = bytes "1" := by simp [decimal]; decide
  have hzero : decimal 0 = bytes "0" := by simp [decimal]; decide
  obtain hversion | hversion := h.version
  · refine Or.inr ⟨?_, hversion⟩
    rw [hversion, versionText, hone, hzero]
    decide
  · refine Or.inl ⟨?_, hversion⟩
    rw [hversion, versionText, hone]
    decide

/-- The head, cut where the machine has read a part. -/
theorem head_eq (h : Sendable r) : r.head = (httpMethodToString r.method ++ [32]) ++
    ((r.path ++ ((if r.query = [] then [] else bytes "?") ++ (r.query ++
      ((if r.fragment = [] then [] else bytes "#") ++ (r.fragment ++ [32]))))) ++
        ((versionText r.version ++ bytes "\r\n") ++
          (r.fields.flatMap fun i => i.1 ++ (bytes ": " ++ (i.2 ++ bytes "\r\n"))))) ++
      bytes "\r\n" := by
  have hblank : bytes " " = [32] := by decide
  have hconnection : connectionLine false r.close = endLine (headerText r.connectionField) := by
    have hname : bytes "connection: " = bytes "connection" ++ bytes ": " := by decide
    rw [connectionLine, hname]
    rfl
  have hlength : lengthLine r.body = r.lengthFields.flatMap fun i => endLine (headerText i) := by
    unfold lengthLine HttpRequest.lengthFields
    split
    · rfl
    · rw [List.flatMap_singleton]
  rw [HttpRequest.head, h.writtenHeaders_eq, h.websocket, HttpRequest.startLine, hblank,
    hconnection, hlength]
  simp only [HttpRequest.fields, endLine, headerText, List.flatMap_cons, List.flatMap_append,
    List.append_assoc]

/-- What the parser makes of the head. -/
def parsed (r : HttpRequest) : Parsed :=
  { data := { method := r.method, version := r.version, path := r.path, query := r.query,
              fragment := r.fragment, headers := r.fields } }

theorem parsed_target (method : HttpMethod) (path query fragment : Bytes) :
    Parsed.addFragment fragment (Parsed.addQuery query
      (Parsed.onRequestPath { data := { method } } path)) =
        { data := { method, path, query, fragment } } := by
  unfold Parsed.addFragment Parsed.addQuery
  split_ifs with hfragment hquery hquery
  · rw [hfragment, hquery]
    rfl
  · rw [hfragment]
    rfl
  · rw [hquery]
    rfl
  · rfl

/-- The callbacks, one after the other. -/
theorem parsed_eq (h : Sendable r) :
    r.fields.foldl (fun p i => p.onRequestHttpField i.1 i.2)
      ((Parsed.addFragment r.fragment (Parsed.addQuery r.query
        ((Parsed.onRequestMethod {} (httpMethodToString r.method)).onRequestPath
          r.path))).onRequestVersion (versionText r.version)) = parsed r := by
  obtain ⟨_, hchars, hvalid⟩ := h.methodToken
  have hmethod : Parsed.onRequestMethod {} (httpMethodToString r.method) =
      { data := { method := r.method } } := by
    rw [Parsed.onRequestMethod, hchars]
    split
    · case h_1 hinvalid => exact absurd hinvalid hvalid
    · rfl
  have hversion (data : HttpRequest) :
      Parsed.onRequestVersion { data } (versionText r.version) =
        { data := { data with version := r.version } } := by
    obtain ⟨htext, hnumber⟩ | ⟨htext, hnumber⟩ := h.version_cases
    · rw [htext, hnumber]
      rfl
    · rw [htext, hnumber]
      rfl
  rw [hmethod, parsed_target, hversion, Parsed.foldl_fields]
  · rfl
  · exact fun i hi => (h.fields_plain i hi).name_ne
  · exact h.fields_apart

theorem parses_head (h : Sendable r) (uriRelaxed : Bool) :
    ∃ p, HttpRequestParser.Accepts uriRelaxed r.head p ∧ p.toParsed = parsed r := by
  have hversion : versionText r.version ∈ [bytes "HTTP/1.1", bytes "HTTP/1.0"] := by
    obtain ⟨htext, _⟩ | ⟨htext, _⟩ := h.version_cases
    · rw [htext]
      exact List.mem_cons_self
    · rw [htext]
      exact List.mem_cons_of_mem _ List.mem_cons_self
  have hread := (parses_method uriRelaxed h.methodToken.1).trans
    ((parses_target uriRelaxed h.path h.query h.fragment).trans
      ((parses_version uriRelaxed hversion).trans (parses_fields uriRelaxed h.fields_plain)))
  obtain ⟨p, haccepts, hparsed⟩ := accepts_of_parses uriRelaxed hread
    ((congrArg Parsed.error h.parsed_eq).trans rfl)
  rw [h.head_eq]
  exact ⟨p, haccepts, hparsed.trans h.parsed_eq⟩

/-- The length that is announced, which is the body's. -/
theorem contentLength_eq (h : Sendable r) {lexicalCast : Bytes → Option UInt64}
    (hcast : ∀ n < 2 ^ 64, lexicalCast (decimal n) = some (UInt64.ofNat n)) :
    ((parsed r).getContentLength lexicalCast).toNat = r.body.length := by
  have hothers : ∀ i ∈ r.connectionField :: r.headers.inOrder,
      ¬ strcasecmpEq i.1 (bytes "content-length") = true := by
    intro i hi
    rw [Bool.not_eq_true]
    obtain rfl | hi := List.mem_cons.mp hi
    · change strcasecmpEq (bytes "connection") (bytes "content-length") = false
      decide
    · exact (h.reserved i (mem_inOrder.mp hi)).2
  have hfind : MapType.find r.fields (bytes "content-length") =
      MapType.find r.lengthFields (bytes "content-length") := by
    rw [MapType.find, HttpRequest.fields, ← List.cons_append, List.find?_append,
      List.find?_eq_none.mpr hothers, Option.none_or, MapType.find]
  rw [Parsed.getContentLength]
  change (((MapType.find r.fields _).bind _).getD (0 : UInt64)).toNat = _
  rw [hfind, HttpRequest.lengthFields]
  have hbody := h.body
  split
  · case isTrue hempty =>
      rw [hempty]
      rfl
  · have hlength : MapType.find [(bytes "content-length", decimal r.body.length)]
        (bytes "content-length") = some (decimal r.body.length) := by
      have hsame : strcasecmpEq (bytes "content-length") (bytes "content-length") = true := by
        decide
      simp [MapType.find, hsame]
    rw [hlength, Option.bind_some, hcast _ (by omega), Option.getD_some]
    exact UInt64.toNat_ofNat_of_lt' (by omega : r.body.length < 2 ^ 64)

/-- The request as it goes over the connection. -/
theorem exists_wire (h : Sendable r) {env : SessionEnv}
    (hcast : ∀ n < 2 ^ 64, env.lexicalCast (decimal n) = some (UInt64.ofNat n)) :
    ∃ w : WireRequest env, w.head = r.head ∧ w.body = r.body ∧ w.parser.data = (parsed r).data := by
  obtain ⟨p, haccepts, hparsed⟩ := h.parses_head env.uriRelaxed
  have hlength : (p.getContentLength env.lexicalCast).toNat = r.body.length := by
    rw [hparsed]
    exact h.contentLength_eq hcast
  exact ⟨⟨r.head, r.body, p, haccepts, hlength, h.body.trans (by decide)⟩, rfl, rfl,
    congrArg Parsed.data hparsed⟩

/-- `init` reads the close flag from the field that it was written to. -/
theorem same_init (r : HttpRequest) :
    r.SameAs (HttpRequest.init { (parsed r).data with body := r.body }) := by
  have hget : HttpRequest.getHeader { (parsed r).data with body := r.body } (bytes "connection") =
      if r.close then bytes "close" else bytes "keep-alive" := by
    have hsame : strcasecmpEq r.connectionField.1 (bytes "connection") = true := by
      change strcasecmpEq (bytes "connection") (bytes "connection") = true
      decide
    change (MapType.find (r.connectionField :: _) _).getD _ = _
    simp only [MapType.find, List.find?_cons, hsame, Option.map_some, Option.getD_some]
    rfl
  have hne : (if r.close then bytes "close" else bytes "keep-alive") ≠ [] := by
    split
    · decide
    · decide
  have hclose : (!strcasecmpEq (if r.close then bytes "close" else bytes "keep-alive")
      (bytes "keep-alive")) = r.close := by
    cases r.close
    · decide
    · decide
  have horder : r.headers.inOrder.Perm r.headers := List.perm_insertionSort _ _
  have hfields : r.fields.Perm (r.headers ++ r.connectionField :: r.lengthFields) :=
    ((horder.append_right r.lengthFields).cons r.connectionField).trans List.perm_middle.symm
  rw [HttpRequest.init, hget, if_neg hne, hclose]
  exact ⟨rfl, rfl, rfl, rfl, rfl, rfl, rfl, hfields⟩

/-- What one call returns. The session compares what is left in its buffer with the buffer's size in
an `int`. -/
theorem recvRequest_dump (h : Sendable r) {env : SessionEnv} {sock : Socket}
    (hcast : ∀ n < 2 ^ 64, env.lexicalCast (decimal n) = some (UInt64.ofNat n))
    (hsock : sock.bytes = r.dump) (hhead : r.head.length ≤ sock.ready env.buffSize) :
    if ((sock.ready env.buffSize - r.head.length : Nat) : Int) = toInt env.buffSize then
      recvRequest env sock = .closed
    else ∃ req, recvRequest env sock = .got req (sock.skip r.dump.length) ∧ r.SameAs req := by
  obtain ⟨w, hwhead, hwbody, hdata⟩ := h.exists_wire hcast
  have hbytes : w.bytes = r.dump := by rw [WireRequest.bytes, hwhead, hwbody, r.dump_eq]
  have hready := Socket.ready_le_length env.buffSize sock
  have hwritten : sock.bytes = w.bytes ++ [] := by rw [hsock, hbytes, List.append_nil]
  have hrun := recvRequest_request hwritten (hwhead ▸ hhead)
  have hleft : r.dump.length - sock.ready env.buffSize = 0 ∨
      0 < toInt (r.dump.length - sock.ready env.buffSize) := by
    have hbody := h.body
    have hlength : r.dump.length = r.head.length + r.body.length := by
      rw [r.dump_eq, List.length_append]
    rw [toInt_of_lt (by omega)]
    omega
  have hsame : r.SameAs w.request := by
    rw [WireRequest.request, hdata, hwbody]
    exact same_init r
  rw [hsock] at hready
  simp only [hbytes, hwhead, hready, hleft, if_true] at hrun
  split
  · case isTrue hfull => rw [hrun, if_pos hfull]
  · case isFalse hroom =>
      rw [hrun, if_neg hroom]
      exact ⟨_, rfl, hsame⟩

end Sendable

/-- The request comes back. -/
def ComesBack (env : SessionEnv) (r : HttpRequest) (sock : Socket) : Prop :=
  ∃ req rest, recvRequest env sock = .got req rest ∧ r.SameAs req

/-- A request written by `dump`, its head within one read, is received as it was, unless as many
bytes of the body come with the head as the buffer's size is in an `int`. -/
theorem dump_comes_back_iff (env : SessionEnv) (r : HttpRequest) (sock : Socket)
    (hcast : ∀ n < 2 ^ 64, env.lexicalCast (decimal n) = some (UInt64.ofNat n)) (h : Sendable r)
    (hsock : sock.bytes = r.dump) (hhead : r.head.length ≤ sock.ready env.buffSize) :
    ComesBack env r sock ↔
      ((sock.ready env.buffSize - r.head.length : Nat) : Int) ≠ toInt env.buffSize := by
  have hrun := h.recvRequest_dump hcast hsock hhead
  constructor
  · rintro ⟨req, rest, hgot, _⟩ hfull
    rw [if_pos hfull, hgot] at hrun
    cases hrun
  · intro hroom
    rw [if_neg hroom] at hrun
    obtain ⟨req, hgot, hsame⟩ := hrun
    exact ⟨req, _, hgot, hsame⟩

namespace RoundTrip

/-- `lexical_cast`, as far as numbers without a sign go. -/
def castDecimal (text : Bytes) : Option UInt64 :=
  if text ≠ [] ∧ (text.all fun b => 48 ≤ b.toNat && b.toNat ≤ 57) = true ∧
      digitsValue 10 text < 2 ^ 64 then
    some (UInt64.ofNat (digitsValue 10 text))
  else none

theorem castDecimal_decimal : ∀ n < 2 ^ 64, castDecimal (decimal n) = some (UInt64.ofNat n) := by
  intro n hn
  have hdigits : ((decimal n).all fun b => 48 ≤ b.toNat && b.toNat ≤ 57) = true := by
    refine List.all_eq_true.mpr fun b hb => ?_
    simpa using mem_decimal hb
  rw [castDecimal, digitsValue_decimal, if_pos ⟨decimal_ne_nil n, hdigits, hn⟩]

/-- A request without a body. -/
def plainGet : HttpRequest := {}

theorem plainGet_sendable : Sendable plainGet where
  version := Or.inr rfl
  method := ⟨("GET", .get), by decide, rfl, List.all_eq_true.mp (by decide)⟩
  path := (Grammar.mem_byte_cat (by decide)).mpr ⟨[], Grammar.mem_opt.mpr (Or.inl rfl), rfl⟩
  query := Language.nil_mem_kstar _
  fragment := Language.nil_mem_kstar _
  websocket := rfl
  plain := fun _ hi => nomatch hi
  distinct := List.Pairwise.nil
  reserved := fun _ hi => nomatch hi
  body := by decide

def chat : HttpRequest :=
  { method := .post, version := 0x10, close := false, query := bytes "q=1", body := bytes "howdy",
    headers := [(bytes "Host", bytes "h:1")] }

theorem chat_sendable : Sendable chat where
  version := Or.inl rfl
  method := ⟨("POST", .post), by decide, rfl, List.all_eq_true.mp (by decide)⟩
  path := (Grammar.mem_byte_cat (by decide)).mpr ⟨[], Grammar.mem_opt.mpr (Or.inl rfl), rfl⟩
  query := by
    have hall : (bytes "q=1").all (Chars.has queryChars) = true := by decide
    exact mem_star_of_forall _ fun b hb =>
      Grammar.mem_alt.mpr (Or.inl ⟨b, List.all_eq_true.mp hall b hb, rfl⟩)
  fragment := Language.nil_mem_kstar _
  websocket := rfl
  plain := by
    intro i hi
    rw [List.mem_singleton.mp hi]
    exact ⟨by decide, List.all_eq_true.mp (by decide), by decide, by rintro b ⟨⟩; decide,
      List.all_eq_true.mp (by decide)⟩
  distinct := List.pairwise_singleton _ _
  reserved := by
    intro i hi
    rw [List.mem_singleton.mp hi]
    decide
  body := by decide

/-- The body comes in two pieces, the first one with the head. -/
def pieces : Socket := [⟨chat.head ++ bytes "how", by decide⟩, ⟨bytes "dy", by decide⟩]

theorem dump_comes_back_pieces : ComesBack ⟨4096, false, castDecimal⟩ chat pieces :=
  (dump_comes_back_iff ⟨4096, false, castDecimal⟩ chat pieces castDecimal_decimal chat_sendable
    (by decide) (by decide)).mpr (by decide)

/-- With a buffer of 4 GiB, whose size is 0 in an `int`, a request without a body is refused. -/
theorem huge_buffer_refuses :
    ¬ ∀ (env : SessionEnv) (r : HttpRequest) (sock : Socket),
      (∀ n < 2 ^ 64, env.lexicalCast (decimal n) = some (UInt64.ofNat n)) → Sendable r →
      sock.bytes = r.dump → r.head.length ≤ sock.ready env.buffSize → ComesBack env r sock := by
  intro h
  let sock : Socket := [⟨plainGet.dump, by decide⟩]
  have hsock : sock.bytes = plainGet.dump := List.append_nil _
  have hhead : plainGet.head.length ≤ sock.ready (2 ^ 32) := by decide
  obtain ⟨req, rest, hgot, _⟩ := h ⟨2 ^ 32, false, castDecimal⟩ plainGet sock castDecimal_decimal
    plainGet_sendable hsock hhead
  have hrun := @Sendable.recvRequest_dump _ plainGet_sendable ⟨2 ^ 32, false, castDecimal⟩ _
    castDecimal_decimal hsock hhead
  rw [if_pos (by decide), hgot] at hrun
  cases hrun

end RoundTrip

end HCServer.Http
