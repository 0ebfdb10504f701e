import HCServer.Http.Decimal
import HCServer.Lib.Lines
import Mathlib.Data.List.Sort

/-! `HttpRequest::dump` and `HttpResponse::dump`, and the lengths that a reader of their output finds
announced. The header map may hold a length of its own. -/
namespace HCServer.Http
open Lib

def httpMethodToString (m : HttpMethod) : Bytes :=
  match httpMethodMap.find? fun e => e.2 == m with
  | some e => bytes e.1
  | none => bytes "<unknown>"

def httpStatusMap : List (Nat × String) :=
  [(100, "Continue"), (101, "Switching Protocols"), (102, "Processing"), (200, "OK"),
    (201, "Created"), (202, "Accepted"), (203, "Non-Authoritative Information"),
    (204, "No Content"), (205, "Reset Content"), (206, "Partial Content"), (207, "Multi-Status"),
    (208, "Already Reported"), (226, "IM Used"), (300, "Multiple Choices"),
    (301, "Moved Permanently"), (302, "Found"), (303, "See Other"), (304, "Not Modified"),
    (305, "Use Proxy"), (307, "Temporary Redirect"), (308, "Permanent Redirect"),
    (400, "Bad Request"), (401, "Unauthorized"), (402, "Payment Required"), (403, "Forbidden"),
    (404, "Not Found"), (405, "Method Not Allowed"), (406, "Not Acceptable"),
    (407, "Proxy Authentication Required"), (408, "Request Timeout"), (409, "Conflict"),
    (410, "Gone"), (411, "Length Required"), (412, "Precondition Failed"),
    (413, "Payload Too Large"), (414, "URI Too Long"), (415, "Unsupported Media Type"),
    (416, "Range Not Satisfiable"), (417, "Expectation Failed"), (421, "Misdirected Request"),
    (422, "Unprocessable Entity"), (423, "Locked"), (424, "Failed Dependency"),
    (426, "Upgrade Required"), (428, "Precondition Required"), (429, "Too Many Requests"),
    (431, "Request Header Fields Too Large"), (451, "Unavailable For Legal Reasons"),
    (500, "Internal Server Error"), (501, "Not Implemented"), (502, "Bad Gateway"),
    (503, "Service Unavailable"), (504, "Gateway Timeout"), (505, "HTTP Version Not Supported"),
    (506, "Variant Also Negotiates"), (507, "Insufficient Storage"), (508, "Loop Detected"),
    (510, "Not Extended"), (511, "Network Authentication Required")]

def httpStatusToString (s : Int) : Bytes :=
  match httpStatusMap.find? fun e => (e.1 : Int) == s with
  | some e => bytes e.2
  | none => bytes "<unknown>"

/-- `CaseInsensitiveLess`. -/
def caseInsensitiveLess (lhs rhs : Bytes) : Bool :=
  decide ((lhs.takeWhile (· != 0)).map toLower < (rhs.takeWhile (· != 0)).map toLower)

/-- The order in which an iterator goes through the map. -/
def MapType.inOrder (m : MapType) : MapType :=
  m.insertionSort fun a b => caseInsensitiveLess b.1 a.1 = false

def endLine (text : Bytes) : Bytes := text ++ bytes "\r\n"

/-- The headers that the loop does not skip. -/
def writtenHeaders (websocket : Bool) (headers : MapType) : MapType :=
  headers.inOrder.filter fun i => websocket || !strcasecmpEq i.1 (bytes "connection")

def headerText (i : Bytes × Bytes) : Bytes := i.1 ++ bytes ": " ++ i.2

def connectionLine (websocket close : Bool) : Bytes :=
  if websocket then []
  else endLine (bytes "connection: " ++ if close then bytes "close" else bytes "keep-alive")

/-- A length is written with a body only. -/
def lengthLine (body : Bytes) : Bytes :=
  if body = [] then [] else endLine (headerText (bytes "content-length", decimal body.length))

def versionText (version : Nat) : Bytes :=
  bytes "HTTP/" ++ decimal (version / 16) ++ bytes "." ++ decimal (version % 16)

namespace HttpRequest
variable (r : HttpRequest)

def startLine : Bytes :=
  httpMethodToString r.method ++ bytes " " ++ r.path ++ (if r.query = [] then [] else bytes "?") ++
    r.query ++ (if r.fragment = [] then [] else bytes "#") ++ r.fragment ++ bytes " " ++
    versionText r.version

def dump : Bytes :=
  endLine r.startLine ++ connectionLine r.websocket r.close ++
    (writtenHeaders r.websocket r.headers).flatMap (fun i => endLine (headerText i)) ++
    lengthLine r.body ++ bytes "\r\n" ++ r.body

end HttpRequest

namespace HttpResponse
variable (r : HttpResponse)

def startLine : Bytes :=
  versionText r.version ++ bytes " " ++ decimal (BitVec.ofInt 32 r.status).toNat ++ bytes " " ++
    if r.reason = [] then httpStatusToString r.status else r.reason

def dump : Bytes :=
  endLine r.startLine ++
    (writtenHeaders r.websocket r.headers).flatMap (fun i => endLine (headerText i)) ++
    r.cookies.flatMap (fun i => endLine (bytes "Set-Cookie: " ++ i)) ++
    connectionLine r.websocket r.close ++ lengthLine r.body ++ bytes "\r\n" ++ r.body

end HttpResponse

/-- What a line gives as the content length, if it is that field. -/
def lengthValue (text : Bytes) : Option Bytes :=
  if (text.takeWhile (· != 58)).map toLower = bytes "content-length" then
    (text.dropWhile (· != 58)).tail?
  else none

/-- The values of all content-length fields in a head. -/
def contentLengths (head : Bytes) : List Bytes := (lines 13 10 head).filterMap lengthValue

def isBlank (b : UInt8) : Bool := b == 32 || b == 9

def stripped (value : Bytes) : Bytes :=
  ((value.dropWhile isBlank).reverse.dropWhile isBlank).reverse

/-- A field value that stands for the number `n`. -/
structure Denotes (value : Bytes) (n : Nat) : Prop where
  ne : stripped value ≠ []
  digits : ∀ b ∈ stripped value, 48 ≤ b ∧ b ≤ 57
  value : digitsValue 10 (stripped value) = n

theorem stripped_of_none {value : Bytes} (h : ∀ b ∈ value, isBlank b = false) :
    stripped value = value := by
  have hkeep (l : Bytes) (hl : ∀ b ∈ l, isBlank b = false) : l.dropWhile isBlank = l := by
    cases l with
    | nil => rfl
    | cons b l => exact List.dropWhile_cons_of_neg (by simp [hl b List.mem_cons_self])
  rw [stripped, hkeep value h, hkeep _ fun b hb => h b (List.mem_reverse.mp hb), List.reverse_reverse]

theorem denotes_decimal (n : Nat) : Denotes (32 :: decimal n) n := by
  have hdigit (b : UInt8) (hb : b ∈ decimal n) : 48 ≤ b ∧ b ≤ 57 := by
    obtain ⟨hge, hle⟩ := mem_decimal hb
    exact ⟨UInt8.le_iff_toNat_le.mpr hge, UInt8.le_iff_toNat_le.mpr hle⟩
  have hnone : ∀ b ∈ decimal n, isBlank b = false := by
    intro b hb
    obtain ⟨hge, _⟩ := mem_decimal hb
    have hblank : b ≠ 32 ∧ b ≠ 9 := by
      constructor
      · rintro rfl
        exact absurd hge (by decide)
      · rintro rfl
        exact absurd hge (by decide)
    simp [isBlank, hblank]
  have hstripped : stripped (32 :: decimal n) = decimal n := stripped_of_none hnone
  constructor
  · rw [hstripped]
    exact decimal_ne_nil n
  · rw [hstripped]
    exact hdigit
  · rw [hstripped, digitsValue_decimal]

theorem contentLengths_endLine (text rest : Bytes) :
    contentLengths (endLine text ++ rest) = contentLengths text ++ contentLengths rest := by
  have hend : endLine text ++ rest = text ++ 13 :: 10 :: rest := List.append_assoc _ _ _
  rw [contentLengths, hend, lines_append (by decide), List.filterMap_append]
  rfl

theorem contentLengths_flatMap {ι : Type} (is : List ι) (text : ι → Bytes) (rest : Bytes) :
    contentLengths (is.flatMap (fun i => endLine (text i)) ++ rest) =
      is.flatMap (fun i => contentLengths (text i)) ++ contentLengths rest := by
  induction is with
  | nil => rfl
  | cons i is ih =>
      rw [List.flatMap_cons, List.append_assoc, contentLengths_endLine, ih, List.flatMap_cons,
        List.append_assoc]

theorem contentLengths_connectionLine (websocket close : Bool) (rest : Bytes) :
    contentLengths (connectionLine websocket close ++ rest) = contentLengths rest := by
  unfold connectionLine
  split
  · rfl
  · rw [contentLengths_endLine]
    have hnone : ∀ close : Bool, contentLengths
        (bytes "connection: " ++ if close then bytes "close" else bytes "keep-alive") = [] := by
      decide
    rw [hnone, List.nil_append]

/-- A field whose text has no line end is read as one. -/
theorem contentLengths_field {name value : Bytes} (hname : 58 ∉ name)
    (hline : ¬ [13, 10] <:+: headerText (name, value)) :
    contentLengths (headerText (name, value)) =
      if name.map toLower = bytes "content-length" then [32 :: value] else [] := by
  have hall : ∀ b ∈ name, (b != 58) = true := by
    intro b hb
    have hne : b ≠ 58 := fun h => hname (h ▸ hb)
    simpa using hne
  have htext : headerText (name, value) = name ++ 58 :: 32 :: value := by
    rw [headerText, List.append_assoc]
    rfl
  rw [contentLengths, lines_of_unbroken hline, htext, List.filterMap_cons, lengthValue,
    List.takeWhile_append_of_pos hall, List.takeWhile_cons_of_neg (by decide), List.append_nil,
    List.dropWhile_append_of_pos hall, List.dropWhile_cons_of_neg (by decide)]
  by_cases hlength : name.map toLower = bytes "content-length"
  · rw [if_pos hlength, if_pos hlength]
    rfl
  · rw [if_neg hlength, if_neg hlength]
    rfl

theorem contentLengths_lengthLine (body rest : Bytes) :
    contentLengths (lengthLine body ++ rest) =
      (if body = [] then [] else [32 :: decimal body.length]) ++ contentLengths rest := by
  unfold lengthLine
  split
  · rfl
  · have hunbroken : ¬ [13, 10] <:+: headerText (bytes "content-length", decimal body.length) := by
      intro hin
      have hmem := hin.subset (List.mem_cons_self (a := (13 : UInt8)))
      have hname : (13 : UInt8) ∉ bytes "content-length" ++ bytes ": " := by decide
      obtain hmem | hvalue := List.mem_append.mp hmem
      · exact hname hmem
      · exact absurd (mem_decimal hvalue).1 (by decide)
    rw [contentLengths_endLine, contentLengths_field (by decide) hunbroken, if_pos (by decide)]

/-- A head, by the lengths it gives, in front of a body of `n` bytes: one length at most, the right
one, and one where there is a body. -/
structure OneLength (lengths : List Bytes) (n : Nat) : Prop where
  atMostOne : lengths.length ≤ 1
  right : ∀ value ∈ lengths, Denotes value n
  announced : 0 < n → lengths ≠ []

/-- What may be announced without the length line: nothing if there is a body, else one zero. -/
def LengthsLeft (lengths : List Bytes) (body : Bytes) : Prop :=
  if body = [] then lengths.length ≤ 1 ∧ ∀ value ∈ lengths, Denotes value 0 else lengths = []

theorem oneLength_iff (lengths : List Bytes) (body : Bytes) :
    OneLength (lengths ++ if body = [] then [] else [32 :: decimal body.length]) body.length ↔
      LengthsLeft lengths body := by
  unfold LengthsLeft
  by_cases hbody : body = []
  · subst hbody
    rw [if_pos rfl, if_pos rfl, List.append_nil]
    constructor
    · intro h
      exact ⟨h.atMostOne, h.right⟩
    · rintro ⟨hone, hright⟩
      exact ⟨hone, hright, fun hpos => absurd hpos (Nat.lt_irrefl 0)⟩
  · rw [if_neg hbody, if_neg hbody]
    constructor
    · intro h
      have hone := h.atMostOne
      rw [List.length_append, List.length_singleton] at hone
      exact List.length_eq_zero_iff.mp (by omega)
    · rintro rfl
      refine ⟨le_refl 1, ?_, fun _ => List.cons_ne_nil _ _⟩
      intro value hvalue
      rw [List.mem_singleton.mp hvalue]
      exact denotes_decimal body.length

/-- The lengths that the header map puts into the output. A line end in a header starts a new line. -/
def headerLengths (websocket : Bool) (headers : MapType) : List Bytes :=
  (writtenHeaders websocket headers).flatMap fun i => contentLengths (headerText i)

namespace HttpRequest
variable (r : HttpRequest)

/-- All that `dump` writes in front of the body. -/
def head : Bytes :=
  endLine r.startLine ++ (connectionLine r.websocket r.close ++
    ((writtenHeaders r.websocket r.headers).flatMap (fun i => endLine (headerText i)) ++
      (lengthLine r.body ++ bytes "\r\n")))

theorem dump_eq : r.dump = r.head ++ r.body := by
  simp only [dump, head, List.append_assoc]

theorem contentLengths_head : contentLengths r.head =
    (contentLengths r.startLine ++ headerLengths r.websocket r.headers) ++
      if r.body = [] then [] else [32 :: decimal r.body.length] := by
  have hlast : contentLengths (bytes "\r\n") = [] := by decide
  rw [head, contentLengths_endLine, contentLengths_connectionLine, contentLengths_flatMap,
    contentLengths_lengthLine, hlast, List.append_nil, headerLengths, List.append_assoc]

end HttpRequest

namespace HttpResponse
variable (r : HttpResponse)

def head : Bytes :=
  endLine r.startLine ++
    ((writtenHeaders r.websocket r.headers).flatMap (fun i => endLine (headerText i)) ++
      (r.cookies.flatMap (fun i => endLine (bytes "Set-Cookie: " ++ i)) ++
        (connectionLine r.websocket r.close ++ (lengthLine r.body ++ bytes "\r\n"))))

theorem dump_eq : r.dump = r.head ++ r.body := by
  simp only [dump, head, List.append_assoc]

theorem contentLengths_head : contentLengths r.head =
    (contentLengths r.startLine ++ headerLengths r.websocket r.headers ++
      r.cookies.flatMap fun i => contentLengths (bytes "Set-Cookie: " ++ i)) ++
      if r.body = [] then [] else [32 :: decimal r.body.length] := by
  have hlast : contentLengths (bytes "\r\n") = [] := by decide
  rw [head, contentLengths_endLine, contentLengths_flatMap, contentLengths_flatMap,
    contentLengths_connectionLine, contentLengths_lengthLine, hlast, List.append_nil, headerLengths,
    List.append_assoc, List.append_assoc]

end HttpResponse

/-- What is written in front of the body is determined by the output. -/
theorem exists_head_iff {out head body : Bytes} {K : Bytes → Prop} (h : out = head ++ body) :
    (∃ head, out = head ++ body ∧ K head) ↔ K head := by
  constructor
  · rintro ⟨head', h', hK⟩
    rw [h] at h'
    rwa [List.append_cancel_right h']
  · intro hK
    exact ⟨head, h, hK⟩

theorem HttpRequest.dump_oneLength (r : HttpRequest) :
    (∃ head, r.dump = head ++ r.body ∧ OneLength (contentLengths head) r.body.length) ↔
      LengthsLeft (contentLengths r.startLine ++ headerLengths r.websocket r.headers) r.body := by
  rw [exists_head_iff r.dump_eq, r.contentLengths_head]
  exact oneLength_iff _ r.body

theorem HttpResponse.dump_oneLength (r : HttpResponse) :
    (∃ head, r.dump = head ++ r.body ∧ OneLength (contentLengths head) r.body.length) ↔
      LengthsLeft (contentLengths r.startLine ++ headerLengths r.websocket r.headers ++
        r.cookies.flatMap fun i => contentLengths (bytes "Set-Cookie: " ++ i)) r.body := by
  rw [exists_head_iff r.dump_eq, r.contentLengths_head]
  exact oneLength_iff _ r.body

/-- The output announces one length, the right one, exactly if what is written besides the body
leaves it to `dump` to do so. -/
theorem dump_one_length_iff (r : HttpRequest) (s : HttpResponse) :
    ((∃ head, r.dump = head ++ r.body ∧ OneLength (contentLengths head) r.body.length) ↔
      LengthsLeft (contentLengths r.startLine ++ headerLengths r.websocket r.headers) r.body) ∧
    ((∃ head, s.dump = head ++ s.body ∧ OneLength (contentLengths head) s.body.length) ↔
      LengthsLeft (contentLengths s.startLine ++ headerLengths s.websocket s.headers ++
        s.cookies.flatMap fun i => contentLengths (bytes "Set-Cookie: " ++ i)) s.body) :=
  ⟨r.dump_oneLength, s.dump_oneLength⟩

/-- Without line ends in the headers, these lengths are the values of the headers of that name. -/
theorem headerLengths_of_plain {websocket : Bool} {headers : MapType}
    (h : ∀ i ∈ headers, 58 ∉ i.1 ∧ ¬ [13, 10] <:+: headerText i) :
    headerLengths websocket headers =
      ((writtenHeaders websocket headers).filter fun i =>
        i.1.map toLower == bytes "content-length").map fun i => 32 :: i.2 := by
  have hmem : ∀ i ∈ writtenHeaders websocket headers, i ∈ headers := by
    intro i hi
    have hsorted := List.mem_of_mem_filter hi
    exact (List.mem_insertionSort _).mp hsorted
  rw [headerLengths]
  generalize writtenHeaders websocket headers = is at hmem
  induction is with
  | nil => rfl
  | cons i is ih =>
      obtain ⟨hname, hline⟩ := h i (hmem i List.mem_cons_self)
      rw [List.flatMap_cons, ih fun j hj => hmem j (List.mem_cons_of_mem i hj),
        contentLengths_field hname hline]
      by_cases hlength : i.1.map toLower = bytes "content-length"
      · simp [hlength]
      · simp [hlength]

/-- A request as it is received, with its body. -/
def received : HttpRequest :=
  let head := bytes "POST / HTTP/1.1\r\nContent-Length: 5\r\n\r\n"
  { ((HttpRequestParser.execute { uriRelaxed := false } head).get (by decide)).1.data with
    body := bytes "hello" }

/-- Written again, it announces its length twice. -/
theorem received_announced_twice :
    ¬ ((∀ r : HttpRequest,
        ∃ head, r.dump = head ++ r.body ∧ OneLength (contentLengths head) r.body.length) ∧
      ∀ r : HttpResponse,
        ∃ head, r.dump = head ++ r.body ∧ OneLength (contentLengths head) r.body.length) := by
  rintro ⟨h, _⟩
  have hleft := received.dump_oneLength.mp (h received)
  rw [LengthsLeft, if_neg (by decide)] at hleft
  exact absurd hleft (by decide)

end HCServer.Http
