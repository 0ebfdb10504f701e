import HCServer.Http.RequestTable
import HCServer.Http.Socket

/-! `HttpRequest` and `HttpRequestParser`: the callbacks of `http_parser` and the call that feeds
it one buffer. What a request is given after the head was parsed (parameters, cookies) and what
nobody reads of the parser (`body_start`, `content_len`, the socket flags) is left out. -/
namespace HCServer.Http
open Lib

def bytes (s : String) : Bytes := s.toList.map fun c => UInt8.ofNat c.toNat

/-- `strncmp(a, b, n) == 0`. -/
def strncmpEq : Bytes → Bytes → Nat → Bool
  | _, _, 0 => true
  | a, b, n + 1 =>
    a.headD 0 == b.headD 0 && (a.headD 0 == 0 || strncmpEq a.tail b.tail n)

def toLower (b : UInt8) : UInt8 := if 65 ≤ b ∧ b ≤ 90 then b + 32 else b

/-- `strcasecmp(a.c_str(), b.c_str()) == 0`. -/
def strcasecmpEq (a b : Bytes) : Bool :=
  (a.takeWhile (· != 0)).map toLower == (b.takeWhile (· != 0)).map toLower

inductive HttpMethod
  | delete | get | head | post | put | connect | options | trace | copy | lock | mkcol | move
  | propfind | proppatch | search | unlock | bind | rebind | unbind | acl | report | mkactivity
  | checkout | merge | msearch | notify | subscribe | unsubscribe | patch | purge | mkcalendar
  | link | unlink | source
  | invalidMethod
  deriving DecidableEq, Repr

def httpMethodMap : List (String × HttpMethod) :=
  [("DELETE", .delete), ("GET", .get), ("HEAD", .head), ("POST", .post), ("PUT", .put),
    ("CONNECT", .connect), ("OPTIONS", .options), ("TRACE", .trace), ("COPY", .copy),
    ("LOCK", .lock), ("MKCOL", .mkcol), ("MOVE", .move), ("PROPFIND", .propfind),
    ("PROPPATCH", .proppatch), ("SEARCH", .search), ("UNLOCK", .unlock), ("BIND", .bind),
    ("REBIND", .rebind), ("UNBIND", .unbind), ("ACL", .acl), ("REPORT", .report),
    ("MKACTIVITY", .mkactivity), ("CHECKOUT", .checkout), ("MERGE", .merge),
    ("M-SEARCH", .msearch), ("NOTIFY", .notify), ("SUBSCRIBE", .subscribe),
    ("UNSUBSCRIBE", .unsubscribe), ("PATCH", .patch), ("PURGE", .purge),
    ("MKCALENDAR", .mkcalendar), ("LINK", .link), ("UNLINK", .unlink), ("SOURCE", .source)]

/-- The first method whose name `m` starts with. -/
def charsToHttpMethod (m : Bytes) : HttpMethod :=
  match httpMethodMap.find? fun e => strncmpEq (bytes e.1) m (bytes e.1).length with
  | some e => e.2
  | none => .invalidMethod

/-- A `map` ordered by `CaseInsensitiveLess`. -/
abbrev MapType := List (Bytes × Bytes)

namespace MapType

def find (m : MapType) (key : Bytes) : Option Bytes :=
  (List.find? (fun e => strcasecmpEq e.1 key) m).map Prod.snd

/-- `m[key] = val`, which leaves the spelling of a key that is there. -/
def assign (m : MapType) (key val : Bytes) : MapType :=
  if m.any fun e => strcasecmpEq e.1 key then
    m.map fun e => if strcasecmpEq e.1 key then (e.1, val) else e
  else m ++ [(key, val)]

end MapType

structure HttpRequest where
  method : HttpMethod := .get
  version : Nat := 0x11
  close : Bool := true
  websocket : Bool := false
  path : Bytes := bytes "/"
  query : Bytes := []
  fragment : Bytes := []
  body : Bytes := []
  headers : MapType := []
  deriving DecidableEq, Repr

namespace HttpRequest

def getHeader (r : HttpRequest) (key : Bytes) : Bytes := (r.headers.find key).getD []

def setHeader (r : HttpRequest) (key val : Bytes) : HttpRequest :=
  { r with headers := r.headers.assign key val }

def init (r : HttpRequest) : HttpRequest :=
  if r.getHeader (bytes "connection") = [] then r
  else { r with close := !strcasecmpEq (r.getHeader (bytes "connection")) (bytes "keep-alive") }

end HttpRequest

/-- The fields of `http_parser` that a call reads or writes. `uri_relaxed` and `query_start` are
not set by `http_parser_init`. -/
structure HttpParser where
  cs : Nat := httpParserStart
  mark : Nat := 0
  fieldStart : Nat := 0
  fieldLen : Nat := 0
  queryStart : Nat := 0
  uriRelaxed : Bool
  deriving DecidableEq, Repr

/-- `m_data` and `m_error`, which is all that the callbacks touch. -/
structure Parsed where
  data : HttpRequest := {}
  error : Nat := 0
  deriving DecidableEq, Repr

structure HttpRequestParser extends HttpParser, Parsed
  deriving DecidableEq, Repr

namespace Parsed
variable (p : Parsed)

def setError (v : Nat) : Parsed := { p with error := v }

def onRequestMethod (text : Bytes) : Parsed :=
  match charsToHttpMethod text with
  | .invalidMethod => p.setError 1000
  | m => { p with data := { p.data with method := m } }

def onRequestFragment (text : Bytes) : Parsed :=
  { p with data := { p.data with fragment := text } }

def onRequestPath (text : Bytes) : Parsed := { p with data := { p.data with path := text } }

def onRequestQuery (text : Bytes) : Parsed := { p with data := { p.data with query := text } }

def onRequestVersion (text : Bytes) : Parsed :=
  if strncmpEq text (bytes "HTTP/1.1") text.length then
    { p with data := { p.data with version := 0x11 } }
  else if strncmpEq text (bytes "HTTP/1.0") text.length then
    { p with data := { p.data with version := 0x10 } }
  else p.setError 1001

def onRequestHttpField (field value : Bytes) : Parsed :=
  if field.length = 0 then p else { p with data := p.data.setHeader field value }

/-- `getHeaderAs<uint64_t>("content-length", 0)`, with `boost::lexical_cast<uint64_t>` as a
parameter. -/
def getContentLength (lexicalCast : Bytes → Option UInt64) : UInt64 :=
  ((p.data.headers.find (bytes "content-length")).bind lexicalCast).getD 0

end Parsed

/-- The loop of `http_parser_execute` on its way through a buffer: `seen` is what lies between
`buffer` and `p`. -/
structure Scan where
  parser : HttpRequestParser
  seen : Bytes
  deriving DecidableEq, Repr

namespace Scan
variable (s : Scan)

/-- From the position `start` to `p`. The method's name is compared past `p`, where a blank, which
is in no name, ends every comparison. -/
def text (start : Nat) : Bytes := s.seen.drop start

def feed (b : UInt8) : Scan := { s with seen := s.seen ++ [b] }

def call (parsed : Parsed) : Scan := { s with parser := { s.parser with toParsed := parsed } }

/-- `none` for the `std::length_error` of a query string whose start lies behind `p`, so that its
length wraps. -/
def perform : Action → Option Scan
  | .mark | .startValue => some { s with parser := { s.parser with mark := s.seen.length } }
  | .startField => some { s with parser := { s.parser with fieldStart := s.seen.length } }
  | .writeField =>
    some { s with parser := { s.parser with fieldLen := s.seen.length - s.parser.fieldStart } }
  | .startQuery => some { s with parser := { s.parser with queryStart := s.seen.length } }
  | .writeValue =>
    let field := (s.text s.parser.fieldStart).take s.parser.fieldLen
    some (s.call (s.parser.onRequestHttpField field (s.text s.parser.mark)))
  | .requestMethod => some (s.call (s.parser.onRequestMethod (s.text s.parser.mark)))
  | .fragment => some (s.call (s.parser.onRequestFragment (s.text s.parser.mark)))
  | .queryString =>
    if s.parser.queryStart ≤ s.seen.length then
      some (s.call (s.parser.onRequestQuery (s.text s.parser.queryStart)))
    else none
  | .httpVersion => some (s.call (s.parser.onRequestVersion (s.text s.parser.mark)))
  | .requestPath => some (s.call (s.parser.onRequestPath (s.text s.parser.mark)))
  | .requestUri | .done | .xml | .json => some s

end Scan

/-- The state that a run leaves in `cs`. -/
def Status.cs : Status Nat → Nat
  | .running q => q
  | .halted q => q
  | .stuck => httpParserError

namespace HttpRequestParser
variable (p : HttpRequestParser)

/-- The registers that each call sets back; `query_start` is not among them. -/
def rewind : HttpRequestParser := { p with mark := 0, fieldLen := 0, fieldStart := 0 }

/-- With the number of bytes consumed. Its assertions always hold. -/
def httpParserExecute (buffer : Bytes) : Option (HttpRequestParser × Nat) :=
  if buffer.length = 0 then some (p, 0)
  else
    ((httpParser p.uriRelaxed).run Scan.perform Scan.feed p.cs ⟨p.rewind, []⟩ buffer).map
      fun r =>
        ({ r.2.parser with cs := if p.cs = httpParserError then p.cs else Status.cs r.1 },
          r.2.seen.length)

/-- Returns what `memmove` leaves of the data. -/
def execute (data : Bytes) : Option (HttpRequestParser × Bytes) :=
  (p.httpParserExecute data).map fun r => (r.1, data.drop r.2)

def hasError : Bool := p.error != 0 || p.cs == httpParserError

def isFinished : Bool := p.cs == httpParserError || decide (httpParserFirstFinal ≤ p.cs)

def incremental : Incremental HttpRequestParser := ⟨execute, hasError, isFinished⟩

end HttpRequestParser

theorem httpParserStart_lt : httpParserStart < httpParserFirstFinal := by decide

/-- The final states are entered by `done`, and the error state by no edge at all. -/
theorem httpParserTable_targets (r : Bool) : ∀ row ∈ httpParserTable r, row.1 ≠ httpParserError ∧
    ∀ e ∈ row.2, e.acts.any (httpParser r).halts = false → e.target < httpParserFirstFinal := by
  cases r <;> decide +kernel

theorem httpParser_next {r : Bool} {q q' : Nat} {b : UInt8} {acts : List Action}
    (h : (httpParser r).next q b = some (acts, q')) : q ≠ httpParserError ∧
      (acts.any (httpParser r).halts = false → q' < httpParserFirstFinal) := by
  obtain ⟨edges, hrow, e, he, rfl, rfl⟩ := Table.next_mem h
  have htargets := httpParserTable_targets r _ hrow
  exact ⟨htargets.1, htargets.2 e he⟩

theorem httpParser_ends_ne_error {r : Bool} {q f : Nat} {bs : Bytes}
    (h : (httpParser r).Ends q bs f) : q ≠ httpParserError := by
  cases h with
  | last hnext _ => exact (httpParser_next hnext).1
  | more hnext _ _ => exact (httpParser_next hnext).1

theorem httpParser_running_lt {r : Bool} {q q' : Nat} {bs : Bytes}
    (hq : q < httpParserFirstFinal) (h : (httpParser r).status q bs = .running q') :
    q' < httpParserFirstFinal :=
  Transducer.running_invariant (fun _ _ _ _ hnext => (httpParser_next hnext).2) hq h

namespace Scan
variable {s t : Scan}

def step (s : Scan) : Move UInt8 Action → Option Scan := Transducer.step perform feed s

theorem step_act (s : Scan) (a : Action) : s.step (.act a) = s.perform a := rfl

/-- What no action touches. -/
theorem perform_frame {a : Action} (h : s.perform a = some t) :
    t.seen = s.seen ∧ t.parser.uriRelaxed = s.parser.uriRelaxed := by
  cases a
  case queryString =>
    obtain ⟨_, h⟩ := Option.ite_none_right_eq_some.mp h
    cases h
    exact ⟨rfl, rfl⟩
  all_goals
    cases h
    exact ⟨rfl, rfl⟩

/-- An error that a callback has set stays. -/
theorem perform_error {a : Action} (h : s.perform a = some t) (hs : s.parser.error ≠ 0) :
    t.parser.error ≠ 0 := by
  cases a
  case queryString =>
    obtain ⟨_, h⟩ := Option.ite_none_right_eq_some.mp h
    cases h
    exact hs
  case requestMethod =>
    cases h
    simp only [call, Parsed.onRequestMethod]
    split
    · exact Nat.succ_ne_zero 999
    · exact hs
  case httpVersion =>
    cases h
    simp only [call, Parsed.onRequestVersion]
    split
    · exact hs
    · split
      · exact hs
      · exact Nat.succ_ne_zero 1000
  case writeValue =>
    cases h
    simp only [call, Parsed.onRequestHttpField]
    split
    · exact hs
    · exact hs
  all_goals
    cases h
    exact hs

theorem exec_seen {os : List (Move UInt8 Action)} (h : exec step s os = some t) :
    t.seen = s.seen ++ Transducer.fed os :=
  Transducer.exec_seen h (fun _ _ _ hperform => (perform_frame hperform).1) fun _ _ => rfl

theorem exec_relaxed {os : List (Move UInt8 Action)} (h : exec step s os = some t) :
    t.parser.uriRelaxed = s.parser.uriRelaxed :=
  Transducer.exec_kept (K := fun u : Scan => u.parser.uriRelaxed = s.parser.uriRelaxed) h
    (fun _ _ _ hu hperform => (perform_frame hperform).2.trans hu) (fun _ _ hu => hu) rfl

/-- No callback sets a body. -/
theorem perform_body {a : Action} (h : s.perform a = some t) :
    t.parser.data.body = s.parser.data.body := by
  cases a
  case queryString =>
    obtain ⟨_, h⟩ := Option.ite_none_right_eq_some.mp h
    cases h
    rfl
  case requestMethod =>
    cases h
    simp only [call, Parsed.onRequestMethod, Parsed.setError]
    split <;> rfl
  case httpVersion =>
    cases h
    simp only [call, Parsed.onRequestVersion, Parsed.setError]
    split
    · rfl
    · split <;> rfl
  case writeValue =>
    cases h
    simp only [call, Parsed.onRequestHttpField, HttpRequest.setHeader]
    split <;> rfl
  all_goals
    cases h
    rfl

theorem exec_body {os : List (Move UInt8 Action)} (h : exec step s os = some t) :
    t.parser.data.body = s.parser.data.body :=
  Transducer.exec_kept (K := fun u : Scan => u.parser.data.body = s.parser.data.body) h
    (fun _ _ _ hu hperform => (perform_body hperform).trans hu) (fun _ _ hu => hu) rfl

theorem exec_error {os : List (Move UInt8 Action)} (h : exec step s os = some t)
    (ht : t.parser.error = 0) : s.parser.error = 0 := by
  by_contra hs
  have hstays : t.parser.error ≠ 0 :=
    Transducer.exec_kept (K := fun u : Scan => u.parser.error ≠ 0) h
      (fun _ _ _ hu hperform => perform_error hperform hu) (fun _ _ hu => hu) hs
  exact hstays ht

end Scan

namespace HttpRequestParser
variable {p p' : HttpRequestParser}

/-- The operations of a call on a buffer. -/
def ops (p : HttpRequestParser) (data : Bytes) : List (Move UInt8 Action) :=
  (httpParser p.uriRelaxed).ops p.cs data

theorem execute_eq {data : Bytes} (hdata : data ≠ []) (hcs : p.cs ≠ httpParserError) :
    p.execute data = (exec Scan.step ⟨p.rewind, []⟩ (p.ops data)).map fun s =>
      ({ s.parser with cs := Status.cs ((httpParser p.uriRelaxed).status p.cs data) },
        data.drop s.seen.length) := by
  have hlen : data.length ≠ 0 := fun h => hdata (List.length_eq_zero_iff.mp h)
  simp only [execute, httpParserExecute, hlen, if_false, hcs, Transducer.run_eq_ops,
    Option.map_map]
  rfl

/-- A buffer that ends before the head is consumed whole. -/
theorem execute_running {data : Bytes} {q : Nat} (hdata : data ≠ []) (hcs : p.cs ≠ httpParserError)
    (h : (httpParser p.uriRelaxed).status p.cs data = .running q) :
    p.execute data = (exec Scan.step ⟨p.rewind, []⟩ (p.ops data)).map fun s =>
      ({ s.parser with cs := q }, []) := by
  rw [execute_eq hdata hcs, h]
  cases hexec : exec Scan.step ⟨p.rewind, []⟩ (p.ops data) with
  | none => rfl
  | some s =>
      have hseen := Scan.exec_seen hexec
      rw [ops, Transducer.fed_ops_of_running h] at hseen
      simp [hseen, Status.cs]

/-- A buffer that holds the head is consumed up to the head's end. -/
theorem execute_ends {head : Bytes} {f : Nat}
    (h : (httpParser p.uriRelaxed).Ends p.cs head f) (extra : Bytes) :
    p.execute (head ++ extra) = (exec Scan.step ⟨p.rewind, []⟩ (p.ops head)).map fun s =>
      ({ s.parser with cs := f }, extra) := by
  have hne : head ++ extra ≠ [] := by
    cases h with
    | last _ _ => exact List.cons_ne_nil _ _
    | more _ _ _ => exact List.cons_ne_nil _ _
  rw [execute_eq hne (httpParser_ends_ne_error h), h.status_append, ops, h.ops_append, ← ops]
  cases hexec : exec Scan.step ⟨p.rewind, []⟩ (p.ops head) with
  | none => rfl
  | some s =>
      have hseen := Scan.exec_seen hexec
      rw [ops, h.fed_ops] at hseen
      simp [hseen, Status.cs]

/-- A new parser takes the whole of `head` in one call and is finished then, without an error. -/
structure Accepts (uriRelaxed : Bool) (head : Bytes) (p' : HttpRequestParser) : Prop where
  whole : execute { uriRelaxed } head = some (p', [])
  sound : p'.hasError = false
  finished : p'.isFinished = true

theorem Accepts.error_eq {r : Bool} {head : Bytes} (h : Accepts r head p') : p'.error = 0 := by
  have hsound := h.sound
  simp only [hasError, Bool.or_eq_false_iff, bne_eq_false_iff_eq] at hsound
  exact hsound.1

theorem Accepts.final {r : Bool} {head : Bytes} (h : Accepts r head p') :
    httpParserFirstFinal ≤ p'.cs := by
  have hsound := h.sound
  have hfinished := h.finished
  simp only [hasError, Bool.or_eq_false_iff] at hsound
  simpa only [isFinished, hsound.2, Bool.false_or, decide_eq_true_eq] using hfinished

theorem Accepts.ends {r : Bool} {head : Bytes} (h : Accepts r head p') :
    (httpParser r).Ends httpParserStart head p'.cs := by
  have hne : head ≠ [] := by
    rintro rfl
    have hwhole := h.whole
    cases hwhole
    exact Bool.false_ne_true h.finished
  have hwhole := h.whole
  rw [execute_eq hne Nat.one_ne_zero] at hwhole
  obtain ⟨s, hexec, heq⟩ := Option.map_eq_some_iff.mp hwhole
  obtain ⟨rfl, hdrop⟩ := Prod.mk.inj heq
  have hfinal := h.final
  cases hstatus : (httpParser r).status httpParserStart head with
  | running q =>
      have hlt := httpParser_running_lt httpParserStart_lt hstatus
      rw [hstatus] at hfinal
      exact absurd hlt (Nat.not_lt.mpr hfinal)
  | stuck =>
      rw [hstatus] at hfinal
      exact absurd hfinal (Nat.not_succ_le_zero _)
  | halted f =>
      refine Transducer.ends_of_status hstatus ?_
      have hseen := Scan.exec_seen hexec
      rw [List.nil_append] at hseen
      exact (List.drop_eq_nil_iff.mp hdrop).trans (by rw [hseen]; exact le_refl _)

/-- What follows the head in the buffer is left there. -/
theorem Accepts.execute_append {r : Bool} {head : Bytes} (h : Accepts r head p') (extra : Bytes) :
    execute { uriRelaxed := r } (head ++ extra) = some (p', extra) := by
  have halone := execute_ends (p := { uriRelaxed := r }) h.ends []
  rw [List.append_nil, h.whole] at halone
  rw [execute_ends (p := { uriRelaxed := r }) h.ends extra]
  obtain ⟨s, hs, heq⟩ := Option.map_eq_some_iff.mp halone.symm
  rw [hs, Option.map_some, (Prod.mk.inj heq).1]

/-- The store in which the run over the head ends. -/
theorem Accepts.exec {r : Bool} {head : Bytes} (h : Accepts r head p') :
    ∃ s, exec Scan.step ⟨rewind { uriRelaxed := r }, []⟩ (ops { uriRelaxed := r } head) = some s ∧
      s.parser.toParsed = p'.toParsed := by
  have halone := execute_ends (p := { uriRelaxed := r }) h.ends []
  rw [List.append_nil, h.whole] at halone
  obtain ⟨s, hs, heq⟩ := Option.map_eq_some_iff.mp halone.symm
  exact ⟨s, hs, congrArg (fun x => x.1.toParsed) heq⟩

theorem Accepts.body_eq {r : Bool} {head : Bytes} (h : Accepts r head p') : p'.data.body = [] := by
  obtain ⟨s, hs, hparsed⟩ := h.exec
  exact (congrArg (fun x => x.data.body) hparsed).symm.trans (Scan.exec_body hs)

end HttpRequestParser
end HCServer.Http
