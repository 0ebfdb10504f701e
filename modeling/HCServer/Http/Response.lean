import HCServer.Http.Request
import HCServer.Http.ResponseTable

/-! `HttpResponse` and `HttpResponseParser`, laid out as the request side is. Nobody reads the
fields `close` and `status` of `httpclient_parser`. -/
namespace HCServer.Http
open Lib

/-- A `long` stored in an `int`. -/
def longToInt (n : Int) : Int := (BitVec.ofInt 32 n).toInt

def isSpace (b : UInt8) : Bool := b == 32 || decide (9 ≤ b ∧ b ≤ 13)

/-- The value of a digit, 36 for what is none in any base. -/
def digitValue (b : UInt8) : Nat :=
  if 48 ≤ b ∧ b ≤ 57 then b.toNat - 48
  else if 65 ≤ b ∧ b ≤ 90 then b.toNat - 55
  else if 97 ≤ b ∧ b ≤ 122 then b.toNat - 87
  else 36

def digitsValue (base : Nat) (digits : Bytes) : Nat :=
  digits.foldl (fun n b => n * base + digitValue b) 0

def leadingValue (base : Nat) (text : Bytes) : Nat :=
  digitsValue base (text.takeWhile fun b => decide (digitValue b < base))

/-- Past a prefix `0x` where the base allows for one. -/
def prefixedValue (base : Nat) (text : Bytes) : Nat :=
  match text with
  | 48 :: x :: digits =>
    if base = 16 ∧ toLower x = 120 then leadingValue base digits else leadingValue base text
  | _ => leadingValue base text

/-- `strtol(text, NULL, base)`, which ends at the buffer's NUL at the latest. -/
def strtol (text : Bytes) (base : Nat) : Int :=
  match text.dropWhile isSpace with
  | 45 :: digits => max (-(prefixedValue base digits : Int)) (-(2 ^ 63))
  | 43 :: digits => min (prefixedValue base digits : Int) (2 ^ 63 - 1)
  | digits => min (prefixedValue base digits : Int) (2 ^ 63 - 1)

structure HttpResponse where
  status : Int := 200
  version : Nat := 0x11
  close : Bool := true
  websocket : Bool := false
  body : Bytes := []
  reason : Bytes := []
  headers : MapType := []
  cookies : List Bytes := []
  deriving DecidableEq, Repr

def HttpResponse.setHeader (r : HttpResponse) (key val : Bytes) : HttpResponse :=
  { r with headers := r.headers.assign key val }

structure HttpclientParser where
  cs : Nat := httpclientParserStart
  contentLen : Int := -1
  chunked : Bool := false
  chunksDone : Bool := false
  mark : Nat := 0
  fieldStart : Nat := 0
  fieldLen : Nat := 0
  deriving DecidableEq, Repr

/-- `m_data` and `m_error`, which is all that the callbacks touch. -/
structure ParsedResponse where
  data : HttpResponse := {}
  error : Nat := 0
  deriving DecidableEq, Repr

structure HttpResponseParser extends HttpclientParser, ParsedResponse
  deriving DecidableEq, Repr

namespace ParsedResponse
variable (p : ParsedResponse)

def onResponseReason (text : Bytes) : ParsedResponse :=
  { p with data := { p.data with reason := text } }

/-- `atoi(at)`. -/
def onResponseStatus (text : Bytes) : ParsedResponse :=
  { p with data := { p.data with status := longToInt (strtol text 10) } }

def onResponseVersion (text : Bytes) : ParsedResponse :=
  if strncmpEq text (bytes "HTTP/1.1") text.length then
    { p with data := { p.data with version := 0x11 } }
  else if strncmpEq text (bytes "HTTP/1.0") text.length then
    { p with data := { p.data with version := 0x10 } }
  else { p with error := 1001 }

def onResponseHttpField (field value : Bytes) : ParsedResponse :=
  if field.length = 0 then p else { p with data := p.data.setHeader field value }

def getContentLength (lexicalCast : Bytes → Option UInt64) : UInt64 :=
  ((p.data.headers.find (bytes "content-length")).bind lexicalCast).getD 0

end ParsedResponse

/-- The loop of `httpclient_parser_execute`: `seen` lies before `p` in the buffer, `ahead` from `p`
on, which the number conversions read. -/
structure ClientScan where
  parser : HttpResponseParser
  seen : Bytes
  ahead : Bytes
  deriving DecidableEq, Repr

namespace ClientScan
variable (s : ClientScan)

def text (start : Nat) : Bytes := s.seen.drop start

/-- The C string at `buffer + start`. -/
def cstr (start : Nat) : Bytes := s.text start ++ s.ahead

def feed (b : UInt8) : ClientScan := { s with seen := s.seen ++ [b], ahead := s.ahead.tail }

def call (parsed : ParsedResponse) : ClientScan :=
  { s with parser := { s.parser with toParsedResponse := parsed } }

/-- The callbacks for chunks do nothing. -/
def perform : ClientAction → Option ClientScan
  | .mark | .startValue => some { s with parser := { s.parser with mark := s.seen.length } }
  | .startField => some { s with parser := { s.parser with fieldStart := s.seen.length } }
  | .writeField =>
    some { s with parser := { s.parser with fieldLen := s.seen.length - s.parser.fieldStart } }
  | .writeContentLen =>
    let len := longToInt (strtol (s.cstr s.parser.mark) 10)
    some { s with parser := { s.parser with contentLen := len } }
  | .writeValue =>
    let field := (s.text s.parser.fieldStart).take s.parser.fieldLen
    some (s.call (s.parser.onResponseHttpField field (s.text s.parser.mark)))
  | .reasonPhrase => some (s.call (s.parser.onResponseReason (s.text s.parser.mark)))
  | .statusCode => some (s.call (s.parser.onResponseStatus (s.cstr s.parser.mark)))
  | .httpVersion => some (s.call (s.parser.onResponseVersion (s.text s.parser.mark)))
  | .chunkSize =>
    let len := longToInt (strtol (s.cstr s.parser.mark) 16)
    some { s with parser :=
      { s.parser with chunked := true, contentLen := len, chunksDone := decide (len ≤ 0) } }
  | .transChunked => some { s with parser := { s.parser with chunked := true } }
  | .writeConnectionClose | .done => some s

def step (s : ClientScan) : Move UInt8 ClientAction → Option ClientScan :=
  Transducer.step perform feed s

end ClientScan

namespace HttpResponseParser
variable (p : HttpResponseParser)

/-- `httpclient_parser_init`. -/
def parserInit : HttpResponseParser :=
  { p with cs := httpclientParserStart, contentLen := -1, chunked := false, chunksDone := false,
           mark := 0, fieldStart := 0, fieldLen := 0 }

def rewind : HttpResponseParser := { p with mark := 0, fieldLen := 0, fieldStart := 0 }

/-- With the number of bytes consumed. Its checks, which would make that -1, never fail on a buffer
that is not empty. -/
def httpclientParserExecute (buffer : Bytes) : Option (HttpResponseParser × Nat) :=
  (httpclientParser.run ClientScan.perform ClientScan.feed p.cs ⟨p.rewind, [], buffer⟩ buffer).map
    fun r => ({ r.2.parser with cs := Status.cs r.1 }, r.2.seen.length)

/-- Returns what `memmove` leaves of the data. -/
def execute (chunck : Bool) (data : Bytes) : Option (HttpResponseParser × Bytes) :=
  ((if chunck then p.parserInit else p).httpclientParserExecute data).map fun r =>
    (r.1, data.drop r.2)

def hasError : Bool := p.error != 0 || p.cs == httpclientParserError

def isFinished : Bool := p.cs == httpclientParserError || p.cs == httpclientParserFirstFinal

def incremental (chunck : Bool) : Incremental HttpResponseParser :=
  ⟨fun p => p.execute chunck, hasError, isFinished⟩

end HttpResponseParser

namespace ClientScan
variable {s t : ClientScan}

theorem perform_seen {a : ClientAction} (h : s.perform a = some t) : t.seen = s.seen := by
  cases a <;> cases h <;> rfl

/-- No callback sets a body. -/
theorem perform_body {a : ClientAction} (h : s.perform a = some t) :
    t.parser.data.body = s.parser.data.body := by
  cases a
  case httpVersion =>
    cases h
    simp only [call, ParsedResponse.onResponseVersion]
    split
    · rfl
    · split <;> rfl
  case writeValue =>
    cases h
    simp only [call, ParsedResponse.onResponseHttpField, HttpResponse.setHeader]
    split <;> rfl
  all_goals
    cases h
    rfl

theorem exec_seen {os : List (Move UInt8 ClientAction)} (h : exec step s os = some t) :
    t.seen = s.seen ++ Transducer.fed os :=
  Transducer.exec_seen h (fun _ _ _ hperform => perform_seen hperform) fun _ _ => rfl

theorem exec_body {os : List (Move UInt8 ClientAction)} (h : exec step s os = some t) :
    t.parser.data.body = s.parser.data.body :=
  Transducer.exec_kept (K := fun u : ClientScan => u.parser.data.body = s.parser.data.body) h
    (fun _ _ _ hu hperform => (perform_body hperform).trans hu) (fun _ _ hu => hu) rfl

end ClientScan

namespace HttpResponseParser
variable {p p' : HttpResponseParser} {data rest : Bytes}

theorem httpclientParserExecute_eq (p : HttpResponseParser) (data : Bytes) :
    p.httpclientParserExecute data =
      (exec ClientScan.step ⟨p.rewind, [], data⟩ (httpclientParser.ops p.cs data)).map fun s =>
        ({ s.parser with cs := Status.cs (httpclientParser.status p.cs data) }, s.seen.length) := by
  rw [httpclientParserExecute, Transducer.run_eq_ops, Option.map_map]
  rfl

theorem execute_body {chunck : Bool} (h : p.execute chunck data = some (p', rest)) :
    p'.data.body = p.data.body := by
  obtain ⟨r, hr, heq⟩ := Option.map_eq_some_iff.mp h
  obtain ⟨rfl, _⟩ := Prod.mk.inj heq
  rw [httpclientParserExecute_eq] at hr
  obtain ⟨s, hs, rfl⟩ := Option.map_eq_some_iff.mp hr
  refine (ClientScan.exec_body hs).trans ?_
  cases chunck <;> rfl

theorem length_execute_le {chunck : Bool} (h : p.execute chunck data = some (p', rest)) :
    rest.length ≤ data.length := by
  obtain ⟨r, _, heq⟩ := Option.map_eq_some_iff.mp h
  rw [← (Prod.mk.inj heq).2, List.length_drop]
  exact Nat.sub_le _ _

/-- The header of a chunk is not empty. -/
theorem length_execute_lt (h : p.execute true data = some (p', rest)) (herror : p'.hasError = false)
    (hfinished : p'.isFinished = true) : rest.length < data.length := by
  obtain ⟨r, hr, heq⟩ := Option.map_eq_some_iff.mp h
  obtain ⟨rfl, rfl⟩ := Prod.mk.inj heq
  rw [if_pos rfl, httpclientParserExecute_eq] at hr
  obtain ⟨s, hs, rfl⟩ := Option.map_eq_some_iff.mp hr
  have hseen := ClientScan.exec_seen hs
  cases data with
  | nil => exact absurd hfinished Bool.false_ne_true
  | cons b data =>
      cases hnext : httpclientParser.next httpclientParserStart b with
      | none =>
          simp [hasError, parserInit, Transducer.status, hnext, Status.cs,
            httpParserError, httpclientParserError] at herror
      | some e =>
          simp only [parserInit, Transducer.ops, hnext, Transducer.fed_acts, Transducer.fed,
            List.nil_append] at hseen
          rw [hseen]
          simp only [List.length_cons, List.drop_succ_cons, List.length_drop]
          omega

end HttpResponseParser
end HCServer.Http
