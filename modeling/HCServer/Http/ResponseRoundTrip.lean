import HCServer.Http.Framing
import HCServer.Http.Headers
import HCServer.Http.ResponseHead

/-! A response that is written by `dump` and received by `recvResponse`. Its fields go through the
map of the receiver, where one cookie replaces the other. -/
namespace HCServer.Http
open Lib
open Uris (Chars)

/-- What `dump` may write so that the receiver can read it as it was meant: the fields have names
that the machine does not know, and no line ends. -/
structure Answerable (r : HttpResponse) : Prop where
  version : r.version = 0x10 ∨ r.version = 0x11
  status : -2 ^ 31 ≤ r.status ∧ r.status < 2 ^ 31
  reason : ∀ b ∈ r.reason, Chars.has lineChars b = true
  websocket : r.websocket = false
  plain : ∀ i ∈ writtenHeaders false r.headers, OtherName i.1 ∧ FieldValue i.2
  distinct : r.headers.Pairwise Apart
  cookies : ∀ c ∈ r.cookies, FieldValue c
  body : r.body.length < 2 ^ 31

namespace HttpResponse
variable (r : HttpResponse)

/-- The reason that `dump` writes, which is never empty. -/
def reasonText : Bytes := if r.reason = [] then httpStatusToString r.status else r.reason

def connectionValue : Bytes := if r.close then bytes "close" else bytes "keep-alive"

def cookieFields : MapType := r.cookies.map fun c => (bytes "Set-Cookie", c)

def lengthFields : MapType :=
  if r.body = [] then [] else [(bytes "content-length", decimal r.body.length)]

/-- The fields in the order in which they are written. -/
def fields : MapType :=
  writtenHeaders false r.headers ++ r.cookieFields ++
    (bytes "connection", r.connectionValue) :: r.lengthFields

end HttpResponse

namespace Answerable
variable {r : HttpResponse}

theorem mem_writtenHeaders {m : MapType} {i : Bytes × Bytes} :
    i ∈ writtenHeaders false m ↔ i ∈ m ∧ strcasecmpEq i.1 (bytes "connection") = false := by
  rw [writtenHeaders, List.mem_filter, Sendable.mem_inOrder]
  simp

theorem cookie_name : OtherName (bytes "Set-Cookie") :=
  .of_all (by decide) (by decide) (by decide)

/-- The head, cut where the machine has read a part. -/
theorem head_eq (h : Answerable r) : r.head = ((versionText r.version ++ [32]) ++
    ((decimal (BitVec.ofInt 32 r.status).toNat ++ [32]) ++ ((r.reasonText ++ bytes "\r\n") ++
      (((writtenHeaders false r.headers ++ r.cookieFields).flatMap fun i => i.1 ++ fieldEnd i.2) ++
        ((bytes "connection" ++ fieldEnd r.connectionValue) ++
          r.lengthFields.flatMap fun i => i.1 ++ fieldEnd i.2))))) ++ bytes "\r\n" := by
  have hblank : bytes " " = [32] := by decide
  have hcookie : bytes "Set-Cookie: " = bytes "Set-Cookie" ++ bytes ": " := by decide
  have hconnection : bytes "connection: " = bytes "connection" ++ bytes ": " := by decide
  have hlength : lengthLine r.body = r.lengthFields.flatMap fun i => i.1 ++ fieldEnd i.2 := by
    unfold lengthLine HttpResponse.lengthFields
    split
    · rfl
    · rw [List.flatMap_singleton, Http.endLine, headerText, fieldEnd, List.append_assoc,
        List.append_assoc]
  have hreason : (if r.reason = [] then httpStatusToString r.status else r.reason) =
      r.reasonText := rfl
  have hclose : (if r.close then bytes "close" else bytes "keep-alive") = r.connectionValue := rfl
  rw [HttpResponse.head, h.websocket, HttpResponse.startLine, hlength, hblank, connectionLine,
    if_neg Bool.false_ne_true, hreason, hclose, hconnection, hcookie]
  simp only [HttpResponse.cookieFields, Http.endLine, headerText, fieldEnd, List.flatMap_append,
    List.flatMap_map, List.append_assoc]

/-- What the parser makes of the head. -/
def parsed (r : HttpResponse) : ParsedResponse :=
  { data := { status := r.status, version := r.version, reason := r.reasonText,
              headers := r.fields.foldl (fun m i => m.assign i.1 i.2) [] } }

theorem fields_ne (h : Answerable r) : ∀ i ∈ r.fields, i.1 ≠ [] := by
  intro i hi
  obtain hi | hi := List.mem_append.mp hi
  · obtain hi | hi := List.mem_append.mp hi
    · exact (h.plain i hi).1.ne
    · obtain ⟨c, _, rfl⟩ := List.mem_map.mp hi
      exact cookie_name.ne
  · obtain rfl | hi := List.mem_cons.mp hi
    · change bytes "connection" ≠ []
      decide
    · unfold HttpResponse.lengthFields at hi
      split at hi
      · cases hi
      · rw [List.mem_singleton.mp hi]
        change bytes "content-length" ≠ []
        decide

theorem foldl_onResponseHttpField {is : MapType} (hne : ∀ i ∈ is, i.1 ≠ []) (p : ParsedResponse) :
    is.foldl (fun p i => p.onResponseHttpField i.1 i.2) p =
      { p with data := { p.data with
          headers := is.foldl (fun m i => m.assign i.1 i.2) p.data.headers } } := by
  induction is generalizing p with
  | nil => rfl
  | cons i is ih =>
      have hname : i.1.length ≠ 0 := fun h =>
        hne i List.mem_cons_self (List.length_eq_zero_iff.mp h)
      rw [List.foldl_cons, ih fun j hj => hne j (List.mem_cons_of_mem i hj),
        ParsedResponse.onResponseHttpField, if_neg hname]
      rfl

/-- A status is written without its sign, and is an `int` again when it is read. -/
theorem status_eq (h : Answerable r) :
    longToInt (min ((BitVec.ofInt 32 r.status).toNat : Int) (2 ^ 63 - 1)) = r.status := by
  have hlt := (BitVec.ofInt 32 r.status).isLt
  have hmin : min ((BitVec.ofInt 32 r.status).toNat : Int) (2 ^ 63 - 1) =
      (BitVec.ofInt 32 r.status).toNat := by omega
  have hword : BitVec.ofInt 32 ((BitVec.ofInt 32 r.status).toNat : Int) = BitVec.ofInt 32 r.status := by
    rw [BitVec.ofInt_natCast, BitVec.ofNat_toNat, BitVec.setWidth_eq]
  obtain ⟨hlo, hhi⟩ := h.status
  rw [hmin, longToInt, hword, BitVec.toInt_ofInt]
  exact Int.bmod_eq_of_le (by omega) (by omega)

theorem versionText_eq (h : Answerable r) :
    versionText r.version ∈ [bytes "HTTP/1.1", bytes "HTTP/1.0"] ∧
      ParsedResponse.onResponseVersion {} (versionText r.version) =
        { data := { version := r.version } } := by
  obtain hversion | hversion := h.version
  all_goals
    rw [hversion]
    simp [versionText, decimal]
    decide

/-- The callbacks, one after the other. -/
theorem parsed_eq (h : Answerable r) :
    r.fields.foldl (fun p i => p.onResponseHttpField i.1 i.2)
      (((fun p : ParsedResponse => { p with data := { p.data with
          status := longToInt (min ((BitVec.ofInt 32 r.status).toNat : Int) (2 ^ 63 - 1)) } })
        (ParsedResponse.onResponseVersion {} (versionText r.version))).onResponseReason
          r.reasonText) = parsed r := by
  rw [foldl_onResponseHttpField h.fields_ne, h.status_eq, h.versionText_eq.2]
  rfl

end Answerable

namespace ResponseRoundTrip
open RoundTrip

end ResponseRoundTrip
end HCServer.Http
