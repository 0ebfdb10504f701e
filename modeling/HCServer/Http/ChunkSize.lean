import HCServer.Http.Connection

/-! The size lines of chunks, and what the loop makes of a size that its `int` cannot hold, or can
hold only just. -/
namespace HCServer.Http
open Lib

/-- The hexadecimal digits of a size line, of either case. -/
structure SizeLine where
  size : Bytes
  size_ne : size ≠ []
  digits : ∀ b ∈ size, digitValue b < 16

namespace SizeLine
variable (l : SizeLine)

def line : Bytes := l.size ++ [13, 10]

def value : Nat := digitsValue 16 l.size

/-- What the parser stores: the number cut to a `long`, then to an `int`. -/
def contentLen : Int := longToInt (min (l.value : Int) (2 ^ 63 - 1))

theorem forall_byte {K : UInt8 → Prop} (h : ∀ n : Fin 256, K (UInt8.ofFin n)) (b : UInt8) : K b :=
  h b.toFin

/-- What the conversions and the machine's states 1 and 2 make of a hexadecimal digit. -/
theorem digit_facts : ∀ b : UInt8, digitValue b < 16 →
    isSpace b = false ∧ b ≠ 45 ∧ b ≠ 43 ∧ toLower b ≠ 120 ∧
      httpclientParser.next 1 b = some ([.mark], 2) ∧ httpclientParser.next 2 b = some ([], 2) :=
  forall_byte (by decide +kernel)

theorem leadingValue_size (rest : Bytes) : leadingValue 16 (l.size ++ 13 :: rest) = l.value := by
  have hall : ∀ b ∈ l.size, decide (digitValue b < 16) = true :=
    fun b hb => decide_eq_true (l.digits b hb)
  rw [leadingValue, List.takeWhile_append_of_pos hall]
  rw [List.takeWhile_cons_of_neg (by decide), List.append_nil, value]

theorem prefixedValue_size (rest : Bytes) : prefixedValue 16 (l.size ++ 13 :: rest) = l.value := by
  have hvalue := l.leadingValue_size rest
  unfold prefixedValue
  split
  · case h_1 x digits htext =>
      have hx : toLower x ≠ 120 := by
        cases hsize : l.size with
        | nil => exact absurd hsize l.size_ne
        | cons b ds =>
            rw [hsize, List.cons_append] at htext
            cases ds with
            | nil =>
                cases htext
                decide
            | cons d ds =>
                cases htext
                exact (digit_facts x (l.digits x (by simp [hsize]))).2.2.2.1
      rw [if_neg (fun h => hx h.2), hvalue]
  · exact hvalue

theorem strtol_size (rest : Bytes) :
    strtol (l.size ++ 13 :: rest) 16 = min (l.value : Int) (2 ^ 63 - 1) := by
  have hvalue := l.prefixedValue_size rest
  cases hsize : l.size with
  | nil => exact absurd hsize l.size_ne
  | cons b ds =>
      obtain ⟨hspace, hminus, hplus, _⟩ := digit_facts b (l.digits b (by simp [hsize]))
      rw [hsize, List.cons_append] at hvalue
      rw [List.cons_append, strtol, List.dropWhile_cons_of_neg (by simp [hspace])]
      split
      · case h_1 heq => exact absurd (List.cons.inj heq).1 hminus
      · case h_2 heq => exact absurd (List.cons.inj heq).1 hplus
      · rw [hvalue]

theorem contentLen_of_lt (h : l.value < 2 ^ 31) : l.contentLen = l.value := by
  have hmin : min (l.value : Int) (2 ^ 63 - 1) = l.value := by omega
  rw [contentLen, hmin, longToInt, BitVec.toInt_ofInt]
  exact Int.bmod_eq_of_le (by omega) (by omega)

/-- The header goes through the machine from its start to its final state. -/
theorem ops_digits (ds rest : Bytes) (hds : ∀ b ∈ ds, digitValue b < 16) :
    httpclientParser.ops 2 (ds ++ 13 :: 10 :: rest) =
      ds.map Move.feed ++ [.act .chunkSize, .feed 13, .act .done, .feed 10] := by
  induction ds with
  | nil => rfl
  | cons b ds ih =>
      obtain ⟨_, _, _, _, _, hnext⟩ := digit_facts b (hds b List.mem_cons_self)
      have hrest := ih fun d hd => hds d (List.mem_cons_of_mem b hd)
      simp only [List.cons_append, Transducer.ops, hnext, List.map_nil, List.nil_append,
        List.any_nil, Bool.false_eq_true, if_false, hrest, List.map_cons]

theorem status_digits (ds rest : Bytes) (hds : ∀ b ∈ ds, digitValue b < 16) :
    httpclientParser.status 2 (ds ++ 13 :: 10 :: rest) = .halted 120 := by
  induction ds with
  | nil => rfl
  | cons b ds ih =>
      obtain ⟨_, _, _, _, _, hnext⟩ := digit_facts b (hds b List.mem_cons_self)
      have hrest := ih fun d hd => hds d (List.mem_cons_of_mem b hd)
      simp only [List.cons_append, Transducer.status, hnext, List.any_nil, Bool.false_eq_true,
        if_false, hrest]

end SizeLine

/-- Digits pass by without an action. -/
theorem ClientScan.exec_feeds (ds : Bytes) (os : List (Move UInt8 ClientAction)) (s : ClientScan) :
    exec ClientScan.step s (ds.map Move.feed ++ os) =
      exec ClientScan.step { s with seen := s.seen ++ ds, ahead := s.ahead.drop ds.length } os := by
  induction ds generalizing s with
  | nil => simp
  | cons b ds ih =>
      have hstep := ih (s.feed b)
      simp only [feed, List.append_assoc, List.singleton_append, List.drop_tail] at hstep
      exact hstep

namespace SizeLine
variable (l : SizeLine)

/-- The parser when the header has been read. -/
def read (p : HttpResponseParser) : HttpResponseParser :=
  { p.parserInit with cs := httpclientParserFirstFinal, contentLen := l.contentLen,
                      chunked := true, chunksDone := decide (l.contentLen ≤ 0) }

/-- The number is read up to the end of the line. -/
theorem perform_chunkSize {s : ClientScan} {tail : Bytes}
    (h : s.cstr s.parser.mark = l.size ++ 13 :: tail) :
    s.perform .chunkSize = some { s with parser :=
      { s.parser with chunked := true, contentLen := l.contentLen,
                      chunksDone := decide (l.contentLen ≤ 0) } } := by
  simp only [ClientScan.perform, h, strtol_size, contentLen]
  rfl

theorem execute_line (p : HttpResponseParser) (rest : Bytes) :
    p.execute true (l.line ++ rest) = some (l.read p, rest) := by
  have hline : l.line ++ rest = l.size ++ 13 :: 10 :: rest := by simp [line]
  rw [hline, HttpResponseParser.execute, if_pos rfl,
    HttpResponseParser.httpclientParserExecute_eq]
  cases hsize : l.size with
  | nil => exact absurd hsize l.size_ne
  | cons b ds =>
      obtain ⟨_, _, _, _, hnext, _⟩ := digit_facts b (l.digits b (by simp [hsize]))
      have hds : ∀ d ∈ ds, digitValue d < 16 := fun d hd => l.digits d (by simp [hsize, hd])
      have hops : httpclientParser.ops 1 (b :: ds ++ 13 :: 10 :: rest) = .act .mark ::
          ((b :: ds).map Move.feed ++ [.act .chunkSize, .feed 13, .act .done, .feed 10]) := by
        simp only [List.cons_append, Transducer.ops, hnext, ops_digits ds rest hds]
        rfl
      have hstatus : httpclientParser.status 1 (b :: ds ++ 13 :: 10 :: rest) = .halted 120 := by
        simp only [List.cons_append, Transducer.status, hnext, status_digits ds rest hds]
        rfl
      have hahead : (b :: ds ++ 13 :: 10 :: rest).drop (b :: ds).length = 13 :: 10 :: rest :=
        List.drop_left
      have hnumber := l.perform_chunkSize (s := ⟨p.parserInit, b :: ds, 13 :: 10 :: rest⟩)
        (by rw [hsize]; rfl)
      have hexec : exec ClientScan.step ⟨p.parserInit.rewind, [], b :: ds ++ 13 :: 10 :: rest⟩
          (httpclientParser.ops 1 (b :: ds ++ 13 :: 10 :: rest)) =
            some ⟨{ l.read p with cs := httpclientParserStart }, b :: ds ++ [13] ++ [10], rest⟩ := by
        rw [hops]
        change exec ClientScan.step ⟨p.parserInit, [], b :: ds ++ 13 :: 10 :: rest⟩
          ((b :: ds).map Move.feed ++ [.act .chunkSize, .feed 13, .act .done, .feed 10]) = _
        rw [ClientScan.exec_feeds, hahead]
        change (ClientScan.perform ⟨p.parserInit, b :: ds, 13 :: 10 :: rest⟩ .chunkSize).bind _ = _
        rw [hnumber]
        rfl
      have hlength : (b :: ds ++ [13] ++ [10]).length = (b :: ds ++ [13, 10]).length := by simp
      have hdrop : (b :: ds ++ 13 :: 10 :: rest).drop (b :: ds ++ [13, 10]).length = rest := by
        rw [show b :: ds ++ 13 :: 10 :: rest = (b :: ds ++ [13, 10]) ++ rest by simp]
        exact List.drop_left
      have hcs : p.parserInit.cs = 1 := rfl
      rw [hcs, hexec, hstatus, Option.map_some, Option.map_some, hlength, hdrop]
      rfl

/-- A line that is in the buffer as a whole is taken for a header, whatever its number. -/
theorem recvChunkHeader_line {env : ConnectionEnv} {p : HttpResponseParser} {rest : Bytes}
    (herror : p.error = 0) (hbuff : (l.line ++ rest).length ≤ env.buffSize) (sock : Socket) :
    recvChunkHeader env p (l.line ++ rest) sock = .got (l.read p, rest) sock := by
  have hne : l.line ++ rest ≠ [] := by simp [line]
  have hsound : (l.read p).hasError = false := by
    simp [read, HttpResponseParser.hasError, HttpResponseParser.parserInit, herror,
      httpclientParserFirstFinal, httpclientParserError]
  have hroom : ¬ (rest.length : Int) = toInt env.buffSize := by
    rw [toInt_of_lt env.buffSize_lt]
    simp only [line, List.length_append, List.length_cons, List.length_nil] at hbuff
    omega
  rw [recvChunkHeader, if_neg hne, l.execute_line]
  simp only [hsound, Bool.false_eq_true, if_false, hroom]
  rfl

end SizeLine

/-- The result of an operation on `int`, undefined where it does not fit. -/
def intOf (n : Int) : Option Int := if -(2 ^ 31) ≤ n ∧ n < 2 ^ 31 then some n else none

theorem intOf_eq_some {n : Int} (hge : -(2 ^ 31) ≤ n) (hlt : n < 2 ^ 31) : intOf n = some n :=
  if_pos ⟨hge, hlt⟩

/-- `recvChunkBody` with its additions and subtractions on `int`; `none` where one overflows. -/
def recvChunkBodyInt (env : ConnectionEnv) (contentLen : Int) (data body : Bytes) (sock : Socket) :
    Option (Received (Bytes × Bytes)) := do
  let need ← intOf (contentLen + 2)
  if need ≤ data.length then
    if contentLen < 0 then some .thrown
    else do
      let behind ← intOf (data.length - contentLen)
      let _moved ← intOf (behind - 2)
      let _len ← intOf (data.length - need)
      some (.got (body ++ data.take contentLen.toNat, data.drop need.toNat) sock)
  else do
    let missing ← intOf (contentLen - data.length)
    let left ← intOf (missing + 2)
    match readPieces (pieceSize env) left.toNat sock with
    | none => some .closed
    | some (more, sock') =>
      if (body ++ data ++ more).length < 2 then some .thrown
      else
        some (.got ((body ++ data ++ more).take ((body ++ data ++ more).length - 2), []) sock')

/-- Where nothing overflows, the arithmetic is that of the integers. -/
theorem recvChunkBodyInt_eq {env : ConnectionEnv} {contentLen : Int} {data body : Bytes}
    {sock : Socket} (hge : -(2 ^ 31) ≤ contentLen) (hlt : contentLen + 2 < 2 ^ 31)
    (hdata : data.length < 2 ^ 31) :
    recvChunkBodyInt env contentLen data body sock =
      some (recvChunkBody env contentLen data body sock) := by
  have hneed : intOf (contentLen + 2) = some (contentLen + 2) :=
    intOf_eq_some (by omega) hlt
  simp only [recvChunkBodyInt, recvChunkBody, hneed, Option.bind_eq_bind, Option.bind_some]
  split
  · case isTrue hin =>
      split
      · rfl
      · case isFalse hsign =>
          have hbehind : intOf (data.length - contentLen) = some (data.length - contentLen) :=
            intOf_eq_some (by omega) (by omega)
          have hmoved : intOf (data.length - contentLen - 2) = some (data.length - contentLen - 2) :=
            intOf_eq_some (by omega) (by omega)
          have hlen : intOf (data.length - (contentLen + 2)) =
              some (data.length - (contentLen + 2)) := intOf_eq_some (by omega) (by omega)
          simp only [hbehind, hmoved, hlen, Option.bind_some]
  · case isFalse hout =>
      have hmissing : intOf (contentLen - data.length) = some (contentLen - data.length) :=
        intOf_eq_some (by omega) (by omega)
      have hleft : intOf (contentLen - data.length + 2) = some (contentLen - data.length + 2) :=
        intOf_eq_some (by omega) (by omega)
      simp only [hmissing, hleft, Option.bind_some]
      cases readPieces (pieceSize env) (contentLen - data.length + 2).toNat sock with
      | none => rfl
      | some r => exact (apply_ite some _ _ _).symm

/-- The largest two numbers that an `int` holds leave no room for the line end. -/
theorem recvChunkBodyInt_overflow {env : ConnectionEnv} {contentLen : Int}
    (h : 2 ^ 31 ≤ contentLen + 2) (data body : Bytes) (sock : Socket) :
    recvChunkBodyInt env contentLen data body sock = none := by
  have hneed : intOf (contentLen + 2) = none := if_neg (by omega)
  simp only [recvChunkBodyInt, hneed, Option.bind_eq_bind, Option.bind_none]

/-- A size line with `rest` behind it in the buffer: the arithmetic on its number is defined, no
more is appended than there is, and a number that does not fit closes the connection. -/
structure SizeSafe (env : ConnectionEnv) (p : HttpResponseParser) (l : SizeLine)
    (rest body : Bytes) (sock : Socket) : Prop where
  arithmetic : ∀ p' data sock', recvChunkHeader env p (l.line ++ rest) sock = .got (p', data) sock' →
    (recvChunkBodyInt env p'.contentLen data body sock').isSome
  append : ∀ p' data sock', recvChunkHeader env p (l.line ++ rest) sock = .got (p', data) sock' →
    p'.contentLen + 2 ≤ data.length → 0 ≤ p'.contentLen ∧ p'.contentLen ≤ data.length
  reported : 2 ^ 31 ≤ l.value → recvChunkHeader env p (l.line ++ rest) sock = .closed

section
variable {env : ConnectionEnv} {p : HttpResponseParser} {l : SizeLine} {rest : Bytes}

theorem SizeSafe.of_lt (herror : p.error = 0) (hbuff : (l.line ++ rest).length ≤ env.buffSize)
    (h : l.value + 2 < 2 ^ 31) (body : Bytes) (sock : Socket) :
    SizeSafe env p l rest body sock := by
  have hheader := l.recvChunkHeader_line herror hbuff sock
  have hvalue : (l.read p).contentLen = l.value := l.contentLen_of_lt (by omega)
  have hrest : rest.length < 2 ^ 31 := by
    rw [List.length_append] at hbuff
    have hlt := env.buffSize_lt
    omega
  constructor
  · intro p' data sock' hgot
    rw [hheader] at hgot
    cases hgot
    rw [hvalue, recvChunkBodyInt_eq (by omega) (by omega) hrest]
    rfl
  · intro p' data sock' hgot hin
    rw [hheader] at hgot
    cases hgot
    rw [hvalue] at hin ⊢
    omega
  · intro hlarge
    omega

/-- A number beyond `int` is reported nowhere, one just below overflows. -/
theorem SizeSafe.lt (herror : p.error = 0) (hbuff : (l.line ++ rest).length ≤ env.buffSize)
    {body : Bytes} {sock : Socket} (h : SizeSafe env p l rest body sock) : l.value + 2 < 2 ^ 31 := by
  have hheader := l.recvChunkHeader_line herror hbuff sock
  by_contra hlarge
  by_cases hfits : l.value < 2 ^ 31
  · have hvalue : (l.read p).contentLen = l.value := l.contentLen_of_lt hfits
    have hdefined := h.arithmetic _ _ _ hheader
    rw [hvalue, recvChunkBodyInt_overflow (by omega)] at hdefined
    cases hdefined
  · have hclosed := h.reported (Nat.le_of_not_lt hfits)
    rw [hheader] at hclosed
    cases hclosed

end

theorem chunk_size_safe_iff (env : ConnectionEnv) (p : HttpResponseParser) (l : SizeLine)
    (rest body : Bytes) (sock : Socket) (herror : p.error = 0)
    (hbuff : (l.line ++ rest).length ≤ env.buffSize) :
    SizeSafe env p l rest body sock ↔ l.value + 2 < 2 ^ 31 :=
  ⟨SizeSafe.lt herror hbuff, fun h => SizeSafe.of_lt herror hbuff h body sock⟩

namespace SizeLine

def ofDigits (size : Bytes) (ne : size ≠ [])
    (h : (size.all fun b => decide (digitValue b < 16)) = true) : SizeLine :=
  ⟨size, ne, fun b hb => of_decide_eq_true (List.all_eq_true.mp h b hb)⟩

def ten : SizeLine := ofDigits (bytes "a") (by decide) (by decide)

theorem chunk_size_safe_ten :
    SizeSafe ⟨4096, by decide, fun _ => none⟩ {} ten (bytes "hel") [] [] :=
  (chunk_size_safe_iff ⟨4096, by decide, fun _ => none⟩ {} ten (bytes "hel") [] [] rfl
    (by decide)).mpr (by decide)

def twoToThe32 : SizeLine := ofDigits (bytes "100000000") (by decide) (by decide)

/-- The size `2 ^ 32` is taken for that of the last chunk. -/
theorem large_size_not_reported :
    ¬ ∀ (env : ConnectionEnv) (p : HttpResponseParser) (l : SizeLine) (rest body : Bytes)
      (sock : Socket), p.error = 0 → (l.line ++ rest).length ≤ env.buffSize →
      SizeSafe env p l rest body sock := by
  intro h
  have hsafe := h ⟨4096, by decide, fun _ => none⟩ {} twoToThe32 [] [] [] rfl (by decide)
  exact absurd (hsafe.lt rfl (by decide)) (by decide)

end SizeLine
end HCServer.Http
