import HCServer.Http.Request
import Mathlib.Data.List.TakeWhile

/-! Which method tokens of a request line are taken for which method. `CharsToHttpMethod` looks no
further than the names it knows, and the grammar has no place for a hyphen. -/
namespace HCServer.Http
open Lib

/-- `StringToHttpMethod`, which compares C strings. -/
def stringToHttpMethod (m : Bytes) : HttpMethod :=
  match httpMethodMap.find? fun e => bytes e.1 == m.takeWhile (· != 0) with
  | some e => e.2
  | none => .invalidMethod

/-- `t` is the name of the method `m`. -/
def MethodName (t : Bytes) (m : HttpMethod) : Prop := ∃ e ∈ httpMethodMap, bytes e.1 = t ∧ e.2 = m

/-- Some name ends before `t` does, which goes on as the name does up to there. -/
def ExtendsName (t : Bytes) : Prop := ∃ e ∈ httpMethodMap, bytes e.1 <+: t ∧ bytes e.1 ≠ t

instance : DecidablePred ExtendsName := fun t =>
  inferInstanceAs (Decidable (∃ e ∈ httpMethodMap, bytes e.1 <+: t ∧ bytes e.1 ≠ t))

theorem name_bytes : ∀ e ∈ httpMethodMap, 0 ∉ bytes e.1 ∧ 32 ∉ bytes e.1 := by decide

theorem name_valid : ∀ e ∈ httpMethodMap, e.2 ≠ .invalidMethod := by decide

/-- No name begins with another one. -/
theorem names_prefix_free :
    ∀ e ∈ httpMethodMap, ∀ e' ∈ httpMethodMap, bytes e.1 <+: bytes e'.1 → e = e' := by decide

theorem strncmpEq_iff_leads {a : Bytes} (ha : 0 ∉ a) (b : Bytes) :
    strncmpEq a b a.length = true ↔ a <+: b := by
  induction a generalizing b with
  | nil => simp [strncmpEq]
  | cons x a ih =>
      have hx : x ≠ 0 := fun h => ha (h ▸ List.mem_cons_self)
      have htail := ih (fun h => ha (List.mem_cons_of_mem x h))
      cases b with
      | nil => simp [strncmpEq, hx]
      | cons y b => simp [strncmpEq, hx, htail, List.cons_prefix_cons]

theorem charsToHttpMethod_cases (m : Bytes) :
    (∃ e ∈ httpMethodMap, bytes e.1 <+: m ∧ charsToHttpMethod m = e.2) ∨
      ((∀ e ∈ httpMethodMap, ¬ bytes e.1 <+: m) ∧ charsToHttpMethod m = .invalidMethod) := by
  rw [charsToHttpMethod]
  cases hfind : httpMethodMap.find? fun e => strncmpEq (bytes e.1) m (bytes e.1).length with
  | some e =>
      have he := List.mem_of_find?_eq_some hfind
      have hequal := List.find?_some hfind
      exact .inl ⟨e, he, (strncmpEq_iff_leads (name_bytes e he).1 m).mp hequal, rfl⟩
  | none =>
      refine .inr ⟨?_, rfl⟩
      intro e he hleads
      have hequal := (strncmpEq_iff_leads (name_bytes e he).1 m).mpr hleads
      exact List.find?_eq_none.mp hfind e he hequal

/-- There is one name at most that the buffer can begin with. -/
theorem charsToHttpMethod_of_leads {e : String × HttpMethod} (he : e ∈ httpMethodMap) {m : Bytes}
    (h : bytes e.1 <+: m) : charsToHttpMethod m = e.2 := by
  obtain ⟨e', he', hleads, hmethod⟩ | ⟨hnone, _⟩ := charsToHttpMethod_cases m
  · obtain hle | hle := List.prefix_or_prefix_of_prefix h hleads
    · rw [hmethod, names_prefix_free e he e' he' hle]
    · rw [hmethod, names_prefix_free e' he' e he hle]
  · exact absurd h (hnone e he)

/-- A blank ends the comparison, since it is in no name. -/
theorem charsToHttpMethod_blank (t more : Bytes) :
    charsToHttpMethod (t ++ 32 :: more) = charsToHttpMethod t := by
  obtain ⟨e, he, hleads, hmethod⟩ | ⟨hnone, hmethod⟩ := charsToHttpMethod_cases t
  · rw [hmethod]
    exact charsToHttpMethod_of_leads he (hleads.trans (List.prefix_append t _))
  · obtain ⟨e, he, hleads, _⟩ | ⟨_, hinvalid⟩ := charsToHttpMethod_cases (t ++ 32 :: more)
    · obtain hle | hlt := le_or_gt (bytes e.1).length t.length
      · have hshort := List.prefix_of_prefix_length_le hleads (List.prefix_append t _) hle
        exact absurd hshort (hnone e he)
      · have hblank : t ++ [32] <+: bytes e.1 := by
          refine List.prefix_of_prefix_length_le ⟨more, by simp⟩ hleads ?_
          rw [List.length_append]
          exact hlt
        exact absurd (hblank.subset (by simp)) (name_bytes e he).2
    · rw [hmethod, hinvalid]

theorem charsToHttpMethod_name {t : Bytes} {m : HttpMethod} (h : MethodName t m) :
    charsToHttpMethod t = m := by
  obtain ⟨e, he, rfl, rfl⟩ := h
  exact charsToHttpMethod_of_leads he List.prefix_rfl

/-- A token that goes on after a name is taken for the name. -/
theorem charsToHttpMethod_extends {t : Bytes} (h : ExtendsName t) :
    charsToHttpMethod t ≠ .invalidMethod := by
  obtain ⟨e, he, hleads, _⟩ := h
  rw [charsToHttpMethod_of_leads he hleads]
  exact name_valid e he

theorem charsToHttpMethod_other {t : Bytes} (hname : ∀ m, ¬ MethodName t m)
    (hextends : ¬ ExtendsName t) : charsToHttpMethod t = .invalidMethod := by
  obtain ⟨e, he, hleads, _⟩ | ⟨_, hmethod⟩ := charsToHttpMethod_cases t
  · by_cases heq : bytes e.1 = t
    · exact absurd ⟨e, he, heq, rfl⟩ (hname e.2)
    · exact absurd ⟨e, he, hleads, heq⟩ hextends
  · exact hmethod

theorem ExtendsName.not_name {t : Bytes} (h : ExtendsName t) (m : HttpMethod) : ¬ MethodName t m := by
  obtain ⟨e, he, hleads, hne⟩ := h
  rintro ⟨e', he', rfl, _⟩
  exact hne (congrArg (fun x => bytes x.1) (names_prefix_free e he e' he' hleads))

theorem stringToHttpMethod_name {t : Bytes} {m : HttpMethod} (h : MethodName t m) :
    stringToHttpMethod t = m := by
  obtain ⟨e, he, rfl, rfl⟩ := h
  have hcstr : (bytes e.1).takeWhile (· != 0) = bytes e.1 := by
    refine List.takeWhile_eq_self_iff.mpr fun b hb => ?_
    have hzero : b ≠ 0 := fun h => (name_bytes e he).1 (h ▸ hb)
    simpa using hzero
  rw [stringToHttpMethod, hcstr]
  split
  · case h_1 e' hfind =>
      have heq : bytes e'.1 = bytes e.1 := by simpa using List.find?_some hfind
      rw [names_prefix_free e' (List.mem_of_find?_eq_some hfind) e he (heq ▸ List.prefix_rfl)]
  · case h_2 hfind => exact absurd (by simp) (List.find?_eq_none.mp hfind e he)

theorem stringToHttpMethod_other {t : Bytes} (hzero : 0 ∉ t) (hname : ∀ m, ¬ MethodName t m) :
    stringToHttpMethod t = .invalidMethod := by
  have hcstr : t.takeWhile (· != 0) = t := by
    refine List.takeWhile_eq_self_iff.mpr fun b hb => ?_
    have hb0 : b ≠ 0 := fun h => hzero (h ▸ hb)
    simpa using hb0
  rw [stringToHttpMethod, hcstr]
  split
  · case h_1 e hfind =>
      have heq : bytes e.1 = t := by simpa using List.find?_some hfind
      exact absurd ⟨e, List.mem_of_find?_eq_some hfind, heq, rfl⟩ (hname e.2)
  · rfl

/-- `upper | digit`. -/
def isMethodChar (b : UInt8) : Bool := (48 ≤ b && b ≤ 57) || (65 ≤ b && b ≤ 90)

/-- The grammar's `Method`. -/
def MethodToken (t : Bytes) : Prop := t ≠ [] ∧ t.length ≤ 20 ∧ ∀ b ∈ t, isMethodChar b = true

instance : DecidablePred MethodToken := fun t =>
  decidable_of_iff (t ≠ [] ∧ t.length ≤ 20 ∧ t.all isMethodChar = true)
    (by rw [List.all_eq_true, MethodToken])

/-- The grammar has all names but one. -/
theorem name_token : ∀ e ∈ httpMethodMap, bytes e.1 ≠ bytes "M-SEARCH" → MethodToken (bytes e.1) := by
  decide

theorem fires_methodChar (q : Nat) (b : UInt8) :
    (go (A := Action) RequestTable.methodChar q).fires b = isMethodChar b := by
  simp [go, Edge.fires, RequestTable.methodChar, isMethodChar, UInt8.le_iff_toNat_le]

/-- The state after `k` characters of a method. -/
def methodState (k : Nat) : Nat := if k = 1 then 2 else 173 + k

section
variable {r : Bool} {k : Nat}

theorem lookup_methodState (r : Bool) (hpos : 1 ≤ k) (hlt : k < 20) :
    (httpParserTable r).lookup (methodState k) =
      some [act [(32, 32)] [.requestMethod] 3, go RequestTable.methodChar (methodState (k + 1))] := by
  have hall : ∀ r, ∀ k < 20, 1 ≤ k → (httpParserTable r).lookup (methodState k) =
      some [act [(32, 32)] [.requestMethod] 3,
        go RequestTable.methodChar (methodState (k + 1))] := by decide
  exact hall r k hlt hpos

theorem next_methodState_blank (r : Bool) (hpos : 1 ≤ k) (hle : k ≤ 20) :
    (httpParser r).next (methodState k) 32 = some ([.requestMethod], 3) := by
  have hall : ∀ r, ∀ k ≤ 20, 1 ≤ k →
      (httpParser r).next (methodState k) 32 = some ([.requestMethod], 3) := by decide
  exact hall r k hle hpos

theorem next_methodState (r : Bool) (hpos : 1 ≤ k) (hlt : k < 20) {b : UInt8} (hb : b ≠ 32) :
    (httpParser r).next (methodState k) b =
      if isMethodChar b then some ([], methodState (k + 1)) else none := by
  have hblank : (act [(32, 32)] [Action.requestMethod] 3).fires b = false := by
    have hnat : b.toNat ≠ 32 := fun h => hb (UInt8.toNat_inj.mp h)
    simp [act, Edge.fires]
    omega
  have hrow := lookup_methodState r hpos hlt
  simp only [httpParser, Table.next, hrow, Option.bind_some, List.find?_cons, hblank,
    fires_methodChar, List.find?_nil]
  cases isMethodChar b <;> rfl

theorem next_methodState_full (r : Bool) {b : UInt8} (hb : b ≠ 32) :
    (httpParser r).next (methodState 20) b = none := by
  have hblank : (act [(32, 32)] [Action.requestMethod] 3).fires b = false := by
    have hnat : b.toNat ≠ 32 := fun h => hb (UInt8.toNat_inj.mp h)
    simp [act, Edge.fires]
    omega
  have hrow : ∀ r, (httpParserTable r).lookup (methodState 20) =
      some [act [(32, 32)] [.requestMethod] 3] := by decide
  simp only [httpParser, Table.next, hrow, Option.bind_some, List.find?_cons, hblank,
    List.find?_nil, Option.map_none]

/-- A message that begins with neither of the marks of the other two kinds is a request line. -/
theorem next_start (r : Bool) {b : UInt8} (hxml : b ≠ 60) (hjson : b ≠ 64) :
    (httpParser r).next httpParserStart b =
      if isMethodChar b then some ([.mark], methodState 1) else none := by
  have hfires : (act [(60, 60)] [Action.mark] 194).fires b = false ∧
      (act [(64, 64)] [Action.mark] 198).fires b = false := by
    have hne : b.toNat ≠ 60 := fun h => hxml (UInt8.toNat_inj.mp h)
    have hne' : b.toNat ≠ 64 := fun h => hjson (UInt8.toNat_inj.mp h)
    simp [act, Edge.fires]
    omega
  have hmethod : (act RequestTable.methodChar [Action.mark] 2).fires b = isMethodChar b :=
    fires_methodChar 2 b
  have hrow : ∀ r, (httpParserTable r).lookup httpParserStart =
      some [act RequestTable.methodChar [.mark] 2, act [(60, 60)] [.mark] 194,
        act [(64, 64)] [.mark] 198] := by decide
  simp only [httpParser, Table.next, hrow, Option.bind_some, List.find?_cons, hmethod, hfires.1,
    hfires.2, List.find?_nil]
  cases isMethodChar b <;> rfl

/-- The rest of a token, its blank and what follows, from the state after `k` characters. -/
theorem ops_method (r : Bool) (ts more : Bytes) (hpos : 1 ≤ k) (hlength : k + ts.length ≤ 20)
    (hts : ∀ b ∈ ts, isMethodChar b = true) :
    (httpParser r).ops (methodState k) (ts ++ 32 :: more) =
        ts.map Move.feed ++ .act .requestMethod :: .feed 32 :: (httpParser r).ops 3 more ∧
      (httpParser r).status (methodState k) (ts ++ 32 :: more) = (httpParser r).status 3 more := by
  induction ts generalizing k with
  | nil =>
      have hblank := next_methodState_blank r hpos (Nat.le_of_add_right_le hlength)
      simp only [List.nil_append, Transducer.ops, Transducer.status, hblank]
      exact ⟨rfl, rfl⟩
  | cons b ts ih =>
      rw [List.length_cons] at hlength
      have hb := hts b List.mem_cons_self
      have hne : b ≠ 32 := by
        rintro rfl
        exact absurd hb (by decide)
      have hnext := next_methodState r hpos (by omega) hne
      rw [if_pos hb] at hnext
      obtain ⟨hops, hstatus⟩ := ih (k := k + 1) (by omega) (by omega)
        fun d hd => hts d (List.mem_cons_of_mem b hd)
      simp only [List.cons_append, Transducer.ops, Transducer.status, hnext]
      exact ⟨congrArg (Move.feed b :: ·) hops, hstatus⟩

/-- Another character than these, or a twenty-first one, is a parse error. -/
theorem status_method_stuck (r : Bool) (ts more : Bytes) (hpos : 1 ≤ k) (hle : k ≤ 20)
    (hblank : 32 ∉ ts) (h : ¬ (k + ts.length ≤ 20 ∧ ∀ b ∈ ts, isMethodChar b = true)) :
    (httpParser r).status (methodState k) (ts ++ 32 :: more) = .stuck := by
  induction ts generalizing k with
  | nil => exact absurd ⟨hle, fun b hb => nomatch hb⟩ h
  | cons b ts ih =>
      have hne : b ≠ 32 := fun heq => hblank (heq ▸ List.mem_cons_self)
      have hrest : 32 ∉ ts := fun hmem => hblank (List.mem_cons_of_mem b hmem)
      simp only [List.cons_append, Transducer.status]
      obtain hlt | hfull := Nat.lt_or_eq_of_le hle
      · rw [next_methodState r hpos hlt hne]
        by_cases hb : isMethodChar b = true
        · rw [if_pos hb]
          refine ih (by omega) (by omega) hrest ?_
          rintro ⟨hlength, hts⟩
          refine h ⟨by rw [List.length_cons]; omega, ?_⟩
          exact List.forall_mem_cons.mpr ⟨hb, hts⟩
        · rw [if_neg hb]
      · rw [hfull, next_methodState_full r hne]

theorem MethodToken.ops {t : Bytes} (h : MethodToken t) (r : Bool) (more : Bytes) :
    (httpParser r).ops httpParserStart (t ++ 32 :: more) =
        .act .mark :: (t.map Move.feed ++
          .act .requestMethod :: .feed 32 :: (httpParser r).ops 3 more) ∧
      (httpParser r).status httpParserStart (t ++ 32 :: more) = (httpParser r).status 3 more := by
  obtain ⟨hne, hlength, hchars⟩ := h
  cases t with
  | nil => exact absurd rfl hne
  | cons b ts =>
      have hb := hchars b List.mem_cons_self
      have hmarks : b ≠ 60 ∧ b ≠ 64 := by
        constructor
        · rintro rfl
          exact absurd hb (by decide)
        · rintro rfl
          exact absurd hb (by decide)
      have hnext := next_start r hmarks.1 hmarks.2
      rw [if_pos hb] at hnext
      rw [List.length_cons] at hlength
      obtain ⟨hops, hstatus⟩ := ops_method r ts more (le_refl 1) (by omega)
        fun d hd => hchars d (List.mem_cons_of_mem b hd)
      simp only [List.cons_append, Transducer.ops, Transducer.status, hnext, hops, hstatus]
      exact ⟨rfl, rfl⟩

theorem status_other_stuck (r : Bool) {t : Bytes} (more : Bytes) (hblank : 32 ∉ t)
    (hxml : t.head? ≠ some 60) (hjson : t.head? ≠ some 64) (h : ¬ MethodToken t) :
    (httpParser r).status httpParserStart (t ++ 32 :: more) = .stuck := by
  cases t with
  | nil =>
      have hnext := next_start r (b := 32) (by decide) (by decide)
      simp only [List.nil_append, Transducer.status, hnext]
      rfl
  | cons b ts =>
      have hnext := next_start r (b := b) (fun heq => hxml (congrArg some heq))
        fun heq => hjson (congrArg some heq)
      simp only [List.cons_append, Transducer.status, hnext]
      by_cases hb : isMethodChar b = true
      · rw [if_pos hb]
        refine status_method_stuck r ts more (le_refl 1) (by omega)
          (fun hmem => hblank (List.mem_cons_of_mem b hmem)) ?_
        rintro ⟨hlength, hts⟩
        refine h ⟨List.cons_ne_nil b ts, by rw [List.length_cons]; omega, ?_⟩
        exact List.forall_mem_cons.mpr ⟨hb, hts⟩
      · rw [if_neg hb]

end

/-- No state past the method performs its action again. -/
def PastMethod (q : Nat) : Prop := q ≠ 1 ∧ q ≠ 2 ∧ ¬ (175 ≤ q ∧ q ≤ 193)

instance : DecidablePred PastMethod := fun _ => inferInstanceAs (Decidable (_ ∧ _ ∧ _))

theorem httpParserTable_pastMethod (r : Bool) : ∀ row ∈ httpParserTable r, PastMethod row.1 →
    ∀ e ∈ row.2, PastMethod e.target ∧ Action.requestMethod ∉ e.acts := by
  cases r <;> decide +kernel

theorem requestMethod_not_mem {r : Bool} {q : Nat} (hq : PastMethod q) (bs : Bytes) :
    Move.act Action.requestMethod ∉ (httpParser r).ops q bs := by
  intro hmem
  have hnot : ∀ a, Move.act a ∈ (httpParser r).ops q bs → a ≠ Action.requestMethod := by
    refine Transducer.forall_ops ?_ hq
    intro q b acts q' hq hnext
    obtain ⟨edges, hrow, e, he, rfl, rfl⟩ := Table.next_mem hnext
    obtain ⟨htarget, hacts⟩ := httpParserTable_pastMethod r _ hrow hq e he
    exact ⟨htarget, fun a ha heq => hacts (heq ▸ ha)⟩
  exact hnot _ hmem rfl

namespace Scan
variable {s t : Scan}

theorem exec_feeds (ds : Bytes) (os : List (Move UInt8 Action)) (s : Scan) :
    exec Scan.step s (ds.map Move.feed ++ os) =
      exec Scan.step { s with seen := s.seen ++ ds } os := by
  induction ds generalizing s with
  | nil => simp
  | cons b ds ih =>
      have hstep := ih (s.feed b)
      simp only [feed, List.append_assoc, List.singleton_append] at hstep
      exact hstep

theorem perform_method {a : Action} (ha : a ≠ .requestMethod) (h : s.perform a = some t) :
    t.parser.data.method = s.parser.data.method := by
  cases a
  case requestMethod => exact absurd rfl ha
  case queryString =>
    obtain ⟨_, h⟩ := Option.ite_none_right_eq_some.mp h
    cases h
    rfl
  case httpVersion =>
    cases h
    simp only [call, Parsed.onRequestVersion, Parsed.setError]
    split
    · rfl
    · split <;> rfl
  case writeValue =>
    cases h
    simp only [call, Parsed.onRequestHttpField, HttpRequest.setHeader]
    split <;> rfl
  all_goals
    cases h
    rfl

theorem exec_method {os : List (Move UInt8 Action)} (hos : Move.act Action.requestMethod ∉ os)
    (h : exec step s os = some t) : t.parser.data.method = s.parser.data.method := by
  refine Transducer.exec_kept_mem (K := fun u : Scan => u.parser.data.method = s.parser.data.method) h
    ?_ (fun _ _ hu => hu) rfl
  intro a ha u v hu hperform
  have hne : a ≠ .requestMethod := fun heq => hos (heq ▸ ha)
  exact (perform_method hne hperform).trans hu

end Scan

/-- The scan when a new parser has read a token and its blank. -/
def afterMethod (r : Bool) (t : Bytes) : Scan :=
  ⟨{ ({ uriRelaxed := r } : HttpRequestParser) with toParsed := Parsed.onRequestMethod {} t },
    t ++ [32]⟩

namespace HttpRequestParser
variable {r : Bool} {t : Bytes}

theorem execute_token (h : MethodToken t) (more : Bytes) :
    execute { uriRelaxed := r } (t ++ 32 :: more) =
      (exec Scan.step (afterMethod r t) ((httpParser r).ops 3 more)).map fun s =>
        ({ s.parser with cs := Status.cs ((httpParser r).status 3 more) },
          (t ++ 32 :: more).drop s.seen.length) := by
  obtain ⟨hops, hstatus⟩ := h.ops r more
  have hexec : exec Scan.step ⟨rewind { uriRelaxed := r }, []⟩
      ((httpParser r).ops httpParserStart (t ++ 32 :: more)) =
        exec Scan.step (afterMethod r t) ((httpParser r).ops 3 more) := by
    rw [hops]
    change exec Scan.step ⟨{ uriRelaxed := r }, []⟩ (t.map Move.feed ++ _) = _
    rw [Scan.exec_feeds]
    rfl
  refine (execute_eq (by simp) Nat.one_ne_zero).trans ?_
  change (exec Scan.step ⟨rewind { uriRelaxed := r }, []⟩
    ((httpParser r).ops httpParserStart (t ++ 32 :: more))).map (fun s =>
      ({ s.parser with
          cs := Status.cs ((httpParser r).status httpParserStart (t ++ 32 :: more)) }, _)) = _
  rw [hexec, hstatus]

/-- Whatever follows a token that is none, it is an error. -/
theorem execute_other (hblank : 32 ∉ t) (hxml : t.head? ≠ some 60) (hjson : t.head? ≠ some 64)
    (h : ¬ MethodToken t) {more rest : Bytes} {p : HttpRequestParser}
    (hexec : execute { uriRelaxed := r } (t ++ 32 :: more) = some (p, rest)) :
    p.hasError = true := by
  have hstuck := status_other_stuck r more hblank hxml hjson h
  rw [execute_eq (by simp) Nat.one_ne_zero] at hexec
  obtain ⟨s, _, heq⟩ := Option.map_eq_some_iff.mp hexec
  obtain ⟨rfl, _⟩ := Prod.mk.inj heq
  change (s.parser.error != 0 || Status.cs ((httpParser r).status httpParserStart (t ++ 32 :: more)) ==
    httpParserError) = true
  rw [hstuck]
  exact Bool.or_true _

/-- A request line without an error has the method that the buffer's comparison gives. -/
theorem execute_token_method (h : MethodToken t) {more rest : Bytes} {p : HttpRequestParser}
    (hexec : execute { uriRelaxed := r } (t ++ 32 :: more) = some (p, rest))
    (hsound : p.hasError = false) :
    charsToHttpMethod t ≠ .invalidMethod ∧ p.data.method = charsToHttpMethod t := by
  rw [execute_token h] at hexec
  obtain ⟨s, hs, heq⟩ := Option.map_eq_some_iff.mp hexec
  obtain ⟨rfl, _⟩ := Prod.mk.inj heq
  have herror : s.parser.error = 0 := by
    simpa using (Bool.or_eq_false_iff.mp hsound).1
  have hbefore := Scan.exec_error hs herror
  have hmethod := Scan.exec_method (requestMethod_not_mem (by decide) more) hs
  change s.parser.data.method = _ at hmethod
  have hvalid : charsToHttpMethod t ≠ .invalidMethod := by
    intro hinvalid
    simp [afterMethod, Parsed.onRequestMethod, hinvalid, Parsed.setError] at hbefore
  refine ⟨hvalid, ?_⟩
  change s.parser.data.method = _
  rw [hmethod, afterMethod, Parsed.onRequestMethod]
  split
  · case h_1 hinvalid => exact absurd hinvalid hvalid
  · rfl

/-- The token is read without an error, for the method `m`. -/
def ReadAs (r : Bool) (t : Bytes) (m : HttpMethod) : Prop :=
  ∃ p, execute { uriRelaxed := r } (t ++ [32]) = some (p, []) ∧ p.hasError = false ∧
    p.data.method = m

theorem readAs_token (r : Bool) (h : MethodToken t) (hvalid : charsToHttpMethod t ≠ .invalidMethod) :
    ReadAs r t (charsToHttpMethod t) := by
  have hexec := execute_token (r := r) h []
  have hrest : (t ++ [32]).drop (t ++ [32]).length = [] := List.drop_length
  have hparsed : Parsed.onRequestMethod {} t = { data := { method := charsToHttpMethod t } } := by
    rw [Parsed.onRequestMethod]
    split
    · case h_1 hinvalid => exact absurd hinvalid hvalid
    · rfl
  refine ⟨_, hexec.trans (congrArg (fun rest => some (_, rest)) hrest), ?_, ?_⟩
  · simp [hasError, afterMethod, hparsed, Transducer.status, Status.cs, httpParserError]
  · simp [afterMethod, hparsed]

/-- What a request line with the method token `t` should lead to, and with it that the comparison
in the buffer is that of the whole token. -/
structure MethodExact (r : Bool) (t : Bytes) : Prop where
  complete : ∀ m, MethodName t m → ReadAs r t m
  sound : ∀ more p rest, execute { uriRelaxed := r } (t ++ 32 :: more) = some (p, rest) →
    p.hasError = false → MethodName t p.data.method
  agrees : MethodToken t → ∀ more, charsToHttpMethod (t ++ 32 :: more) = stringToHttpMethod t

theorem not_exact_of_extends (htoken : MethodToken t) (h : ExtendsName t) : ¬ MethodExact r t := by
  intro hexact
  obtain ⟨p, hexec, hsound, _⟩ := readAs_token r htoken (charsToHttpMethod_extends h)
  exact h.not_name _ (hexact.sound [] p [] hexec hsound)

theorem MethodExact.of_token (hsearch : t ≠ bytes "M-SEARCH") (hblank : 32 ∉ t)
    (hxml : t.head? ≠ some 60) (hjson : t.head? ≠ some 64)
    (h : MethodToken t → ¬ ExtendsName t) : MethodExact r t := by
  constructor
  · intro m hname
    obtain ⟨e, he, rfl, rfl⟩ := hname
    have hchars := charsToHttpMethod_of_leads he List.prefix_rfl
    have hread := readAs_token r (name_token e he hsearch) (by rw [hchars]; exact name_valid e he)
    rwa [hchars] at hread
  · intro more p rest hexec hsound
    by_cases htoken : MethodToken t
    · obtain ⟨hvalid, hmethod⟩ := execute_token_method htoken hexec hsound
      by_contra hnone
      have hname : ∀ m, ¬ MethodName t m := by
        intro m hm
        rw [hmethod, charsToHttpMethod_name hm] at hnone
        exact hnone hm
      exact hvalid (charsToHttpMethod_other hname (h htoken))
    · rw [execute_other hblank hxml hjson htoken hexec] at hsound
      cases hsound
  · intro htoken more
    rw [charsToHttpMethod_blank]
    by_cases hname : ∃ m, MethodName t m
    · obtain ⟨m, hm⟩ := hname
      rw [charsToHttpMethod_name hm, stringToHttpMethod_name hm]
    · have hnone : ∀ m, ¬ MethodName t m := fun m hm => hname ⟨m, hm⟩
      have hzero : 0 ∉ t := fun hmem => absurd (htoken.2.2 0 hmem) (by decide)
      rw [charsToHttpMethod_other hnone (h htoken), stringToHttpMethod_other hzero hnone]

/-- Method recognition is exact for all tokens but the one name with a hyphen, which no request line
can have, and those that the grammar lets go on after a name. -/
theorem method_exact_iff (r : Bool) (t : Bytes) (hblank : 32 ∉ t) (hxml : t.head? ≠ some 60)
    (hjson : t.head? ≠ some 64) :
    MethodExact r t ↔ t ≠ bytes "M-SEARCH" ∧ (MethodToken t → ¬ ExtendsName t) := by
  constructor
  · intro h
    constructor
    · rintro rfl
      obtain ⟨p, hexec, hsound, _⟩ := h.complete .msearch ⟨("M-SEARCH", .msearch), by decide, rfl, rfl⟩
      rw [execute_other hblank hxml hjson (by decide) hexec] at hsound
      cases hsound
    · intro htoken hextends
      exact not_exact_of_extends htoken hextends h
  · rintro ⟨hsearch, h⟩
    exact MethodExact.of_token hsearch hblank hxml hjson h

theorem method_exact_purge : MethodExact false (bytes "PURGE") :=
  (method_exact_iff false (bytes "PURGE") (by decide) (by decide) (by decide)).mpr
    ⟨by decide, fun _ => by decide⟩

/-- `GETX` is taken for `GET`. -/
theorem longer_name_accepted :
    ¬ ∀ (r : Bool) (t : Bytes), 32 ∉ t → t.head? ≠ some 60 → t.head? ≠ some 64 →
      MethodExact r t := by
  intro h
  exact not_exact_of_extends (by decide) (by decide)
    (h false (bytes "GETX") (by decide) (by decide) (by decide))

end HttpRequestParser
end HCServer.Http
