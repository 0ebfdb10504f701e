import HCServer.Log.Model
import Mathlib.Algebra.Ring.Parity

/-! The patterns of a `LogFormatter` as sequences of items, and what `init` makes of them. `%%` is
meant as an escaped percent sign. -/
namespace HCServer.Log
open LogFormatter

namespace Pattern

/-- A letter that `s_format_items` has. -/
abbrev Specifier := { x : Char // String.ofList [x] ∈ keys }

inductive PatternItem
  | text (str : List Char) (plain : '%' ∉ str)
  | escape
  | bare (x : Specifier)
  | withArg (x : Specifier) (arg : List Char) (closed : '}' ∉ arg)

def PatternItem.chars : PatternItem → List Char
  | .text str _ => str
  | .escape => ['%', '%']
  | .bare x => ['%', x.1]
  | .withArg x arg _ => '%' :: x.1 :: '{' :: (arg ++ ['}'])

def pattern (items : List PatternItem) : List Char := items.flatMap PatternItem.chars

/-- Whether the inner loop stops at what follows. -/
def Stops (cs : List Char) : Prop := ∀ c ∈ cs.head?, c.isAlpha = false ∧ c ≠ '{' ∧ c ≠ '}'

/-- No bare specifier runs into a text behind it. -/
def Separated : List PatternItem → Prop
  | [] => True
  | .bare _ :: items => Stops (pattern items) ∧ Separated items
  | _ :: items => Separated items

/-- A text piece, unless it is empty. -/
def literal (nstr : List Char) : List FormatItem :=
  if nstr.isEmpty then [] else [.string (.ofList nstr)]

/-- The items meant, behind a text that is still open. -/
def meant (nstr : List Char) : List PatternItem → List FormatItem
  | [] => literal nstr
  | .text str _ :: items => meant (nstr ++ str) items
  | .escape :: items => meant (nstr ++ ['%']) items
  | .bare x :: items => literal nstr ++ .field (.ofList [x.1]) "" :: meant [] items
  | .withArg x arg _ :: items =>
      literal nstr ++ .field (.ofList [x.1]) (.ofList arg) :: meant [] items

/-- The outer loop with the two flags read off its parts. -/
def flagged (nstr cs : List Char) : Bool := (parts nstr cs).any Part.isError

def made (nstr cs : List Char) : List FormatItem := (parts nstr cs).map Part.formatItem

/-- The pattern is parsed as it is meant. -/
def Faithful (items : List PatternItem) : Prop :=
  (new (.ofList (pattern items))).m_error = false ∧
    (new (.ofList (pattern items))).m_items = meant [] items

/-! ### The letters -/

theorem keys_letters : ∀ k ∈ keys, ∃ x : Char, k = String.ofList [x] ∧ x.isAlpha = true := by
  intro k hk
  simp only [keys, List.mem_cons, List.not_mem_nil, or_false] at hk
  rcases hk with rfl | rfl | rfl | rfl | rfl | rfl | rfl | rfl | rfl | rfl | rfl | rfl
  all_goals exact ⟨_, rfl, rfl⟩

theorem Specifier.isAlpha (x : Specifier) : x.1.isAlpha = true := by
  obtain ⟨y, hy, halpha⟩ := keys_letters _ x.2
  have hxy : [x.1] = [y] := String.ofList_injective hy
  rw [(List.cons.inj hxy).1]
  exact halpha

theorem Specifier.ne (x : Specifier) {c : Char} (hc : c.isAlpha = false) : x.1 ≠ c := by
  intro h
  rw [← h, x.isAlpha] at hc
  cases hc

/-- A known key is one letter. -/
theorem key_cases {str : List Char} (h : String.ofList str ∈ keys) :
    ∃ x : Specifier, str = [x.1] := by
  obtain ⟨x, hx, -⟩ := keys_letters _ h
  have hstr : str = [x] := String.ofList_injective hx
  subst hstr
  exact ⟨⟨x, h⟩, rfl⟩

/-! ### The inner loop -/

theorem argument_closed {str fmt arg : List Char} (harg : '}' ∉ arg) (rest : List Char) :
    argument str fmt (arg ++ '}' :: rest) =
      some (.item (.ofList str) (.ofList (fmt ++ arg)), rest) := by
  induction arg generalizing fmt with
  | nil => simp [argument]
  | cons c arg ih =>
      have hc : c ≠ '}' := fun h => harg (by simp [h])
      have hrest : '}' ∉ arg := fun h => harg (List.mem_cons_of_mem _ h)
      rw [List.cons_append, argument, if_neg hc, ih hrest, List.append_assoc, List.singleton_append]

theorem argument_inv {str fmt cs rest : List Char} {part : Part}
    (h : argument str fmt cs = some (part, rest)) :
    ∃ arg, '}' ∉ arg ∧ cs = arg ++ '}' :: rest ∧
      part = .item (.ofList str) (.ofList (fmt ++ arg)) := by
  induction cs generalizing fmt with
  | nil => cases h
  | cons c cs ih =>
      rw [argument] at h
      split at h
      · rename_i hc
        cases h
        exact ⟨[], by simp, by simp [hc], by simp⟩
      · rename_i hc
        obtain ⟨arg, harg, hcs, hpart⟩ := ih h
        refine ⟨c :: arg, ?_, by rw [hcs, List.cons_append], by simp [hpart]⟩
        intro hmem
        cases hmem with
        | head => exact hc rfl
        | tail _ hmem => exact harg hmem

theorem stops_nil : Stops [] := by
  intro c hc
  cases hc

theorem item_stop {str cs : List Char} (h : Stops cs) :
    item str cs = some (.item (.ofList str) "", cs) := by
  cases cs with
  | nil => rfl
  | cons c cs =>
      obtain ⟨halpha, hopen, hclose⟩ := h c rfl
      rw [item, if_pos (by simp [halpha, hopen, hclose])]

theorem item_open (str cs : List Char) : item str ('{' :: cs) = argument str [] cs := by
  rw [item, if_neg (by decide), if_pos rfl]

theorem item_letter {str cs : List Char} {c : Char} (h : c.isAlpha = true) :
    item str (c :: cs) = item (str ++ [c]) cs := by
  have hopen : c ≠ '{' := by
    rintro rfl
    cases h
  rw [item, if_neg (by simp [h]), if_neg hopen]

theorem item_bare (x : Specifier) {cs : List Char} (h : Stops cs) :
    item [] (x.1 :: cs) = some (.item (.ofList [x.1]) "", cs) := by
  rw [item_letter x.isAlpha, List.nil_append, item_stop h]

theorem item_withArg (x : Specifier) {arg : List Char} (harg : '}' ∉ arg) (rest : List Char) :
    item [] (x.1 :: '{' :: (arg ++ '}' :: rest)) =
      some (.item (.ofList [x.1]) (.ofList arg), rest) := by
  rw [item_letter x.isAlpha, List.nil_append, item_open, argument_closed harg, List.nil_append]

/-- The two ways out of the inner loop with a result: where it stops, and with the brace closed. -/
theorem item_inv {str cs rest : List Char} {part : Part} (h : item str cs = some (part, rest)) :
    ∃ name, part.isError = !keys.contains (String.ofList (str ++ name)) ∧
      ((cs = name ++ rest ∧ Stops rest) ∨
        ∃ arg, '}' ∉ arg ∧ cs = name ++ '{' :: (arg ++ '}' :: rest)) := by
  induction cs generalizing str with
  | nil =>
      cases h
      exact ⟨[], by simp [Part.isError], .inl ⟨rfl, stops_nil⟩⟩
  | cons c cs ih =>
      rw [item] at h
      split at h
      · rename_i hstop
        cases h
        refine ⟨[], by simp [Part.isError], .inl ⟨rfl, ?_⟩⟩
        simpa [Stops, and_assoc] using hstop
      · split at h
        · rename_i hopen
          obtain ⟨arg, harg, hcs, rfl⟩ := argument_inv h
          exact ⟨[], by simp [Part.isError], .inr ⟨arg, harg, by simp [hopen, hcs]⟩⟩
        · obtain ⟨name, herror, hcs⟩ := ih h
          refine ⟨c :: name, by simpa using herror, ?_⟩
          obtain ⟨rfl, hrest⟩ | ⟨arg, harg, rfl⟩ := hcs
          · exact .inl ⟨rfl, hrest⟩
          · exact .inr ⟨arg, harg, rfl⟩

/-! ### The outer loop -/

theorem parts_literal {c : Char} (h : c ≠ '%') (nstr cs : List Char) :
    parts nstr (c :: cs) = parts (nstr ++ [c]) cs := by
  rw [parts, if_pos h]

theorem parts_text {str : List Char} (h : '%' ∉ str) (nstr cs : List Char) :
    parts nstr (str ++ cs) = parts (nstr ++ str) cs := by
  induction str generalizing nstr with
  | nil => rw [List.append_nil, List.nil_append]
  | cons c str ih =>
      have hc : c ≠ '%' := fun hc => h (by simp [hc])
      rw [List.cons_append, parts_literal hc, ih fun hmem => h (List.mem_cons_of_mem _ hmem),
        List.append_assoc, List.singleton_append]

/-- The second of two percent signs is read again. -/
theorem parts_percent (nstr cs : List Char) :
    parts nstr ('%' :: '%' :: cs) = parts (nstr ++ ['%']) ('%' :: cs) := by
  rw [parts, if_neg (by decide), List.head?_cons, if_pos rfl]

theorem parts_item {cs rest : List Char} {part : Part} (h : item [] cs = some (part, rest))
    (hcs : cs.head? ≠ some '%') (nstr : List Char) :
    parts nstr ('%' :: cs) = flush nstr ++ part :: parts [] rest := by
  rw [parts, if_neg (by decide), if_neg hcs]
  split
  · rename_i heq
    rw [h] at heq
    cases heq
    rfl
  · rename_i heq
    rw [h] at heq
    cases heq

theorem parts_unclosed {cs : List Char} (h : item [] cs = none) (hcs : cs.head? ≠ some '%')
    (nstr : List Char) : parts nstr ('%' :: cs) = .error :: parts nstr cs := by
  rw [parts, if_neg (by decide), if_neg hcs]
  split
  · rename_i heq
    rw [h] at heq
    cases heq
  · rfl

theorem flush_any (nstr : List Char) : (flush nstr).any Part.isError = false := by
  unfold flush
  split
  · rfl
  · rfl

theorem flush_map (nstr : List Char) : (flush nstr).map Part.formatItem = literal nstr := by
  unfold flush literal
  split
  · rfl
  · rfl

theorem flagged_nil (nstr : List Char) : flagged nstr [] = false := by
  rw [flagged, parts, flush_any]

theorem flagged_item {cs rest : List Char} {part : Part} (h : item [] cs = some (part, rest))
    (hcs : cs.head? ≠ some '%') (nstr : List Char) :
    flagged nstr ('%' :: cs) = (part.isError || flagged [] rest) := by
  rw [flagged, parts_item h hcs, List.any_append, flush_any, Bool.false_or, List.any_cons, flagged]

theorem flagged_unclosed {cs : List Char} (h : item [] cs = none) (hcs : cs.head? ≠ some '%')
    (nstr : List Char) : flagged nstr ('%' :: cs) = true := by
  rw [flagged, parts_unclosed h hcs, List.any_cons]
  exact Bool.true_or _

theorem made_nil (nstr : List Char) : made nstr [] = literal nstr := by
  rw [made, parts, flush_map]

theorem made_item {cs rest : List Char} {part : Part} (h : item [] cs = some (part, rest))
    (hcs : cs.head? ≠ some '%') (nstr : List Char) :
    made nstr ('%' :: cs) = literal nstr ++ part.formatItem :: made [] rest := by
  rw [made, parts_item h hcs, List.map_append, flush_map, List.map_cons, made]

theorem Specifier.head (x : Specifier) (cs : List Char) : (x.1 :: cs).head? ≠ some '%' := by
  intro h
  exact x.ne (c := '%') rfl (Option.some.inj h)

theorem Specifier.known (x : Specifier) (arg : String) :
    (Part.item (.ofList [x.1]) arg).isError = false := by
  simpa [Part.isError] using x.2

theorem Specifier.formatItem (x : Specifier) (arg : String) :
    (Part.item (.ofList [x.1]) arg).formatItem = .field (.ofList [x.1]) arg := by
  rw [Part.formatItem, if_pos x.2]

/-! ### Patterns as they are meant -/

theorem new_error (cs : List Char) : (new (.ofList cs)).m_error = flagged [] cs := by
  rw [new, String.toList_ofList, flagged]

theorem new_items (cs : List Char) : (new (.ofList cs)).m_items = made [] cs := by
  rw [new, String.toList_ofList, made]

/-- The loops, a text open, read the items as they are meant. -/
def Parsed (nstr : List Char) (items : List PatternItem) : Prop :=
  flagged nstr (pattern items) = false ∧ made nstr (pattern items) = meant nstr items

theorem faithful_iff_parsed (items : List PatternItem) : Faithful items ↔ Parsed [] items := by
  rw [Faithful, new_error, new_items, Parsed]

theorem parsed_nil (nstr : List Char) : Parsed nstr [] := ⟨flagged_nil nstr, made_nil nstr⟩

theorem parsed_text {str : List Char} (plain : '%' ∉ str) (nstr : List Char)
    (items : List PatternItem) :
    Parsed nstr (.text str plain :: items) ↔ Parsed (nstr ++ str) items := by
  have hparts : parts nstr (pattern (.text str plain :: items)) =
      parts (nstr ++ str) (pattern items) := parts_text plain nstr _
  rw [Parsed, flagged, made, hparts]
  rfl

/-- A specifier that the inner loop reads as it is meant closes the text before it. -/
theorem parsed_specifier {cs : List Char} {x : Specifier} {arg : String} {items : List PatternItem}
    (hitem : item [] cs = some (.item (.ofList [x.1]) arg, pattern items))
    (hcs : cs.head? ≠ some '%') (nstr : List Char) :
    (flagged nstr ('%' :: cs) = false ∧
        made nstr ('%' :: cs) = literal nstr ++ .field (.ofList [x.1]) arg :: meant [] items) ↔
      Parsed [] items := by
  rw [flagged_item hitem hcs, made_item hitem hcs, x.known, x.formatItem, Bool.false_or,
    List.append_cancel_left_eq, List.cons.injEq, and_iff_right rfl]
  rfl

theorem parsed_bare {x : Specifier} {items : List PatternItem} (h : Stops (pattern items))
    (nstr : List Char) : Parsed nstr (.bare x :: items) ↔ Parsed [] items :=
  parsed_specifier (item_bare x h) (x.head _) nstr

theorem parsed_withArg {x : Specifier} {arg : List Char} (closed : '}' ∉ arg) (nstr : List Char)
    (items : List PatternItem) :
    Parsed nstr (.withArg x arg closed :: items) ↔ Parsed [] items := by
  have hchars : pattern (.withArg x arg closed :: items) =
      '%' :: x.1 :: '{' :: (arg ++ '}' :: pattern items) := by
    simp [pattern, PatternItem.chars]
  rw [Parsed, hchars]
  exact parsed_specifier (item_withArg x closed (pattern items)) (x.head _) nstr

/-! ### Escapes -/

theorem literal_cons {nstr : List Char} (h : nstr ≠ []) : literal nstr = [.string (.ofList nstr)] := by
  rw [literal, if_neg (by simpa using h)]

/-- The text that is open is the first item, whatever is added to it. -/
theorem meant_head {nstr : List Char} (h : nstr ≠ []) (items : List PatternItem) :
    ∃ more tail, meant nstr items = .string (.ofList (nstr ++ more)) :: tail := by
  induction items generalizing nstr with
  | nil => exact ⟨[], [], by rw [meant, literal_cons h, List.append_nil]⟩
  | cons i items ih =>
      cases i with
      | text str plain =>
          obtain ⟨more, tail, htail⟩ := ih (by simp [h] : nstr ++ str ≠ [])
          exact ⟨str ++ more, tail, by rw [meant, htail, List.append_assoc]⟩
      | escape =>
          obtain ⟨more, tail, htail⟩ := ih (by simp : nstr ++ ['%'] ≠ [])
          exact ⟨['%'] ++ more, tail, by rw [meant, htail, List.append_assoc]⟩
      | bare x => exact ⟨[], _, by rw [meant, literal_cons h, List.append_nil]; rfl⟩
      | withArg x arg closed => exact ⟨[], _, by rw [meant, literal_cons h, List.append_nil]; rfl⟩

/-- A specifier read without an error ends the text that is open. -/
theorem made_head {nstr cs : List Char} (h : nstr ≠ []) (hcs : cs.head? ≠ some '%')
    (hflag : flagged nstr ('%' :: cs) = false) :
    ∃ tail, made nstr ('%' :: cs) = .string (.ofList nstr) :: tail := by
  cases hitem : item [] cs with
  | none =>
      rw [flagged_unclosed hitem hcs] at hflag
      cases hflag
  | some result => exact ⟨_, by rw [made_item hitem hcs, literal_cons h]; rfl⟩

/-- A percent sign too many is not read as a specifier that ends the text as it is meant. -/
theorem specifier_spoiled {nstr extra cs : List Char} {x : Specifier} {tail : List FormatItem}
    (hflag : flagged (nstr ++ extra) ('%' :: '%' :: x.1 :: cs) = false) :
    made (nstr ++ extra) ('%' :: '%' :: x.1 :: cs) ≠ .string (.ofList nstr) :: tail := by
  intro hmade
  rw [flagged, parts_percent] at hflag
  rw [made, parts_percent] at hmade
  obtain ⟨rest, hrest⟩ := made_head (by simp) (x.head cs) hflag
  rw [← made, hrest, List.cons.injEq, FormatItem.string.injEq] at hmade
  have hlength := congrArg List.length (String.ofList_injective hmade.1)
  simp only [List.length_append, List.length_singleton] at hlength
  omega

theorem parts_escape (nstr : List Char) (extra : Nat) (items : List PatternItem) :
    parts (nstr ++ .replicate extra '%') ('%' :: pattern (.escape :: items)) =
      parts ((nstr ++ ['%']) ++ .replicate (extra + 1) '%') ('%' :: pattern items) := by
  have htext : nstr ++ .replicate extra '%' ++ ['%'] ++ ['%'] =
      (nstr ++ ['%']) ++ List.replicate (extra + 1) '%' := by
    calc nstr ++ .replicate extra '%' ++ ['%'] ++ ['%']
        _ = nstr ++ List.replicate (extra + 1 + 1) '%' := by
          rw [List.replicate_succ', List.replicate_succ', List.append_assoc, List.append_assoc,
            List.append_assoc]
        _ = (nstr ++ ['%']) ++ List.replicate (extra + 1) '%' := by
          rw [List.replicate_succ, List.append_assoc, List.singleton_append]
  calc parts (nstr ++ .replicate extra '%') ('%' :: '%' :: '%' :: pattern items)
      _ = parts (nstr ++ .replicate extra '%' ++ ['%'] ++ ['%']) ('%' :: pattern items) := by
        rw [parts_percent, parts_percent]
      _ = _ := by rw [htext]

/-- The percent sign that an escape leaves behind is read again with what follows it. `extra` more of
them than are meant stand in the text by then. -/
theorem percent_spoils (items : List PatternItem) {nstr : List Char} (hnstr : nstr ≠ [])
    (extra : Nat) (hflag : flagged (nstr ++ .replicate extra '%') ('%' :: pattern items) = false) :
    made (nstr ++ .replicate extra '%') ('%' :: pattern items) ≠ meant nstr items := by
  induction items generalizing nstr extra with
  | nil =>
      have hitem : item [] (pattern []) = some (.item "" "", []) := rfl
      rw [flagged_item hitem (by decide)] at hflag
      cases hflag
  | cons i items ih =>
      cases i with
      | text str plain =>
          cases str with
          | nil =>
              rw [meant, List.append_nil]
              exact ih hnstr extra hflag
          | cons c str =>
              have hc : c ≠ '%' := fun hc => plain (by simp [hc])
              have hhead : (pattern (.text (c :: str) plain :: items)).head? ≠ some '%' :=
                fun h => hc (Option.some.inj h)
              obtain ⟨rest, hrest⟩ := made_head (by simp [hnstr]) hhead hflag
              obtain ⟨more, tail, htail⟩ := meant_head (by simp : nstr ++ c :: str ≠ []) items
              intro hmade
              rw [hrest, meant, htail, List.cons.injEq, FormatItem.string.injEq] at hmade
              have htext := String.ofList_injective hmade.1
              rw [List.append_assoc, List.append_cancel_left_eq] at htext
              have hmem : c ∈ List.replicate extra '%' := by simp [htext]
              exact hc (List.eq_of_mem_replicate hmem)
      | escape =>
          rw [flagged, parts_escape] at hflag
          rw [made, parts_escape, meant]
          exact ih (by simp) (extra + 1) hflag
      | bare x =>
          rw [meant, literal_cons hnstr]
          exact specifier_spoiled hflag
      | withArg x arg closed =>
          rw [meant, literal_cons hnstr]
          exact specifier_spoiled hflag

theorem parsed_escape (nstr : List Char) (items : List PatternItem) :
    ¬ Parsed nstr (.escape :: items) := by
  intro ⟨hflag, hmade⟩
  have hparts : parts nstr (pattern (.escape :: items)) =
      parts ((nstr ++ ['%']) ++ .replicate 0 '%') ('%' :: pattern items) := by
    rw [List.replicate_zero, List.append_nil]
    exact parts_percent nstr (pattern items)
  rw [flagged, hparts] at hflag
  rw [made, hparts, meant] at hmade
  exact percent_spoils items (by simp) 0 hflag hmade

theorem parsed_iff {items : List PatternItem} (hsep : Separated items) (nstr : List Char) :
    Parsed nstr items ↔ .escape ∉ items := by
  induction items generalizing nstr with
  | nil => exact iff_of_true (parsed_nil nstr) List.not_mem_nil
  | cons i items ih =>
      cases i with
      | text str plain =>
          rw [parsed_text, ih hsep]
          simp
      | escape => exact iff_of_false (parsed_escape nstr items) (by simp)
      | bare x =>
          rw [parsed_bare hsep.1, ih hsep.2]
          simp
      | withArg x arg closed =>
          rw [parsed_withArg, ih hsep]
          simp

/-! ### Errors -/

/-- Whether a specifier is unknown or its brace is never closed, where both signs of an escape are
read at once. -/
def faulty : List Char → Bool
  | [] => false
  | c :: cs =>
      if c ≠ '%' then faulty cs
      else if cs.head? = some '%' then faulty cs.tail
      else
        match _hitem : item [] cs with
        | some (part, rest) => part.isError || faulty rest
        | none => true
termination_by cs => cs.length
decreasing_by
  · exact Nat.lt_succ_self _
  · exact Nat.lt_succ_of_le (List.length_tail ▸ Nat.sub_le ..)
  · exact Nat.lt_succ_of_le (item_length _hitem)

theorem faulty_literal {c : Char} (h : c ≠ '%') (cs : List Char) : faulty (c :: cs) = faulty cs := by
  rw [faulty, if_pos h]

theorem faulty_percent (cs : List Char) : faulty ('%' :: '%' :: cs) = faulty cs := by
  rw [faulty, if_neg (by decide), List.head?_cons, if_pos rfl, List.tail_cons]

theorem faulty_item {cs rest : List Char} {part : Part} (h : item [] cs = some (part, rest))
    (hcs : cs.head? ≠ some '%') : faulty ('%' :: cs) = (part.isError || faulty rest) := by
  rw [faulty, if_neg (by decide), if_neg hcs]
  split
  · rename_i heq
    rw [h] at heq
    cases heq
    rfl
  · rename_i heq
    rw [h] at heq
    cases heq

theorem faulty_spoiled {cs : List Char} (h : ∀ result ∈ item [] cs, result.1.isError = true)
    (hcs : cs.head? ≠ some '%') : faulty ('%' :: cs) = true := by
  cases hitem : item [] cs with
  | some result => rw [faulty_item hitem hcs, h result hitem, Bool.true_or]
  | none =>
      rw [faulty, if_neg (by decide), if_neg hcs]
      split
      · rename_i heq
        rw [hitem] at heq
        cases heq
      · rfl

/-- A text up to its first `}` is left at a place that what follows has no part in, at that brace, or
not without an error. -/
theorem item_through {arg : List Char} (harg : '}' ∉ arg) (str : List Char) :
    (∃ part more, '}' ∉ more ∧ more.length ≤ arg.length ∧
        ∀ rest, item str (arg ++ '}' :: rest) = some (part, more ++ '}' :: rest)) ∨
      (∃ part, ∀ rest, item str (arg ++ '}' :: rest) = some (part, rest)) ∨
      ∀ rest, ∀ result ∈ item str (arg ++ '}' :: rest), result.1.isError = true := by
  induction arg generalizing str with
  | nil =>
      refine .inr (.inr fun rest result hresult => ?_)
      have hitem : item (str ++ ['}']) rest = some result := by
        rw [← hresult, List.nil_append, item, if_neg (by decide), if_neg (by decide)]
      obtain ⟨name, herror, -⟩ := item_inv hitem
      rw [herror, Bool.not_eq_true', List.contains_eq_mem, decide_eq_false_iff_not]
      intro hkey
      obtain ⟨x, hx⟩ := key_cases hkey
      have hmem : '}' ∈ [x.1] := hx ▸ by simp
      exact x.ne rfl (List.mem_singleton.mp hmem).symm
  | cons c arg ih =>
      have hrest : '}' ∉ arg := fun h => harg (List.mem_cons_of_mem _ h)
      by_cases hstop : (!c.isAlpha && c ≠ '{' && c ≠ '}') = true
      · refine .inl ⟨.item (.ofList str) "", c :: arg, harg, Nat.le_refl _, fun rest => ?_⟩
        rw [List.cons_append, item, if_pos hstop]
      · by_cases hopen : c = '{'
        · refine .inr (.inl ⟨.item (.ofList str) (.ofList arg), fun rest => ?_⟩)
          rw [List.cons_append, hopen, item_open, argument_closed hrest, List.nil_append]
        · have hitem (rest : List Char) : item str (c :: arg ++ '}' :: rest) =
              item (str ++ [c]) (arg ++ '}' :: rest) := by
            rw [List.cons_append, item, if_neg hstop, if_neg hopen]
          simp only [hitem]
          refine (ih hrest (str ++ [c])).imp_left ?_
          rintro ⟨part, more, hmore, hlength, hitem⟩
          exact ⟨part, more, hmore, Nat.le_succ_of_le hlength, hitem⟩

/-- The scanner is in step again behind a closing brace, or has met an error before it. -/
theorem faulty_through (arg : List Char) (harg : '}' ∉ arg) (rest : List Char) :
    faulty (arg ++ '}' :: rest) = (faulty (arg ++ ['}']) || faulty rest) := by
  induction hn : arg.length using Nat.strong_induction_on generalizing arg with
  | _ n ih =>
      cases arg with
      | nil => simp [faulty]
      | cons c arg =>
          have hrest : '}' ∉ arg := fun h => harg (List.mem_cons_of_mem _ h)
          by_cases hc : c = '%'
          · subst hc
            by_cases hhead : arg.head? = some '%'
            · obtain ⟨arg, rfl⟩ := List.head?_eq_some_iff.mp hhead
              simp only [List.cons_append, faulty_percent]
              have hlt : arg.length < n := by
                rw [← hn, List.length_cons, List.length_cons]
                omega
              exact ih arg.length hlt arg (fun h => hrest (List.mem_cons_of_mem _ h)) rfl
            · have hhead (rest : List Char) : (arg ++ '}' :: rest).head? ≠ some '%' := by
                cases arg with
                | nil => exact fun h => absurd (Option.some.inj h) (by decide)
                | cons c arg => exact hhead
              obtain ⟨part, more, hmore, hlength, hitem⟩ | ⟨part, hitem⟩ | herror :=
                item_through hrest []
              · rw [List.cons_append, List.cons_append, faulty_item (hitem rest) (hhead rest),
                  faulty_item (hitem []) (hhead []), Bool.or_assoc]
                congr 1
                exact ih more.length (by simp [← hn, Nat.lt_succ_of_le hlength]) more hmore rfl
              · rw [List.cons_append, List.cons_append, faulty_item (hitem rest) (hhead rest),
                  faulty_item (hitem []) (hhead []), faulty, Bool.or_false]
              · rw [List.cons_append, List.cons_append, faulty_spoiled (herror rest) (hhead rest),
                  faulty_spoiled (herror []) (hhead []), Bool.true_or]
          · rw [List.cons_append, List.cons_append, faulty_literal hc, faulty_literal hc]
            exact ih arg.length (by simp [← hn]) arg hrest rfl

/-- What the loops read without an error: a character, or a known and closed specifier behind any number
of percent signs more. -/
inductive Piece
  | chr (c : Char) (literal : c ≠ '%')
  | bare (percents : Nat) (x : Specifier)
  | withArg (percents : Nat) (x : Specifier) (arg : List Char) (closed : '}' ∉ arg)

def Piece.chars : Piece → List Char
  | .chr c _ => [c]
  | .bare percents x => .replicate percents '%' ++ ['%', x.1]
  | .withArg percents x arg _ => .replicate percents '%' ++ '%' :: x.1 :: '{' :: (arg ++ ['}'])

def joined (pieces : List Piece) : List Char := pieces.flatMap Piece.chars

/-- No bare specifier runs into what is behind it. -/
def Apart : List Piece → Prop
  | [] => True
  | .bare _ _ :: pieces => Stops (joined pieces) ∧ Apart pieces
  | _ :: pieces => Apart pieces

/-- The percent signs before the letter are all escapes, and the text that the argument then is has an
error in it. -/
def Piece.Masks : Piece → Prop
  | .chr _ _ => False
  | .bare _ _ => False
  | .withArg percents _ arg _ => Odd percents ∧ faulty (arg ++ ['}']) = true

/-- The loops take the faulty text for an argument. -/
def Masked (cs : List Char) : Prop :=
  ∃ pieces, Apart pieces ∧ joined pieces = cs ∧ ∃ p ∈ pieces, p.Masks

theorem joined_bare (percents : Nat) (x : Specifier) (pieces : List Piece) :
    joined (.bare percents x :: pieces) =
      .replicate percents '%' ++ '%' :: x.1 :: joined pieces := by
  simp [joined, Piece.chars]

theorem joined_withArg (percents : Nat) (x : Specifier) {arg : List Char} (closed : '}' ∉ arg)
    (pieces : List Piece) : joined (.withArg percents x arg closed :: pieces) =
      .replicate percents '%' ++ '%' :: x.1 :: '{' :: (arg ++ '}' :: joined pieces) := by
  simp [joined, Piece.chars]

/-- The text that is open has no part in the errors. -/
theorem flagged_text (nstr cs : List Char) : flagged nstr cs = flagged [] cs := by
  induction hn : cs.length using Nat.strong_induction_on generalizing nstr cs with
  | _ n ih =>
      cases cs with
      | nil => rw [flagged_nil, flagged_nil]
      | cons c cs =>
          have hlt : cs.length < n := by
            rw [← hn, List.length_cons]
            exact Nat.lt_succ_self _
          have ih (nstr : List Char) : flagged nstr cs = flagged [] cs := ih cs.length hlt nstr cs rfl
          by_cases hc : c = '%'
          · subst hc
            by_cases hhead : cs.head? = some '%'
            · have hparts (nstr : List Char) : parts nstr ('%' :: cs) = parts (nstr ++ ['%']) cs := by
                rw [parts, if_neg (by decide), if_pos hhead]
              rw [flagged, flagged, hparts, hparts, ← flagged, ← flagged, ih, ih ([] ++ ['%'])]
            · cases hitem : item [] cs with
              | none => rw [flagged_unclosed hitem hhead, flagged_unclosed hitem hhead]
              | some result => rw [flagged_item hitem hhead, flagged_item hitem hhead]
          · rw [flagged, flagged, parts_literal hc, parts_literal hc, ← flagged, ← flagged, ih,
              ih ([] ++ [c])]

theorem flagged_literal {c : Char} (h : c ≠ '%') (cs : List Char) :
    flagged [] (c :: cs) = flagged [] cs := by
  rw [flagged, parts_literal h, ← flagged, flagged_text]

theorem flagged_percent (cs : List Char) : flagged [] ('%' :: '%' :: cs) = flagged [] ('%' :: cs) := by
  rw [flagged, parts_percent, ← flagged, flagged_text]

theorem percents_shift (percents : Nat) (cs : List Char) :
    List.replicate (percents + 1) '%' ++ cs = .replicate percents '%' ++ '%' :: cs := by
  rw [List.replicate_succ', List.append_assoc, List.singleton_append]

theorem flagged_percents (percents : Nat) (cs : List Char) :
    flagged [] (.replicate percents '%' ++ '%' :: cs) = flagged [] ('%' :: cs) := by
  induction percents generalizing cs with
  | zero => rfl
  | succ percents ih => rw [percents_shift, ih, flagged_percent]

theorem faulty_percents_even {percents : Nat} (h : Even percents) (cs : List Char) :
    faulty (.replicate percents '%' ++ cs) = faulty cs := by
  obtain ⟨pairs, rfl⟩ := h
  induction pairs with
  | zero => rfl
  | succ pairs ih =>
      have htwo : pairs + 1 + (pairs + 1) = pairs + pairs + 1 + 1 := by omega
      rw [htwo, List.replicate_succ, List.replicate_succ, List.cons_append, List.cons_append,
        faulty_percent, ih]

theorem faulty_percents_odd {percents : Nat} (h : Odd percents) (cs : List Char) :
    faulty (.replicate percents '%' ++ '%' :: cs) = faulty cs := by
  rw [← percents_shift, faulty_percents_even h.add_one]

theorem flagged_joined {pieces : List Piece} (h : Apart pieces) : flagged [] (joined pieces) = false := by
  induction pieces with
  | nil => exact flagged_nil []
  | cons p pieces ih =>
      cases p with
      | chr c literal => exact (flagged_literal literal _).trans (ih h)
      | bare percents x =>
          rw [joined_bare, flagged_percents, flagged_item (item_bare x h.1) (x.head _), x.known,
            Bool.false_or, ih h.2]
      | withArg percents x arg closed =>
          rw [joined_withArg, flagged_percents,
            flagged_item (item_withArg x closed _) (x.head _), x.known, Bool.false_or, ih h]

theorem faulty_joined {pieces : List Piece} (h : Apart pieces) :
    faulty (joined pieces) = true ↔ ∃ p ∈ pieces, p.Masks := by
  induction pieces with
  | nil => simp [joined, faulty]
  | cons p pieces ih =>
      rw [List.exists_mem_cons_iff]
      cases p with
      | chr c literal =>
          rw [← ih h, Piece.Masks, false_or]
          exact iff_of_eq (congrArg (· = true) (faulty_literal literal _))
      | bare percents x =>
          rw [← ih h.2, Piece.Masks, false_or, joined_bare]
          obtain heven | hodd := Nat.even_or_odd percents
          · rw [faulty_percents_even heven, faulty_item (item_bare x h.1) (x.head _), x.known,
              Bool.false_or]
          · rw [faulty_percents_odd hodd, faulty_literal (x.ne rfl)]
      | withArg percents x arg closed =>
          rw [← ih h, Piece.Masks, joined_withArg]
          obtain heven | hodd := Nat.even_or_odd percents
          · rw [faulty_percents_even heven, faulty_item (item_withArg x closed _) (x.head _), x.known,
              Bool.false_or]
            simp [Nat.not_odd_iff_even.mpr heven]
          · rw [faulty_percents_odd hodd, faulty_literal (x.ne rfl), faulty_literal (by decide),
              faulty_through arg closed, Bool.or_eq_true, and_iff_right hodd]

/-- A percent sign more in front of what begins with one. -/
theorem joined_percent {cs : List Char} {pieces : List Piece} (h : Apart pieces)
    (hcs : joined pieces = '%' :: cs) :
    ∃ pieces, Apart pieces ∧ joined pieces = '%' :: '%' :: cs := by
  cases pieces with
  | nil => cases hcs
  | cons p pieces =>
      cases p with
      | chr c literal => exact absurd (List.cons.inj hcs).1 literal
      | bare percents x =>
          refine ⟨.bare (percents + 1) x :: pieces, h, ?_⟩
          rw [joined_bare] at hcs ⊢
          rw [List.replicate_succ, List.cons_append, hcs]
      | withArg percents x arg closed =>
          refine ⟨.withArg (percents + 1) x arg closed :: pieces, h, ?_⟩
          rw [joined_withArg] at hcs ⊢
          rw [List.replicate_succ, List.cons_append, hcs]

/-- A pattern without an error falls into pieces. -/
theorem joined_of_unflagged (cs : List Char) (h : flagged [] cs = false) :
    ∃ pieces, Apart pieces ∧ joined pieces = cs := by
  induction hn : cs.length using Nat.strong_induction_on generalizing cs with
  | _ n ih =>
      cases cs with
      | nil => exact ⟨[], trivial, rfl⟩
      | cons c cs =>
          have ih (rest : List Char) (hlength : rest.length ≤ cs.length)
              (hrest : flagged [] rest = false) : ∃ pieces, Apart pieces ∧ joined pieces = rest := by
            refine ih rest.length ?_ rest hrest rfl
            rw [← hn, List.length_cons]
            exact Nat.lt_succ_of_le hlength
          by_cases hc : c = '%'
          · subst hc
            by_cases hhead : cs.head? = some '%'
            · obtain ⟨more, rfl⟩ := List.head?_eq_some_iff.mp hhead
              rw [flagged_percent] at h
              obtain ⟨pieces, hpieces, hjoined⟩ := ih _ (Nat.le_refl _) h
              exact joined_percent hpieces hjoined
            · cases hitem : item [] cs with
              | none =>
                  rw [flagged_unclosed hitem hhead] at h
                  cases h
              | some result =>
                  obtain ⟨part, rest⟩ := result
                  rw [flagged_item hitem hhead, Bool.or_eq_false_iff] at h
                  obtain ⟨pieces, hpieces, rfl⟩ := ih rest (item_length hitem) h.2
                  obtain ⟨name, herror, hcs⟩ := item_inv hitem
                  rw [h.1, Eq.comm, Bool.not_eq_false', List.contains_iff_mem] at herror
                  obtain ⟨x, rfl⟩ := key_cases herror
                  obtain ⟨rfl, hstops⟩ | ⟨arg, closed, rfl⟩ := hcs
                  · exact ⟨.bare 0 x :: pieces, ⟨hstops, hpieces⟩, joined_bare 0 x pieces⟩
                  · exact ⟨.withArg 0 x arg closed :: pieces, hpieces, joined_withArg 0 x closed pieces⟩
          · rw [flagged_literal hc] at h
            obtain ⟨pieces, hpieces, rfl⟩ := ih cs (Nat.le_refl _) h
            exact ⟨.chr c hc :: pieces, hpieces, rfl⟩

theorem flagged_of_faulty_iff (cs : List Char) :
    (faulty cs = true → flagged [] cs = true) ↔ ¬ Masked cs := by
  constructor
  · rintro h ⟨pieces, hpieces, rfl, hmasks⟩
    have hflag := h ((faulty_joined hpieces).mpr hmasks)
    rw [flagged_joined hpieces] at hflag
    cases hflag
  · intro h hfaulty
    by_contra hflag
    obtain ⟨pieces, hpieces, rfl⟩ := joined_of_unflagged cs (Bool.eq_false_of_not_eq_true hflag)
    exact h ⟨pieces, hpieces, rfl, (faulty_joined hpieces).mp hfaulty⟩

/-- `init` reads the items that were meant where none of them is an escape, and reports every faulty
specifier but those that an escape hides in the argument of another. -/
theorem init_asMeant_iff (items : List PatternItem) (hsep : Separated items) (p : String) :
    (Faithful items ↔ .escape ∉ items) ∧
      ((faulty p.toList = true → (new p).m_error = true) ↔ ¬ Masked p.toList) := by
  constructor
  · rw [faithful_iff_parsed, parsed_iff hsep]
  · exact flagged_of_faulty_iff p.toList

theorem init_asMeant_message :
    (Faithful [.bare ⟨'m', by decide⟩] ↔ PatternItem.escape ∉ [.bare ⟨'m', by decide⟩]) ∧
      ((faulty "%m".toList = true → (new "%m").m_error = true) ↔ ¬ Masked "%m".toList) :=
  init_asMeant_iff [.bare ⟨'m', by decide⟩] ⟨stops_nil, trivial⟩ "%m"

/-- `100%%` ends with an item for the specifier without a name. -/
theorem escape_misread : (new "100%%").m_error = true ∧
    ¬ ∀ items, Separated items → Faithful items := by
  have hitem : item [] [] = some (.item "" "", []) := rfl
  constructor
  · calc (new "100%%").m_error
        _ = flagged [] ("100".toList ++ ['%', '%']) := rfl
        _ = flagged "100".toList ['%', '%'] := by
          rw [flagged, parts_text (by decide), ← flagged, List.nil_append]
        _ = flagged ("100".toList ++ ['%']) ['%'] := by rw [flagged, parts_percent, ← flagged]
        _ = true := flagged_item hitem (by decide) _
  · intro h
    have hfaithful := h [.text "100".toList (by decide), .escape] trivial
    rw [faithful_iff_parsed, parsed_text] at hfaithful
    exact parsed_escape _ _ hfaithful

end Pattern

end HCServer.Log
