import Mathlib.Data.List.Basic
import Mathlib.Data.List.Infix

/-! Texts cut into lines at a line end of two symbols. -/
namespace HCServer.Lib
variable {α : Type*}

/-- Puts a symbol in front of the first line. -/
def consLine (b : α) : List (List α) → List (List α)
  | [] => [[b]]
  | l :: ls => (b :: l) :: ls

theorem consLine_append {b : α} {ls : List (List α)} (h : ls ≠ []) (ls' : List (List α)) :
    consLine b (ls ++ ls') = consLine b ls ++ ls' := by
  cases ls with
  | nil => exact absurd rfl h
  | cons l ls => rfl

variable [DecidableEq α] {cr lf : α}

/-- The lines of a text, the last of which has no end. -/
def lines (cr lf : α) : List α → List (List α)
  | [] => [[]]
  | [b] => [[b]]
  | b :: c :: text =>
    if b = cr ∧ c = lf then [] :: lines cr lf text else consLine b (lines cr lf (c :: text))

theorem lines_ne_nil (text : List α) : lines cr lf text ≠ [] := by
  unfold lines
  split
  · exact List.cons_ne_nil _ _
  · exact List.cons_ne_nil _ _
  · split
    · exact List.cons_ne_nil _ _
    · unfold consLine
      split <;> exact List.cons_ne_nil _ _

/-- A line end separates the lines before it from those behind it. -/
theorem lines_append (hne : cr ≠ lf) (text rest : List α) :
    lines cr lf (text ++ cr :: lf :: rest) = lines cr lf text ++ lines cr lf rest := by
  fun_induction lines cr lf text with
  | case1 => simp [lines]
  | case2 b =>
      have hstraddle : ¬ (b = cr ∧ cr = lf) := fun h => hne h.2
      simp [lines, hstraddle, consLine]
  | case3 b c text hend ih =>
      simp only [List.cons_append, lines, hend, and_self, if_true, ih]
  | case4 b c text hend ih =>
      simp only [List.cons_append] at ih
      simp only [List.cons_append, lines, hend, if_false, ih]
      exact consLine_append (lines_ne_nil (c :: text)) _

/-- A text without a line end is one line. -/
theorem lines_of_unbroken {text : List α} (h : ¬ [cr, lf] <:+: text) :
    lines cr lf text = [text] := by
  fun_induction lines cr lf text with
  | case1 => rfl
  | case2 b => rfl
  | case3 b c text hend ih =>
      obtain ⟨rfl, rfl⟩ := hend
      exact absurd ⟨[], text, rfl⟩ h
  | case4 b c text hend ih =>
      have hrest : ¬ [cr, lf] <:+: c :: text := fun hin => h (List.infix_cons hin)
      rw [ih hrest]
      rfl

end HCServer.Lib
