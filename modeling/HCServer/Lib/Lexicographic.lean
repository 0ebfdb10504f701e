import Mathlib.Data.List.Lex
import Mathlib.Order.Lattice

/-! Comparing two runs of values over the length of the shorter one, with the lengths as tie-break,
is the lexicographic order of lists. -/
namespace HCServer.Lib
variable {α : Type*}

/-- The first `n` values at `p`. -/
def window (p : Nat → α) (n : Nat) : List α := (List.range n).map p

@[simp] theorem window_zero (p : Nat → α) : window p 0 = [] := rfl

@[simp] theorem window_succ (p : Nat → α) (n : Nat) :
    window p (n + 1) = p 0 :: window (fun i => p (i + 1)) n := by
  rw [window, List.range_succ_eq_map, List.map_cons, List.map_map]
  rfl

@[simp] theorem length_window (p : Nat → α) (n : Nat) : (window p n).length = n := by
  rw [window, List.length_map, List.length_range]

theorem map_window {β : Type*} (f : α → β) (p : Nat → α) (n : Nat) :
    (window p n).map f = window (fun i => f (p i)) n := List.map_map

theorem window_getD (l : List α) (f : Nat → α) {n : Nat} (h : n ≤ l.length) :
    window (fun i => l.getD i (f i)) n = l.take n := by
  apply List.ext_getElem
  · rw [length_window, List.length_take, Nat.min_eq_left h]
  · intro i hi hi'
    rw [length_window] at hi
    simp only [window, List.getElem_map, List.getElem_range, List.getElem_take]
    rw [List.getD_eq_getElem?_getD, List.getElem?_eq_getElem (Nat.lt_of_lt_of_le hi h), Option.getD_some]

variable [LinearOrder α]

/-- The comparison at the first of `n` places where `p` and `q` differ. -/
def compareFirst (p q : Nat → α) : Nat → Ordering
  | 0 => .eq
  | n + 1 => (compare (p 0) (q 0)).then (compareFirst (fun i => p (i + 1)) (fun i => q (i + 1)) n)

theorem window_eq_iff (p q : Nat → α) (n : Nat) :
    window p n = window q n ↔ compareFirst p q n = .eq := by
  induction n generalizing p q with
  | zero => exact iff_of_true rfl rfl
  | succ n ih => rw [window_succ, window_succ, List.cons.injEq, ih, compareFirst, Ordering.then_eq_eq,
      compare_eq_iff_eq]

theorem window_lt_iff (p q : Nat → α) (m n : Nat) :
    window p m < window q n ↔
      compareFirst p q (min m n) = .lt ∨ compareFirst p q (min m n) = .eq ∧ m < n := by
  induction m generalizing p q n with
  | zero =>
    cases n with
    | zero => simp [compareFirst]
    | succ n => simp [compareFirst]
  | succ m ih =>
    cases n with
    | zero => simp [compareFirst]
    | succ n =>
      have hmin : min (m + 1) (n + 1) = min m n + 1 := by omega
      rw [window_succ, window_succ, List.cons_lt_cons_iff, ih, hmin, compareFirst, Ordering.then_eq_lt,
        Ordering.then_eq_eq, compare_lt_iff_lt, compare_eq_iff_eq, Nat.add_lt_add_iff_right, and_or_left,
        and_assoc, or_assoc]

end HCServer.Lib
