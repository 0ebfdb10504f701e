import Mathlib.Data.List.Basic

/-! Overwriting in place. `overwrite l p s` is what remains of a sequence after `s` has been
stored from index `p` on, the sequence growing where `s` runs past its end. -/
namespace HCServer.Lib
variable {α : Type*}

def overwrite (l : List α) (p : Nat) (s : List α) : List α :=
  l.take p ++ s ++ l.drop (p + s.length)

@[simp] theorem overwrite_nil (l : List α) (p : Nat) : overwrite l p [] = l := by
  simp [overwrite]

theorem length_overwrite {l : List α} {p : Nat} (hp : p ≤ l.length) (s : List α) :
    (overwrite l p s).length = max l.length (p + s.length) := by
  simp only [overwrite, List.length_append, List.length_take, List.length_drop]
  omega

theorem length_overwrite_of_fits {l s : List α} {p : Nat} (h : p + s.length ≤ l.length) :
    (overwrite l p s).length = l.length := by
  rw [length_overwrite (by omega)]
  omega

/-- Storing inside the left part leaves the right part alone. -/
theorem overwrite_append_left {l s : List α} {p : Nat} (h : p + s.length ≤ l.length)
    (r : List α) : overwrite (l ++ r) p s = overwrite l p s ++ r := by
  simp only [overwrite, List.append_assoc]
  rw [List.take_append_of_le_length (by omega), List.drop_append_of_le_length h]

theorem overwrite_append_right (l r s : List α) (p : Nat) :
    overwrite (l ++ r) (l.length + p) s = l ++ overwrite r p s := by
  simp only [overwrite, List.append_assoc, List.take_length_add_append, Nat.add_assoc,
    List.drop_length_add_append]

/-- A store that crosses the border is one store on each side of it. -/
theorem overwrite_append_cross {l s : List α} {p : Nat} (r : List α) (hp : p ≤ l.length)
    (h : l.length ≤ p + s.length) :
    overwrite (l ++ r) p s =
      overwrite l p (s.take (l.length - p)) ++ overwrite r 0 (s.drop (l.length - p)) := by
  have hl : p + (s.take (l.length - p)).length = l.length := by
    rw [List.length_take]
    omega
  have hr : p + s.length = l.length + (s.drop (l.length - p)).length := by
    rw [List.length_drop]
    omega
  simp only [overwrite, hl, hr, List.drop_length, List.append_nil, List.take_zero, List.nil_append,
    Nat.zero_add, List.drop_length_add_append, List.take_append_of_le_length hp]
  simp only [List.append_assoc]
  rw [← List.append_assoc (s.take _), List.take_append_drop]

/-- Consecutive stores are one store. -/
theorem overwrite_overwrite {l : List α} {p : Nat} (hp : p ≤ l.length) (s t : List α) :
    overwrite (overwrite l p s) (p + s.length) t = overwrite l p (s ++ t) := by
  have hlen : (l.take p ++ s).length = p + s.length := by
    rw [List.length_append, List.length_take_of_le hp]
  rw [overwrite, overwrite, ← hlen, List.take_left, List.drop_length_add_append, List.drop_drop,
    hlen, overwrite, List.length_append, Nat.add_assoc, List.append_assoc (l.take p) s t]

/-- What was stored is found again where it was stored. -/
theorem drop_overwrite {l : List α} {p : Nat} (hp : p ≤ l.length) (s : List α) :
    (overwrite l p s).drop p = s ++ l.drop (p + s.length) := by
  rw [overwrite, List.append_assoc, List.drop_append_of_le_length (by simp [hp]),
    List.drop_take, Nat.sub_self, List.take_zero, List.nil_append]

theorem take_overwrite {l : List α} {p n : Nat} (hp : p ≤ l.length) {s : List α}
    (hn : p + s.length ≤ n) : (overwrite l p s).take n = overwrite (l.take n) p s := by
  have hlen : (l.take p ++ s).length = p + s.length := by
    rw [List.length_append, List.length_take_of_le hp]
  rw [overwrite, overwrite, List.take_append, hlen, List.take_of_length_le (by omega),
    List.take_take, Nat.min_eq_left (by omega), List.drop_take]

end HCServer.Lib
