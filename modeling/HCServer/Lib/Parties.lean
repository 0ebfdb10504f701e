import Mathlib

/-! A list of parties, one of which moves from `x` to `y`. -/
namespace HCServer.Lib
variable {α β : Type*} {l : List α} {i : Nat} {x y : α}

theorem split_set (h : l[i]? = some x) :
    ∃ front back, l = front ++ x :: back ∧ l.set i y = front ++ y :: back := by
  induction l generalizing i with
  | nil => cases h
  | cons z l ih =>
      cases i with
      | zero =>
          cases h
          exact ⟨[], l, rfl, rfl⟩
      | succ i =>
          obtain ⟨front, back, hold, hnew⟩ := ih (i := i) h
          exact ⟨z :: front, back, by rw [hold]; rfl, by rw [List.set_cons_succ, hnew]; rfl⟩

/-- What the parties have in their hands. -/
theorem perm_filterMap_set (f : α → Option β) (h : l[i]? = some x) :
    ((f x).toList ++ (l.set i y).filterMap f).Perm ((f y).toList ++ l.filterMap f) := by
  obtain ⟨front, back, hold, hnew⟩ := split_set (y := y) h
  have hcons : ∀ z, (z :: back).filterMap f = (f z).toList ++ back.filterMap f := by
    intro z
    cases hz : f z <;> simp [hz]
  rw [hnew, hold, List.filterMap_append, List.filterMap_append, hcons, hcons]
  refine (List.perm_append_comm_assoc _ _ _).trans ?_
  refine List.Perm.trans ?_ (List.perm_append_comm_assoc _ _ _)
  exact (List.perm_append_comm_assoc _ _ _).append_left _

end HCServer.Lib
