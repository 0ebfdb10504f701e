import Mathlib.Data.List.Nodup
import Mathlib.Logic.Function.Basic

/-! Maps that a loop over keyed items updates, one entry an item. -/
namespace HCServer.Lib.Keyed
variable {κ ι ν : Type*} [DecidableEq κ]

/-- `f i prior` is the new entry for the key of `i`, `none` where the loop fails. -/
def updateAll (key : ι → κ) (f : ι → Option ν → Option ν) (m : κ → Option ν) :
    List ι → Option (κ → Option ν)
  | [] => some m
  | i :: is => (f i (m (key i))).bind fun v => updateAll key f (Function.update m (key i) (some v)) is

variable {key : ι → κ} {f : ι → Option ν → Option ν} {m m' : κ → Option ν} {is : List ι}

/-- With different keys each item finds the entry from before the loop. -/
theorem updateAll_eq_some_iff (hkeys : is.Pairwise fun i j => key i ≠ key j) :
    updateAll key f m is = some m' ↔
      (∀ i ∈ is, ∃ v, f i (m (key i)) = some v ∧ m' (key i) = some v) ∧
        ∀ k, (∀ i ∈ is, key i ≠ k) → m' k = m k := by
  induction is generalizing m with
  | nil =>
      constructor
      · rintro h
        cases h
        exact ⟨fun i hi => absurd hi List.not_mem_nil, fun _ _ => rfl⟩
      · rintro ⟨-, hsame⟩
        exact congrArg some (funext fun k => (hsame k fun i hi => absurd hi List.not_mem_nil).symm)
  | cons i is ih =>
      obtain ⟨hi, his⟩ := List.pairwise_cons.mp hkeys
      rw [updateAll, Option.bind_eq_some_iff]
      constructor
      · rintro ⟨v, hv, hrest⟩
        obtain ⟨hitems, hsame⟩ := (ih his).mp hrest
        refine ⟨?_, ?_⟩
        · intro j hj
          rcases List.mem_cons.mp hj with rfl | hj
          · refine ⟨v, hv, ?_⟩
            rw [hsame (key j) fun j' hj' => (hi j' hj').symm]
            exact Function.update_self _ _ _
          · obtain ⟨w, hw, hm'⟩ := hitems j hj
            rw [Function.update_of_ne (hi j hj).symm] at hw
            exact ⟨w, hw, hm'⟩
        · intro k hk
          rw [hsame k fun j hj => hk j (List.mem_cons_of_mem i hj)]
          exact Function.update_of_ne (hk i List.mem_cons_self).symm _ _
      · rintro ⟨hitems, hsame⟩
        obtain ⟨v, hv, hm'⟩ := hitems i List.mem_cons_self
        refine ⟨v, hv, (ih his).mpr ⟨?_, ?_⟩⟩
        · intro j hj
          rw [Function.update_of_ne (hi j hj).symm]
          exact hitems j (List.mem_cons_of_mem i hj)
        · intro k hk
          by_cases hik : key i = k
          · subst hik
            exact hm'.trans (Function.update_self (key i) (some v) m).symm
          · have hother := hsame k (List.forall_mem_cons.mpr ⟨hik, hk⟩)
            exact hother.trans (Function.update_of_ne (fun h => hik h.symm) _ _).symm

/-- The loop fails only where an item does. -/
theorem updateAll_isSome (hkeys : is.Pairwise fun i j => key i ≠ key j)
    (hitems : ∀ i ∈ is, ∃ v, f i (m (key i)) = some v) : ∃ m', updateAll key f m is = some m' := by
  induction is generalizing m with
  | nil => exact ⟨m, rfl⟩
  | cons i is ih =>
      obtain ⟨hi, his⟩ := List.pairwise_cons.mp hkeys
      obtain ⟨v, hv⟩ := hitems i List.mem_cons_self
      rw [updateAll, hv, Option.bind_some]
      refine ih his ?_
      intro j hj
      rw [Function.update_of_ne (hi j hj).symm]
      exact hitems j (List.mem_cons_of_mem i hj)

end HCServer.Lib.Keyed
