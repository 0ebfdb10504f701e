import Mathlib.Algebra.BigOperators.Group.Finset.Piecewise
import Mathlib.Data.Fintype.Basic

/-! Items that are held by at most one party each. `seat t` is the item that party `t` holds, and
`busy` a record kept with the items, which should mark those that are held. Last, a count of the parties
by where they are. -/
namespace HCServer.Lib
variable {θ φ : Type*}

structure Occupancy (seat : θ → Option φ) (busy : φ → Prop) : Prop where
  single : ∀ t u f, seat t = some f → seat u = some f → t = u
  recorded : ∀ f, busy f ↔ ∃ t, seat t = some f

namespace Occupancy
variable {seat seat' : θ → Option φ} {busy busy' : φ → Prop} {t : θ} {f : φ}

theorem congr (h : Occupancy seat busy) (hseat : seat' = seat) (hbusy : ∀ x, busy' x ↔ busy x) :
    Occupancy seat' busy' := by
  subst hseat
  refine ⟨h.single, ?_⟩
  intro x
  exact (hbusy x).trans (h.recorded x)

theorem free (h : Occupancy seat busy) (hf : ¬ busy f) (u : θ) : seat u ≠ some f :=
  fun hu => hf ((h.recorded f).mpr ⟨u, hu⟩)

variable [DecidableEq θ]

/-- A party without an item takes one that nobody holds. -/
theorem sit (h : Occupancy seat busy) (ht : seat t = none) (hf : ¬ busy f)
    (hseat : seat' = Function.update seat t (some f)) (hbusy : ∀ x, busy' x ↔ x = f ∨ busy x) :
    Occupancy seat' busy' := by
  subst hseat
  have hown (u : θ) (x : φ) (hu : Function.update seat t (some f) u = some x) :
      u = t ∧ x = f ∨ u ≠ t ∧ seat u = some x := by
    by_cases same : u = t
    · rw [same, Function.update_self] at hu
      exact Or.inl ⟨same, (Option.some.inj hu).symm⟩
    · rw [Function.update_of_ne same] at hu
      exact Or.inr ⟨same, hu⟩
  constructor
  case single =>
    intro u v x hu hv
    rcases hown u x hu with ⟨rfl, rfl⟩ | ⟨_, hu'⟩
    · rcases hown v x hv with ⟨rfl, _⟩ | ⟨_, hv'⟩
      · rfl
      · exact absurd hv' (h.free hf v)
    · rcases hown v x hv with ⟨_, rfl⟩ | ⟨_, hv'⟩
      · exact absurd hu' (h.free hf u)
      · exact h.single u v x hu' hv'
  case recorded =>
    intro x
    rw [hbusy, h.recorded]
    constructor
    · rintro (rfl | ⟨u, hu⟩)
      · exact ⟨t, Function.update_self _ _ _⟩
      · refine ⟨u, ?_⟩
        rw [Function.update_of_ne _, hu]
        rintro rfl
        rw [ht] at hu
        cases hu
    · rintro ⟨u, hu⟩
      rcases hown u x hu with ⟨_, hx⟩ | ⟨_, hu'⟩
      · exact Or.inl hx
      · exact Or.inr ⟨u, hu'⟩

/-- A party gives its item back. -/
theorem leave (h : Occupancy seat busy) (ht : seat t = some f)
    (hseat : seat' = Function.update seat t none) (hbusy : ∀ x, busy' x ↔ x ≠ f ∧ busy x) :
    Occupancy seat' busy' := by
  subst hseat
  have hown (u : θ) (x : φ) (hu : Function.update seat t none u = some x) :
      u ≠ t ∧ seat u = some x := by
    by_cases same : u = t
    · rw [same, Function.update_self] at hu
      cases hu
    · rw [Function.update_of_ne same] at hu
      exact ⟨same, hu⟩
  constructor
  case single =>
    intro u v x hu hv
    exact h.single u v x (hown u x hu).2 (hown v x hv).2
  case recorded =>
    intro x
    rw [hbusy, h.recorded]
    constructor
    · rintro ⟨hne, u, hu⟩
      refine ⟨u, ?_⟩
      rw [Function.update_of_ne _, hu]
      rintro rfl
      rw [ht] at hu
      exact hne (Option.some.inj hu).symm
    · rintro ⟨u, hu⟩
      obtain ⟨hne, hu'⟩ := hown u x hu
      refine ⟨?_, u, hu'⟩
      rintro rfl
      exact hne (h.single u t x hu' ht)

end Occupancy

open Finset in
/-- A sum over the parties, when one of them moves. -/
theorem sum_update {κ M : Type*} [Fintype θ] [DecidableEq θ] [AddCommMonoid M] (f : κ → M) (g : θ → κ)
    (t : θ) (x : κ) :
    ∑ u, f (Function.update g t x u) + f (g t) = ∑ u, f (g u) + f x := by
  have hrest : ∑ u ∈ univ.erase t, f (Function.update g t x u) = ∑ u ∈ univ.erase t, f (g u) := by
    apply sum_congr rfl
    intro u hu
    rw [Function.update_of_ne (ne_of_mem_erase hu)]
  rw [← add_sum_erase univ _ (mem_univ t), ← add_sum_erase univ (fun u => f (g u)) (mem_univ t),
    hrest, Function.update_self, add_comm (f x), add_comm (f (g t)), add_right_comm]

open Finset in
/-- How many parties are where `P` holds, when one of them moves. -/
theorem card_update {κ : Type*} [Fintype θ] [DecidableEq θ] (P : κ → Prop) [DecidablePred P] (g : θ → κ)
    (t : θ) (x : κ) : #{u | P (Function.update g t x u)} + (if P (g t) then 1 else 0) =
      #{u | P (g u)} + if P x then 1 else 0 := by
  rw [card_filter, card_filter]
  exact sum_update (fun y => if P y then 1 else 0) g t x

end HCServer.Lib
