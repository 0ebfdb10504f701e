import HCServer.Lib.Occupancy
import Mathlib.Algebra.Order.BigOperators.Group.Multiset
import Mathlib.Algebra.Order.BigOperators.Group.Finset
import Mathlib.Data.Multiset.AddSub

/-! Items that are in a store or with one of the parties, and that move between them. `own k` are the
items of a party that is at `k`. -/
namespace HCServer.Lib
variable {θ κ ι : Type*} [Fintype θ]

/-- All the items, wherever they are. -/
def estate (own : κ → Multiset ι) (store : Multiset ι) (seat : θ → κ) : Multiset ι :=
  store + ∑ t, own (seat t)

variable {own : κ → Multiset ι} {store store' : Multiset ι} {seat : θ → κ} {t : θ} {k : κ} {x : ι}

theorem mem_estate : x ∈ estate own store seat ↔ x ∈ store ∨ ∃ t, x ∈ own (seat t) := by
  simp [estate, Multiset.mem_sum]

section
variable [DecidableEq θ]

/-- What one party and the store exchange, between what they had and what they get. -/
theorem estate_update (lost gained : Multiset ι)
    (h : gained + (store + own (seat t)) = lost + (store' + own k)) :
    gained + estate own store seat = lost + estate own store' (Function.update seat t k) := by
  have hsum := sum_update own seat t k
  refine add_right_cancel (b := own (seat t) + own k) ?_
  calc gained + (store + ∑ u, own (seat u)) + (own (seat t) + own k)
      = (gained + (store + own (seat t))) + (∑ u, own (seat u) + own k) := by ac_rfl
    _ = (lost + (store' + own k)) + (∑ u, own (Function.update seat t k u) + own (seat t)) := by
        rw [h, hsum]
    _ = _ := by
        rw [estate]
        ac_rfl

theorem estate_move (h : store + own (seat t) = store' + own k) :
    estate own store' (Function.update seat t k) = estate own store seat := by
  have hmove : 0 + estate own store seat =
      0 + estate own store' (Function.update seat t k) := estate_update 0 0 (by rw [h])
  rwa [zero_add, zero_add, eq_comm] at hmove

theorem estate_gain (h : x ::ₘ (store + own (seat t)) = store' + own k) :
    estate own store' (Function.update seat t k) = x ::ₘ estate own store seat := by
  have hgain : {x} + estate own store seat =
      0 + estate own store' (Function.update seat t k) :=
    estate_update 0 {x} (by rw [zero_add, ← h, Multiset.singleton_add])
  rwa [zero_add, Multiset.singleton_add, eq_comm] at hgain

theorem estate_lose (h : store + own (seat t) = x ::ₘ (store' + own k)) :
    estate own store seat = x ::ₘ estate own store' (Function.update seat t k) := by
  have hlose : 0 + estate own store seat =
      {x} + estate own store' (Function.update seat t k) :=
    estate_update {x} 0 (by rw [zero_add, h, Multiset.singleton_add])
  rwa [zero_add, Multiset.singleton_add] at hlose

end

theorem estate_party (h : (estate own store seat).Nodup) (t : θ) : (own (seat t)).Nodup := by
  refine Multiset.nodup_of_le ?_ h
  exact (Finset.single_le_sum (fun _ _ => zero_le) (Finset.mem_univ t)).trans
    (Multiset.le_add_left _ _)

/-- Where no item is twice, that of a party is with nobody else. -/
theorem estate_apart (h : (estate own store seat).Nodup) (hx : x ∈ own (seat t)) :
    x ∉ store ∧ ∀ u, x ∈ own (seat u) → u = t := by
  classical
  obtain ⟨-, hparties, hdisjoint⟩ := Multiset.nodup_add.mp h
  have hsum : x ∈ ∑ u, own (seat u) := Multiset.mem_sum.mpr ⟨t, Finset.mem_univ t, hx⟩
  refine ⟨fun hstore => Multiset.disjoint_left.mp hdisjoint hstore hsum, ?_⟩
  intro u hu
  by_contra hne
  rw [← Finset.add_sum_erase _ _ (Finset.mem_univ t)] at hparties
  refine Multiset.disjoint_left.mp (Multiset.nodup_add.mp hparties).2.2 hx ?_
  exact Multiset.mem_sum.mpr ⟨u, Finset.mem_erase.mpr ⟨hne, Finset.mem_univ u⟩, hu⟩

end HCServer.Lib
