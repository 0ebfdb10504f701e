import HCServer.Lib.Subnet
import Mathlib.Data.List.Nodup
import Mathlib.Data.List.Perm.Basic
import Mathlib.Data.List.Range

/-! The number of bits set in a word, as a count over its places: what clearing the lowest one, moving the
bits to other places and masking make of it. -/
namespace HCServer.Lib.Population
open Lib.Subnet
variable {w : Nat}

theorem cpop_eq_countP (x : BitVec w) : x.cpop.toNat = (List.range w).countP x.getLsbD := by
  have hrec : ∀ n, x.cpopNatRec n 0 = (List.range n).countP x.getLsbD := by
    intro n
    induction n with
    | zero => rfl
    | succ n ih =>
        rw [BitVec.cpopNatRec_succ, BitVec.cpopNatRec_eq, ih, List.range_succ, List.countP_append]
        cases h : x.getLsbD n <;> simp [h]
  rw [BitVec.toNat_cpop, hrec]

/-- One place more at the low end. -/
theorem countP_succ (w : Nat) (f : Nat → Bool) :
    (List.range (w + 1)).countP f = (f 0).toNat + (List.range w).countP fun i => f (i + 1) := by
  rw [List.range_succ_eq_map, List.countP_cons, List.countP_map, Nat.add_comm]
  cases h : f 0 <;> simp [Function.comp_def]

theorem testBit_half (n : Nat) : (fun i => n.testBit (i + 1)) = (n / 2).testBit :=
  funext fun i => Nat.testBit_succ n i

/-- `n &&& (n - 1)` has one bit less. -/
theorem countP_clear_lowest {n : Nat} (hpos : 0 < n) (hlt : n < 2 ^ w) :
    (List.range w).countP (n &&& (n - 1)).testBit + 1 = (List.range w).countP n.testBit := by
  induction w generalizing n with
  | zero => omega
  | succ w ih =>
      rw [countP_succ, countP_succ, testBit_half, testBit_half, Nat.and_div_two, Nat.testBit_and,
        Nat.testBit_zero, Nat.testBit_zero]
      obtain heven | hodd := Nat.mod_two_eq_zero_or_one n
      · have hhalf : (n - 1) / 2 = n / 2 - 1 := by omega
        have hrest := ih (n := n / 2) (by omega) (by omega)
        rw [hhalf, heven]
        simpa using hrest
      · have hhalf : (n - 1) / 2 = n / 2 := by omega
        have hlow : (n - 1) % 2 = 0 := by omega
        rw [hhalf, hodd, hlow, Nat.and_self]
        simp [Nat.add_comm]

theorem cpop_clear_lowest {x : BitVec w} (h : x ≠ 0#w) :
    (x &&& (x - 1#w)).cpop.toNat + 1 = x.cpop.toNat := by
  have hpos : 0 < x.toNat := Nat.pos_of_ne_zero fun hzero => h (BitVec.eq_of_toNat_eq (by simpa using hzero))
  have hsub : (x - 1#w).toNat = x.toNat - 1 := by
    have hlt := x.isLt
    have hone : 1 % 2 ^ w = 1 := Nat.mod_eq_of_lt (by omega)
    have hturn : 2 ^ w - 1 + x.toNat = x.toNat - 1 + 2 ^ w := by omega
    rw [BitVec.toNat_sub, BitVec.toNat_ofNat, hone, hturn, Nat.add_mod_right, Nat.mod_eq_of_lt (by omega)]
  rw [cpop_eq_countP, cpop_eq_countP]
  have hand : (x &&& (x - 1#w)).getLsbD = (x.toNat &&& (x.toNat - 1)).testBit := by
    funext i
    rw [BitVec.getLsbD, BitVec.toNat_and, hsub]
  rw [hand]
  exact countP_clear_lowest hpos x.isLt

/-- A word with the bits of another one at exchanged places. -/
theorem cpop_of_involution {x y : BitVec w} (place : Nat → Nat) (hlt : ∀ i < w, place i < w)
    (hback : ∀ i < w, place (place i) = i) (hbit : ∀ i < w, y.getLsbD i = x.getLsbD (place i)) :
    y.cpop.toNat = x.cpop.toNat := by
  have hperm : ((List.range w).map place).Perm (List.range w) := by
    have hnodup : ((List.range w).map place).Nodup := by
      refine List.nodup_range.map_on ?_
      intro i hi j hj heq
      rw [List.mem_range] at hi hj
      rw [← hback i hi, heq, hback j hj]
    rw [List.perm_ext_iff_of_nodup hnodup List.nodup_range]
    intro i
    rw [List.mem_map]
    constructor
    · rintro ⟨j, hj, rfl⟩
      exact List.mem_range.mpr (hlt j (List.mem_range.mp hj))
    · intro hi
      have hi := List.mem_range.mp hi
      exact ⟨place i, List.mem_range.mpr (hlt i hi), hback i hi⟩
  rw [cpop_eq_countP, cpop_eq_countP, ← hperm.countP_eq x.getLsbD, List.countP_map]
  refine List.countP_congr fun i hi => ?_
  rw [hbit i (List.mem_range.mp hi)]
  rfl

theorem cpop_netMask (p : Nat) : (netMask w p).cpop.toNat = min p w := by
  have hsplit : List.range w = List.range (w - p) ++ (List.range (min p w)).map (w - p + ·) := by
    rw [← List.range_add]
    congr 1
    omega
  have hbit : ∀ i < w, (netMask w p).getLsbD i = decide (w - p ≤ i) := by
    intro i hi
    rw [netMask, BitVec.getLsbD_shiftLeft, BitVec.getLsbD_allOnes, decide_eq_true hi, Bool.true_and]
    by_cases hle : w - p ≤ i
    · rw [decide_eq_true hle, decide_eq_false (Nat.not_lt.mpr hle), decide_eq_true (by omega)]
      rfl
    · rw [decide_eq_false hle, decide_eq_true (Nat.not_le.mp hle)]
      rfl
  have hlow : (List.range (w - p)).countP (netMask w p).getLsbD = 0 := by
    rw [List.countP_eq_zero]
    intro i hi
    have hi := List.mem_range.mp hi
    rw [hbit i (by omega), decide_eq_false (Nat.not_le.mpr hi)]
    exact Bool.false_ne_true
  have hhigh : (List.range (min p w)).countP ((netMask w p).getLsbD ∘ (w - p + ·)) = min p w := by
    conv_rhs => rw [← List.length_range (n := min p w)]
    rw [List.countP_eq_length]
    intro i hi
    have hi := List.mem_range.mp hi
    rw [Function.comp_apply, hbit _ (by omega)]
    simp
  rw [cpop_eq_countP, hsplit, List.countP_append, List.countP_map]
  rw [hlow, hhigh, Nat.zero_add]

end HCServer.Lib.Population
