import Mathlib.Data.Nat.Bitwise
import Mathlib.Tactic.NormNum

/-! Prefix masks of a word, and what follows for the network and the broadcast address of a word
from their being its conjunction and its disjunction with the mask. -/
namespace HCServer.Lib.Subnet
variable {w : Nat}

/-- The word with its top `p` bits set. -/
def netMask (w p : Nat) : BitVec w := BitVec.allOnes w <<< (w - p)

def hostMask (w p : Nat) : BitVec w := ~~~netMask w p

theorem getMsbD_netMask (p i : Nat) (hi : i < w) : (netMask w p).getMsbD i = decide (i < p) := by
  rw [netMask, BitVec.getMsbD_eq_getLsbD, BitVec.getLsbD_shiftLeft, BitVec.getLsbD_allOnes]
  by_cases hp : i < p
  · simp [hp, hi]
    omega
  · simp [hp, hi]
    omega

theorem and_le_left (x y : BitVec w) : x &&& y ≤ x := by
  rw [BitVec.le_def, BitVec.toNat_and]
  exact Nat.and_le_left

theorem le_or_left (x y : BitVec w) : x ≤ x ||| y := by
  rw [BitVec.le_def, BitVec.toNat_or]
  exact Nat.left_le_or

theorem and_mask_idem (x m : BitVec w) : x &&& m &&& m = x &&& m := by
  rw [BitVec.and_assoc, BitVec.and_self]

/-- The two halves that a mask cuts a word into are equal only for the zero word. -/
theorem and_not_eq_iff {x m : BitVec w} : x &&& ~~~m = x &&& m ↔ x = 0#w := by
  constructor
  · intro h
    apply BitVec.eq_of_getMsbD_eq
    intro i hi
    have hbit := congrArg (fun z => BitVec.getMsbD z i) h
    simp only [BitVec.getMsbD_and, BitVec.getMsbD_not, hi, decide_true, Bool.true_and] at hbit
    rw [BitVec.getMsbD_zero]
    cases hx : x.getMsbD i with
    | false => rfl
    | true =>
        rw [hx] at hbit
        cases hm : m.getMsbD i <;> simp [hm] at hbit
  · rintro rfl
    rw [BitVec.zero_and, BitVec.zero_and]

end HCServer.Lib.Subnet
