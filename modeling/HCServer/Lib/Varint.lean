import Mathlib.Data.List.Basic
import Mathlib.Algebra.BigOperators.Ring.Finset
import Mathlib.Data.Nat.Bitwise
import Mathlib.Tactic.Ring

/-! Byte-level number formats on `Nat`: little-endian images of a fixed length, LEB128 groups of
seven bits, and the zigzag image of a two's-complement word. -/
namespace HCServer.Lib

theorem toNat_ofNat_of_lt {n : Nat} (h : n < 256) : (UInt8.ofNat n).toNat = n := by
  rw [UInt8.toNat_ofNat']
  exact Nat.mod_eq_of_lt h

/-- The `k` low bytes of `n`, lowest first. -/
def leBytes : Nat → Nat → List UInt8
  | 0, _ => []
  | k + 1, n => UInt8.ofNat (n % 256) :: leBytes k (n / 256)

def leValue : List UInt8 → Nat
  | [] => 0
  | b :: bs => b.toNat + 256 * leValue bs

@[simp] theorem length_leBytes (k n : Nat) : (leBytes k n).length = k := by
  induction k generalizing n with
  | zero => rfl
  | succ k ih => rw [leBytes, List.length_cons, ih]

theorem leValue_leBytes (k n : Nat) : leValue (leBytes k n) = n % 256 ^ k := by
  induction k generalizing n with
  | zero => rw [leBytes, leValue, Nat.pow_zero, Nat.mod_one]
  | succ k ih =>
      rw [leBytes, leValue, toNat_ofNat_of_lt (Nat.mod_lt n (by decide)), ih, Nat.pow_succ',
        Nat.mod_mul]

theorem leValue_lt (bs : List UInt8) : leValue bs < 256 ^ bs.length := by
  induction bs with
  | nil => simp [leValue]
  | cons b bs ih =>
      have hb := b.toNat_lt
      rw [leValue, List.length_cons, Nat.pow_succ']
      omega

theorem leBytes_leValue (bs : List UInt8) : leBytes bs.length (leValue bs) = bs := by
  induction bs with
  | nil => rfl
  | cons b bs ih =>
      have hb := b.toNat_lt
      have hmod : (b.toNat + 256 * leValue bs) % 256 = b.toNat := by omega
      have hdiv : (b.toNat + 256 * leValue bs) / 256 = leValue bs := by omega
      rw [List.length_cons, leValue, leBytes, hmod, hdiv, ih, UInt8.ofNat_toNat]

theorem testBit_leValue (bs : List UInt8) (i : Nat) :
    (leValue bs).testBit i = (bs.getD (i / 8) 0).toNat.testBit (i % 8) := by
  induction bs generalizing i with
  | nil => simp [leValue]
  | cons b bs ih =>
      have hsum : leValue (b :: bs) = 2 ^ 8 * leValue bs + b.toNat := Nat.add_comm _ _
      rw [hsum, Nat.testBit_two_pow_mul_add _ b.toNat_lt]
      by_cases hi : i < 8
      · rw [if_pos hi, Nat.div_eq_of_lt hi, Nat.mod_eq_of_lt hi, List.getD_cons_zero]
      · have hdiv : i / 8 = (i - 8) / 8 + 1 := by omega
        have hmod : i % 8 = (i - 8) % 8 := by omega
        rw [if_neg hi, ih, hdiv, hmod, List.getD_cons_succ]

theorem getD_leBytes {k j : Nat} (n : Nat) (hj : j < k) :
    ((leBytes k n).getD j 0).toNat = n / 256 ^ j % 256 := by
  induction k generalizing n j with
  | zero => cases hj
  | succ k ih =>
      rw [leBytes]
      cases j with
      | zero =>
          rw [List.getD_cons_zero, toNat_ofNat_of_lt (Nat.mod_lt n (by decide)), Nat.pow_zero,
            Nat.div_one]
      | succ j =>
          rw [List.getD_cons_succ, ih _ (Nat.lt_of_succ_lt_succ hj), Nat.div_div_eq_div_mul,
            Nat.pow_succ']

/-- The LEB128 groups of `n`, if `room` bytes are enough for them. -/
def lebBytes : Nat → Nat → Option (List UInt8)
  | 0, _ => none
  | room + 1, n =>
      if 128 ≤ n then (lebBytes room (n / 128)).map (UInt8.ofNat (n % 128 + 128) :: ·)
      else some [UInt8.ofNat n]

/-- What a LEB128 byte string denotes. -/
def lebValue : List UInt8 → Nat
  | [] => 0
  | b :: bs => b.toNat % 128 + 128 * lebValue bs

/-- Every byte but the last has its high bit set. -/
def Terminated : List UInt8 → Prop
  | [] => False
  | [b] => b.toNat < 128
  | b :: bs => 128 ≤ b.toNat ∧ Terminated bs

theorem terminated_cons {b : UInt8} {bs : List UInt8} (hb : 128 ≤ b.toNat) (h : Terminated bs) :
    Terminated (b :: bs) := by
  cases bs with
  | nil => exact h.elim
  | cons c cs => exact ⟨hb, h⟩

/-- `room + 1` bytes are enough for `room + 1` groups, and they decode to the number. -/
theorem lebBytes_spec {room n : Nat} (h : n < 128 ^ (room + 1)) :
    ∃ bs, lebBytes (room + 1) n = some bs ∧ Terminated bs ∧ lebValue bs = n ∧
      bs.length ≤ room + 1 := by
  induction room generalizing n with
  | zero =>
      rw [Nat.zero_add, Nat.pow_one] at h
      have hbyte := toNat_ofNat_of_lt (by omega : n < 256)
      refine ⟨[UInt8.ofNat n], by rw [lebBytes, if_neg (by omega)], ?_, ?_, by simp⟩
      · rwa [Terminated, hbyte]
      · rw [lebValue, lebValue, hbyte]
        omega
  | succ room ih =>
      rw [lebBytes]
      by_cases hn : 128 ≤ n
      · rw [Nat.pow_succ] at h
        obtain ⟨bs, heq, hterm, hval, hlen⟩ := ih (n := n / 128) (by omega)
        have hbyte := toNat_ofNat_of_lt (by omega : n % 128 + 128 < 256)
        refine ⟨UInt8.ofNat (n % 128 + 128) :: bs, by rw [if_pos hn, heq]; rfl,
          terminated_cons (by omega) hterm, ?_, by rw [List.length_cons]; omega⟩
        rw [lebValue, hbyte, hval]
        omega
      · have hbyte := toNat_ofNat_of_lt (by omega : n < 256)
        refine ⟨[UInt8.ofNat n], by rw [if_neg hn], ?_, ?_, by simp⟩
        · rw [Terminated, hbyte]
          omega
        · rw [lebValue, lebValue, hbyte]
          omega

/-- No shorter byte string denotes the number. -/
theorem length_lebBytes_le {room n : Nat} {bs cs : List UInt8} (h : lebBytes room n = some bs)
    (hterm : Terminated cs) (hval : lebValue cs = n) : bs.length ≤ cs.length := by
  induction room generalizing n bs cs with
  | zero => cases h
  | succ room ih =>
      cases cs with
      | nil => exact hterm.elim
      | cons c cs =>
          rw [lebBytes] at h
          by_cases hn : 128 ≤ n
          · rw [if_pos hn] at h
            obtain ⟨bs', hbs', rfl⟩ := Option.map_eq_some_iff.mp h
            rw [lebValue] at hval
            cases cs with
            | nil =>
                rw [lebValue] at hval
                omega
            | cons d ds =>
                have hrest := ih hbs' hterm.2 (by omega)
                simpa using hrest
          · rw [if_neg hn] at h
            cases h
            simp

/-- The value as a sum over the places. -/
theorem lebValue_eq_sum (bs : List UInt8) :
    lebValue bs = ∑ i ∈ Finset.range bs.length, (bs.getD i 0).toNat % 128 * 2 ^ (7 * i) := by
  induction bs with
  | nil => rfl
  | cons b bs ih =>
      rw [lebValue, List.length_cons, Finset.sum_range_succ', ih, Finset.mul_sum, Nat.add_comm]
      congr 1
      · apply Finset.sum_congr rfl
        intro i _
        rw [List.getD_cons_succ, Nat.mul_add, Nat.pow_add, Nat.mul_left_comm, Nat.mul_comm 128,
          Nat.mul_one]
      · simp

/-- The first group that ends a number, with the groups before it, or `room` groups; `none` where
the bytes end before. -/
def varintField : Nat → List UInt8 → Option (List UInt8)
  | 0, _ => some []
  | _ + 1, [] => none
  | room + 1, b :: bs =>
      if b.toNat < 128 then some [b] else (varintField room bs).map (b :: ·)

theorem varintField_spec {room : Nat} {l bs : List UInt8} (h : varintField room l = some bs) :
    varintField room bs = some bs ∧ ∃ rest, l = bs ++ rest := by
  induction room generalizing l bs with
  | zero =>
      cases h
      exact ⟨rfl, l, rfl⟩
  | succ room ih =>
      cases l with
      | nil => cases h
      | cons b l =>
          rw [varintField] at h
          by_cases hb : b.toNat < 128
          · rw [if_pos hb] at h
            cases h
            exact ⟨by rw [varintField, if_pos hb], l, rfl⟩
          · rw [if_neg hb] at h
            obtain ⟨cs, hcs, rfl⟩ := Option.map_eq_some_iff.mp h
            obtain ⟨hfield, rest, rfl⟩ := ih hcs
            exact ⟨by rw [varintField, if_neg hb, hfield, Option.map_some], rest, rfl⟩

theorem varintField_terminated {room : Nat} {bs : List UInt8} (hterm : Terminated bs)
    (hlen : bs.length ≤ room) : varintField room bs = some bs := by
  induction room generalizing bs with
  | zero =>
      cases bs with
      | nil => exact hterm.elim
      | cons b bs => simp at hlen
  | succ room ih =>
      cases bs with
      | nil => exact hterm.elim
      | cons b bs =>
          cases bs with
          | nil => rw [varintField, if_pos (show b.toNat < 128 from hterm)]
          | cons c cs =>
              rw [varintField, if_neg (Nat.not_lt.mpr hterm.1), ih hterm.2 (by simpa using hlen),
                Option.map_some]

/-- The zigzag image: `0, -1, 1, -2, ...` become `0, 1, 2, 3, ...`, wrapping at the width. -/
def zigzag {w : Nat} (v : BitVec w) : BitVec w := if v.msb then -v * 2#w - 1#w else v * 2#w

def unzigzag {w : Nat} (u : BitVec w) : BitVec w := (u >>> 1) ^^^ -(u &&& 1#w)

theorem toNat_one {w : Nat} (hw : 0 < w) : (1#w).toNat = 1 := by
  rw [BitVec.toNat_ofNat, Nat.mod_eq_of_lt (Nat.one_lt_two_pow (by omega))]

theorem toNat_and_one {w : Nat} (hw : 0 < w) (u : BitVec w) : (u &&& 1#w).toNat = u.toNat % 2 := by
  rw [BitVec.toNat_and, toNat_one hw, Nat.and_one_is_mod]

theorem unzigzag_even {w : Nat} (hw : 0 < w) {u : BitVec w} (h : u.toNat % 2 = 0) :
    unzigzag u = u >>> 1 := by
  have h0 : u &&& 1#w = 0#w := by
    apply BitVec.eq_of_toNat_eq
    rw [toNat_and_one hw, h, BitVec.toNat_ofNat, Nat.zero_mod]
  rw [unzigzag, h0, BitVec.neg_zero, BitVec.xor_zero]

theorem unzigzag_odd {w : Nat} (hw : 0 < w) {u : BitVec w} (h : u.toNat % 2 = 1) :
    unzigzag u = ~~~(u >>> 1) := by
  have h1 : u &&& 1#w = 1#w := by
    apply BitVec.eq_of_toNat_eq
    rw [toNat_and_one hw, h, toNat_one hw]
  rw [unzigzag, h1, BitVec.neg_one_eq_allOnes, BitVec.xor_allOnes]

theorem toNat_zigzag {k : Nat} (v : BitVec (k + 1)) :
    (zigzag v).toNat =
      if 2 ^ k ≤ v.toNat then 2 * (2 ^ (k + 1) - v.toNat) - 1 else 2 * v.toNat := by
  have hv := v.isLt
  have hpow : 2 ^ (k + 1) = 2 * 2 ^ k := by ring
  have hpos : 0 < 2 ^ k := Nat.two_pow_pos k
  have htwo (a : BitVec (k + 1)) : (a * 2#(k + 1)).toNat = 2 * a.toNat % 2 ^ (k + 1) := by
    rw [BitVec.toNat_mul, BitVec.toNat_ofNat, Nat.mul_mod_mod, Nat.mul_comm]
  have hmsb : v.msb = decide (2 ^ k ≤ v.toNat) := BitVec.msb_eq_decide v
  rw [zigzag, hmsb]
  by_cases h : 2 ^ k ≤ v.toNat
  · have hneg : (-v).toNat = 2 ^ (k + 1) - v.toNat := by
      rw [BitVec.toNat_neg, Nat.mod_eq_of_lt (by omega)]
    rw [if_pos (decide_eq_true h), if_pos h, BitVec.toNat_sub, htwo, hneg, toNat_one (by omega)]
    by_cases hmin : v.toNat = 2 ^ k
    · have hwrap : 2 * (2 ^ (k + 1) - v.toNat) = 2 ^ (k + 1) := by omega
      rw [hwrap, Nat.mod_self, Nat.add_zero, Nat.mod_eq_of_lt (by omega)]
    · rw [Nat.mod_eq_of_lt (by omega : 2 * (2 ^ (k + 1) - v.toNat) < 2 ^ (k + 1))]
      have hborrow : 2 ^ (k + 1) - 1 + 2 * (2 ^ (k + 1) - v.toNat) =
          2 * (2 ^ (k + 1) - v.toNat) - 1 + 2 ^ (k + 1) := by omega
      rw [hborrow, Nat.add_mod_right, Nat.mod_eq_of_lt (by omega)]
  · rw [if_neg (by simpa using h), if_neg h, htwo, Nat.mod_eq_of_lt (by omega)]

/-- Zigzag is undone for every word, the least negative one included. -/
theorem unzigzag_zigzag {w : Nat} (hw : 0 < w) (v : BitVec w) : unzigzag (zigzag v) = v := by
  obtain ⟨k, rfl⟩ : ∃ k, w = k + 1 := ⟨w - 1, by omega⟩
  have hv := v.isLt
  have hpow : 2 ^ (k + 1) = 2 * 2 ^ k := by ring
  have hz := toNat_zigzag v
  by_cases h : 2 ^ k ≤ v.toNat
  · rw [if_pos h] at hz
    rw [unzigzag_odd hw (by omega)]
    apply BitVec.eq_of_toNat_eq
    rw [BitVec.toNat_not, BitVec.toNat_ushiftRight, hz, Nat.shiftRight_eq_div_pow, Nat.pow_one]
    omega
  · rw [if_neg h] at hz
    rw [unzigzag_even hw (by omega)]
    apply BitVec.eq_of_toNat_eq
    rw [BitVec.toNat_ushiftRight, hz, Nat.shiftRight_eq_div_pow, Nat.pow_one]
    omega

/-- And every word is the image of one. -/
theorem zigzag_unzigzag {w : Nat} (hw : 0 < w) (u : BitVec w) : zigzag (unzigzag u) = u := by
  obtain ⟨k, rfl⟩ : ∃ k, w = k + 1 := ⟨w - 1, by omega⟩
  have hu := u.isLt
  have hpow : 2 ^ (k + 1) = 2 * 2 ^ k := by ring
  have hhalf : (u >>> 1).toNat = u.toNat / 2 := by
    rw [BitVec.toNat_ushiftRight, Nat.shiftRight_eq_div_pow, Nat.pow_one]
  apply BitVec.eq_of_toNat_eq
  by_cases h : u.toNat % 2 = 0
  · rw [toNat_zigzag, unzigzag_even hw h, hhalf, if_neg (by omega)]
    omega
  · rw [toNat_zigzag, unzigzag_odd hw (by omega), BitVec.toNat_not, hhalf, if_pos (by omega)]
    omega

theorem zigzag_bijective {w : Nat} (hw : 0 < w) :
    Function.Bijective (zigzag : BitVec w → BitVec w) :=
  ⟨Function.LeftInverse.injective (unzigzag_zigzag hw),
    Function.RightInverse.surjective (zigzag_unzigzag hw)⟩

/-- The zigzag image of a number. -/
def zigzagImage (n : Int) : Nat := if n < 0 then (-2 * n - 1).toNat else (2 * n).toNat

theorem toNat_zigzag_eq {w : Nat} (hw : 0 < w) (v : BitVec w) :
    (zigzag v).toNat = zigzagImage v.toInt := by
  obtain ⟨k, rfl⟩ : ∃ k, w = k + 1 := ⟨w - 1, by omega⟩
  have hv := v.isLt
  have hpow : 2 ^ (k + 1) = 2 * 2 ^ k := by ring
  rw [toNat_zigzag, zigzagImage]
  by_cases h : 2 ^ k ≤ v.toNat
  · have hint : v.toInt = v.toNat - ((2 ^ (k + 1) : Nat) : Int) := by
      rw [BitVec.toInt_eq_toNat_cond, if_neg (by omega)]
    rw [if_pos h, hint, if_pos (by omega)]
    omega
  · have hint : v.toInt = v.toNat := by
      rw [BitVec.toInt_eq_toNat_cond, if_pos (by omega)]
    rw [if_neg h, hint, if_neg (by omega)]
    omega

end HCServer.Lib
