import Mathlib.Data.Nat.Digits.Lemmas

/-! Numbers written in a base, the most significant digit first and no leading zero. -/
namespace HCServer.Lib
variable {α : Type*} {base : Nat} {digit : Nat → α} {value : α → Nat}

/-- The number `n` in `base`, its digits given as `digit`. -/
def numeral (base : Nat) (digit : Nat → α) (n : Nat) : List α :=
  if n = 0 then [digit 0] else (Nat.digits base n).reverse.map digit

/-- The number that the digits `value` make. -/
def numeralValue (base : Nat) (value : α → Nat) (digits : List α) : Nat :=
  digits.foldl (fun n b => n * base + value b) 0

theorem mem_numeral (hbase : 1 < base) {n : Nat} {b : α} (hb : b ∈ numeral base digit n) :
    ∃ d < base, b = digit d := by
  unfold numeral at hb
  split_ifs at hb with hzero
  · exact ⟨0, by omega, List.mem_singleton.mp hb⟩
  · obtain ⟨d, hd, rfl⟩ := List.mem_map.mp hb
    exact ⟨d, Nat.digits_lt_base hbase (List.mem_reverse.mp hd), rfl⟩

theorem numeral_ne_nil (base : Nat) (digit : Nat → α) (n : Nat) : numeral base digit n ≠ [] := by
  unfold numeral
  split_ifs with hzero
  · exact List.cons_ne_nil _ _
  · simpa using Nat.digits_ne_nil_iff_ne_zero.mpr hzero

theorem length_numeral_le (hbase : 1 < base) {n k : Nat} (hk : 0 < k) (h : n < base ^ k) :
    (numeral base digit n).length ≤ k := by
  unfold numeral
  split_ifs with hzero
  · exact hk
  · rw [List.length_map, List.length_reverse]
    exact (Nat.digits_length_le_iff hbase n).mpr h

theorem numeralValue_map_reverse (hvalue : ∀ d < base, value (digit d) = d) {ds : List Nat}
    (hds : ∀ d ∈ ds, d < base) :
    numeralValue base value (ds.reverse.map digit) = Nat.ofDigits base ds := by
  rw [numeralValue, List.foldl_map, List.foldl_reverse]
  induction ds with
  | nil => rfl
  | cons d ds ih =>
      rw [List.foldr_cons, ih fun c hc => hds c (List.mem_cons_of_mem d hc), Nat.ofDigits_cons,
        hvalue d (hds d List.mem_cons_self), Nat.mul_comm, Nat.add_comm]

/-- What was written is read back. -/
theorem numeralValue_numeral (hbase : 1 < base) (hvalue : ∀ d < base, value (digit d) = d) (n : Nat) :
    numeralValue base value (numeral base digit n) = n := by
  unfold numeral
  split_ifs with hzero
  · rw [hzero, numeralValue, List.foldl_cons, List.foldl_nil, hvalue 0 (by omega)]
    rw [Nat.zero_mul]
  · rw [numeralValue_map_reverse hvalue fun d hd => Nat.digits_lt_base hbase hd, Nat.ofDigits_digits]

end HCServer.Lib
