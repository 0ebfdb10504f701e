import HCServer.Http.Response
import HCServer.Lib.Numeral

/-! Numbers as `std::to_string` writes them, and `atoi` reads them back. -/
namespace HCServer.Http

def decimal (n : Nat) : Bytes :=
  if n = 0 then [48] else (Nat.digits 10 n).reverse.map fun d => UInt8.ofNat (48 + d)

/-- `std::to_string` of an `int` or a size. -/
def numberString : Int → Bytes
  | .ofNat n => decimal n
  | .negSucc n => 45 :: decimal (n + 1)

theorem decimal_eq_numeral (n : Nat) :
    decimal n = Lib.numeral 10 (fun d => UInt8.ofNat (48 + d)) n := rfl

theorem digitsValue_eq_numeralValue (base : Nat) (digits : Bytes) :
    digitsValue base digits = Lib.numeralValue base digitValue digits := rfl

theorem toNat_digit_byte {d : Nat} (hd : d < 10) : (UInt8.ofNat (48 + d)).toNat = 48 + d :=
  UInt8.toNat_ofNat_of_lt' (by omega : 48 + d < 256)

theorem digitValue_digit_byte : ∀ d < 10, digitValue (UInt8.ofNat (48 + d)) = d := by decide

theorem mem_decimal {n : Nat} {b : UInt8} (hb : b ∈ decimal n) : 48 ≤ b.toNat ∧ b.toNat ≤ 57 := by
  rw [decimal_eq_numeral] at hb
  obtain ⟨d, hd, rfl⟩ := Lib.mem_numeral (by decide) hb
  rw [toNat_digit_byte hd]
  omega

theorem decimal_ne_nil (n : Nat) : decimal n ≠ [] := Lib.numeral_ne_nil 10 _ n

@[simp] theorem digitsValue_decimal (n : Nat) : digitsValue 10 (decimal n) = n := by
  rw [decimal_eq_numeral, digitsValue_eq_numeralValue]
  exact Lib.numeralValue_numeral (by decide) digitValue_digit_byte n

end HCServer.Http
