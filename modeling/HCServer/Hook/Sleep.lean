import HCServer.Timer.Model

/-! The hooked `sleep`, `usleep` and `nanosleep`: the fiber waits for a timer whose delay is converted
from each argument in its own way. -/
namespace HCServer.Hook
open Timers

/-- A `timespec` whose fields are valid. -/
structure Timespec where
  tvSec : Nat
  tvNsec : Nat
  sec_lt : tvSec < 2 ^ 63
  nsec_lt : tvNsec < 1000000000

/-- A call of one of the three functions. -/
inductive Sleep
  | sleep (seconds : BitVec 32)
  | usleep (usec : BitVec 32)
  | nanosleep (req : Timespec)

/-- A `long` that is not negative; past its maximum the arithmetic is undefined. -/
def long (v : Nat) : Option Nat := if v < 2 ^ 63 then some v else none

/-- The conversion of a `long` to an `int`. -/
def intOfLong (v : Nat) : Int :=
  if v % 2 ^ 32 < 2 ^ 31 then (v % 2 ^ 32 : Nat) else (v % 2 ^ 32 : Nat) - 2 ^ 32

/-- The conversion of an `int` to a `uint64_t`. -/
def uint64OfInt (v : Int) : Nat := (v % 2 ^ 64).toNat

/-- `tv_sec * 1000 + tv_nsec / 1000 / 1000`. -/
def Timespec.timeoutMs (req : Timespec) : Option Int := do
  let ms ← long (req.tvSec * 1000)
  let ms ← long (ms + req.tvNsec / 1000 / 1000)
  some (intOfLong ms)

namespace Sleep

/-- The argument of `addTimer`. -/
def ms : Sleep → Option Nat
  | sleep seconds => some (seconds * 1000#32).toNat
  | usleep usec => some (usec / 1000#32).toNat
  | nanosleep req => req.timeoutMs.map uint64OfInt

/-- The call up to its yield, in the fiber `fiber`; the timer lies at `addr`. -/
def arm {φ : Type} (c : Sleep) (fiber : φ) (addr now : Nat) (s : System φ) : Option (System φ) := do
  let ms ← c.ms
  let s' ← s.step (.construct ms fiber false addr now)
  s'.step (.addTimer s.size)

/-- The requested time in nanoseconds. -/
def requested : Sleep → Nat
  | sleep seconds => seconds.toNat * 1000000000
  | usleep usec => usec.toNat * 1000
  | nanosleep req => req.tvSec * 1000000000 + req.tvNsec

/-- The request is a whole number of milliseconds, and in range of the type that first holds it. -/
def Fits : Sleep → Prop
  | sleep seconds => seconds.toNat * 1000 < 2 ^ 32
  | usleep usec => 1000 ∣ usec.toNat
  | nanosleep req => 1000000 ∣ req.tvNsec ∧ req.tvSec * 1000 + req.tvNsec / 1000000 < 2 ^ 31

/-- A delay that is not too short, and too long by less than a millisecond. -/
def OnTime (c : Sleep) (ms : Nat) : Prop :=
  c.requested ≤ ms * 1000000 ∧ ms * 1000000 < c.requested + 1000000

end Sleep

theorem long_of_lt {v : Nat} (h : v < 2 ^ 63) : long v = some v := if_pos h

theorem long_of_le {v : Nat} (h : 2 ^ 63 ≤ v) : long v = none := if_neg (Nat.not_lt.mpr h)

theorem Timespec.timeoutMs_of_lt {req : Timespec} {v : Nat}
    (hv : req.tvSec * 1000 + req.tvNsec / 1000 / 1000 = v) (h : v < 2 ^ 63) :
    req.timeoutMs = some (intOfLong v) := by
  have hproduct : req.tvSec * 1000 < 2 ^ 63 := by omega
  rw [timeoutMs, long_of_lt hproduct, Option.bind_eq_bind, Option.bind_some, hv, long_of_lt h]
  rfl

theorem Timespec.timeoutMs_of_le {req : Timespec} {v : Nat}
    (hv : req.tvSec * 1000 + req.tvNsec / 1000 / 1000 = v) (h : 2 ^ 63 ≤ v) :
    req.timeoutMs = none := by
  rw [timeoutMs]
  by_cases hproduct : req.tvSec * 1000 < 2 ^ 63
  · rw [long_of_lt hproduct, Option.bind_eq_bind, Option.bind_some, hv, long_of_le h]
    rfl
  · rw [long_of_le (Nat.not_lt.mp hproduct)]
    rfl

/-- The value survives both conversions only below `2 ^ 31`; from there on it falls short or becomes
a time that never comes. -/
theorem uint64OfInt_intOfLong {v : Nat} (h : v < 2 ^ 63) :
    (v < 2 ^ 31 ∧ uint64OfInt (intOfLong v) = v) ∨
    (2 ^ 31 ≤ v ∧ (uint64OfInt (intOfLong v) < v ∨ v + 1 < uint64OfInt (intOfLong v))) := by
  rw [uint64OfInt, intOfLong]
  split <;> omega

namespace Sleep

theorem onTime_sleep (seconds : BitVec 32) :
    OnTime (sleep seconds) (seconds * 1000#32).toNat ↔ Fits (sleep seconds) := by
  have hwrap : (seconds * 1000#32).toNat = seconds.toNat * 1000 % 2 ^ 32 := BitVec.toNat_mul _ _
  simp only [OnTime, Fits, requested, hwrap]
  omega

theorem onTime_usleep (usec : BitVec 32) :
    OnTime (usleep usec) (usec / 1000#32).toNat ↔ Fits (usleep usec) := by
  have hdiv : (usec / 1000#32).toNat = usec.toNat / 1000 := BitVec.toNat_udiv
  simp only [OnTime, Fits, requested, hdiv]
  omega

theorem onTime_nanosleep (req : Timespec) :
    (∃ ms, (nanosleep req).ms = some ms ∧ OnTime (nanosleep req) ms) ↔ Fits (nanosleep req) := by
  obtain ⟨v, hv⟩ : ∃ v, req.tvSec * 1000 + req.tvNsec / 1000 / 1000 = v := ⟨_, rfl⟩
  by_cases hlong : v < 2 ^ 63
  · have hms : (nanosleep req).ms = some (uint64OfInt (intOfLong v)) := by
      rw [ms, Timespec.timeoutMs_of_lt hv hlong]
      rfl
    have hconvert := uint64OfInt_intOfLong hlong
    simp only [hms, Option.some.injEq, exists_eq_left', OnTime, Fits, requested]
    omega
  · have hms : (nanosleep req).ms = none := by
      rw [ms, Timespec.timeoutMs_of_le hv (Nat.not_lt.mp hlong)]
      rfl
    simp only [hms, reduceCtorEq, false_and, exists_false, Fits, false_iff]
    omega

theorem onTime_iff (c : Sleep) : (∃ ms, c.ms = some ms ∧ c.OnTime ms) ↔ c.Fits := by
  cases c with
  | sleep seconds =>
    rw [← onTime_sleep]
    simp only [ms, Option.some.injEq, exists_eq_left']
  | usleep usec =>
    rw [← onTime_usleep]
    simp only [ms, Option.some.injEq, exists_eq_left']
  | nanosleep req => exact onTime_nanosleep req

section
variable {φ : Type} {fiber : φ} {addr now : Nat} {s : System φ}

/-- The timer that the call leaves in the set has the delay it was built with. -/
theorem arm_of_ms (fiber : φ) (now : Nat) {c : Sleep} {ms : Nat} (hfree : s.Free addr) (h : c.ms = some ms) :
    ∃ s', c.arm fiber addr now s = some s' ∧ (s'.manager.heap s.size).ms = ms := by
  rw [arm, h]
  simp only [Option.bind_eq_bind, Option.bind_some, System.step, if_pos hfree]
  rw [if_pos List.mem_cons_self]
  refine ⟨_, rfl, ?_⟩
  exact congrArg Timers.Timer.ms (Function.update_self (f := s.manager.heap) s.size _)

theorem arm_eq_none {c : Sleep} (h : c.ms = none) : c.arm fiber addr now s = none := by
  rw [arm, h]
  rfl

/-- The call arms a timer that wakes its fiber neither early nor a millisecond late. -/
theorem arm_onTime_iff (c : Sleep) (hfree : s.Free addr) :
    (∃ s', c.arm fiber addr now s = some s' ∧ c.OnTime (s'.manager.heap s.size).ms) ↔ c.Fits := by
  rw [← onTime_iff]
  constructor
  · rintro ⟨s', harm, htime⟩
    cases hms : c.ms with
    | none =>
      rw [arm_eq_none hms] at harm
      cases harm
    | some ms =>
      obtain ⟨t, ht, hdelay⟩ := arm_of_ms fiber now hfree hms
      obtain rfl := Option.some.inj (ht.symm.trans harm)
      exact ⟨ms, rfl, hdelay ▸ htime⟩
  · rintro ⟨ms, hms, htime⟩
    obtain ⟨s', hs', hdelay⟩ := arm_of_ms fiber now hfree hms
    exact ⟨s', hs', hdelay.symm ▸ htime⟩

end

/-- The longest `sleep` whose product fits. -/
theorem arm_longest : ∃ s', (sleep 4294967#32).arm () 0 0 (System.new 0) = some s' ∧
    OnTime (sleep 4294967#32) (s'.manager.heap (System.new (κ := Unit) 0).size).ms :=
  (arm_onTime_iff (sleep 4294967#32) (by decide)).mpr (by
    simp only [Fits]
    decide)

/-- `usleep(999)` arms a timer of no delay at all. -/
theorem usleep_wakes_early :
    ¬ ∀ (c : Sleep) (addr now : Nat) (s : System Unit), s.Free addr →
      ∃ s', c.arm () addr now s = some s' ∧ c.OnTime (s'.manager.heap s.size).ms := by
  intro hall
  obtain ⟨s', harm, htime⟩ := hall (usleep 999#32) 0 0 (System.new 0) (by decide)
  obtain ⟨t, ht, hdelay⟩ := arm_of_ms () 0 (by decide : (System.new (κ := Unit) 0).Free 0)
    (rfl : (usleep 999#32).ms = some 0)
  obtain rfl := Option.some.inj (ht.symm.trans harm)
  rw [hdelay] at htime
  exact absurd htime.1 (by decide)

end Sleep
end HCServer.Hook
