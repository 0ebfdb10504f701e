import HCServer.Http.Socket

/-! The timeout that `idle` hands to `epoll_wait`. The delay of the next timer is an `uint64_t`, and
it is compared and passed on as an `int`. -/
namespace HCServer.IOManager
open Http (toInt)

def MAX_TIMEOUT : Nat := 3000

/-- One pass of the loop over the delay, up to the call; `~0ull` stands for no timer. -/
def clampTimeout (next_timeout : Nat) : Nat :=
  if next_timeout ≠ 2 ^ 64 - 1 then
    if toInt next_timeout > MAX_TIMEOUT then MAX_TIMEOUT else next_timeout
  else MAX_TIMEOUT

/-- The timeouts of the calls of `epoll_wait`, of which the first `retries` are interrupted. Each pass
starts from what the one before has left in `next_timeout`. -/
def pollTimeouts : Nat → Nat → List Int
  | 0, next_timeout => [toInt (clampTimeout next_timeout)]
  | retries + 1, next_timeout =>
      toInt (clampTimeout next_timeout) :: pollTimeouts retries (clampTimeout next_timeout)

/-- The narrowing keeps the low half and takes its top bit for the sign. -/
theorem toInt_eq (n : Nat) :
    toInt n = if n % 2 ^ 32 < 2 ^ 31 then ((n % 2 ^ 32 : Nat) : Int) else (n % 2 ^ 32 : Nat) - 2 ^ 32 := by
  rw [toInt, BitVec.toInt_eq_toNat_cond, BitVec.toNat_ofNat]
  split <;> split <;> omega

theorem toInt_maxTimeout : toInt MAX_TIMEOUT = 3000 := by decide

theorem clampTimeout_maxTimeout : clampTimeout MAX_TIMEOUT = MAX_TIMEOUT := by decide

/-- A delay whose low half is not negative as an `int`, or none. -/
def Narrows (d : Nat) : Prop := d = 2 ^ 64 - 1 ∨ d % 2 ^ 32 < 2 ^ 31

instance (d : Nat) : Decidable (Narrows d) := inferInstanceAs (Decidable (_ ∨ _))

/-- What `epoll_wait` may be given while `d` milliseconds are left. -/
structure Bounded (d : Nat) (timeout : Int) : Prop where
  nonneg : 0 ≤ timeout
  le_max : timeout ≤ MAX_TIMEOUT
  le_delay : timeout ≤ d

theorem clamped_bounded_iff (d : Nat) : Bounded d (toInt (clampTimeout d)) ↔ Narrows d := by
  have hmax : (MAX_TIMEOUT : Int) = 3000 := rfl
  have hint := toInt_eq d
  unfold clampTimeout Narrows
  by_cases hnone : d = 2 ^ 64 - 1
  · rw [if_neg (not_not.mpr hnone), toInt_maxTimeout]
    exact ⟨fun _ => .inl hnone, fun _ => ⟨by decide, by decide, by omega⟩⟩
  · rw [if_pos hnone]
    by_cases hlow : d % 2 ^ 32 < 2 ^ 31
    · rw [if_pos hlow] at hint
      refine ⟨fun _ => .inr hlow, fun _ => ?_⟩
      split
      · rw [toInt_maxTimeout]
        exact ⟨by decide, by decide, by omega⟩
      · exact ⟨by omega, by omega, by omega⟩
    · -- the sign bit is set: the call waits for ever
      rw [if_neg hlow] at hint
      rw [if_neg (by omega)]
      constructor
      · intro hb
        have hneg := hb.nonneg
        omega
      · intro hd
        exact absurd (hd.resolve_left hnone) hlow

/-- A second pass finds the same timeout. -/
theorem clampTimeout_again (d : Nat) : clampTimeout (clampTimeout d) = clampTimeout d := by
  by_cases hsame : clampTimeout d = d
  · rw [hsame, hsame]
  · have hmax : clampTimeout d = MAX_TIMEOUT := by
      unfold clampTimeout at hsame ⊢
      by_cases hnone : d = 2 ^ 64 - 1
      · rw [if_neg (not_not.mpr hnone)]
      · rw [if_pos hnone] at hsame ⊢
        by_cases hbig : toInt d > MAX_TIMEOUT
        · rw [if_pos hbig]
        · rw [if_neg hbig] at hsame
          exact absurd rfl hsame
    rw [hmax, clampTimeout_maxTimeout]

theorem mem_pollTimeouts (retries d : Nat) :
    ∀ t, t ∈ pollTimeouts retries d ↔ t = toInt (clampTimeout d) := by
  induction retries generalizing d with
  | zero => simp [pollTimeouts]
  | succ retries ih =>
      intro t
      rw [pollTimeouts, List.mem_cons, ih, clampTimeout_again, or_self]

/-- However often the call is interrupted, its timeout is bounded exactly when the delay narrows to
an `int` that is not negative. -/
theorem pollTimeouts_bounded_iff (retries d : Nat) :
    (∀ t ∈ pollTimeouts retries d, Bounded d t) ↔ Narrows d := by
  rw [← clamped_bounded_iff]
  constructor
  · intro h
    exact h _ ((mem_pollTimeouts retries d _).mpr rfl)
  · intro h t ht
    rw [(mem_pollTimeouts retries d t).mp ht]
    exact h

/-- A timer 2^31 milliseconds ahead: the timeout is negative. -/
theorem pollTimeout_negative : ¬ ∀ retries d : Nat, d < 2 ^ 64 →
    ∀ t ∈ pollTimeouts retries d, Bounded d t := by
  intro h
  have hlow : Narrows (2 ^ 31) := (clamped_bounded_iff _).mp
    (h 0 (2 ^ 31) (by decide) _ List.mem_cons_self)
  revert hlow
  decide

end HCServer.IOManager
