import HCServer.IOManager.Model
import Mathlib.Tactic.Ring

/-! One descriptor's context, read as a set of armed events. The bit mask, the two event contexts
and the kernel's mask are three records of that set; `FdContext.Consistent` says that the first two
agree. -/
namespace HCServer.IOManager
variable {S F K : Type}

/-- The mask whose bits are the events in `armed`. -/
def maskOf (armed : Event → Bool) : Mask :=
  (if armed .READ then Event.READ.bits else 0) ||| (if armed .WRITE then Event.WRITE.bits else 0)

def FdContext.armed (ctx : FdContext S F K) (e : Event) : Bool := ctx.events &&& e.bits != 0

/-- The number of event bits set. -/
def FdContext.bitCount (ctx : FdContext S F K) : Int :=
  (ctx.armed .READ).toNat + (ctx.armed .WRITE).toNat

/-- A scheduler and exactly one of a fiber and a callback. -/
def EventContext.Holds (c : EventContext S F K) : Prop :=
  c.scheduler.isSome ∧ c.fiber.isSome ≠ c.cb.isSome

structure FdContext.Consistent (ctx : FdContext S F K) : Prop where
  mask : ctx.events = maskOf ctx.armed
  holds : ∀ e, ctx.armed e = true → (ctx.getcontext e).Holds
  empty : ∀ e, ctx.armed e = false → ctx.getcontext e = .none

section Mask

theorem maskOf_armed (f : Event → Bool) (e : Event) : (maskOf f &&& e.bits != 0) = f e := by
  cases e <;> cases hr : f .READ <;> cases hw : f .WRITE <;>
    simp only [maskOf, hr, hw] <;> decide

theorem maskOf_insert (f : Event → Bool) (e : Event) :
    maskOf f ||| e.bits = maskOf fun x => f x || x == e := by
  cases e <;> cases hr : f .READ <;> cases hw : f .WRITE <;>
    simp only [maskOf, hr, hw] <;> decide

theorem maskOf_remove (f : Event → Bool) (e : Event) :
    maskOf f &&& ~~~e.bits = maskOf fun x => f x && x != e := by
  cases e <;> cases hr : f .READ <;> cases hw : f .WRITE <;>
    simp only [maskOf, hr, hw] <;> decide

theorem maskOf_eq_zero (f : Event → Bool) : maskOf f = 0 ↔ ∀ e, f e = false := by
  constructor
  · intro h e
    have hbit := maskOf_armed f e
    rw [h] at hbit
    cases e <;> exact hbit.symm
  · intro h
    simp only [maskOf, h]
    decide

end Mask

/-- The events of `ctx` once `event` is armed with the waiter `c`. -/
def FdContext.arm (ctx : FdContext S F K) (event : Event) (c : EventContext S F K) :
    FdContext S F K :=
  { ctx with events := ctx.events ||| event.bits }.setcontext event c

def FdContext.disarm (ctx : FdContext S F K) (event : Event) : FdContext S F K :=
  { ctx with events := ctx.events &&& ~~~event.bits }.setcontext event .none

/-- The entry that a scheduler receives for a waiter. -/
def EventContext.queued (c : EventContext S F K) : Option (S × Task F K) :=
  c.scheduler.bind fun s => match c.cb with
    | .some k => some (s, Task.cb k)
    | .none => c.fiber.map fun f => (s, Task.fiber f)

namespace FdContext
variable {ctx : FdContext S F K} {event : Event} {c : EventContext S F K}

@[simp] theorem arm_fd : (ctx.arm event c).fd = ctx.fd := by cases event <;> rfl

@[simp] theorem disarm_fd : (ctx.disarm event).fd = ctx.fd := by cases event <;> rfl

@[simp] theorem arm_events : (ctx.arm event c).events = ctx.events ||| event.bits := by
  cases event <;> rfl

@[simp] theorem disarm_events : (ctx.disarm event).events = ctx.events &&& ~~~event.bits := by
  cases event <;> rfl

theorem getcontext_arm (e : Event) :
    (ctx.arm event c).getcontext e = if e = event then c else ctx.getcontext e := by
  cases e <;> cases event <;> rfl

theorem getcontext_disarm (e : Event) :
    (ctx.disarm event).getcontext e = if e = event then .none else ctx.getcontext e := by
  cases e <;> cases event <;> rfl

theorem armed_eq_false : ctx.armed event = false ↔ ctx.events &&& event.bits = 0 := by
  simp only [armed, bne_eq_false_iff_eq]

theorem armed_eq_true : ctx.armed event = true ↔ ctx.events &&& event.bits ≠ 0 := by
  simp only [armed, bne_iff_ne]

theorem fresh_armed (fd : Nat) (e : Event) : (fresh fd : FdContext S F K).armed e = false := by
  rw [armed_eq_false]
  exact BitVec.zero_and

theorem fresh_consistent (fd : Nat) : (fresh fd : FdContext S F K).Consistent where
  mask := by
    symm
    rw [show (fresh fd : FdContext S F K).events = 0 from rfl, maskOf_eq_zero]
    intro e
    exact fresh_armed fd e
  holds := by
    intro e h
    rw [fresh_armed] at h
    cases h
  empty := by
    intro e h
    cases e <;> rfl

theorem Consistent.arm_armed (h : ctx.Consistent) (e : Event) :
    (ctx.arm event c).armed e = (ctx.armed e || e == event) := by
  have hmask : (ctx.arm event c).events = maskOf fun x => ctx.armed x || x == event := by
    rw [arm_events, h.mask, maskOf_insert]
  unfold armed at hmask ⊢
  rw [hmask, maskOf_armed]

theorem Consistent.disarm_armed (h : ctx.Consistent) (e : Event) :
    (ctx.disarm event).armed e = (ctx.armed e && e != event) := by
  have hmask : (ctx.disarm event).events = maskOf fun x => ctx.armed x && x != event := by
    rw [disarm_events, h.mask, maskOf_remove]
  unfold armed at hmask ⊢
  rw [hmask, maskOf_armed]

theorem Consistent.arm (h : ctx.Consistent) (hc : c.Holds) : (ctx.arm event c).Consistent where
  mask := by
    have hset : (ctx.arm event c).armed = fun x => ctx.armed x || x == event := by
      funext e
      exact h.arm_armed e
    rw [hset, ← maskOf_insert, arm_events, ← h.mask]
  holds := by
    intro e he
    rw [getcontext_arm]
    by_cases same : e = event
    · rw [if_pos same]
      exact hc
    · rw [if_neg same]
      apply h.holds
      rw [h.arm_armed, beq_eq_false_iff_ne.mpr same, Bool.or_false] at he
      exact he
  empty := by
    intro e he
    rw [h.arm_armed, Bool.or_eq_false_iff, beq_eq_false_iff_ne] at he
    rw [getcontext_arm, if_neg he.2]
    exact h.empty e he.1

theorem Consistent.disarm (h : ctx.Consistent) : (ctx.disarm event).Consistent where
  mask := by
    have hset : (ctx.disarm event).armed = fun x => ctx.armed x && x != event := by
      funext e
      exact h.disarm_armed e
    rw [hset, ← maskOf_remove, disarm_events, ← h.mask]
  holds := by
    intro e he
    rw [h.disarm_armed, Bool.and_eq_true, bne_iff_ne] at he
    rw [getcontext_disarm, if_neg he.2]
    exact h.holds e he.1
  empty := by
    intro e he
    rw [getcontext_disarm]
    by_cases same : e = event
    · rw [if_pos same]
    · rw [if_neg same]
      apply h.empty
      rw [h.disarm_armed, bne_iff_ne.mpr same, Bool.and_true] at he
      exact he

theorem Consistent.bitCount_arm (h : ctx.Consistent) (hoff : ctx.armed event = false) :
    (ctx.arm event c).bitCount = ctx.bitCount + 1 := by
  unfold bitCount
  rw [h.arm_armed, h.arm_armed]
  cases event <;> cases hr : ctx.armed .READ <;> cases hw : ctx.armed .WRITE <;> simp_all

theorem Consistent.bitCount_disarm (h : ctx.Consistent) (hon : ctx.armed event = true) :
    (ctx.disarm event).bitCount = ctx.bitCount - 1 := by
  unfold bitCount
  rw [h.disarm_armed, h.disarm_armed]
  cases event <;> cases hr : ctx.armed .READ <;> cases hw : ctx.armed .WRITE <;> simp_all

end FdContext

/-- A held waiter is either a callback or a fiber, with its scheduler. -/
theorem EventContext.Holds.cases {c : EventContext S F K} (h : c.Holds) :
    ∃ s, (∃ k, c = ⟨some s, Option.none, some k⟩) ∨ ∃ f, c = ⟨some s, some f, Option.none⟩ := by
  rcases c with ⟨_ | s, f, k⟩
  · cases h.1
  · refine ⟨s, ?_⟩
    cases f with
    | none =>
        cases k with
        | none => exact absurd rfl h.2
        | some k => exact Or.inl ⟨k, rfl⟩
    | some f =>
        cases k with
        | none => exact Or.inr ⟨f, rfl⟩
        | some k => exact absurd rfl h.2

theorem FdContext.Consistent.isEmpty {ctx : FdContext S F K} {event : Event}
    (h : ctx.Consistent) (hoff : ctx.armed event = false) :
    (ctx.getcontext event).isEmpty = true := by
  rw [h.empty event hoff]
  rfl

/-- On an armed event the assertion holds, the waiter is queued and the event is disarmed. -/
theorem FdContext.Consistent.triggerEvent {ctx : FdContext S F K} {event : Event}
    (h : ctx.Consistent) (hon : ctx.armed event = true) :
    ctx.triggerEvent event = .ok (ctx.disarm event, (ctx.getcontext event).queued) ∧
      (ctx.getcontext event).queued.isSome := by
  have hbit := FdContext.armed_eq_true.mp hon
  unfold FdContext.triggerEvent
  rw [if_neg hbit]
  obtain ⟨s, ⟨k, hc⟩ | ⟨f, hc⟩⟩ := (h.holds event hon).cases
  · rw [hc]
    exact ⟨rfl, rfl⟩
  · rw [hc]
    exact ⟨rfl, rfl⟩

end HCServer.IOManager
