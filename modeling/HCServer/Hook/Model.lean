import HCServer.IOManager.Idle

/-! Hooked blocking calls over one `IOManager`: `do_io` with its `retry` loop and
`connect_with_timeout`. A fiber makes one call at a time; the schedulers' names and the callbacks
of events play no part and are `Unit`. -/
namespace HCServer.Hook
open IOManager

/-- `connect_with_timeout` waits once, `do_io` tries again after each wake-up. -/
inductive Kind
  | doIo
  | connect
  deriving DecidableEq, Repr

/-- A condition timer: in `m_timers` with its callback, collected by `listExpiredCb`, past its
store of `cancelled` with `cancelEvent` still to come, or of no more effect. -/
inductive Timer
  | waiting
  | collected
  | flagged
  | gone
  deriving DecidableEq, Repr

inductive Stage
  | trying
  | armed
  | added
  | suspended
  deriving DecidableEq, Repr

/-- A call in progress. `cancelled` is the flag of `timer_info`, which all rounds share, and
`timers` has one entry for each round, the current one first. -/
structure HookCall where
  kind : Kind
  fd : Nat
  event : Event
  finite : Bool
  stage : Stage
  cancelled : Bool
  timers : List Timer
  deriving DecidableEq, Repr

namespace HookCall

/-- `timer->cancel()` of the current round's timer. -/
def cancelTimer (c : HookCall) : HookCall :=
  { c with timers := match c.timers with
      | .waiting :: older => .gone :: older
      | timers => timers }

def setTimer (c : HookCall) (i : Nat) (tm : Timer) : HookCall :=
  { c with timers := c.timers.set i tm }

end HookCall

structure Hooks (φ : Type) where
  io : IOManager Unit φ Unit
  call : φ → Option HookCall

/-- Steps of the call of a fiber `f`, of the callback of its `i`-th timer, and of others. -/
inductive Action (φ : Type)
  | enter (f : φ) (kind : Kind) (fd : Nat) (event : Event) (finite : Bool)
  | leave (f : φ)
  | addConditionTimer (f : φ)
  | addEvent (f : φ) (ctl : Bool)
  | yieldToHold (f : φ)
  | resume (f : φ)
  | collect (f : φ) (i : Nat)
  | setCancelled (f : φ) (i : Nat)
  | cancelEvent (f : φ) (i : Nat) (ctl : Bool)
  | other (c : Call Unit φ Unit)
  | ready (fd : Nat) (reported : Mask) (ctl : Bool)

namespace Hooks
variable {φ : Type} [DecidableEq φ]

def new : Hooks φ := ⟨.new, fun _ => none⟩

def setCall (s : Hooks φ) (f : φ) (c : Option HookCall) : Hooks φ :=
  { s with call := Function.update s.call f c }

/-- The event of `f`'s call is registered, with `f` as its waiter. -/
def Registered (s : Hooks φ) (f : φ) (c : HookCall) : Prop :=
  ((s.io.context c.fd).getcontext c.event).fiber = some f

instance (s : Hooks φ) (f : φ) (c : HookCall) : Decidable (s.Registered f c) :=
  inferInstanceAs (Decidable (_ = _))

/-- A call by code outside the hooked calls: `addEvent` is made by a fiber that is in none. -/
def Outside (s : Hooks φ) : Call Unit φ Unit → Prop
  | .addEvent _ current _ _ _ _ => s.call current = none
  | _ => True

instance (s : Hooks φ) : (c : Call Unit φ Unit) → Decidable (s.Outside c)
  | .addEvent _ current _ _ _ _ => inferInstanceAs (Decidable (s.call current = none))
  | .delEvent _ _ _ => inferInstanceAs (Decidable True)
  | .cancelEvent _ _ _ => inferInstanceAs (Decidable True)

/-- The round after `YieldToHold` has returned. -/
def resumed (c : HookCall) : Option HookCall :=
  if c.cancelled then none
  else match c.kind with
    | .doIo => some { c.cancelTimer with stage := .trying }
    | .connect => none

/-- One step; a failing assertion ends the run. -/
def step (s : Hooks φ) : Action φ → Option (Hooks φ)
  | .enter f kind fd event finite =>
      match s.call f with
      | none => some (s.setCall f (some ⟨kind, fd, event, finite, .trying, false, []⟩))
      | some _ => none
  | .leave f => do
      let c ← s.call f
      if c.stage = .trying then some (s.setCall f none) else none
  | .addConditionTimer f => do
      let c ← s.call f
      if c.stage = .trying then
        let timers := if c.finite then .waiting :: c.timers else c.timers
        some (s.setCall f (some { c with stage := .armed, timers }))
      else none
  | .addEvent f ctl => do
      let c ← s.call f
      if c.stage = .armed then
        match s.io.addEvent () f c.fd c.event none ctl with
        | .ok o =>
            let s := { s with io := o.state }
            some (s.setCall f (if o.ret = 0 then some { c with stage := .added } else none))
        | .error _ => none
      else none
  | .yieldToHold f => do
      let c ← s.call f
      if c.stage = .added then some (s.setCall f (some { c with stage := .suspended })) else none
  | .resume f => do
      let c ← s.call f
      if c.stage = .suspended ∧ ¬ s.Registered f c then some (s.setCall f (resumed c)) else none
  | .collect f i => do
      let c ← s.call f
      if c.timers[i]? = some .waiting then some (s.setCall f (some (c.setTimer i .collected)))
      else none
  | .setCancelled f i => do
      let c ← s.call f
      if c.timers[i]? = some .collected then
        some (s.setCall f (some (if c.cancelled then c.setTimer i .gone
          else { c.setTimer i .flagged with cancelled := true })))
      else none
  | .cancelEvent f i ctl => do
      let c ← s.call f
      if c.timers[i]? = some .flagged then
        match s.io.cancelEvent c.fd c.event ctl with
        | .ok o => some ({ s with io := o.state }.setCall f (some (c.setTimer i .gone)))
        | .error _ => none
      else none
  | .other c =>
      if c.Admissible s.io ∧ s.Outside c then
        match c.perform s.io with
        | .ok o => some { s with io := o.state }
        | .error _ => none
      else none
  | .ready fd reported ctl =>
      if fd < s.io.fdContexts.length then
        match s.io.dispatch fd reported ctl with
        | .ok m => some { s with io := m }
        | .error _ => none
      else none

end Hooks
end HCServer.Hook
