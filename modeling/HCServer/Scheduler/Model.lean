import Mathlib.Data.List.Basic
import Mathlib.Logic.Function.Basic

/-! Fibers and the worker threads that run them. Each action is one of the atomic steps of
`Scheduler::run`, of a yield, or of whoever puts a fiber back into `m_fibers`; the idle fibers,
which never leave their thread, are left out. -/
namespace HCServer.Scheduler

inductive FiberState
  | INIT
  | HOLD
  | EXEC
  | TERM
  | READY
  | EXCEPT
  deriving DecidableEq, Repr

/-- How far the one wake-up of a suspension has come. -/
inductive Wake
  | unset
  | armed
  | fired
  deriving DecidableEq, Repr

/-- `saved` tells whether `m_ctx` holds the point where the fiber last stopped. -/
structure Fiber where
  state : FiberState
  saved : Bool
  wake : Wake
  deriving DecidableEq, Repr

def Fiber.new : Fiber := ⟨.INIT, true, .unset⟩

inductive Job
  | fiber (f : Nat)
  | cb
  deriving DecidableEq, Repr

/-- An entry of `m_fibers`; `threadid` is `none` for the code's `-1`. -/
structure FiberAndThread (θ : Type) where
  job : Job
  threadid : Option θ
  deriving DecidableEq, Repr

/-- Where a worker is. `own` marks the thread's own `cb_fiber`. -/
inductive Pc
  | loop
  | popped (job : Job)
  | chosen (f : Nat) (own : Bool)
  | running (f : Nat) (own : Bool)
  | yielding (f : Nat) (own : Bool)
  | returned (f : Nat) (own : Bool)
  deriving DecidableEq, Repr

/-- `torn` records that some `swapIn` went to a context that had not been saved. -/
structure Workers (θ : Type) where
  fibers : List (FiberAndThread θ)
  pool : List Fiber
  cbFiber : θ → Option Nat
  pc : θ → Pc
  torn : Bool

inductive Action (θ : Type)
  | schedule (threadid : Option θ)
  | scheduleFiber (threadid : Option θ)
  | pop (t : θ)
  | choose (t : θ)
  | swapIn (t : θ)
  | arm (t : θ)
  | yieldToHold (t : θ)
  | yieldToReady (t : θ)
  | finish (t : θ) (thrown : Bool)
  | switchOut (t : θ)
  | trigger (f : Nat)
  | update (t : θ)
  deriving DecidableEq, Repr

namespace Workers
variable {θ : Type} [DecidableEq θ]

def new : Workers θ := ⟨[], [], fun _ => none, fun _ => .loop, false⟩

def goto (s : Workers θ) (t : θ) (p : Pc) : Workers θ :=
  { s with pc := Function.update s.pc t p }

def setFiber (s : Workers θ) (f : Nat) (r : Fiber) : Workers θ :=
  { s with pool := s.pool.set f r }

/-- `new Fiber(...)`. -/
def create (s : Workers θ) : Workers θ := { s with pool := s.pool ++ [Fiber.new] }

def push (s : Workers θ) (job : Job) (threadid : Option θ) : Workers θ :=
  { s with fibers := s.fibers ++ [⟨job, threadid⟩] }

/-- An entry that the scan of `run` takes: not another thread's, and not a fiber in execution. -/
def takes (s : Workers θ) (t : θ) (ft : FiberAndThread θ) : Bool :=
  (ft.threadid.isNone || ft.threadid == some t) && match ft.job with
    | .fiber f => (s.pool[f]?.map Fiber.state) != some .EXEC
    | .cb => true

/-- From taking the job to the call of `swapIn`. -/
def choose (s : Workers θ) (t : θ) : Job → Option (Workers θ)
  | .fiber f => do
      let r ← s.pool[f]?
      if r.state = .TERM ∨ r.state = .EXCEPT then s.goto t .loop else s.goto t (.chosen f false)
  | .cb =>
      match s.cbFiber t with
      | some f => do
          let r ← s.pool[f]?
          -- the assertion of `reset`
          if r.state = .TERM ∨ r.state = .INIT ∨ r.state = .EXCEPT then
            (s.setFiber f { r with state := .INIT }).goto t (.chosen f true)
          else none
      | none =>
          let f := s.pool.length
          some ({ s.create with cbFiber := Function.update s.cbFiber t (some f) }.goto t
            (.chosen f true))

/-- `schedule(cb_fiber)` or the store of `HOLD` gives the thread's own fiber away. -/
def release (s : Workers θ) (t : θ) (own : Bool) : Workers θ :=
  if own then { s with cbFiber := Function.update s.cbFiber t none } else s

/-- What `run` does with the fiber that came back. -/
def update (s : Workers θ) (t : θ) (f : Nat) (own : Bool) (r : Fiber) : Workers θ :=
  if r.state = .READY then ((s.push (.fiber f) none).release t own).goto t .loop
  else if r.state = .TERM ∨ r.state = .EXCEPT then
    (if own then s.setFiber f { r with state := .INIT } else s).goto t .loop
  else ((s.setFiber f { r with state := .HOLD }).release t own).goto t .loop

/-- The store of a running fiber's own state. A fiber that has asked to be woken suspends. -/
def store (s : Workers θ) (t : θ) (state : FiberState) : Option (Workers θ) :=
  match s.pc t with
  | .running f own => do
      let r ← s.pool[f]?
      if state ≠ .HOLD ∧ r.wake ≠ .unset then none
      else (s.setFiber f { r with state }).goto t (.yielding f own)
  | _ => none

/-- One step; a failing assertion ends the run. -/
def step (s : Workers θ) : Action θ → Option (Workers θ)
  | .schedule threadid => some (s.push .cb threadid)
  | .scheduleFiber threadid => some (s.create.push (.fiber s.pool.length) threadid)
  | .pop t =>
      match s.pc t with
      | .loop => do
          let ft ← s.fibers.find? (s.takes t)
          some ({ s with fibers := s.fibers.eraseP (s.takes t) }.goto t (.popped ft.job))
      | _ => none
  | .choose t =>
      match s.pc t with
      | .popped job => s.choose t job
      | _ => none
  | .swapIn t =>
      match s.pc t with
      | .chosen f own => do
          let r ← s.pool[f]?
          -- `m_state != EXEC`
          if r.state = .EXEC then none
          else
            let s' := s.setFiber f ⟨.EXEC, false, .unset⟩
            some ({ s' with torn := s.torn || !r.saved }.goto t (.running f own))
      | _ => none
  | .arm t =>
      match s.pc t with
      | .running f _ => do
          let r ← s.pool[f]?
          if r.wake = .unset then s.setFiber f { r with wake := .armed } else none
      | _ => none
  | .yieldToHold t => s.store t .HOLD
  | .yieldToReady t => s.store t .READY
  | .finish t thrown => s.store t (if thrown then .EXCEPT else .TERM)
  | .switchOut t =>
      match s.pc t with
      | .yielding f own => do
          let r ← s.pool[f]?
          (s.setFiber f { r with saved := true }).goto t (.returned f own)
      | _ => none
  | .trigger f => do
      let r ← s.pool[f]?
      if r.wake = .armed then (s.setFiber f { r with wake := .fired }).push (.fiber f) none
      else none
  | .update t =>
      match s.pc t with
      | .returned f own => do
          let r ← s.pool[f]?
          s.update t f own r
      | _ => none

/-- What each step does and what has let it happen. -/
inductive Rule (s : Workers θ) : Action θ → Workers θ → Prop
  | schedule {threadid} : Rule s (.schedule threadid) (s.push .cb threadid)
  | scheduleFiber {threadid} :
      Rule s (.scheduleFiber threadid) (s.create.push (.fiber s.pool.length) threadid)
  | pop {t ft} (hpc : s.pc t = .loop) (hfind : s.fibers.find? (s.takes t) = some ft) :
      Rule s (.pop t) ({ s with fibers := s.fibers.eraseP (s.takes t) }.goto t (.popped ft.job))
  | dead {t f r} (hpc : s.pc t = .popped (.fiber f)) (hget : s.pool[f]? = some r)
      (hr : r.state = .TERM ∨ r.state = .EXCEPT) : Rule s (.choose t) (s.goto t .loop)
  | alive {t f r} (hpc : s.pc t = .popped (.fiber f)) (hget : s.pool[f]? = some r)
      (hr : ¬ (r.state = .TERM ∨ r.state = .EXCEPT)) : Rule s (.choose t) (s.goto t (.chosen f false))
  | reset {t f r} (hpc : s.pc t = .popped .cb) (hown : s.cbFiber t = some f)
      (hget : s.pool[f]? = some r) (hr : r.state = .TERM ∨ r.state = .INIT ∨ r.state = .EXCEPT) :
      Rule s (.choose t) ((s.setFiber f { r with state := .INIT }).goto t (.chosen f true))
  | fresh {t} (hpc : s.pc t = .popped .cb) (hown : s.cbFiber t = none) :
      Rule s (.choose t)
        ({ s.create with cbFiber := Function.update s.cbFiber t (some s.pool.length) }.goto t
          (.chosen s.pool.length true))
  | swapIn {t f own r} (hpc : s.pc t = .chosen f own) (hget : s.pool[f]? = some r)
      (he : r.state ≠ .EXEC) :
      Rule s (.swapIn t) ({ s.setFiber f ⟨.EXEC, false, .unset⟩ with torn := s.torn || !r.saved }.goto t
        (.running f own))
  | arm {t f own r} (hpc : s.pc t = .running f own) (hget : s.pool[f]? = some r) (hw : r.wake = .unset) :
      Rule s (.arm t) (s.setFiber f { r with wake := .armed })
  | yieldToHold {t f own r} (hpc : s.pc t = .running f own) (hget : s.pool[f]? = some r) :
      Rule s (.yieldToHold t) ((s.setFiber f { r with state := .HOLD }).goto t (.yielding f own))
  | yieldToReady {t f own r} (hpc : s.pc t = .running f own) (hget : s.pool[f]? = some r)
      (hw : r.wake = .unset) :
      Rule s (.yieldToReady t) ((s.setFiber f { r with state := .READY }).goto t (.yielding f own))
  | finish {t thrown f own r} (hpc : s.pc t = .running f own) (hget : s.pool[f]? = some r)
      (hw : r.wake = .unset) :
      Rule s (.finish t thrown)
        ((s.setFiber f { r with state := if thrown then .EXCEPT else .TERM }).goto t (.yielding f own))
  | switchOut {t f own r} (hpc : s.pc t = .yielding f own) (hget : s.pool[f]? = some r) :
      Rule s (.switchOut t) ((s.setFiber f { r with saved := true }).goto t (.returned f own))
  | trigger {f r} (hget : s.pool[f]? = some r) (hw : r.wake = .armed) :
      Rule s (.trigger f) ((s.setFiber f { r with wake := .fired }).push (.fiber f) none)
  | requeue {t f own r} (hpc : s.pc t = .returned f own) (hget : s.pool[f]? = some r)
      (hr : r.state = .READY) :
      Rule s (.update t) (((s.push (.fiber f) none).release t own).goto t .loop)
  | ended {t f own r} (hpc : s.pc t = .returned f own) (hget : s.pool[f]? = some r)
      (hr : r.state = .TERM ∨ r.state = .EXCEPT) :
      Rule s (.update t) ((if own then s.setFiber f { r with state := .INIT } else s).goto t .loop)
  | held {t f own r} (hpc : s.pc t = .returned f own) (hget : s.pool[f]? = some r)
      (hr : r.state ≠ .READY) (hends : ¬ (r.state = .TERM ∨ r.state = .EXCEPT)) :
      Rule s (.update t) (((s.setFiber f { r with state := .HOLD }).release t own).goto t .loop)

variable {s s' : Workers θ} {a : Action θ} {t : θ}

theorem store_rule {state : FiberState} (hs : s.store t state = some s') :
    ∃ f own r, s.pc t = .running f own ∧ s.pool[f]? = some r ∧ (state = .HOLD ∨ r.wake = .unset) ∧
      s' = (s.setFiber f { r with state }).goto t (.yielding f own) := by
  unfold store at hs
  split at hs
  case h_1 f own hpc =>
    obtain ⟨r, hget, hs⟩ := Option.bind_eq_some_iff.mp hs
    split at hs
    case isTrue => cases hs
    case isFalse hwake =>
      cases hs
      refine ⟨f, own, r, hpc, hget, ?_, rfl⟩
      by_cases hstate : state = .HOLD
      · exact Or.inl hstate
      · exact Or.inr (Decidable.not_not.mp fun hw => hwake ⟨hstate, hw⟩)
  case h_2 => cases hs

theorem choose_rule {job : Job} (hpc : s.pc t = .popped job) (hs : s.choose t job = some s') :
    Rule s (.choose t) s' := by
  cases job with
  | fiber f =>
      obtain ⟨r, hget, hs⟩ := Option.bind_eq_some_iff.mp hs
      split at hs
      case isTrue hr =>
        cases hs
        exact .dead hpc hget hr
      case isFalse hr =>
        cases hs
        exact .alive hpc hget hr
  | cb =>
      simp only [choose] at hs
      split at hs
      case h_1 f hown =>
        obtain ⟨r, hget, hs⟩ := Option.bind_eq_some_iff.mp hs
        split at hs
        case isTrue hr =>
          cases hs
          exact .reset hpc hown hget hr
        case isFalse => cases hs
      case h_2 hown =>
        cases hs
        exact .fresh hpc hown

theorem update_rule {f : Nat} {own : Bool} {r : Fiber} (hpc : s.pc t = .returned f own)
    (hget : s.pool[f]? = some r) : Rule s (.update t) (s.update t f own r) := by
  unfold update
  split
  case isTrue hr => exact .requeue hpc hget hr
  case isFalse hr =>
    split
    case isTrue hends => exact .ended hpc hget hends
    case isFalse hends => exact .held hpc hget hr hends

theorem step_rule (hs : s.step a = some s') : Rule s a s' := by
  cases a with
  | schedule threadid =>
      cases hs
      exact .schedule
  | scheduleFiber threadid =>
      cases hs
      exact .scheduleFiber
  | pop t =>
      simp only [step] at hs
      split at hs
      case h_1 hpc =>
        obtain ⟨ft, hfind, hs⟩ := Option.bind_eq_some_iff.mp hs
        cases hs
        exact .pop hpc hfind
      case h_2 => cases hs
  | choose t =>
      simp only [step] at hs
      split at hs
      case h_1 job hpc => exact choose_rule hpc hs
      case h_2 => cases hs
  | swapIn t =>
      simp only [step] at hs
      split at hs
      case h_1 f own hpc =>
        obtain ⟨r, hget, hs⟩ := Option.bind_eq_some_iff.mp hs
        split at hs
        case isTrue => cases hs
        case isFalse he =>
          cases hs
          exact .swapIn hpc hget he
      case h_2 => cases hs
  | arm t =>
      simp only [step] at hs
      split at hs
      case h_1 f own hpc =>
        obtain ⟨r, hget, hs⟩ := Option.bind_eq_some_iff.mp hs
        split at hs
        case isTrue hw =>
          cases hs
          exact .arm hpc hget hw
        case isFalse => cases hs
      case h_2 => cases hs
  | yieldToHold t =>
      obtain ⟨f, own, r, hpc, hget, -, rfl⟩ := store_rule hs
      exact .yieldToHold hpc hget
  | yieldToReady t =>
      obtain ⟨f, own, r, hpc, hget, hw, rfl⟩ := store_rule hs
      exact .yieldToReady hpc hget (hw.resolve_left (by decide))
  | finish t thrown =>
      obtain ⟨f, own, r, hpc, hget, hw, rfl⟩ := store_rule hs
      exact .finish hpc hget (hw.resolve_left (by cases thrown <;> decide))
  | switchOut t =>
      simp only [step] at hs
      split at hs
      case h_1 f own hpc =>
        obtain ⟨r, hget, hs⟩ := Option.bind_eq_some_iff.mp hs
        cases hs
        exact .switchOut hpc hget
      case h_2 => cases hs
  | trigger f =>
      obtain ⟨r, hget, hs⟩ := Option.bind_eq_some_iff.mp hs
      split at hs
      case isTrue hw =>
        cases hs
        exact .trigger hget hw
      case isFalse => cases hs
  | update t =>
      simp only [step] at hs
      split at hs
      case h_1 f own hpc =>
        obtain ⟨r, hget, hs⟩ := Option.bind_eq_some_iff.mp hs
        cases hs
        exact update_rule hpc hget
      case h_2 => cases hs

end Workers
end HCServer.Scheduler
