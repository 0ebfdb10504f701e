import HCServer.Scheduler.Exclusive
import HCServer.Lib.Transition

/-! `Scheduler::run` with `IOManager::idle`: one action for each access to what the threads share, which
is `m_fibers`, the two thread counts, the tickle pipe, the timers and the pending events. The tasks run
as `Workers` has it. -/
namespace HCServer.Scheduler
open Lib
variable {θ ε : Type}

/-- Where a worker is in `run`; from `entered` to `handling` it is in `idle`. -/
inductive Place
  | top
  | busy
  | dropped
  | settled
  | gap
  | entered
  | timed
  | counted
  | waiting
  | woken (tickled : Bool)
  | listed (tickled : Bool) (cbs : Nat)
  | handling (tickled : Bool)
  | back
  | exited
  deriving DecidableEq, Repr

/-- What is left of a caller's `schedule` or `tickle`. An event that has `fired` is still to be taken
from `m_pendingEventCount` afterwards. -/
inductive Call
  | free
  | tickle (fired : Bool)
  | write (fired : Bool)
  | settle
  deriving DecidableEq, Repr

def Call.after (fired : Bool) : Call := if fired then .settle else .free

/-- What `schedule` is given: a callback, a new fiber, or one that waits to be woken. -/
inductive FiberOrCb (θ : Type)
  | cb (threadid : Option θ)
  | new (threadid : Option θ)
  | fiber (f : Nat)
  deriving DecidableEq, Repr

def FiberOrCb.action : FiberOrCb θ → Action θ
  | .cb threadid => .schedule threadid
  | .new threadid => .scheduleFiber threadid
  | .fiber f => .trigger f

def FiberOrCb.threadid : FiberOrCb θ → Option θ
  | .cb threadid => threadid
  | .new threadid => threadid
  | .fiber _ => none

/-- What a worker does with the job that it has taken. -/
inductive Turn
  | choose
  | swapIn
  | arm
  | yieldToHold
  | yieldToReady
  | finish (thrown : Bool)
  | switchOut
  deriving DecidableEq, Repr

def Turn.action (t : θ) : Turn → Action θ
  | .choose => .choose t
  | .swapIn => .swapIn t
  | .arm => .arm t
  | .yieldToHold => .yieldToHold t
  | .yieldToReady => .yieldToReady t
  | .finish thrown => .finish t thrown
  | .switchOut => .switchOut t

/-- An `IOManager` with the workers `θ` and the other threads `ε`. `ended` tells whose idle fiber is in
state `TERM`, `events` counts the registered events, and `firing` those that have fired and still count
as pending. -/
structure Loop (θ ε : Type) where
  workers : Workers θ
  place : θ → Place
  ended : θ → Bool
  call : θ ⊕ ε → Call
  idlethreadcount : Nat
  activethreadcount : Nat
  pipe : Nat
  timers : Nat
  events : Nat
  firing : Nat
  stopping : Bool

inductive Move (θ ε : Type)
  | schedule (c : θ ⊕ ε) (fc : FiberOrCb θ)
  | fire (c : θ ⊕ ε) (fc : FiberOrCb θ)
  | notify (c : θ ⊕ ε)
  | tickle (c : θ ⊕ ε)
  | write (c : θ ⊕ ε)
  | settle (c : θ ⊕ ε)
  | addTimer (c : θ ⊕ ε)
  | cancelTimer (c : θ ⊕ ε)
  | addEvent (c : θ ⊕ ε)
  | delEvent (c : θ ⊕ ε)
  | pop (t : θ)
  | scanEmpty (t : θ)
  | turn (t : θ) (a : Turn)
  | discard (t : θ)
  | release (t : θ)
  | update (t : θ)
  | enterIdle (t : θ)
  | getNextTimer (t : θ)
  | readPending (t : θ)
  | checkQueue (t : θ)
  | wake (t : θ) (tickled : Bool)
  | listExpiredCb (t : θ) (expired recurring : Nat)
  | scheduleExpired (t : θ)
  | drain (t : θ)
  | idleSwapOut (t : θ)
  | leaveIdle (t : θ)
  | exit (t : θ)
  | stop
  deriving DecidableEq, Repr

namespace Loop

def pendingEventCount (s : Loop θ ε) : Nat := s.events + s.firing

/-- The caller is between calls, and a worker then in a task's code. -/
def Codes (s : Loop θ ε) (c : θ ⊕ ε) : Prop :=
  s.call c = .free ∧ ∀ t, c = .inl t → (s.workers.pc t).runs ≠ none

/-- The caller is a worker that goes through what `epoll_wait` gave it. -/
def Handles (s : Loop θ ε) (c : θ ⊕ ε) : Prop :=
  s.call c = .free ∧ ∃ t, c = .inl t ∧ (s.place t = .handling true ∨ s.place t = .handling false)

def Stands (s : Loop θ ε) (t : θ) (p : Place) : Prop := s.place t = p ∧ s.call (.inl t) = .free

instance (s : Loop θ ε) (c : θ ⊕ ε) : Decidable (s.Codes c) :=
  match c with
  | .inl t => decidable_of_iff (s.call (.inl t) = .free ∧ (s.workers.pc t).runs ≠ none) (by simp [Codes])
  | .inr e => decidable_of_iff (s.call (.inr e) = .free) (by simp [Codes])

instance (s : Loop θ ε) (c : θ ⊕ ε) : Decidable (s.Handles c) :=
  match c with
  | .inl t => decidable_of_iff
      (s.call (.inl t) = .free ∧ (s.place t = .handling true ∨ s.place t = .handling false))
      (by simp [Handles])
  | .inr e => isFalse (by simp [Handles])

instance (s : Loop θ ε) (t : θ) (p : Place) : Decidable (s.Stands t p) :=
  inferInstanceAs (Decidable (_ ∧ _))

variable [DecidableEq θ] [DecidableEq ε]

def new : Loop θ ε where
  workers := .new
  place := fun _ => .top
  ended := fun _ => false
  call := fun _ => .free
  idlethreadcount := 0
  activethreadcount := 0
  pipe := 0
  timers := 0
  events := 0
  firing := 0
  stopping := false

def enter (s : Loop θ ε) (t : θ) (p : Place) : Loop θ ε :=
  { s with place := Function.update s.place t p }

def proceed (s : Loop θ ε) (c : θ ⊕ ε) (k : Call) : Loop θ ε :=
  { s with call := Function.update s.call c k }

/-- The end of `schedule`'s locked part, with `need_tickle` if `m_fibers` was empty before. -/
def accept (s : Loop θ ε) (c : θ ⊕ ε) (w : Workers θ) (fired : Bool) : Loop θ ε :=
  { s with workers := w }.proceed c
    (if s.workers.fibers = [] ∧ w.fibers ≠ [] then .tickle fired else .after fired)

/-- The scan of `run` passes another thread's entry. -/
def tickleMe (s : Loop θ ε) (t : θ) : Bool :=
  (s.workers.fibers.takeWhile fun ft => !s.workers.takes t ft).any fun ft =>
    ft.threadid.isSome && ft.threadid != some t

/-- The end of the scan. -/
def scanned (s : Loop θ ε) (t : θ) (p : Place) : Loop θ ε :=
  (s.enter t p).proceed (.inl t) (if s.tickleMe t then .tickle false else .free)

/-- `schedule(cbs.begin(), cbs.end())`. -/
def pushAll (w : Workers θ) (cbs : Nat) : Workers θ :=
  { w with fibers := w.fibers ++ List.replicate cbs ⟨.cb, none⟩ }

def step (s : Loop θ ε) : Move θ ε → Option (Loop θ ε)
  | .schedule c fc =>
      if s.Codes c then (s.workers.step fc.action).map (s.accept c · false) else none
  | .fire c fc =>
      if (s.Codes c ∨ s.Handles c) ∧ 0 < s.events then
        (s.workers.step fc.action).map fun w =>
          { s with events := s.events - 1, firing := s.firing + 1 }.accept c w true
      else none
  | .notify c => if s.Codes c then some (s.proceed c (.tickle false)) else none
  | .tickle c =>
      match s.call c with
      | .tickle fired =>
          some (s.proceed c (if 0 < s.idlethreadcount then .write fired else .after fired))
      | _ => none
  | .write c =>
      match s.call c with
      | .write fired => some ({ s with pipe := s.pipe + 1 }.proceed c (.after fired))
      | _ => none
  | .settle c =>
      if s.call c = .settle then some ({ s with firing := s.firing - 1 }.proceed c .free) else none
  | .addTimer c => if s.Codes c then some { s with timers := s.timers + 1 } else none
  | .cancelTimer c =>
      if s.Codes c ∧ 0 < s.timers then some { s with timers := s.timers - 1 } else none
  | .addEvent c => if s.Codes c then some { s with events := s.events + 1 } else none
  | .delEvent c =>
      if s.Codes c ∧ 0 < s.events then some { s with events := s.events - 1 } else none
  | .pop t =>
      if s.Stands t .top then
        (s.workers.step (.pop t)).map fun w =>
          { s.scanned t .busy with workers := w, activethreadcount := s.activethreadcount + 1 }
      else none
  | .scanEmpty t =>
      if s.Stands t .top ∧ s.workers.fibers.find? (s.workers.takes t) = none then some (s.scanned t .gap)
      else none
  | .turn t a =>
      if s.Stands t .busy then
        (s.workers.step (a.action t)).map fun w =>
          { s with workers := w }.enter t (if w.pc t = Pc.loop then .dropped else .busy)
      else none
  | .discard t =>
      if s.Stands t .dropped then
        some ({ s with activethreadcount := s.activethreadcount - 1 }.enter t .top)
      else none
  | .release t =>
      match s.workers.pc t with
      | .returned _ _ =>
          if s.Stands t .busy then
            some ({ s with activethreadcount := s.activethreadcount - 1 }.enter t .settled)
          else none
      | _ => none
  | .update t =>
      if s.Stands t .settled then
        (s.workers.step (.update t)).map fun w => (s.accept (.inl t) w false).enter t .top
      else none
  | .enterIdle t =>
      -- past the test for the idle fiber's `TERM`
      if s.Stands t .gap ∧ s.ended t = false then
        some ({ s with idlethreadcount := s.idlethreadcount + 1 }.enter t .entered)
      else none
  | .getNextTimer t =>
      if s.Stands t .entered then some (s.enter t (if s.timers = 0 then .timed else .waiting)) else none
  | .readPending t =>
      if s.Stands t .timed then some (s.enter t (if s.pendingEventCount = 0 then .counted else .waiting))
      else none
  | .checkQueue t =>
      if s.Stands t .counted then
        if s.stopping ∧ s.workers.fibers = [] ∧ s.activethreadcount = 0 then
          some ({ s with ended := Function.update s.ended t true }.enter t .back)
        else some (s.enter t .waiting)
      else none
  | .wake t tickled =>
      if s.Stands t .waiting ∧ (tickled → 0 < s.pipe) then some (s.enter t (.woken tickled)) else none
  | .listExpiredCb t expired recurring =>
      match s.place t with
      | .woken tickled =>
          if s.call (.inl t) = .free ∧ expired ≤ s.timers ∧ recurring ≤ expired then
            some ({ s with timers := s.timers - expired + recurring }.enter t (.listed tickled expired))
          else none
      | _ => none
  | .scheduleExpired t =>
      match s.place t with
      | .listed tickled cbs =>
          if s.call (.inl t) = .free then
            some ((s.accept (.inl t) (pushAll s.workers cbs) false).enter t (.handling tickled))
          else none
      | _ => none
  | .drain t =>
      if s.Stands t (.handling true) then some ({ s with pipe := 0 }.enter t (.handling false)) else none
  | .idleSwapOut t => if s.Stands t (.handling false) then some (s.enter t .back) else none
  | .leaveIdle t =>
      if s.Stands t .back then
        some ({ s with idlethreadcount := s.idlethreadcount - 1 }.enter t .top)
      else none
  | .exit t => if s.Stands t .gap ∧ s.ended t = true then some (s.enter t .exited) else none
  | .stop => some { s with stopping := true }

end Loop
end HCServer.Scheduler
