import HCServer.Lib.OrderedSet
import Mathlib.Logic.Function.Basic
import Mathlib.Tactic.NormNum

/-! `TimerManager` and the calls that any number of threads make on it. A critical section under
`m_mutex` is one step; what a call does before it takes the lock and after it lets it go are steps of
their own. Pointers to timers are numbers in the order in which the timers were built. -/
namespace HCServer.Timers
open Lib

/-- Addition and subtraction of `uint64_t`. -/
def add64 (a b : Nat) : Nat := (a + b) % 2 ^ 64

def sub64 (a b : Nat) : Nat := (a + 2 ^ 64 - b) % 2 ^ 64

/-- `addr` is where the timer lies in memory. -/
structure Timer (κ : Type) where
  recurring : Bool
  ms : Nat
  next : Nat
  cb : Option κ
  addr : Nat
  deriving DecidableEq, Repr

/-- The comparator, for two pointers that are not null. -/
def Timer.before {κ : Type} (lhs rhs : Timer κ) : Prop :=
  lhs.next < rhs.next ∨ lhs.next = rhs.next ∧ lhs.addr < rhs.addr

instance {κ : Type} (lhs rhs : Timer κ) : Decidable (lhs.before rhs) :=
  inferInstanceAs (Decidable (_ ∨ _))

/-- `heap` holds the timers that have been built, `timers` is the set `m_timers` in its order. -/
structure TimerManager (κ : Type) where
  heap : Nat → Timer κ
  timers : List Nat
  tickled : Bool
  previousTime : Nat

namespace TimerManager
variable {κ : Type} (m : TimerManager κ)

def before (x y : Nat) : Prop := (m.heap x).before (m.heap y)

instance : DecidableRel m.before := fun x _ => inferInstanceAs (Decidable ((m.heap x).before _))

def setTimer (id : Nat) (t : Timer κ) : TimerManager κ :=
  { m with heap := Function.update m.heap id t }

def find (id : Nat) : Option Nat := OrderedSet.find m.before id m.timers

def erase (it : Nat) : TimerManager κ := { m with timers := m.timers.erase it }

def insert (id : Nat) : TimerManager κ := { m with timers := OrderedSet.insert m.before id m.timers }

/-- `IsaddTimer` up to its unlock, with `at_front`. -/
def isaddTimer (id : Nat) : TimerManager κ × Bool :=
  let at_front := decide (OrderedSet.below m.before id m.timers = []) && !m.tickled
  ({ m.insert id with tickled := m.tickled || at_front }, at_front)

/-- `none` is `erase(end())`. -/
def cancel (id : Nat) : Option (TimerManager κ × Bool) :=
  if (m.heap id).cb.isSome then
    let m := m.setTimer id { m.heap id with cb := none }
    (m.find id).map fun it => (m.erase it, true)
  else some (m, false)

def refresh (id now : Nat) : TimerManager κ × Bool :=
  if (m.heap id).cb.isNone then (m, false)
  else
    match m.find id with
    | none => (m, false)
    | some it =>
      let m := m.erase it
      ((m.setTimer id { m.heap id with next := add64 now (m.heap id).ms }).insert id, true)

/-- From the lock on: the return value and `at_front`. -/
def reset (id ms : Nat) (from_now : Bool) (now : Nat) : TimerManager κ × Bool × Bool :=
  if (m.heap id).cb.isNone then (m, false, false)
  else
    match m.find id with
    | none => (m, false, false)
    | some it =>
      let m := m.erase it
      let start := if from_now then now else sub64 (m.heap id).next (m.heap id).ms
      let r := (m.setTimer id { m.heap id with ms, next := add64 start ms }).isaddTimer id
      (r.1, true, r.2)

/-- `~0ull` for an empty set. -/
def getNextTimer (now : Nat) : TimerManager κ × Nat :=
  ({ m with tickled := false }, match m.timers with
    | [] => 2 ^ 64 - 1
    | id :: _ => if now ≥ (m.heap id).next then 0 else (m.heap id).next - now)

def detectClockRollover (now_ms : Nat) : Bool :=
  decide (now_ms < m.previousTime) && decide (now_ms < sub64 m.previousTime (60 * 60 * 1000))

/-- The body of the last loop of `listExpiredCb`, after the callback has been copied. -/
def expire (now_ms id : Nat) : TimerManager κ :=
  let t := m.heap id
  if t.recurring then (m.setTimer id { t with next := add64 now_ms t.ms }).insert id
  else m.setTimer id { t with cb := none }

/-- The loop, with the callbacks that it collects and the timers that they come from. -/
def expireLoop (now_ms : Nat) : List Nat → TimerManager κ → TimerManager κ × List (Nat × Option κ)
  | [], m => (m, [])
  | id :: expireds, m =>
    let r := expireLoop now_ms expireds (m.expire now_ms id)
    (r.1, (id, (m.heap id).cb) :: r.2)

/-- The part before and the part from `it` on. `now_timer` lies at `addr`. -/
def splitExpired (now_ms addr : Nat) : List Nat × List Nat :=
  let now_timer : Timer κ := ⟨false, 0, now_ms, none, addr⟩
  let lower := m.timers.dropWhile fun id => decide ((m.heap id).before now_timer)
  ((m.timers.takeWhile fun id => decide ((m.heap id).before now_timer)) ++
      lower.takeWhile fun id => decide ((m.heap id).next = now_ms),
    lower.dropWhile fun id => decide ((m.heap id).next = now_ms))

/-- `listExpiredCb` from its write lock on. -/
def listExpiredCb (now_ms addr : Nat) : TimerManager κ × List (Nat × Option κ) :=
  let rollover := m.detectClockRollover now_ms
  let m := { m with previousTime := now_ms }
  if !rollover && m.timers.head?.any (fun id => decide ((m.heap id).next > now_ms)) then (m, [])
  else
    let parts := if rollover then (m.timers, []) else m.splitExpired now_ms addr
    expireLoop now_ms parts.1 { m with timers := parts.2 }

end TimerManager

inductive Event
  | collected (id : Nat)
  | cancelled (id : Nat)
  deriving DecidableEq, Repr

/-- The manager and the calls on their way: timers built and still to be inserted, clock values that
calls of `listExpiredCb` have read, calls of `onTimerInsertedAtFront` that are to come. `seen` is the
front that the last `getNextTimer` saw, `clock` the last reading, `log` what has become of callbacks. -/
structure System (κ : Type) where
  manager : TimerManager κ
  size : Nat
  adding : List Nat
  reading : List Nat
  notices : Nat
  seen : Option Nat
  clock : Nat
  log : List Event

/-- `reset` is the call behind its first test, which returns at once or does nothing. -/
inductive Action (κ : Type)
  | construct (ms : Nat) (cb : κ) (recurring : Bool) (addr now : Nat)
  | addTimer (id : Nat)
  | cancel (id : Nat)
  | refresh (id now : Nat)
  | reset (id ms : Nat) (from_now : Bool) (now : Nat)
  | readClock (now : Nat)
  | leave (i : Nat)
  | listExpiredCb (i addr : Nat)
  | getNextTimer (now : Nat)
  | onTimerInsertedAtFront

namespace System
variable {κ : Type}

def new (now : Nat) : System κ :=
  ⟨⟨fun _ => ⟨false, 0, 0, none, 0⟩, [], false, now⟩, 0, [], [], 0, none, now, []⟩

/-- `addTimer` has put the timer into the set; its pointer is in the caller's hands. -/
def Returned (s : System κ) (id : Nat) : Prop := id < s.size ∧ id ∉ s.adding

instance (s : System κ) (id : Nat) : Decidable (s.Returned id) :=
  inferInstanceAs (Decidable (_ ∧ _))

/-- Memory that no timer in use occupies. -/
def Free (s : System κ) (addr : Nat) : Prop :=
  ∀ id ∈ s.manager.timers ++ s.adding, (s.manager.heap id).addr ≠ addr

instance (s : System κ) (addr : Nat) : Decidable (s.Free addr) :=
  inferInstanceAs (Decidable (∀ _ ∈ _, _))

def notify (s : System κ) (at_front : Bool) : System κ :=
  { s with notices := s.notices + at_front.toNat }

/-- One step; `erase(end())` ends the run. -/
def step (s : System κ) : Action κ → Option (System κ)
  | .construct ms cb recurring addr now =>
      if s.Free addr then
        some { s with
          manager := s.manager.setTimer s.size ⟨recurring, ms, add64 now ms, some cb, addr⟩
          size := s.size + 1
          adding := s.size :: s.adding
          clock := now }
      else none
  | .addTimer id =>
      if id ∈ s.adding then
        let r := s.manager.isaddTimer id
        some ({ s with manager := r.1, adding := s.adding.erase id }.notify r.2)
      else none
  | .cancel id =>
      if s.Returned id then
        (s.manager.cancel id).map fun r =>
          { s with manager := r.1, log := s.log ++ if r.2 then [.cancelled id] else [] }
      else none
  | .refresh id now =>
      if s.Returned id then some { s with manager := (s.manager.refresh id now).1, clock := now }
      else none
  | .reset id ms from_now now =>
      if s.Returned id then
        let r := s.manager.reset id ms from_now now
        some ({ s with manager := r.1, clock := now }.notify r.2.2)
      else none
  | .readClock now => some { s with reading := now :: s.reading, clock := now }
  | .leave i => if s.manager.timers = [] then some { s with reading := s.reading.eraseIdx i } else none
  | .listExpiredCb i addr => do
      let now ← s.reading[i]?
      if s.manager.timers ≠ [] ∧ s.Free addr then
        let r := s.manager.listExpiredCb now addr
        some { s with
          manager := r.1
          reading := s.reading.eraseIdx i
          log := s.log ++ r.2.map fun c => .collected c.1 }
      else none
  | .getNextTimer now =>
      some { s with
        manager := (s.manager.getNextTimer now).1
        seen := s.manager.timers.head?.map fun id => (s.manager.heap id).next
        clock := now }
  | .onTimerInsertedAtFront =>
      if 0 < s.notices then some { s with notices := s.notices - 1 } else none

end System
end HCServer.Timers
