import HCServer.Lib.Transition
import Mathlib.Data.List.Range

/-! The threads of a `Scheduler`: `start` makes them with its mutex in hand, each `Thread` constructor waits
for a semaphore that the new thread posts before it goes into `run`, and `stop` joins them. One thread
calls `start` and `stop`; the workers and other threads take the mutex in between. -/
namespace HCServer.Scheduler.Start
open Lib

/-- Where a thread is in `Thread::run`: past the store of `m_id`, the swap of `m_cb` and `notify`, and
in the callback without or with the scheduler's mutex. -/
inductive Stage
  | created
  | named
  | taken
  | notified
  | working
  | locked
  | ended
  deriving DecidableEq, Repr

def Stage.begun : Stage → Bool
  | .working | .locked | .ended => true
  | _ => false

def Stage.posted : Stage → Bool
  | .notified => true
  | s => s.begun

/-- A `Thread` and its thread; `tid` is the kernel's id, `m_cb` whether the object has its callback. -/
structure Thread where
  tid : Nat
  m_id : Int
  m_cb : Bool
  m_semaphore : Nat
  stage : Stage
  calls : Nat
  destroyed : Bool
  deriving DecidableEq, Repr

namespace Thread

def new (tid : Nat) : Thread := ⟨tid, -1, true, 0, .created, 0, false⟩

/-- `Thread::run` up to the call of the callback. -/
def run (t : Thread) : Option Thread :=
  match t.stage with
  | .created => some { t with m_id := t.tid, stage := .named }
  | .named => some { t with m_cb := false, stage := .taken }
  | .taken => some { t with m_semaphore := t.m_semaphore + 1, stage := .notified }
  | .notified => some { t with calls := t.calls + 1, stage := .working }
  | _ => none

end Thread

inductive Holder
  | starter
  | worker (n : Nat)
  | other
  deriving DecidableEq, Repr

/-- Where the caller is: outside, in `start` with so many threads made or waiting in the constructor of
the next one, or in `stop` before and behind the swap of `m_threads`. -/
inductive Pc
  | outside
  | creating (i : Nat)
  | waiting (i : Nat)
  | stopping
  | joining (thrs : List (Option Nat)) (k : Nat)
  | aborted
  deriving DecidableEq, Repr

def Pc.isWaiting : Pc → Bool
  | .waiting _ => true
  | _ => false

def Pc.isStarting : Pc → Bool
  | .creating _ | .waiting _ => true
  | _ => false

/-- `made` are the `Thread` objects in the order of their construction; a pointer to one is its place.
`failed` records that a `pthread_create` has failed. -/
structure Pool where
  m_stopping : Bool
  mutex : Option Holder
  m_threads : List (Option Nat)
  m_threadIds : List Int
  made : List Thread
  pc : Pc
  failed : Bool
  deriving DecidableEq, Repr

inductive Action
  | start
  | create (tid : Nat)
  | createFails
  | wait
  | unlock
  | stop (early : Bool)
  | swap
  | join
  | leave
  | run (n : Nat)
  | lockWorker (n : Nat)
  | unlockWorker (n : Nat)
  | finish (n : Nat)
  | lockOther
  | unlockOther
  deriving DecidableEq, Repr

/-- A step of `start` or of a thread up to its callback; none of them takes the mutex. -/
def Action.isStart : Action → Bool
  | .create _ | .wait | .unlock | .run _ => true
  | _ => false

namespace Pool

/-- After the constructor, with the caller's thread among the workers or not. -/
def new (root : Option Nat) : Pool where
  m_stopping := true
  mutex := none
  m_threads := []
  m_threadIds := (root.map Int.ofNat).toList
  made := []
  pc := .outside
  failed := false

def setThread (s : Pool) (n : Nat) (t : Thread) : Pool := { s with made := s.made.set n t }

/-- When the constructor of the `n`-th thread has returned: `m_threads[i]` and the id. -/
def constructed (s : Pool) (i n : Nat) (t : Thread) : Pool :=
  { s.setThread n { t with m_semaphore := t.m_semaphore - 1 } with
    m_threads := s.m_threads.set i (some n)
    m_threadIds := s.m_threadIds ++ [t.m_id]
    pc := .creating (i + 1) }

/-- The end of `thrs`, which holds the last pointers to the threads. -/
def destroy (made : List Thread) (thrs : List (Option Nat)) : List Thread :=
  made.mapIdx fun n t => if some n ∈ thrs then { t with destroyed := true } else t

/-- One step. `stop` returns early where the caller's thread is the only worker; an assertion that fails
and a null pointer abort the process. -/
def step (root : Option Nat) (count : Nat) (s : Pool) : Action → Option Pool
  | .start =>
      if s.pc ≠ .outside ∨ s.mutex ≠ none then none
      else if s.m_stopping = false then some s
      else if s.m_threads ≠ [] then some { s with pc := .aborted }
      else some { s with
        m_stopping := false
        mutex := some .starter
        m_threads := List.replicate count none
        pc := .creating 0 }
  | .create tid =>
      match s.pc with
      | .creating i =>
          if i < count then some { s with made := s.made ++ [Thread.new tid], pc := .waiting i } else none
      | _ => none
  | .createFails =>
      match s.pc with
      | .creating i =>
          if i < count then some { s with mutex := none, pc := .outside, failed := true } else none
      | _ => none
  | .wait =>
      match s.pc with
      | .waiting i => do
          let n := s.made.length - 1
          let t ← s.made[n]?
          if t.m_semaphore = 0 then none
          else some (s.constructed i n t)
      | _ => none
  | .unlock =>
      match s.pc with
      | .creating i => if i < count then none else some { s with mutex := none, pc := .outside }
      | _ => none
  | .stop early =>
      if s.pc ≠ .outside then none
      else if early = false then some { s with m_stopping := true, pc := .stopping }
      else if root.isSome ∧ count = 0 then some { s with m_stopping := true } else none
  | .swap =>
      if s.pc = .stopping ∧ s.mutex = none then
        some { s with m_threads := [], pc := .joining s.m_threads 0 }
      else none
  | .join =>
      match s.pc with
      | .joining thrs k =>
          match thrs[k]? with
          | none => none
          | some none => some { s with pc := .aborted }
          | some (some n) => do
              let t ← s.made[n]?
              if t.stage = .ended then some { s with pc := .joining thrs (k + 1) } else none
      | _ => none
  | .leave =>
      match s.pc with
      | .joining thrs k =>
          if k < thrs.length then none else some { s with made := destroy s.made thrs, pc := .outside }
      | _ => none
  | .run n => do
      let t ← s.made[n]?
      let t' ← t.run
      some (s.setThread n t')
  | .lockWorker n => do
      let t ← s.made[n]?
      if t.stage = .working ∧ s.mutex = none then
        some { s.setThread n { t with stage := .locked } with mutex := some (.worker n) }
      else none
  | .unlockWorker n => do
      let t ← s.made[n]?
      if t.stage = .locked then some { s.setThread n { t with stage := .working } with mutex := none }
      else none
  | .finish n => do
      let t ← s.made[n]?
      if t.stage = .working then some (s.setThread n { t with stage := .ended }) else none
  | .lockOther => if s.mutex = none then some { s with mutex := some .other } else none
  | .unlockOther => if s.mutex = some .other then some { s with mutex := none } else none

/-- A step of the `n`-th thread: the thread before and after it, and the mutex. -/
inductive Moves (mutex : Option Holder) (n : Nat) : Action → Thread → Thread → Option Holder → Prop
  | run {t t'} (hrun : t.run = some t') : Moves mutex n (.run n) t t' mutex
  | lock {t} (hstage : t.stage = .working) (hfree : mutex = none) :
      Moves mutex n (.lockWorker n) t { t with stage := .locked } (some (.worker n))
  | unlock {t} (hstage : t.stage = .locked) :
      Moves mutex n (.unlockWorker n) t { t with stage := .working } none
  | finish {t} (hstage : t.stage = .working) : Moves mutex n (.finish n) t { t with stage := .ended } mutex

/-- What each step does and what has let it happen. -/
inductive Rule (root : Option Nat) (count : Nat) (s : Pool) : Action → Pool → Prop
  | running (hpc : s.pc = .outside) (hrun : s.m_stopping = false) : Rule root count s .start s
  | asserted (hpc : s.pc = .outside) (hstop : s.m_stopping = true) (hthreads : s.m_threads ≠ []) :
      Rule root count s .start { s with pc := .aborted }
  | start (hpc : s.pc = .outside) (hstop : s.m_stopping = true) (hthreads : s.m_threads = [])
      (hfree : s.mutex = none) : Rule root count s .start { s with
        m_stopping := false
        mutex := some .starter
        m_threads := List.replicate count none
        pc := .creating 0 }
  | create {i tid} (hpc : s.pc = .creating i) (hi : i < count) :
      Rule root count s (.create tid) { s with made := s.made ++ [Thread.new tid], pc := .waiting i }
  | createFails {i} (hpc : s.pc = .creating i) (hi : i < count) :
      Rule root count s .createFails { s with mutex := none, pc := .outside, failed := true }
  | wait {i n t} (hpc : s.pc = .waiting i) (hlast : n + 1 = s.made.length) (hn : s.made[n]? = some t)
      (hposted : t.m_semaphore ≠ 0) :
      Rule root count s .wait (s.constructed i n t)
  | unlock {i} (hpc : s.pc = .creating i) (hi : ¬ i < count) :
      Rule root count s .unlock { s with mutex := none, pc := .outside }
  | stop (hpc : s.pc = .outside) :
      Rule root count s (.stop false) { s with m_stopping := true, pc := .stopping }
  | stopEarly (hpc : s.pc = .outside) (hroot : root.isSome ∧ count = 0) :
      Rule root count s (.stop true) { s with m_stopping := true }
  | swap (hpc : s.pc = .stopping) :
      Rule root count s .swap { s with m_threads := [], pc := .joining s.m_threads 0 }
  | null {thrs k} (hpc : s.pc = .joining thrs k) (hk : thrs[k]? = some none) :
      Rule root count s .join { s with pc := .aborted }
  | join {thrs k n t} (hpc : s.pc = .joining thrs k) (hk : thrs[k]? = some (some n))
      (hn : s.made[n]? = some t) (hended : t.stage = .ended) :
      Rule root count s .join { s with pc := .joining thrs (k + 1) }
  | leave {thrs k} (hpc : s.pc = .joining thrs k) (hk : ¬ k < thrs.length) :
      Rule root count s .leave { s with made := destroy s.made thrs, pc := .outside }
  | worker {n a t t' mutex} (hn : s.made[n]? = some t) (hmoves : Moves s.mutex n a t t' mutex) :
      Rule root count s a { s.setThread n t' with mutex := mutex }
  | lockOther (hfree : s.mutex = none) : Rule root count s .lockOther { s with mutex := some .other }
  | unlockOther (hheld : s.mutex = some .other) : Rule root count s .unlockOther { s with mutex := none }

variable {root : Option Nat} {count : Nat} {s s' : Pool} {a : Action}

theorem step_rule (hs : s.step root count a = some s') : Rule root count s a s' := by
  cases a with
  | start =>
      simp only [step] at hs
      split at hs
      · cases hs
      · rename_i hready
        obtain ⟨hpc, hfree⟩ := not_or.mp hready
        split at hs
        · rename_i hrun
          cases hs
          exact .running (Decidable.not_not.mp hpc) hrun
        · rename_i hstop
          split at hs
          · rename_i hthreads
            cases hs
            exact .asserted (Decidable.not_not.mp hpc) (eq_true_of_ne_false hstop) hthreads
          · rename_i hthreads
            cases hs
            exact .start (Decidable.not_not.mp hpc) (eq_true_of_ne_false hstop)
              (Decidable.not_not.mp hthreads) (Decidable.not_not.mp hfree)
  | create tid =>
      simp only [step] at hs
      split at hs
      case h_1 i hpc =>
        simp only [Option.ite_none_right_eq_some, Option.some.injEq] at hs
        obtain ⟨hi, rfl⟩ := hs
        exact .create hpc hi
      case h_2 => cases hs
  | createFails =>
      simp only [step] at hs
      split at hs
      case h_1 i hpc =>
        simp only [Option.ite_none_right_eq_some, Option.some.injEq] at hs
        obtain ⟨hi, rfl⟩ := hs
        exact .createFails hpc hi
      case h_2 => cases hs
  | wait =>
      simp only [step] at hs
      split at hs
      case h_1 i hpc =>
        obtain ⟨t, hn, hs⟩ := Option.bind_eq_some_iff.mp hs
        split at hs
        · cases hs
        · rename_i hposted
          cases hs
          have hlen := (List.getElem?_eq_some_iff.mp hn).1
          exact .wait hpc (by omega) hn hposted
      case h_2 => cases hs
  | unlock =>
      simp only [step] at hs
      split at hs
      case h_1 i hpc =>
        simp only [Option.ite_none_left_eq_some, Option.some.injEq] at hs
        obtain ⟨hi, rfl⟩ := hs
        exact .unlock hpc hi
      case h_2 => cases hs
  | stop early =>
      simp only [step, Option.ite_none_left_eq_some] at hs
      obtain ⟨hpc, hs⟩ := hs
      have hpc := Decidable.not_not.mp hpc
      cases early with
      | false =>
          cases hs
          exact .stop hpc
      | true =>
          simp only [Bool.true_eq_false, if_false, Option.ite_none_right_eq_some, Option.some.injEq] at hs
          obtain ⟨hroot, rfl⟩ := hs
          exact .stopEarly hpc hroot
  | swap =>
      simp only [step, Option.ite_none_right_eq_some, Option.some.injEq] at hs
      obtain ⟨⟨hpc, -⟩, rfl⟩ := hs
      exact .swap hpc
  | join =>
      simp only [step] at hs
      split at hs
      case h_1 thrs k hpc =>
        split at hs
        case h_1 => cases hs
        case h_2 hk =>
          cases hs
          exact .null hpc hk
        case h_3 n hk =>
          obtain ⟨t, hn, hs⟩ := Option.bind_eq_some_iff.mp hs
          simp only [Option.ite_none_right_eq_some, Option.some.injEq] at hs
          obtain ⟨hended, rfl⟩ := hs
          exact .join hpc hk hn hended
      case h_2 => cases hs
  | leave =>
      simp only [step] at hs
      split at hs
      case h_1 thrs k hpc =>
        simp only [Option.ite_none_left_eq_some, Option.some.injEq] at hs
        obtain ⟨hk, rfl⟩ := hs
        exact .leave hpc hk
      case h_2 => cases hs
  | run n =>
      obtain ⟨t, hn, hs⟩ := Option.bind_eq_some_iff.mp hs
      obtain ⟨t', hrun, hs⟩ := Option.bind_eq_some_iff.mp hs
      cases hs
      exact .worker hn (.run hrun)
  | lockWorker n =>
      obtain ⟨t, hn, hs⟩ := Option.bind_eq_some_iff.mp hs
      simp only [Option.ite_none_right_eq_some, Option.some.injEq] at hs
      obtain ⟨⟨hstage, hfree⟩, rfl⟩ := hs
      exact .worker hn (.lock hstage hfree)
  | unlockWorker n =>
      obtain ⟨t, hn, hs⟩ := Option.bind_eq_some_iff.mp hs
      simp only [Option.ite_none_right_eq_some, Option.some.injEq] at hs
      obtain ⟨hstage, rfl⟩ := hs
      exact .worker hn (.unlock hstage)
  | finish n =>
      obtain ⟨t, hn, hs⟩ := Option.bind_eq_some_iff.mp hs
      simp only [Option.ite_none_right_eq_some, Option.some.injEq] at hs
      obtain ⟨hstage, rfl⟩ := hs
      exact .worker hn (.finish hstage)
  | lockOther =>
      simp only [step, Option.ite_none_right_eq_some, Option.some.injEq] at hs
      obtain ⟨hfree, rfl⟩ := hs
      exact .lockOther hfree
  | unlockOther =>
      simp only [step, Option.ite_none_right_eq_some, Option.some.injEq] at hs
      obtain ⟨hheld, rfl⟩ := hs
      exact .unlockOther hheld

end Pool

namespace Thread

/-- What holds of a thread by itself. -/
structure Sound (t : Thread) : Prop where
  id : t.m_id = if t.stage = .created then -1 else (t.tid : Int)
  calls : t.calls = if t.stage.begun then 1 else 0
  cb : t.m_cb = true ↔ t.stage = .created ∨ t.stage = .named

variable {mutex mutex' : Option Holder} {n : Nat} {a : Action} {t t' : Thread}

theorem sound_new (tid : Nat) : Sound (new tid) := ⟨rfl, rfl, by simp [new]⟩

theorem run_cases (h : t.run = some t') :
    t.stage = .created ∧ t' = { t with m_id := t.tid, stage := .named } ∨
    t.stage = .named ∧ t' = { t with m_cb := false, stage := .taken } ∨
    t.stage = .taken ∧ t' = { t with m_semaphore := t.m_semaphore + 1, stage := .notified } ∨
    t.stage = .notified ∧ t' = { t with calls := t.calls + 1, stage := .working } := by
  unfold run at h
  split at h
  case h_1 hstage => exact Or.inl ⟨hstage, (Option.some.inj h).symm⟩
  case h_2 hstage => exact Or.inr (Or.inl ⟨hstage, (Option.some.inj h).symm⟩)
  case h_3 hstage => exact Or.inr (Or.inr (Or.inl ⟨hstage, (Option.some.inj h).symm⟩))
  case h_4 hstage => exact Or.inr (Or.inr (Or.inr ⟨hstage, (Option.some.inj h).symm⟩))
  case h_5 => cases h

theorem Sound.moves (h : Sound t) (hmoves : Pool.Moves mutex n a t t' mutex') : Sound t' := by
  obtain ⟨hid, hcalls, hcb⟩ := h
  cases hmoves with
  | run hrun =>
      rcases run_cases hrun with ⟨hstage, rfl⟩ | ⟨hstage, rfl⟩ | ⟨hstage, rfl⟩ | ⟨hstage, rfl⟩ <;>
        rw [hstage] at hid hcalls hcb
      · exact ⟨rfl, hcalls, by simpa using hcb⟩
      · exact ⟨hid, hcalls, by simp⟩
      · exact ⟨hid, hcalls, by simpa using hcb⟩
      · exact ⟨hid, congrArg (· + 1) hcalls, by simpa using hcb⟩
  | lock hstage hfree =>
      rw [hstage] at hid hcalls hcb
      exact ⟨hid, hcalls, by simpa using hcb⟩
  | unlock hstage =>
      rw [hstage] at hid hcalls hcb
      exact ⟨hid, hcalls, by simpa using hcb⟩
  | finish hstage =>
      rw [hstage] at hid hcalls hcb
      exact ⟨hid, hcalls, by simpa using hcb⟩

/-- What a thread's step leaves alone, and its only `notify`. -/
structure Frame (mutex mutex' : Option Holder) (t t' : Thread) : Prop where
  tid : t'.tid = t.tid
  destroyed : t'.destroyed = t.destroyed
  going : t.stage ≠ .ended
  posted : t.stage.posted = true → t'.stage.posted = true
  semaphore : t'.m_semaphore + t.stage.posted.toNat = t.m_semaphore + t'.stage.posted.toNat
  mutex : mutex' = some .starter ↔ mutex = some .starter

theorem frame_moves (hmoves : Pool.Moves mutex n a t t' mutex')
    (hlocked : t.stage = .locked → mutex = some (.worker n)) : Frame mutex mutex' t t' := by
  cases hmoves with
  | run hrun =>
      rcases run_cases hrun with ⟨hstage, rfl⟩ | ⟨hstage, rfl⟩ | ⟨hstage, rfl⟩ | ⟨hstage, rfl⟩ <;>
        constructor <;> simp [hstage, Stage.posted, Stage.begun]
  | lock hstage hfree => constructor <;> simp [hstage, hfree, Stage.posted, Stage.begun]
  | unlock hstage => constructor <;> simp [hstage, hlocked hstage, Stage.posted, Stage.begun]
  | finish hstage => constructor <;> simp [hstage, Stage.posted, Stage.begun]

end Thread

namespace Pool

/-- In the constructor of the thread that was made last. -/
def Waits (s : Pool) (n : Nat) : Prop := s.pc.isWaiting = true ∧ n + 1 = s.made.length

/-- The constructors that have returned. -/
def built (s : Pool) : Nat := s.made.length - s.pc.isWaiting.toNat

structure Kept (root : Option Nat) (s : Pool) : Prop where
  sound : ∀ (n : Nat) (t : Thread), s.made[n]? = some t → t.Sound
  waited : ∀ (n : Nat) (t : Thread), s.made[n]? = some t → s.Waits n → t.m_semaphore = t.stage.posted.toNat
  returned : ∀ (n : Nat) (t : Thread), s.made[n]? = some t → ¬ s.Waits n → t.m_semaphore = 0 ∧ t.stage.posted = true
  ids : s.m_threadIds = (root.map Int.ofNat).toList ++ ((s.made.map Thread.tid).take s.built).map Int.ofNat
  mutex : s.mutex = some .starter ↔ s.pc.isStarting = true
  locked : ∀ (n : Nat) (t : Thread), s.made[n]? = some t → t.stage = .locked → s.mutex = some (.worker n)
  joined : ∀ thrs k, s.pc = .joining thrs k → ∀ j < k, ∀ n, thrs[j]? = some (some n) →
    ∀ t : Thread, s.made[n]? = some t → t.stage = .ended
  destroyed : ∀ (n : Nat) (t : Thread), s.made[n]? = some t → t.destroyed = true → t.stage = .ended
  nonempty : s.pc.isWaiting = true → s.made ≠ []

variable {root : Option Nat} {count : Nat} {s s' : Pool} {a : Action}

theorem new_kept (root : Option Nat) : Kept root (new root) where
  sound n t ht := by cases ht
  waited n t ht := by cases ht
  returned n t ht := by cases ht
  ids := by simp [new]
  mutex := by simp [new, Pc.isStarting]
  locked n t ht := by cases ht
  joined thrs k hpc := by cases hpc
  destroyed n t ht := by cases ht
  nonempty hw := by cases hw

theorem getElem?_setThread {n m : Nat} {t u : Thread} (h : (s.setThread n t).made[m]? = some u) :
    m = n ∧ u = t ∨ m ≠ n ∧ s.made[m]? = some u := by
  rw [setThread, List.getElem?_set] at h
  split at h
  · rename_i hsame
    split at h
    · exact Or.inl ⟨hsame.symm, (Option.some.inj h).symm⟩
    · cases h
  · rename_i hother
    exact Or.inr ⟨fun he => hother he.symm, h⟩

theorem map_tid_set {made : List Thread} {n : Nat} {t t' : Thread} (hn : made[n]? = some t)
    (htid : t'.tid = t.tid) : (made.set n t').map Thread.tid = made.map Thread.tid := by
  obtain ⟨hlt, rfl⟩ := List.getElem?_eq_some_iff.mp hn
  rw [List.map_set, htid, ← List.getElem_map Thread.tid (h := by simpa using hlt), List.set_getElem_self]

theorem locked_moves {mutex mutex' : Option Holder} {n : Nat} {t t' : Thread}
    (hmoves : Moves mutex n a t t' mutex') (hstage : t'.stage = .locked) : mutex' = some (.worker n) := by
  cases hmoves with
  | run hrun =>
      rcases Thread.run_cases hrun with ⟨-, rfl⟩ | ⟨-, rfl⟩ | ⟨-, rfl⟩ | ⟨-, rfl⟩ <;> cases hstage
  | lock hstage hfree => rfl
  | unlock => cases hstage
  | finish => cases hstage

/-- Another thread's step while this one has the mutex. -/
theorem moves_worker {n m : Nat} {mutex mutex' : Option Holder} {t t' : Thread}
    (hmoves : Moves mutex n a t t' mutex') (hne : m ≠ n)
    (hlocked : t.stage = .locked → mutex = some (.worker n)) (h : mutex = some (.worker m)) :
    mutex' = some (.worker m) := by
  cases hmoves with
  | run hrun => exact h
  | lock hstage hfree =>
      rw [hfree] at h
      cases h
  | unlock hstage =>
      rw [h] at hlocked
      cases hlocked hstage
      exact absurd rfl hne
  | finish hstage => exact h

/-- A step of a worker. -/
theorem Kept.worker (h : Kept root s) {n : Nat} {t t' : Thread} {mutex : Option Holder}
    (hn : s.made[n]? = some t) (hmoves : Moves s.mutex n a t t' mutex) :
    Kept root { s.setThread n t' with mutex := mutex } := by
  have hframe := Thread.frame_moves hmoves (h.locked n t hn)
  have hlen : (s.setThread n t').made.length = s.made.length := List.length_set
  have hwaits : ∀ m, Waits { s.setThread n t' with mutex := mutex } m ↔ s.Waits m := by
    intro m
    rw [Waits, Waits, hlen]
    rfl
  have hsemaphore := hframe.semaphore
  refine ⟨?_, ?_, ?_, ?_, hframe.mutex.trans h.mutex, ?_, ?_, ?_, ?_⟩
  · intro m u hu
    rcases getElem?_setThread hu with ⟨rfl, rfl⟩ | ⟨-, hold⟩
    · exact (h.sound _ _ hn).moves hmoves
    · exact h.sound m u hold
  · intro m u hu hw
    rcases getElem?_setThread hu with ⟨rfl, rfl⟩ | ⟨-, hold⟩
    · have hbefore := h.waited m t hn ((hwaits m).mp hw)
      omega
    · exact h.waited m u hold ((hwaits m).mp hw)
  · intro m u hu hw
    rcases getElem?_setThread hu with ⟨rfl, rfl⟩ | ⟨-, hold⟩
    · obtain ⟨hnone, hposted⟩ := h.returned m t hn fun hw' => hw ((hwaits m).mpr hw')
      have hposted' := hframe.posted hposted
      rw [hposted, hposted', hnone] at hsemaphore
      exact ⟨by omega, hposted'⟩
    · exact h.returned m u hold fun hw' => hw ((hwaits m).mpr hw')
  · rw [built, hlen]
    change s.m_threadIds = _ ++ ((((s.made.set n t').map Thread.tid).take s.built).map Int.ofNat)
    rw [map_tid_set hn hframe.tid]
    exact h.ids
  · intro m u hu hstage
    rcases getElem?_setThread hu with ⟨rfl, rfl⟩ | ⟨hne, hold⟩
    · exact locked_moves hmoves hstage
    · exact moves_worker hmoves hne (h.locked n t hn) (h.locked m u hold hstage)
  · intro thrs k hpc j hj m hm u hu
    rcases getElem?_setThread hu with ⟨rfl, rfl⟩ | ⟨-, hold⟩
    · exact absurd (h.joined thrs k hpc j hj m hm t hn) hframe.going
    · exact h.joined thrs k hpc j hj m hm u hold
  · intro m u hu hdestroyed
    rcases getElem?_setThread hu with ⟨rfl, rfl⟩ | ⟨-, hold⟩
    · rw [hframe.destroyed] at hdestroyed
      exact absurd (h.destroyed m t hn hdestroyed) hframe.going
    · exact h.destroyed m u hold hdestroyed
  · intro hw
    exact List.ne_nil_of_length_pos (by rw [hlen]; exact List.length_pos_of_ne_nil (h.nonempty hw))

theorem not_waits (h : s.pc.isWaiting = false) (n : Nat) : ¬ s.Waits n := by
  rintro ⟨hwaiting, -⟩
  rw [h] at hwaiting
  cases hwaiting

theorem not_waiting {pc : Pc} (h : pc.isStarting ≠ true) : pc.isWaiting = false := by
  cases pc with
  | waiting i => exact absurd rfl h
  | _ => rfl

/-- A step outside the constructors that leaves the threads as they are. -/
theorem Kept.turn (h : Kept root s) (hwait : s.pc.isWaiting = false) (hwait' : s'.pc.isWaiting = false)
    (hmade : s'.made = s.made) (hids : s'.m_threadIds = s.m_threadIds)
    (hmutex : s'.mutex = some .starter ↔ s'.pc.isStarting = true)
    (hlocked : ∀ n, s.mutex = some (.worker n) → s'.mutex = some (.worker n))
    (hjoined : ∀ thrs k, s'.pc = .joining thrs k → ∀ j < k, ∀ n, thrs[j]? = some (some n) →
      ∀ t : Thread, s.made[n]? = some t → t.stage = .ended) : Kept root s' := by
  refine ⟨?_, ?_, ?_, ?_, hmutex, ?_, ?_, ?_, ?_⟩
  · rw [hmade]
    exact h.sound
  · intro n t _ hw
    exact absurd hw (not_waits hwait' n)
  · rw [hmade]
    exact fun n t hn _ => h.returned n t hn (not_waits hwait n)
  · rw [hids, h.ids, built, built, hmade, hwait, hwait']
  · rw [hmade]
    exact fun n t hn hstage => hlocked n (h.locked n t hn hstage)
  · rw [hmade]
    exact hjoined
  · rw [hmade]
    exact h.destroyed
  · intro hw
    rw [hwait'] at hw
    cases hw

theorem Kept.create (h : Kept root s) {i : Nat} (hpc : s.pc = .creating i) (tid : Nat) :
    Kept root { s with made := s.made ++ [Thread.new tid], pc := .waiting i } := by
  have hnew : ∀ n t, (s.made ++ [Thread.new tid])[n]? = some t →
      s.made[n]? = some t ∧ n < s.made.length ∨ n = s.made.length ∧ t = Thread.new tid := by
    intro n t hn
    rw [List.getElem?_append] at hn
    split at hn
    · rename_i hlt
      exact Or.inl ⟨hn, hlt⟩
    · have hlt := (List.getElem?_eq_some_iff.mp hn).1
      simp only [List.length_singleton] at hlt
      obtain rfl : n = s.made.length := by omega
      rw [Nat.sub_self, List.getElem?_cons_zero, Option.some.injEq] at hn
      exact Or.inr ⟨rfl, hn.symm⟩
  have hlen : (s.made ++ [Thread.new tid]).length = s.made.length + 1 := by simp
  have hwait : s.pc.isWaiting = false := by rw [hpc]; rfl
  refine ⟨?_, ?_, ?_, ?_, ?_, ?_, ?_, ?_, ?_⟩
  · intro n t hn
    rcases hnew n t hn with ⟨hold, -⟩ | ⟨-, rfl⟩
    · exact h.sound n t hold
    · exact Thread.sound_new tid
  · rintro n t hn ⟨-, hlast⟩
    dsimp only at hlast
    rcases hnew n t hn with ⟨-, hlt⟩ | ⟨-, rfl⟩
    · omega
    · rfl
  · intro n t hn hw
    rcases hnew n t hn with ⟨hold, -⟩ | ⟨hlast, -⟩
    · exact h.returned n t hold (not_waits hwait n)
    · exact absurd ⟨rfl, by dsimp only; omega⟩ hw
  · have hbuilt : s.built = s.made.length := by rw [built, hwait]; rfl
    have hbuilt' : built { s with made := s.made ++ [Thread.new tid], pc := .waiting i } =
        s.made.length := by
      rw [built]
      dsimp only
      rw [hlen]
      rfl
    rw [hbuilt']
    dsimp only
    rw [h.ids, hbuilt, List.map_append, List.take_append_of_le_length (by simp)]
  · have hheld := h.mutex
    rw [hpc] at hheld
    exact hheld
  · intro n t hn hstage
    rcases hnew n t hn with ⟨hold, -⟩ | ⟨-, rfl⟩
    · exact h.locked n t hold hstage
    · cases hstage
  · intro thrs k hjoining
    cases hjoining
  · intro n t hn hdestroyed
    rcases hnew n t hn with ⟨hold, -⟩ | ⟨-, rfl⟩
    · exact h.destroyed n t hold hdestroyed
    · cases hdestroyed
  · intro _
    exact List.ne_nil_of_length_pos (by dsimp only; omega)

theorem Kept.wait (h : Kept root s) {i n : Nat} {t : Thread} (hpc : s.pc = .waiting i)
    (hlast : n + 1 = s.made.length) (hn : s.made[n]? = some t) (hposted : t.m_semaphore ≠ 0) :
    Kept root (s.constructed i n t) := by
  have hwaiting : s.pc.isWaiting = true := by rw [hpc]; rfl
  have hsemaphore := h.waited n t hn ⟨hwaiting, hlast⟩
  have hstage : t.stage.posted = true := by
    by_contra hnot
    rw [eq_false_of_ne_true hnot] at hsemaphore
    exact hposted hsemaphore
  have hid : t.m_id = t.tid := by
    rw [(h.sound n t hn).id, if_neg]
    intro hcreated
    rw [hcreated] at hstage
    cases hstage
  have hlen : (s.setThread n { t with m_semaphore := t.m_semaphore - 1 }).made.length = s.made.length :=
    List.length_set
  have htids : (s.made.set n { t with m_semaphore := t.m_semaphore - 1 }).map Thread.tid =
      s.made.map Thread.tid := map_tid_set hn rfl
  refine ⟨?_, ?_, ?_, ?_, ?_, ?_, ?_, ?_, ?_⟩
  · intro m u hu
    rcases getElem?_setThread hu with ⟨rfl, rfl⟩ | ⟨-, hold⟩
    · exact ⟨(h.sound m t hn).id, (h.sound m t hn).calls, (h.sound m t hn).cb⟩
    · exact h.sound m u hold
  · rintro m u hu ⟨hw, -⟩
    cases hw
  · intro m u hu _
    rcases getElem?_setThread hu with ⟨rfl, rfl⟩ | ⟨hne, hold⟩
    · refine ⟨?_, hstage⟩
      dsimp only
      rw [hsemaphore, hstage]
      rfl
    · exact h.returned m u hold fun hw => hne (Nat.succ.inj (hw.2.trans hlast.symm))
  · have hbuilt : s.built = n := by rw [built, hwaiting, ← hlast]; rfl
    have hids := h.ids
    rw [hbuilt] at hids
    have hbuilt' : (s.constructed i n t).built = n + 1 := by
      rw [built, constructed]
      dsimp only
      rw [hlen, ← hlast]
      rfl
    rw [hbuilt', constructed, setThread]
    dsimp only
    rw [htids, hids, List.take_add_one, List.map_append, List.append_assoc,
      List.getElem?_map, hn, hid]
    rfl
  · have hheld := h.mutex
    rw [hpc] at hheld
    exact hheld
  · intro m u hu hlocked
    rcases getElem?_setThread hu with ⟨rfl, rfl⟩ | ⟨-, hold⟩
    · exact h.locked m t hn hlocked
    · exact h.locked m u hold hlocked
  · intro thrs k hjoining
    cases hjoining
  · intro m u hu hdestroyed
    rcases getElem?_setThread hu with ⟨rfl, rfl⟩ | ⟨-, hold⟩
    · exact h.destroyed m t hn hdestroyed
    · exact h.destroyed m u hold hdestroyed
  · intro hw
    cases hw

theorem getElem?_destroy {made : List Thread} {thrs : List (Option Nat)} {n : Nat} {u : Thread}
    (h : (destroy made thrs)[n]? = some u) :
    ∃ t, made[n]? = some t ∧ (some n ∈ thrs ∧ u = { t with destroyed := true } ∨ some n ∉ thrs ∧ u = t) := by
  rw [destroy, List.getElem?_mapIdx] at h
  obtain ⟨t, ht, hu⟩ := Option.map_eq_some_iff.mp h
  refine ⟨t, ht, ?_⟩
  split at hu
  · rename_i hmem
    exact Or.inl ⟨hmem, hu.symm⟩
  · rename_i hmem
    exact Or.inr ⟨hmem, hu.symm⟩

theorem Kept.leave (h : Kept root s) {thrs : List (Option Nat)} {k : Nat} (hpc : s.pc = .joining thrs k)
    (hk : ¬ k < thrs.length) : Kept root { s with made := destroy s.made thrs, pc := .outside } := by
  have hwait : s.pc.isWaiting = false := by rw [hpc]; rfl
  have htids : (destroy s.made thrs).map Thread.tid = s.made.map Thread.tid := by
    refine List.ext_getElem? fun n => ?_
    rw [destroy, List.getElem?_map, List.getElem?_mapIdx, List.getElem?_map, Option.map_map]
    refine Option.map_congr fun t _ => ?_
    dsimp only [Function.comp]
    split <;> rfl
  have hlen : (destroy s.made thrs).length = s.made.length := List.length_mapIdx
  have hended : ∀ n t, s.made[n]? = some t → some n ∈ thrs → t.stage = .ended := by
    intro n t hn hmem
    obtain ⟨j, hj⟩ := List.getElem?_of_mem hmem
    have hlt := (List.getElem?_eq_some_iff.mp hj).1
    exact h.joined thrs k hpc j (by omega) n hj t hn
  refine ⟨?_, ?_, ?_, ?_, ?_, ?_, ?_, ?_, ?_⟩
  · intro n u hu
    obtain ⟨t, hn, ⟨-, rfl⟩ | ⟨-, rfl⟩⟩ := getElem?_destroy hu
    · exact ⟨(h.sound n t hn).id, (h.sound n t hn).calls, (h.sound n t hn).cb⟩
    · exact h.sound n u hn
  · rintro n u hu ⟨hw, -⟩
    cases hw
  · intro n u hu _
    obtain ⟨t, hn, ⟨-, rfl⟩ | ⟨-, rfl⟩⟩ := getElem?_destroy hu
    · exact h.returned n t hn (not_waits hwait n)
    · exact h.returned n u hn (not_waits hwait n)
  · have hids := h.ids
    rw [built, hwait] at hids
    rw [built]
    dsimp only
    rw [hlen, htids]
    exact hids
  · have hheld := h.mutex
    rw [hpc] at hheld
    exact hheld
  · intro n u hu hstage
    obtain ⟨t, hn, ⟨-, rfl⟩ | ⟨-, rfl⟩⟩ := getElem?_destroy hu
    · exact h.locked n t hn hstage
    · exact h.locked n u hn hstage
  · intro thrs k hjoining
    cases hjoining
  · intro n u hu hdestroyed
    obtain ⟨t, hn, ⟨hmem, rfl⟩ | ⟨-, rfl⟩⟩ := getElem?_destroy hu
    · exact hended n t hn hmem
    · exact h.destroyed n u hn hdestroyed
  · intro hw
    cases hw

theorem Kept.step (h : Kept root s) (hs : s.step root count a = some s') : Kept root s' := by
  have hheld := h.mutex
  cases step_rule hs with
  | running => exact h
  | asserted hpc =>
      rw [hpc] at hheld
      exact h.turn (by rw [hpc]; rfl) rfl rfl rfl hheld (fun n hn => hn) (by simp)
  | start hpc hstop hthreads hfree =>
      refine h.turn (by rw [hpc]; rfl) rfl rfl rfl (iff_of_true rfl rfl) ?_ (by simp)
      intro n hn
      rw [hfree] at hn
      cases hn
  | create hpc hi => exact h.create hpc _
  | createFails hpc hi =>
      rw [hpc] at hheld
      refine h.turn (by rw [hpc]; rfl) rfl rfl rfl (iff_of_false (by simp) (by simp [Pc.isStarting])) ?_
        (by simp)
      intro n hn
      rw [hheld.mpr rfl] at hn
      cases hn
  | wait hpc hlast hn hposted => exact h.wait hpc hlast hn hposted
  | unlock hpc hi =>
      rw [hpc] at hheld
      refine h.turn (by rw [hpc]; rfl) rfl rfl rfl (iff_of_false (by simp) (by simp [Pc.isStarting])) ?_
        (by simp)
      intro n hn
      rw [hheld.mpr rfl] at hn
      cases hn
  | stop hpc =>
      rw [hpc] at hheld
      exact h.turn (by rw [hpc]; rfl) rfl rfl rfl hheld (fun n hn => hn) (by simp)
  | stopEarly hpc hroot =>
      exact h.turn (by rw [hpc]; rfl) (by dsimp only; rw [hpc]; rfl) rfl rfl hheld (fun n hn => hn)
        (by simp [hpc])
  | swap hpc =>
      rw [hpc] at hheld
      refine h.turn (by rw [hpc]; rfl) rfl rfl rfl hheld (fun n hn => hn) ?_
      rintro thrs k ⟨⟩ j hj
      exact absurd hj (Nat.not_lt_zero j)
  | null hpc hk =>
      rw [hpc] at hheld
      exact h.turn (by rw [hpc]; rfl) rfl rfl rfl hheld (fun n hn => hn) (by simp)
  | @join thrs k n t hpc hk hn hended =>
      rw [hpc] at hheld
      refine h.turn (by rw [hpc]; rfl) rfl rfl rfl hheld (fun n hn => hn) ?_
      rintro thrs' k' ⟨⟩ j hj m hm u hu
      rcases Nat.lt_succ_iff_lt_or_eq.mp hj with hlt | rfl
      · exact h.joined _ _ hpc j hlt m hm u hu
      · cases hm.symm.trans hk
        cases hu.symm.trans hn
        exact hended
  | leave hpc hk => exact h.leave hpc hk
  | worker hn hmoves => exact h.worker hn hmoves
  | lockOther hfree =>
      have hout : s.pc.isStarting ≠ true := fun hin => by simpa [hfree] using hheld.mpr hin
      have hwait : s.pc.isWaiting = false := not_waiting hout
      refine h.turn hwait hwait rfl rfl (iff_of_false (by simp) hout) ?_ h.joined
      intro n hn
      rw [hfree] at hn
      cases hn
  | unlockOther hother =>
      have hout : s.pc.isStarting ≠ true := fun hin => by simpa [hother] using hheld.mpr hin
      have hwait : s.pc.isWaiting = false := not_waiting hout
      refine h.turn hwait hwait rfl rfl (iff_of_false (by simp) hout) ?_ h.joined
      intro n hn
      rw [hother] at hn
      cases hn

end Pool
end HCServer.Scheduler.Start
