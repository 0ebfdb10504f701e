import HCServer.Lib.Transition
import HCServer.Scheduler.Model
import Mathlib.Data.Fintype.Basic

/-! The thread a task was scheduled for. The queue entry has it, the fiber has not, and `run`, events and
timers make a new entry each time the fiber is queued again. -/
namespace HCServer.Scheduler
open Lib
variable {θ : Type}

/-- A `swapIn` by `thread` of a fiber whose task was scheduled with `home`. -/
structure SwapIn (θ : Type) where
  fiber : Nat
  home : Option θ
  thread : θ
  deriving DecidableEq, Repr

/-- The workers, with the thread that each fiber's task was scheduled for, that of the entry which each
worker has taken, and the `swapIn`s so far. -/
structure Homes (θ : Type) where
  workers : Workers θ
  home : Nat → Option θ
  taken : θ → Option θ
  swaps : List (SwapIn θ)

/-- The worker is going to enter the fiber. -/
def Pc.Holds (p : Pc) (f : Nat) : Prop := p = .popped (.fiber f) ∨ ∃ own, p = .chosen f own

instance (p : Pc) (f : Nat) : Decidable (p.Holds f) :=
  decidable_of_iff (p = .popped (.fiber f) ∨ p = .chosen f false ∨ p = .chosen f true)
    (or_congr Iff.rfl ⟨fun h => h.elim (⟨_, ·⟩) (⟨_, ·⟩), fun ⟨own, h⟩ => by cases own <;> simp [h]⟩)

/-- The fiber that has come back to `run`. -/
def Pc.back : Pc → Option Nat
  | .returned f _ => some f
  | _ => none

namespace Homes
variable [DecidableEq θ]

def new : Homes θ := ⟨.new, fun _ => none, fun _ => none, []⟩

/-- What the action `a`, which leads to `w`, adds to the books. -/
def record (s : Homes θ) (a : Action θ) (w : Workers θ) : Homes θ :=
  match a with
  | .scheduleFiber threadid =>
      { s with workers := w, home := Function.update s.home s.workers.pool.length threadid }
  | .pop t =>
      let ft := s.workers.fibers.find? (s.workers.takes t)
      { s with workers := w, taken := Function.update s.taken t (ft.bind FiberAndThread.threadid) }
  | .choose t =>
      match s.workers.pc t, w.pc t with
      | .popped .cb, .chosen f _ =>
          { s with workers := w, home := Function.update s.home f (s.taken t) }
      | _, _ => { s with workers := w }
  | .swapIn t =>
      match s.workers.pc t with
      | .chosen f _ => { s with workers := w, swaps := s.swaps ++ [⟨f, s.home f, t⟩] }
      | _ => { s with workers := w }
  | _ => { s with workers := w }

def step (s : Homes θ) (a : Action θ) : Option (Homes θ) := (s.workers.step a).map (s.record a)

/-- Tasks run where they belong. -/
def AtHome (s : Homes θ) : Prop := ∀ r ∈ s.swaps, r.home = none ∨ r.home = some r.thread

/-- A task with a thread of its own is not queued a second time, and its fiber is not in a queue entry
or in another worker's hands already when `run` takes its own fiber for it. -/
def StaysHome (s : Homes θ) : Action θ → Prop
  | .update t => ∀ f ∈ (s.workers.pc t).back,
      (s.workers.pool[f]?).map Fiber.state = some .READY → s.home f = none
  | .trigger f => s.home f = none
  | .choose t => ∀ f ∈ s.workers.cbFiber t, s.workers.pc t = .popped .cb → s.taken t ≠ none →
      (∀ ft ∈ s.workers.fibers, ft.job ≠ .fiber f) ∧ ∀ u, ¬ (s.workers.pc u).Holds f
  | _ => True

instance [Fintype θ] (s : Homes θ) (a : Action θ) : Decidable (s.StaysHome a) := by
  cases a <;> unfold StaysHome <;> infer_instance

/-- Entries and workers' hands agree with the fibers' homes. -/
structure Bound (w : Workers θ) (home : Nat → Option θ) (taken : θ → Option θ) : Prop where
  entries : ∀ ft ∈ w.fibers, ∀ f, ft.job = .fiber f →
    f < w.pool.length ∧ ∀ h, home f = some h → ft.threadid = some h
  hands : ∀ u f, (w.pc u).Holds f → f < w.pool.length ∧ ∀ h, home f = some h → h = u
  taken : ∀ u, w.pc u = .popped .cb → ∀ h, taken u = some h → h = u
  own : ∀ u f, w.cbFiber u = some f → f < w.pool.length

namespace Bound
variable {w w' : Workers θ} {home : Nat → Option θ} {taken : θ → Option θ} {t : θ} {f : Nat} {p : Pc}

theorem pc_goto (w : Workers θ) (t : θ) (p : Pc) (u : θ) :
    (w.goto t p).pc u = if u = t then p else w.pc u := Function.update_apply _ _ _ _

omit [DecidableEq θ] in
/-- Nothing that counts has changed. -/
theorem congr (h : Bound w home taken) (hfibers : w'.fibers = w.fibers)
    (hlength : w'.pool.length = w.pool.length) (hpc : w'.pc = w.pc)
    (hown : ∀ u f, w'.cbFiber u = some f → w.cbFiber u = some f) : Bound w' home taken := by
  refine ⟨?_, ?_, ?_, ?_⟩
  · rw [hfibers, hlength]
    exact h.entries
  · rw [hpc, hlength]
    exact h.hands
  · rw [hpc]
    exact h.taken
  · rw [hlength]
    exact fun u f hu => h.own u f (hown u f hu)

omit [DecidableEq θ] in
theorem setFiber (h : Bound w home taken) (f : Nat) (r : Fiber) : Bound (w.setFiber f r) home taken :=
  h.congr rfl (by simp [Workers.setFiber]) rfl fun _ _ hu => hu

theorem release (h : Bound w home taken) (t : θ) (own : Bool) : Bound (w.release t own) home taken := by
  cases own with
  | false => exact h
  | true =>
      refine h.congr rfl rfl rfl ?_
      intro u f hu
      by_cases hut : u = t
      · subst hut
        simp [Workers.release] at hu
      · simpa [Workers.release, Function.update_of_ne hut] using hu

omit [DecidableEq θ] in
theorem push (h : Bound w home taken) {job : Job} {threadid : Option θ}
    (hjob : ∀ f, job = .fiber f → f < w.pool.length ∧ ∀ x, home f = some x → threadid = some x) :
    Bound (w.push job threadid) home taken := by
  refine ⟨?_, h.hands, h.taken, h.own⟩
  intro ft hft f hf
  rcases List.mem_append.mp hft with hold | hnew
  · exact h.entries ft hold f hf
  · rw [List.mem_singleton] at hnew
    subst hnew
    exact hjob f hf

theorem goto (h : Bound w home taken) (t : θ)
    (hholds : ∀ f, p.Holds f → f < w.pool.length ∧ ∀ x, home f = some x → x = t)
    (htaken : p = .popped .cb → ∀ x, taken t = some x → x = t) : Bound (w.goto t p) home taken := by
  refine ⟨h.entries, ?_, ?_, h.own⟩
  · intro u f hu
    rw [pc_goto] at hu
    by_cases hut : u = t
    · rw [if_pos hut] at hu
      rw [hut]
      exact hholds f hu
    · rw [if_neg hut] at hu
      exact h.hands u f hu
  · intro u hu
    rw [pc_goto] at hu
    by_cases hut : u = t
    · rw [if_pos hut] at hu
      rw [hut]
      exact htaken hu
    · rw [if_neg hut] at hu
      exact h.taken u hu

/-- The entry of a worker that holds no callback does not matter. -/
theorem retake (h : Bound w home taken) (hpc : w.pc t ≠ .popped .cb) (x : Option θ) :
    Bound w home (Function.update taken t x) := by
  refine ⟨h.entries, h.hands, ?_, h.own⟩
  intro u hu
  have hut : u ≠ t := by
    rintro rfl
    exact hpc hu
  rw [Function.update_of_ne hut]
  exact h.taken u hu

/-- To a place where the worker has nothing in its hands. -/
theorem leave (h : Bound w home taken) (t : θ) (hpopped : ∀ job, p ≠ .popped job)
    (hchosen : ∀ f own, p ≠ .chosen f own) : Bound (w.goto t p) home taken := by
  apply h.goto t
  · rintro f (hf | ⟨own, hf⟩)
    · exact absurd hf (hpopped _)
    · exact absurd hf (hchosen _ _)
  · intro hcb
    exact absurd hcb (hpopped _)

end Bound

/-- The invariant. -/
structure Kept (s : Homes θ) : Prop where
  bound : Bound s.workers s.home s.taken
  atHome : AtHome s

variable {s s' : Homes θ} {a : Action θ} {t : θ}

omit [DecidableEq θ] in
theorem new_kept : Kept (new : Homes θ) := by
  refine ⟨⟨?_, ?_, ?_, ?_⟩, ?_⟩
  · intro ft hft
    cases hft
  · rintro u f (hu | ⟨own, hu⟩) <;> cases hu
  · intro u hu
    cases hu
  · intro u f hu
    cases hu
  · intro r hr
    cases hr

theorem create_kept (h : Kept s) (threadid : Option θ) :
    Kept (s.record (.scheduleFiber threadid)
      (s.workers.create.push (.fiber s.workers.pool.length) threadid)) := by
  have hhome : ∀ f, f < s.workers.pool.length →
      Function.update s.home s.workers.pool.length threadid f = s.home f := fun f hf =>
    Function.update_of_ne (Nat.ne_of_lt hf) _ _
  have hlength : (s.workers.create.push (.fiber s.workers.pool.length) threadid).pool.length =
      s.workers.pool.length + 1 := List.length_append
  refine ⟨⟨?_, ?_, h.bound.taken, ?_⟩, h.atHome⟩
  · intro ft hft f hf
    simp only [record, hlength]
    rcases List.mem_append.mp hft with hold | hnew
    · obtain ⟨hlt, hthread⟩ := h.bound.entries ft hold f hf
      rw [hhome f hlt]
      exact ⟨Nat.lt_succ_of_lt hlt, hthread⟩
    · rw [List.mem_singleton] at hnew
      subst hnew
      cases hf
      refine ⟨Nat.lt_succ_self _, ?_⟩
      intro x hx
      rw [Function.update_self] at hx
      exact hx
  · intro u f hu
    obtain ⟨hlt, hthread⟩ := h.bound.hands u f hu
    simp only [record, hlength, hhome f hlt]
    exact ⟨Nat.lt_succ_of_lt hlt, hthread⟩
  · intro u f hu
    simp only [record, hlength]
    exact Nat.lt_succ_of_lt (h.bound.own u f hu)

theorem pop_kept (h : Kept s) {ft : FiberAndThread θ} (hpc : s.workers.pc t = .loop)
    (hfind : s.workers.fibers.find? (s.workers.takes t) = some ft) :
    Kept (s.record (.pop t)
      ({ s.workers with fibers := s.workers.fibers.eraseP (s.workers.takes t) }.goto t
        (.popped ft.job))) := by
  have hmem : ft ∈ s.workers.fibers := List.mem_of_find?_eq_some hfind
  have hthread : ∀ x, ft.threadid = some x → x = t := by
    intro x hx
    have htakes := List.find?_some hfind
    simp only [Workers.takes, hx, Bool.and_eq_true] at htakes
    simpa using htakes.1
  refine ⟨?_, h.atHome⟩
  simp only [record, hfind, Option.bind_some]
  have hbound : Bound { s.workers with fibers := s.workers.fibers.eraseP (s.workers.takes t) } s.home
      s.taken := by
    refine ⟨?_, h.bound.hands, h.bound.taken, h.bound.own⟩
    intro ft' hft'
    exact h.bound.entries ft' (List.mem_of_mem_eraseP hft')
  refine (hbound.retake (hpc.trans_ne (by simp)) ft.threadid).goto t ?_ ?_
  · rintro f (hf | ⟨own, hf⟩)
    · have hjob : ft.job = .fiber f := by simpa using hf
      obtain ⟨hlt, hhome⟩ := h.bound.entries ft hmem f hjob
      exact ⟨hlt, fun x hx => hthread x (hhome x hx)⟩
    · cases hf
  · intro _ x hx
    rw [Function.update_self] at hx
    exact hthread x hx

omit [DecidableEq θ] in
theorem length_create (w : Workers θ) : w.create.pool.length = w.pool.length + 1 := List.length_append

/-- `cb_fiber.reset(new Fiber(...))`. -/
theorem Bound.renew {w : Workers θ} {home : Nat → Option θ} {taken : θ → Option θ}
    (h : Bound w home taken) (t : θ) :
    Bound { w.create with cbFiber := Function.update w.cbFiber t (some w.pool.length) } home taken := by
  refine ⟨?_, ?_, h.taken, ?_⟩
  · intro ft hft f hf
    obtain ⟨hlt, hthread⟩ := h.entries ft hft f hf
    exact ⟨length_create w ▸ Nat.lt_succ_of_lt hlt, hthread⟩
  · intro u f hu
    obtain ⟨hlt, hthread⟩ := h.hands u f hu
    exact ⟨length_create w ▸ Nat.lt_succ_of_lt hlt, hthread⟩
  · intro u f hu
    simp only [Function.update_apply] at hu
    simp only [length_create]
    split at hu
    · cases hu
      exact Nat.lt_succ_self _
    · exact Nat.lt_succ_of_lt (h.own u f hu)

omit [DecidableEq θ] in
/-- The assignment of a fiber to a callback. -/
theorem Bound.assign {w : Workers θ} {home : Nat → Option θ} {taken : θ → Option θ}
    (h : Bound w home taken) {f : Nat} {x : Option θ}
    (hfree : x ≠ none → (∀ ft ∈ w.fibers, ft.job ≠ .fiber f) ∧ ∀ u, ¬ (w.pc u).Holds f) :
    Bound w (Function.update home f x) taken := by
  refine ⟨?_, ?_, h.taken, h.own⟩
  · intro ft hft g hg
    obtain ⟨hlt, hthread⟩ := h.entries ft hft g hg
    refine ⟨hlt, ?_⟩
    intro y hy
    by_cases hgf : g = f
    · subst hgf
      rw [Function.update_self] at hy
      exact absurd hg ((hfree (by simp [hy])).1 ft hft)
    · rw [Function.update_of_ne hgf] at hy
      exact hthread y hy
  · intro u g hu
    obtain ⟨hlt, hthread⟩ := h.hands u g hu
    refine ⟨hlt, ?_⟩
    intro y hy
    by_cases hgf : g = f
    · subst hgf
      rw [Function.update_self] at hy
      exact absurd hu ((hfree (by simp [hy])).2 u)
    · rw [Function.update_of_ne hgf] at hy
      exact hthread y hy

/-- The worker's hands, with a fiber that belongs there. -/
theorem Bound.choose {w : Workers θ} {home : Nat → Option θ} {taken : θ → Option θ}
    (h : Bound w home taken) {f : Nat} (own : Bool) (hlt : f < w.pool.length)
    (hhome : ∀ x, home f = some x → x = t) : Bound (w.goto t (.chosen f own)) home taken := by
  refine h.goto t ?_ (by simp)
  rintro g (hg | ⟨own, hg⟩)
  · cases hg
  · cases hg
    exact ⟨hlt, hhome⟩

theorem reset_kept (h : Kept s) {f : Nat} {r : Fiber} (hpc : s.workers.pc t = .popped .cb)
    (hown : s.workers.cbFiber t = some f) (hget : s.workers.pool[f]? = some r)
    (hstays : s.StaysHome (.choose t)) :
    Kept (s.record (.choose t)
      ((s.workers.setFiber f { r with state := .INIT }).goto t (.chosen f true))) := by
  obtain ⟨hlt, _⟩ := List.getElem?_eq_some_iff.mp hget
  have hnow : ((s.workers.setFiber f { r with state := .INIT }).goto t (.chosen f true)).pc t =
      .chosen f true := Function.update_self _ _ _
  simp only [record, hpc, hnow]
  refine ⟨((h.bound.assign (hstays f hown hpc)).setFiber f _).choose true ?_ ?_, h.atHome⟩
  · simpa [Workers.setFiber] using hlt
  · intro x hx
    rw [Function.update_self] at hx
    exact h.bound.taken t hpc x hx

theorem fresh_kept (h : Kept s) (hpc : s.workers.pc t = .popped .cb) :
    Kept (s.record (.choose t)
      ({ s.workers.create with
          cbFiber := Function.update s.workers.cbFiber t (some s.workers.pool.length) }.goto t
        (.chosen s.workers.pool.length true))) := by
  have hnow : ({ s.workers.create with
      cbFiber := Function.update s.workers.cbFiber t (some s.workers.pool.length) }.goto t
      (.chosen s.workers.pool.length true)).pc t = .chosen s.workers.pool.length true :=
    Function.update_self _ _ _
  simp only [record, hpc, hnow]
  have hbeyond : (∀ ft ∈ s.workers.fibers, ft.job ≠ .fiber s.workers.pool.length) ∧
      ∀ u, ¬ (s.workers.pc u).Holds s.workers.pool.length := by
    refine ⟨?_, ?_⟩
    · intro ft hft hjob
      exact absurd (h.bound.entries ft hft _ hjob).1 (Nat.lt_irrefl _)
    · intro u hu
      exact absurd (h.bound.hands u _ hu).1 (Nat.lt_irrefl _)
  have hassigned := h.bound.assign (x := s.taken t) fun _ => hbeyond
  refine ⟨(hassigned.renew t).choose true ?_ ?_, h.atHome⟩
  · exact length_create s.workers ▸ Nat.lt_succ_self _
  · intro x hx
    rw [Function.update_self] at hx
    exact h.bound.taken t hpc x hx

theorem swapIn_kept (h : Kept s) {f : Nat} {own : Bool} {r : Fiber}
    (hpc : s.workers.pc t = .chosen f own) :
    Kept (s.record (.swapIn t)
      ({ s.workers.setFiber f ⟨.EXEC, false, .unset⟩ with torn := s.workers.torn || !r.saved }.goto t
        (.running f own))) := by
  have hheld := (h.bound.hands t f (Or.inr ⟨own, hpc⟩)).2
  simp only [record, hpc]
  refine ⟨?_, ?_⟩
  · have hset := (h.bound.setFiber f ⟨.EXEC, false, .unset⟩).leave (p := .running f own) t (by simp)
      (by simp)
    exact hset.congr rfl rfl rfl fun _ _ hu => hu
  · intro r' hr'
    rcases List.mem_append.mp hr' with hold | hnew
    · exact h.atHome r' hold
    · rw [List.mem_singleton] at hnew
      subst hnew
      cases hhome : s.home f with
      | none => exact Or.inl rfl
      | some x => exact Or.inr (congrArg some (hheld x hhome))

omit [DecidableEq θ] in
/-- A fiber of no thread goes into the queue. -/
theorem Bound.requeue {w : Workers θ} {home : Nat → Option θ} {taken : θ → Option θ}
    (h : Bound w home taken) {f : Nat} {r : Fiber} (hget : w.pool[f]? = some r)
    (hhome : home f = none) : Bound (w.push (.fiber f) none) home taken := by
  apply h.push
  intro g hg
  cases hg
  obtain ⟨hlt, _⟩ := List.getElem?_eq_some_iff.mp hget
  refine ⟨hlt, ?_⟩
  intro x hx
  cases hhome.symm.trans hx

theorem Kept.step (h : Kept s) (hs : s.step a = some s') (hstays : s.StaysHome a) : Kept s' := by
  obtain ⟨w, hw, rfl⟩ := Option.map_eq_some_iff.mp hs
  cases Workers.step_rule hw with
  | schedule =>
      refine ⟨h.bound.push ?_, h.atHome⟩
      intro f hf
      cases hf
  | scheduleFiber => exact create_kept h _
  | pop hpc hfind => exact pop_kept h hpc hfind
  | dead hpc hget hr =>
      simp only [record, hpc]
      exact ⟨h.bound.leave _ (by simp) (by simp), h.atHome⟩
  | @alive t f r hpc hget hr =>
      simp only [record, hpc]
      obtain ⟨hlt, hhome⟩ := h.bound.hands t f (Or.inl hpc)
      exact ⟨h.bound.choose false hlt hhome, h.atHome⟩
  | reset hpc hown hget hr => exact reset_kept h hpc hown hget hstays
  | fresh hpc hown => exact fresh_kept h hpc
  | swapIn hpc hget he => exact swapIn_kept h hpc
  | arm hpc hget hw => exact ⟨h.bound.setFiber _ _, h.atHome⟩
  | yieldToHold hpc hget => exact ⟨(h.bound.setFiber _ _).leave _ (by simp) (by simp), h.atHome⟩
  | yieldToReady hpc hget hw => exact ⟨(h.bound.setFiber _ _).leave _ (by simp) (by simp), h.atHome⟩
  | finish hpc hget hw => exact ⟨(h.bound.setFiber _ _).leave _ (by simp) (by simp), h.atHome⟩
  | switchOut hpc hget => exact ⟨(h.bound.setFiber _ _).leave _ (by simp) (by simp), h.atHome⟩
  | @trigger f r hget hw =>
      have hset := h.bound.setFiber f { r with wake := .fired }
      obtain ⟨hlt, _⟩ := List.getElem?_eq_some_iff.mp hget
      exact ⟨hset.requeue (List.getElem?_set_self hlt) hstays, h.atHome⟩
  | @requeue t f own r hpc hget hr =>
      have hhome : s.home f = none := hstays f (by simp [hpc, Pc.back]) (by simp [hget, hr])
      exact ⟨((h.bound.requeue hget hhome).release t own).leave t (by simp) (by simp), h.atHome⟩
  | @ended t f own r hpc hget hends =>
      refine ⟨Bound.leave ?_ t (by simp) (by simp), h.atHome⟩
      split
      · exact h.bound.setFiber f _
      · exact h.bound
  | @held t f own r hpc hget hr hends =>
      exact ⟨((h.bound.setFiber f _).release t own).leave t (by simp) (by simp), h.atHome⟩

/-- A task stays on its thread as long as it is queued once. -/
theorem thread_affinity (as : List (Action θ)) (h : Each step StaysHome (new : Homes θ) as) :
    Always step AtHome (new : Homes θ) as :=
  always_of_each (fun _ _ _ hs hstep hstays => hs.step hstep hstays) (fun _ hs => hs.atHome) new_kept h

/-- A callback for thread `true` runs to its end. -/
theorem thread_affinity_run :
    Always step AtHome (new : Homes Bool) [.schedule (some true), .pop true, .choose true, .swapIn true,
      .finish true false, .switchOut true, .update true] :=
  thread_affinity _ (by decide)

/-- After a yield the queue entry names no thread, and the other worker takes it. -/
theorem yielded_task_moves : ¬ ∀ as : List (Action Bool), Always step AtHome (new : Homes Bool) as := by
  intro h
  have hhome := always_end (h [.scheduleFiber (some false), .pop false, .choose false, .swapIn false,
    .yieldToReady false, .switchOut false, .update false, .pop true, .choose true, .swapIn true]) rfl
  exact absurd (hhome ⟨0, some false, true⟩ (by decide)) (by decide)

end Homes
end HCServer.Scheduler
