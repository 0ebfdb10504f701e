import HCServer.Scheduler.Model
import HCServer.Lib.Occupancy
import HCServer.Lib.Transition

/-! Exclusive use of fibers. The workers' places are compared with two records of the fibers: an
unsaved context, from `swapIn` to the switch out, and the state `EXEC`, from `swapIn` to the
fiber's own state store. -/
namespace HCServer.Scheduler
open Lib Workers
variable {θ : Type}

/-- The fiber that a worker is executing, until the context switch out of it. -/
def Pc.current : Pc → Option Nat
  | .running f _ => some f
  | .yielding f _ => some f
  | _ => none

/-- The fiber that a worker is running, until the fiber's own state store. -/
def Pc.runs : Pc → Option Nat
  | .running f _ => some f
  | _ => none

def current (s : Workers θ) (t : θ) : Option Nat := (s.pc t).current

def runs (s : Workers θ) (t : θ) : Option Nat := (s.pc t).runs

/-- The fiber exists and its record satisfies `P`. -/
def Has (P : Fiber → Prop) (s : Workers θ) (f : Nat) : Prop := ∃ r, s.pool[f]? = some r ∧ P r

def Unsaved : Workers θ → Nat → Prop := Has fun r => r.saved = false

def Executing : Workers θ → Nat → Prop := Has fun r => r.state = .EXEC

/-- No fiber is current on two threads or was resumed before its context was saved, and the
state is `EXEC` exactly while some thread runs the fiber. -/
structure Exclusive (s : Workers θ) : Prop where
  oneThread : ∀ t u f, current s t = some f → current s u = some f → t = u
  savedFirst : s.torn = false
  exec : ∀ f, Executing s f ↔ ∃ t, runs s t = some f

/-- No worker resumes a fiber while another is between that fiber's state store and its switch
out, and none makes the update of a fiber that another is running by then. -/
def Apart (s : Workers θ) : Action θ → Prop
  | .swapIn t => ∀ f own, s.pc t = .chosen f own → ∀ u own', s.pc u ≠ .yielding f own'
  | .update t => ∀ f own, s.pc t = .returned f own → ∀ u own', s.pc u ≠ .running f own'
  | _ => True

structure Inv (s : Workers θ) : Prop where
  held : Occupancy (current s) (Unsaved s)
  executed : Occupancy (runs s) (Executing s)
  savedFirst : s.torn = false

theorem Inv.exclusive {s : Workers θ} (h : Inv s) : Exclusive s :=
  ⟨h.held.single, h.savedFirst, h.executed.recorded⟩

theorem Inv.new : Inv (new : Workers θ) := by
  refine ⟨⟨?_, ?_⟩, ⟨?_, ?_⟩, rfl⟩
  · rintro t u f ⟨⟩
  · intro f
    constructor
    · rintro ⟨r, hr, _⟩
      cases hr
    · rintro ⟨t, ⟨⟩⟩
  · rintro t u f ⟨⟩
  · intro f
    constructor
    · rintro ⟨r, hr, _⟩
      cases hr
    · rintro ⟨t, ⟨⟩⟩

section Records
variable {s : Workers θ} {f : Nat} {r : Fiber} {P : Fiber → Prop}

theorem has_of_get (h : s.pool[f]? = some r) : Has P s f ↔ P r := by
  constructor
  · rintro ⟨r', hr', hP⟩
    cases h.symm.trans hr'
    exact hP
  · intro hP
    exact ⟨r, h, hP⟩

theorem has_setFiber (h : s.pool[f]? = some r) (r' : Fiber) (x : Nat) :
    Has P (s.setFiber f r') x ↔ x = f ∧ P r' ∨ x ≠ f ∧ Has P s x := by
  obtain ⟨hlt, _⟩ := List.getElem?_eq_some_iff.mp h
  by_cases same : x = f
  · subst same
    have hget : (s.setFiber x r').pool[x]? = some r' := List.getElem?_set_self hlt
    simp [has_of_get hget]
  · have hget : (s.setFiber f r').pool[x]? = s.pool[x]? := List.getElem?_set_ne (Ne.symm same)
    simp [Has, hget, same]

/-- An update of a record on which `P` says the same. -/
theorem has_setFiber_same (h : s.pool[f]? = some r) {r' : Fiber} (hP : P r' ↔ P r) (x : Nat) :
    Has P (s.setFiber f r') x ↔ Has P s x := by
  rw [has_setFiber h]
  by_cases same : x = f
  · rw [same, has_of_get h]
    simp [hP]
  · simp [same]

theorem has_create (hP : ¬ P Fiber.new) (x : Nat) : Has P s.create x ↔ Has P s x := by
  constructor
  · rintro ⟨r, hr, hPr⟩
    rw [Workers.create, List.getElem?_append] at hr
    split at hr
    · exact ⟨r, hr, hPr⟩
    · obtain ⟨_, hlast⟩ := List.getElem?_eq_some_iff.mp hr
      rw [List.getElem_singleton] at hlast
      rw [← hlast] at hPr
      exact absurd hPr hP
  · rintro ⟨r, hr, hPr⟩
    obtain ⟨hlt, _⟩ := List.getElem?_eq_some_iff.mp hr
    refine ⟨r, ?_, hPr⟩
    rw [Workers.create, List.getElem?_append_left hlt]
    exact hr

end Records

section Moves
variable {s s' : Workers θ} {t : θ} {f : Nat} {own : Bool} {r r' : Fiber} {p : Pc}

/-- A store that neither saves nor executes. -/
theorem Inv.setFiber (h : Inv s) (hget : s.pool[f]? = some r) (hs : r'.saved = r.saved)
    (he : r'.state = .EXEC ↔ r.state = .EXEC) : Inv (s.setFiber f r') := by
  refine ⟨h.held.congr rfl ?_, h.executed.congr rfl ?_, h.savedFirst⟩
  · apply has_setFiber_same hget
    rw [hs]
  · exact has_setFiber_same hget he

theorem Inv.create (h : Inv s) : Inv s.create :=
  ⟨h.held.congr rfl (has_create (by decide)), h.executed.congr rfl (has_create (by decide)),
    h.savedFirst⟩

theorem Inv.push (h : Inv s) (job : Job) (threadid : Option θ) : Inv (s.push job threadid) :=
  ⟨h.held, h.executed, h.savedFirst⟩

/-- A store by `run` in the record of a fiber that nobody runs. -/
theorem Inv.idleStore {state : FiberState} (h : Inv s) (hget : s.pool[f]? = some r)
    (he : r.state ≠ .EXEC) (hne : state ≠ .EXEC) : Inv (s.setFiber f { r with state }) :=
  h.setFiber hget rfl ⟨fun hin => absurd hin hne, fun hin => absurd hin he⟩

theorem current_of_pc (h : s.pc t = p) : current s t = p.current := congrArg Pc.current h

theorem runs_of_pc (h : s.pc t = p) : runs s t = p.runs := congrArg Pc.runs h

theorem runs_eq_some {u : θ} : runs s u = some f ↔ ∃ own, s.pc u = .running f own := by
  unfold runs
  cases hpc : s.pc u <;> simp [Pc.runs]

theorem Inv.exec_of_running {u : θ} (h : Inv s) (hpc : s.pc u = .running f own)
    (hget : s.pool[f]? = some r) : r.state = .EXEC :=
  (has_of_get hget).mp ((h.executed.recorded f).mpr ⟨u, runs_of_pc hpc⟩)

/-- A fiber that no worker runs or is leaving has its context saved. -/
theorem Inv.saved_of_apart (h : Inv s) (hget : s.pool[f]? = some r) (he : r.state ≠ .EXEC)
    (hapart : ∀ u own', s.pc u ≠ .yielding f own') : r.saved = true := by
  by_contra hs
  have hun : Unsaved s f := (has_of_get hget).mpr (eq_false_of_ne_true hs)
  obtain ⟨u, hu⟩ := (h.held.recorded f).mp hun
  cases hpc : s.pc u with
  | running x own' =>
      have hx : x = f := Option.some.inj ((current_of_pc hpc).symm.trans hu)
      have hrun : runs s u = some f := (runs_of_pc hpc).trans (congrArg some hx)
      have hex := (h.executed.recorded f).mpr ⟨u, hrun⟩
      exact he ((has_of_get hget).mp hex)
  | yielding x own' =>
      have hx : x = f := Option.some.inj ((current_of_pc hpc).symm.trans hu)
      rw [hx] at hpc
      exact hapart u own' hpc
  | loop => cases (current_of_pc hpc).symm.trans hu
  | popped job => cases (current_of_pc hpc).symm.trans hu
  | chosen x own' => cases (current_of_pc hpc).symm.trans hu
  | returned x own' => cases (current_of_pc hpc).symm.trans hu

variable [DecidableEq θ]

theorem current_goto : current (s.goto t p) = Function.update (current s) t p.current := by
  funext u
  simp only [current, goto, Function.update_apply]
  split <;> rfl

theorem runs_goto : runs (s.goto t p) = Function.update (runs s) t p.runs := by
  funext u
  simp only [runs, goto, Function.update_apply]
  split <;> rfl

theorem current_goto_same (h : current s t = p.current) : current (s.goto t p) = current s := by
  rw [current_goto, ← h]
  exact Function.update_eq_self t (current s)

theorem runs_goto_same (h : runs s t = p.runs) : runs (s.goto t p) = runs s := by
  rw [runs_goto, ← h]
  exact Function.update_eq_self t (runs s)

/-- A worker that neither takes a fiber nor leaves one. -/
theorem Inv.goto (h : Inv s) (hc : current s t = p.current) (hr : runs s t = p.runs) :
    Inv (s.goto t p) :=
  ⟨h.held.congr (current_goto_same hc) fun _ => Iff.rfl,
    h.executed.congr (runs_goto_same hr) fun _ => Iff.rfl, h.savedFirst⟩

theorem Inv.move {q : Pc} (h : Inv s) (hpc : s.pc t = q) (hc : q.current = p.current)
    (hr : q.runs = p.runs) : Inv (s.goto t p) :=
  h.goto ((current_of_pc hpc).trans hc) ((runs_of_pc hpc).trans hr)

theorem Inv.release (h : Inv s) (own : Bool) : Inv (s.release t own) := by
  cases own with
  | false => exact h
  | true => exact ⟨h.held, h.executed, h.savedFirst⟩

/-- The store of a fiber's own state: the worker stops running it and stays on it. -/
theorem Inv.store {state : FiberState} (h : Inv s) (hne : state ≠ .EXEC)
    (hpc : s.pc t = .running f own) (hget : s.pool[f]? = some r) :
    Inv ((s.setFiber f { r with state }).goto t (.yielding f own)) := by
  have hcur : current s t = some f := current_of_pc hpc
  refine ⟨?_, ?_, h.savedFirst⟩
  · apply h.held.congr
    · exact current_goto_same hcur
    · exact has_setFiber_same hget Iff.rfl
  · apply h.executed.leave (runs_of_pc hpc) runs_goto
    intro x
    apply (has_setFiber hget _ x).trans
    simp [hne, Executing]

/-- The switch out: the context is saved and the worker is back in `run`. -/
theorem Inv.switchOut (h : Inv s) (hpc : s.pc t = .yielding f own) (hget : s.pool[f]? = some r) :
    Inv ((s.setFiber f { r with saved := true }).goto t (.returned f own)) := by
  have hrun : runs s t = none := runs_of_pc hpc
  refine ⟨?_, ?_, h.savedFirst⟩
  · apply h.held.leave (current_of_pc hpc) current_goto
    intro x
    apply (has_setFiber hget _ x).trans
    simp [Unsaved]
  · apply h.executed.congr
    · exact runs_goto_same hrun
    · exact has_setFiber_same hget Iff.rfl

/-- The switch in to a saved fiber that is not in execution. -/
theorem Inv.swapIn (h : Inv s) (hpc : s.pc t = .chosen f own) (hget : s.pool[f]? = some r)
    (hs : r.saved = true) (he : r.state ≠ .EXEC) :
    Inv ({ s.setFiber f ⟨.EXEC, false, .unset⟩ with torn := s.torn || !r.saved }.goto t
      (.running f own)) := by
  have hsaved : ¬ Unsaved s f := by
    intro hun
    rw [Unsaved, has_of_get hget, hs] at hun
    cases hun
  have hidle : ¬ Executing s f := by
    intro hex
    exact he ((has_of_get hget).mp hex)
  have hbusy (P : Fiber → Prop) (hP : P ⟨.EXEC, false, .unset⟩) (x : Nat) :
      Has P (s.setFiber f ⟨.EXEC, false, .unset⟩) x ↔ x = f ∨ Has P s x := by
    rw [has_setFiber hget]
    by_cases same : x = f
    · simp [same, hP]
    · simp [same]
  refine ⟨?_, ?_, ?_⟩
  · exact h.held.sit (current_of_pc hpc) hsaved current_goto (hbusy _ rfl)
  · exact h.executed.sit (runs_of_pc hpc) hidle runs_goto (hbusy _ rfl)
  · change (s.torn || !r.saved) = false
    rw [h.savedFirst, hs]
    rfl

theorem Inv.step {a : Action θ} (h : Inv s) (hstep : s.step a = some s') (hapart : Apart s a) :
    Inv s' := by
  cases step_rule hstep with
  | schedule => exact h.push _ _
  | scheduleFiber => exact h.create.push _ _
  | @pop t ft hpc hfind =>
      have hqueue : Inv { s with fibers := s.fibers.eraseP (s.takes t) } :=
        ⟨h.held, h.executed, h.savedFirst⟩
      exact hqueue.move hpc rfl rfl
  | dead hpc hget hr => exact h.move hpc rfl rfl
  | alive hpc hget hr => exact h.move hpc rfl rfl
  | @reset t f r hpc hown hget hr =>
      refine (h.idleStore hget ?_ (by decide)).move hpc rfl rfl
      intro hex
      rw [hex] at hr
      revert hr
      decide
  | @fresh t hpc hown =>
      have hnew : Inv { s.create with
          cbFiber := Function.update s.cbFiber t (some s.pool.length) } :=
        ⟨h.create.held, h.create.executed, h.create.savedFirst⟩
      exact hnew.move hpc rfl rfl
  | swapIn hpc hget he => exact h.swapIn hpc hget (h.saved_of_apart hget he (hapart _ _ hpc)) he
  | arm hpc hget hw => exact h.setFiber hget rfl Iff.rfl
  | yieldToHold hpc hget => exact h.store (by decide) hpc hget
  | yieldToReady hpc hget hw => exact h.store (by decide) hpc hget
  | @finish t thrown f own r hpc hget hw => exact h.store (by cases thrown <;> decide) hpc hget
  | switchOut hpc hget => exact h.switchOut hpc hget
  | @trigger f r hget hw =>
      have hfired : Inv (s.setFiber f { r with wake := .fired }) := h.setFiber hget rfl Iff.rfl
      exact hfired.push _ _
  | @requeue t f own r hpc hget hr =>
      refine ((h.push _ _).release own).move (q := .returned f own) ?_ rfl rfl
      cases own <;> exact hpc
  | @ended t f own r hpc hget hends =>
      cases own with
      | false => exact h.move hpc rfl rfl
      | true =>
          refine (h.idleStore hget ?_ (by decide)).move hpc rfl rfl
          intro hex
          rw [hex] at hends
          revert hends
          decide
  | @held t f own r hpc hget hr hends =>
      have he : r.state ≠ .EXEC := by
        intro he
        obtain ⟨u, hu⟩ := (h.executed.recorded f).mp ((has_of_get hget).mpr he)
        obtain ⟨own', hrunning⟩ := runs_eq_some.mp hu
        exact hapart f own hpc u own' hrunning
      refine ((h.idleStore hget he (by decide)).release own).move (q := .returned f own) ?_ rfl rfl
      cases own <;> exact hpc

/-- A step out of order breaks the exclusion at once. -/
theorem Inv.broken {a : Action θ} (h : Inv s) (hstep : s.step a = some s')
    (hapart : ¬ Apart s a) : ¬ Exclusive s' := by
  intro hex
  apply hapart
  cases step_rule hstep with
  | @swapIn t f own r hpc hget he =>
      intro f' own' hpc' u own'' hpcu
      cases hpc.symm.trans hpc'
      have hne : u ≠ t := by
        rintro rfl
        cases hpc.symm.trans hpcu
      apply hne
      apply hex.oneThread u t f
      · rw [current_goto, Function.update_of_ne hne]
        exact current_of_pc hpcu
      · rw [current_goto, Function.update_self]
        rfl
  | @requeue t f own r hpc hget hr =>
      intro f' own' hpc' u own'' hpcu
      cases hpc.symm.trans hpc'
      cases hr.symm.trans (h.exec_of_running hpcu hget)
  | @ended t f own r hpc hget hends =>
      intro f' own' hpc' u own'' hpcu
      cases hpc.symm.trans hpc'
      rw [h.exec_of_running hpcu hget] at hends
      revert hends
      decide
  | @held t f own r hpc hget hr hends =>
      intro f' own' hpc' u own'' hpcu
      cases hpc.symm.trans hpc'
      have hne : u ≠ t := by
        rintro rfl
        cases hpc.symm.trans hpcu
      have hrun : runs (((s.setFiber f { r with state := .HOLD }).release t own).goto t .loop) u =
          some f := by
        rw [runs_goto, Function.update_of_ne hne]
        cases own <;> exact runs_of_pc hpcu
      have hin := (hex.exec f).mpr ⟨u, hrun⟩
      have hstored : Executing (s.setFiber f { r with state := .HOLD }) f := by
        cases own <;> exact hin
      rcases (has_setFiber hget _ f).mp hstored with ⟨_, hstate⟩ | ⟨hff, _⟩
      · cases hstate
      · exact absurd rfl hff
  | _ => trivial

/-- In a run the fibers are used exclusively exactly when every switch in and every update is
apart from the fiber's other worker. -/
theorem fiber_exclusivity (as : List (Action θ)) :
    Always Workers.step Exclusive (Workers.new : Workers θ) as ↔
      Each Workers.step Apart (Workers.new : Workers θ) as :=
  always_iff_each (fun _ _ _ h hstep hapart => h.step hstep hapart)
    (fun _ _ _ h hstep hapart => h.broken hstep hapart) (fun _ h => h.exclusive) Inv.new as

end Moves

/-- The event fires between the store of `HOLD` and the switch out, and the second worker resumes
the fiber at once. -/
theorem woken_while_yielding : ¬ ∀ as : List (Action Bool),
    Always Workers.step Exclusive Workers.new as := by
  intro h
  obtain ⟨s, hs, hfacts⟩ := Option.map_eq_some_iff.mp (show (exec Workers.step
      (Workers.new : Workers Bool) [.schedule none, .pop false, .choose false, .swapIn false,
        .arm false, .yieldToHold false, .trigger 0, .pop true, .choose true, .swapIn true]).map
        (fun s => (current s false, current s true)) = some (some 0, some 0) by decide)
  obtain ⟨hfirst, hsecond⟩ := Prod.mk.inj hfacts
  exact absurd ((always_end (h _) hs).oneThread false true 0 hfirst hsecond) (by decide)

end HCServer.Scheduler
