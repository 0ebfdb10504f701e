import HCServer.Scheduler.Loop
import Mathlib.Data.List.TakeWhile

/-! What one step of the loop does to a worker's place, to the queue and to the counts. -/
namespace HCServer.Scheduler
open Lib Workers
variable {θ ε : Type}

/-- Every fiber in execution is some worker's. -/
def Manned (w : Workers θ) : Prop := ∀ f, Executing w f → ∃ t, runs w t = some f

section Workers
variable {w w' : Workers θ} {t : θ} {f : Nat} {r r' : Fiber} {p : Pc}

theorem Manned.new : Manned (.new : Workers θ) := by
  rintro f ⟨r, hr, -⟩
  cases hr

theorem Manned.push (h : Manned w) (job : Job) (threadid : Option θ) : Manned (w.push job threadid) := h

theorem Manned.create (h : Manned w) : Manned w.create := by
  intro f hf
  exact h f ((has_create (by decide) f).mp hf)

/-- A store that does not start an execution. -/
theorem Manned.setFiber (h : Manned w) (hget : w.pool[f]? = some r)
    (he : r'.state = .EXEC → r.state = .EXEC) : Manned (w.setFiber f r') := by
  intro x hx
  rcases (has_setFiber hget r' x).mp hx with ⟨rfl, hstate⟩ | ⟨-, hold⟩
  · exact h x ((has_of_get hget).mpr (he hstate))
  · exact h x hold

variable [DecidableEq θ]

theorem Manned.release (h : Manned w) (t : θ) (own : Bool) : Manned (w.release t own) := by
  cases own with
  | false => exact h
  | true => exact h

/-- A worker only leaves a fiber that is not in execution any more. -/
theorem Manned.goto (h : Manned w) (hleft : ∀ f, runs w t = some f → ¬ Executing w f) :
    Manned (w.goto t p) := by
  intro f hf
  obtain ⟨u, hu⟩ := h f hf
  refine ⟨u, ?_⟩
  rw [runs_goto]
  by_cases hut : u = t
  · subst hut
    exact absurd hf (hleft f hu)
  · rw [Function.update_of_ne hut]
    exact hu

/-- A worker that is not running moves on. -/
theorem Manned.move {q : Pc} (h : Manned w) (hpc : w.pc t = q) (hq : q.runs = none) :
    Manned (w.goto t p) := by
  apply h.goto
  intro f hf
  cases hq.symm.trans ((runs_of_pc hpc).symm.trans hf)

theorem Manned.store {own : Bool} {state : FiberState} (h : Manned w) (hne : state ≠ .EXEC)
    (hpc : w.pc t = .running f own) (hget : w.pool[f]? = some r) :
    Manned ((w.setFiber f { r with state }).goto t (.yielding f own)) := by
  apply (h.setFiber hget fun he => absurd he hne).goto
  intro x hx hex
  have hfx : f = x := Option.some.inj ((runs_of_pc hpc).symm.trans hx)
  subst hfx
  rcases (has_setFiber hget _ f).mp hex with ⟨-, hstate⟩ | ⟨hff, -⟩
  · exact hne hstate
  · exact hff rfl

theorem Manned.swapIn {own : Bool} (h : Manned w) (hpc : w.pc t = .chosen f own)
    (hget : w.pool[f]? = some r) :
    Manned ((w.setFiber f ⟨.EXEC, false, .unset⟩).goto t (.running f own)) := by
  intro x hx
  rw [runs_goto]
  rcases (has_setFiber hget _ x).mp hx with ⟨rfl, -⟩ | ⟨-, hold⟩
  · exact ⟨t, Function.update_self _ _ _⟩
  · obtain ⟨u, hu⟩ := h x hold
    refine ⟨u, ?_⟩
    rw [Function.update_of_ne]
    · exact hu
    · rintro rfl
      cases (runs_of_pc hpc).symm.trans hu

theorem Manned.step {a : Action θ} (h : Manned w) (hstep : w.step a = some w') : Manned w' := by
  cases Workers.step_rule hstep with
  | schedule => exact h.push _ _
  | scheduleFiber => exact h.create.push _ _
  | @pop t ft hpc hfind =>
      have hqueue : Manned { w with fibers := w.fibers.eraseP (w.takes t) } := h
      exact hqueue.move hpc rfl
  | dead hpc hget hr => exact h.move hpc rfl
  | alive hpc hget hr => exact h.move hpc rfl
  | @reset t f r hpc hown hget hr =>
      have hset : Manned (w.setFiber f { r with state := .INIT }) := h.setFiber hget (by simp)
      exact hset.move hpc rfl
  | @fresh t hpc hown =>
      have hnew : Manned { w.create with
          cbFiber := Function.update w.cbFiber t (some w.pool.length) } := h.create
      exact hnew.move hpc rfl
  | swapIn hpc hget he => exact h.swapIn hpc hget
  | arm hpc hget hw => exact h.setFiber hget id
  | yieldToHold hpc hget => exact h.store (by decide) hpc hget
  | yieldToReady hpc hget hw => exact h.store (by decide) hpc hget
  | @finish t thrown f own r hpc hget hw => exact h.store (by cases thrown <;> decide) hpc hget
  | @switchOut t f own r hpc hget =>
      have hset : Manned (w.setFiber f { r with saved := true }) := h.setFiber hget id
      exact hset.move hpc rfl
  | @trigger f r hget hw =>
      have hset : Manned (w.setFiber f { r with wake := .fired }) := h.setFiber hget id
      exact hset.push _ _
  | @requeue t f own r hpc hget hr =>
      refine ((h.push _ _).release t own).move (q := .returned f own) ?_ rfl
      cases own <;> exact hpc
  | @ended t f own r hpc hget hends =>
      cases own with
      | false => exact h.move hpc rfl
      | true =>
          have hset : Manned (w.setFiber f { r with state := .INIT }) := h.setFiber hget (by simp)
          exact hset.move hpc rfl
  | @held t f own r hpc hget hr hends =>
      have hset : Manned (w.setFiber f { r with state := .HOLD }) := h.setFiber hget (by simp)
      refine (hset.release t own).move (q := .returned f own) ?_ rfl
      cases own <;> exact hpc

/-- `schedule` adds one entry. -/
theorem schedule_step {fc : FiberOrCb θ} (hstep : w.step fc.action = some w') :
    w'.pc = w.pc ∧ ∃ ft, w'.fibers = w.fibers ++ [ft] ∧ ft.threadid = fc.threadid := by
  cases fc with
  | cb threadid =>
      cases Workers.step_rule hstep with
      | schedule => exact ⟨rfl, _, rfl, rfl⟩
  | new threadid =>
      cases Workers.step_rule hstep with
      | scheduleFiber => exact ⟨rfl, _, rfl, rfl⟩
  | fiber f =>
      cases Workers.step_rule hstep with
      | trigger hget hw => exact ⟨rfl, _, rfl, rfl⟩

theorem pop_step (hstep : w.step (.pop t) = some w') :
    ∃ job, w'.pc = Function.update w.pc t (.popped job) ∧ w'.fibers = w.fibers.eraseP (w.takes t) := by
  cases Workers.step_rule hstep with
  | pop hpc hfind => exact ⟨_, rfl, rfl⟩

/-- A fiber that has come back is queued again or not. -/
theorem update_step (hstep : w.step (.update t) = some w') :
    w'.pc = Function.update w.pc t .loop ∧
      (w'.fibers = w.fibers ∨ ∃ f, w'.fibers = w.fibers ++ [⟨.fiber f, none⟩]) := by
  cases Workers.step_rule hstep with
  | @requeue _ f own r hpc hget hr =>
      cases own with
      | false => exact ⟨rfl, Or.inr ⟨f, rfl⟩⟩
      | true => exact ⟨rfl, Or.inr ⟨f, rfl⟩⟩
  | @ended _ f own r hpc hget hends =>
      cases own with
      | false => exact ⟨rfl, Or.inl rfl⟩
      | true => exact ⟨rfl, Or.inl rfl⟩
  | @held _ f own r hpc hget hr hends =>
      cases own with
      | false => exact ⟨rfl, Or.inl rfl⟩
      | true => exact ⟨rfl, Or.inl rfl⟩

/-- A worker's turn is its own affair. -/
theorem turn_step {a : Turn} (hstep : w.step (a.action t) = some w') :
    (∃ p, w'.pc = Function.update w.pc t p) ∧ w'.fibers = w.fibers := by
  cases a with
  | choose =>
      cases Workers.step_rule hstep with
      | dead hpc hget hr => exact ⟨⟨_, rfl⟩, rfl⟩
      | alive hpc hget hr => exact ⟨⟨_, rfl⟩, rfl⟩
      | reset hpc hown hget hr => exact ⟨⟨_, rfl⟩, rfl⟩
      | fresh hpc hown => exact ⟨⟨_, rfl⟩, rfl⟩
  | swapIn =>
      cases Workers.step_rule hstep with
      | swapIn hpc hget he => exact ⟨⟨_, rfl⟩, rfl⟩
  | arm =>
      cases Workers.step_rule hstep with
      | arm hpc hget hw => exact ⟨⟨w.pc t, (Function.update_eq_self t w.pc).symm⟩, rfl⟩
  | yieldToHold =>
      cases Workers.step_rule hstep with
      | yieldToHold hpc hget => exact ⟨⟨_, rfl⟩, rfl⟩
  | yieldToReady =>
      cases Workers.step_rule hstep with
      | yieldToReady hpc hget hw => exact ⟨⟨_, rfl⟩, rfl⟩
  | finish thrown =>
      cases Workers.step_rule hstep with
      | finish hpc hget hw => exact ⟨⟨_, rfl⟩, rfl⟩
  | switchOut =>
      cases Workers.step_rule hstep with
      | switchOut hpc hget => exact ⟨⟨_, rfl⟩, rfl⟩

end Workers

namespace Loop
variable [DecidableEq θ] [DecidableEq ε]

/-- What each step does and what has let it happen. -/
inductive Rule (s : Loop θ ε) : Move θ ε → Loop θ ε → Prop
  | schedule {c fc w} (hc : s.Codes c) (hw : s.workers.step fc.action = some w) :
      Rule s (.schedule c fc) (s.accept c w false)
  | fire {c fc w} (hc : s.Codes c ∨ s.Handles c) (he : 0 < s.events)
      (hw : s.workers.step fc.action = some w) :
      Rule s (.fire c fc) ({ s with events := s.events - 1, firing := s.firing + 1 }.accept c w true)
  | notify {c} (hc : s.Codes c) : Rule s (.notify c) (s.proceed c (.tickle false))
  | heard {c fired} (hc : s.call c = .tickle fired) (hi : 0 < s.idlethreadcount) :
      Rule s (.tickle c) (s.proceed c (.write fired))
  | unheard {c fired} (hc : s.call c = .tickle fired) (hi : s.idlethreadcount = 0) :
      Rule s (.tickle c) (s.proceed c (.after fired))
  | write {c fired} (hc : s.call c = .write fired) :
      Rule s (.write c) ({ s with pipe := s.pipe + 1 }.proceed c (.after fired))
  | settle {c} (hc : s.call c = .settle) :
      Rule s (.settle c) ({ s with firing := s.firing - 1 }.proceed c .free)
  | addTimer {c} (hc : s.Codes c) : Rule s (.addTimer c) { s with timers := s.timers + 1 }
  | cancelTimer {c} (hc : s.Codes c) (ht : 0 < s.timers) :
      Rule s (.cancelTimer c) { s with timers := s.timers - 1 }
  | addEvent {c} (hc : s.Codes c) : Rule s (.addEvent c) { s with events := s.events + 1 }
  | delEvent {c} (hc : s.Codes c) (he : 0 < s.events) :
      Rule s (.delEvent c) { s with events := s.events - 1 }
  | pop {t w} (h : s.Stands t .top) (hw : s.workers.step (.pop t) = some w) :
      Rule s (.pop t)
        { s.scanned t .busy with workers := w, activethreadcount := s.activethreadcount + 1 }
  | scanEmpty {t} (h : s.Stands t .top) (hf : s.workers.fibers.find? (s.workers.takes t) = none) :
      Rule s (.scanEmpty t) (s.scanned t .gap)
  | turn {t a w} (h : s.Stands t .busy) (hw : s.workers.step (a.action t) = some w)
      (hpc : w.pc t ≠ .loop) : Rule s (.turn t a) ({ s with workers := w }.enter t .busy)
  | drop {t a w} (h : s.Stands t .busy) (hw : s.workers.step (a.action t) = some w)
      (hpc : w.pc t = .loop) : Rule s (.turn t a) ({ s with workers := w }.enter t .dropped)
  | discard {t} (h : s.Stands t .dropped) :
      Rule s (.discard t) ({ s with activethreadcount := s.activethreadcount - 1 }.enter t .top)
  | release {t f own} (h : s.Stands t .busy) (hpc : s.workers.pc t = .returned f own) :
      Rule s (.release t) ({ s with activethreadcount := s.activethreadcount - 1 }.enter t .settled)
  | update {t w} (h : s.Stands t .settled) (hw : s.workers.step (.update t) = some w) :
      Rule s (.update t) ((s.accept (.inl t) w false).enter t .top)
  | enterIdle {t} (h : s.Stands t .gap) (he : s.ended t = false) :
      Rule s (.enterIdle t) ({ s with idlethreadcount := s.idlethreadcount + 1 }.enter t .entered)
  | noTimer {t} (h : s.Stands t .entered) (hn : s.timers = 0) :
      Rule s (.getNextTimer t) (s.enter t .timed)
  | timers {t} (h : s.Stands t .entered) (hn : s.timers ≠ 0) :
      Rule s (.getNextTimer t) (s.enter t .waiting)
  | noPending {t} (h : s.Stands t .timed) (hn : s.pendingEventCount = 0) :
      Rule s (.readPending t) (s.enter t .counted)
  | pending {t} (h : s.Stands t .timed) (hn : s.pendingEventCount ≠ 0) :
      Rule s (.readPending t) (s.enter t .waiting)
  | giveUp {t} (h : s.Stands t .counted)
      (hs : s.stopping = true ∧ s.workers.fibers = [] ∧ s.activethreadcount = 0) :
      Rule s (.checkQueue t) ({ s with ended := Function.update s.ended t true }.enter t .back)
  | goOn {t} (h : s.Stands t .counted)
      (hs : ¬ (s.stopping = true ∧ s.workers.fibers = [] ∧ s.activethreadcount = 0)) :
      Rule s (.checkQueue t) (s.enter t .waiting)
  | wake {t tickled} (h : s.Stands t .waiting) (hp : tickled = true → 0 < s.pipe) :
      Rule s (.wake t tickled) (s.enter t (.woken tickled))
  | listExpiredCb {t expired recurring tickled} (h : s.Stands t (.woken tickled))
      (he : expired ≤ s.timers) (hr : recurring ≤ expired) :
      Rule s (.listExpiredCb t expired recurring)
        ({ s with timers := s.timers - expired + recurring }.enter t (.listed tickled expired))
  | scheduleExpired {t tickled cbs} (h : s.Stands t (.listed tickled cbs)) :
      Rule s (.scheduleExpired t)
        ((s.accept (.inl t) (pushAll s.workers cbs) false).enter t (.handling tickled))
  | drain {t} (h : s.Stands t (.handling true)) :
      Rule s (.drain t) ({ s with pipe := 0 }.enter t (.handling false))
  | idleSwapOut {t} (h : s.Stands t (.handling false)) : Rule s (.idleSwapOut t) (s.enter t .back)
  | leaveIdle {t} (h : s.Stands t .back) :
      Rule s (.leaveIdle t) ({ s with idlethreadcount := s.idlethreadcount - 1 }.enter t .top)
  | exit {t} (h : s.Stands t .gap) (he : s.ended t = true) : Rule s (.exit t) (s.enter t .exited)
  | stop : Rule s .stop { s with stopping := true }

variable {s s' : Loop θ ε} {a : Move θ ε} {t : θ} {p : Place}

theorem step_rule (hs : s.step a = some s') : Rule s a s' := by
  cases a with
  | schedule c fc =>
      simp only [step, Option.ite_none_right_eq_some, Option.map_eq_some_iff] at hs
      obtain ⟨hc, w, hw, rfl⟩ := hs
      exact .schedule hc hw
  | fire c fc =>
      simp only [step, Option.ite_none_right_eq_some, Option.map_eq_some_iff] at hs
      obtain ⟨⟨hc, he⟩, w, hw, rfl⟩ := hs
      exact .fire hc he hw
  | notify c =>
      simp only [step, Option.ite_none_right_eq_some, Option.some.injEq] at hs
      obtain ⟨hc, rfl⟩ := hs
      exact .notify hc
  | tickle c =>
      simp only [step] at hs
      split at hs
      case h_1 fired hc =>
        cases hs
        split
        case isTrue hi => exact .heard hc hi
        case isFalse hi => exact .unheard hc (Nat.eq_zero_of_not_pos hi)
      case h_2 => cases hs
  | write c =>
      simp only [step] at hs
      split at hs
      case h_1 fired hc =>
        cases hs
        exact .write hc
      case h_2 => cases hs
  | settle c =>
      simp only [step, Option.ite_none_right_eq_some, Option.some.injEq] at hs
      obtain ⟨hc, rfl⟩ := hs
      exact .settle hc
  | addTimer c =>
      simp only [step, Option.ite_none_right_eq_some, Option.some.injEq] at hs
      obtain ⟨hc, rfl⟩ := hs
      exact .addTimer hc
  | cancelTimer c =>
      simp only [step, Option.ite_none_right_eq_some, Option.some.injEq] at hs
      obtain ⟨⟨hc, ht⟩, rfl⟩ := hs
      exact .cancelTimer hc ht
  | addEvent c =>
      simp only [step, Option.ite_none_right_eq_some, Option.some.injEq] at hs
      obtain ⟨hc, rfl⟩ := hs
      exact .addEvent hc
  | delEvent c =>
      simp only [step, Option.ite_none_right_eq_some, Option.some.injEq] at hs
      obtain ⟨⟨hc, he⟩, rfl⟩ := hs
      exact .delEvent hc he
  | pop t =>
      simp only [step, Option.ite_none_right_eq_some, Option.map_eq_some_iff] at hs
      obtain ⟨h, w, hw, rfl⟩ := hs
      exact .pop h hw
  | scanEmpty t =>
      simp only [step, Option.ite_none_right_eq_some, Option.some.injEq] at hs
      obtain ⟨⟨h, hf⟩, rfl⟩ := hs
      exact .scanEmpty h hf
  | turn t a =>
      simp only [step, Option.ite_none_right_eq_some, Option.map_eq_some_iff] at hs
      obtain ⟨h, w, hw, rfl⟩ := hs
      split
      case isTrue hpc => exact .drop h hw hpc
      case isFalse hpc => exact .turn h hw hpc
  | discard t =>
      simp only [step, Option.ite_none_right_eq_some, Option.some.injEq] at hs
      obtain ⟨h, rfl⟩ := hs
      exact .discard h
  | release t =>
      simp only [step] at hs
      split at hs
      case h_1 f own hpc =>
        simp only [Option.ite_none_right_eq_some, Option.some.injEq] at hs
        obtain ⟨h, rfl⟩ := hs
        exact .release h hpc
      case h_2 => cases hs
  | update t =>
      simp only [step, Option.ite_none_right_eq_some, Option.map_eq_some_iff] at hs
      obtain ⟨h, w, hw, rfl⟩ := hs
      exact .update h hw
  | enterIdle t =>
      simp only [step, Option.ite_none_right_eq_some, Option.some.injEq] at hs
      obtain ⟨⟨h, he⟩, rfl⟩ := hs
      exact .enterIdle h he
  | getNextTimer t =>
      simp only [step, Option.ite_none_right_eq_some, Option.some.injEq] at hs
      obtain ⟨h, rfl⟩ := hs
      split
      case isTrue hn => exact .noTimer h hn
      case isFalse hn => exact .timers h hn
  | readPending t =>
      simp only [step, Option.ite_none_right_eq_some, Option.some.injEq] at hs
      obtain ⟨h, rfl⟩ := hs
      split
      case isTrue hn => exact .noPending h hn
      case isFalse hn => exact .pending h hn
  | checkQueue t =>
      simp only [step, Option.ite_none_right_eq_some] at hs
      obtain ⟨h, hs⟩ := hs
      split at hs
      case isTrue hstop =>
        cases hs
        exact .giveUp h hstop
      case isFalse hstop =>
        cases hs
        exact .goOn h hstop
  | wake t tickled =>
      simp only [step, Option.ite_none_right_eq_some, Option.some.injEq] at hs
      obtain ⟨⟨h, hp⟩, rfl⟩ := hs
      exact .wake h hp
  | listExpiredCb t expired recurring =>
      simp only [step] at hs
      split at hs
      case h_1 tickled h =>
        simp only [Option.ite_none_right_eq_some, Option.some.injEq] at hs
        obtain ⟨⟨hc, he, hr⟩, rfl⟩ := hs
        exact .listExpiredCb ⟨h, hc⟩ he hr
      case h_2 => cases hs
  | scheduleExpired t =>
      simp only [step] at hs
      split at hs
      case h_1 tickled cbs h =>
        simp only [Option.ite_none_right_eq_some, Option.some.injEq] at hs
        obtain ⟨hc, rfl⟩ := hs
        exact .scheduleExpired ⟨h, hc⟩
      case h_2 => cases hs
  | drain t =>
      simp only [step, Option.ite_none_right_eq_some, Option.some.injEq] at hs
      obtain ⟨h, rfl⟩ := hs
      exact .drain h
  | idleSwapOut t =>
      simp only [step, Option.ite_none_right_eq_some, Option.some.injEq] at hs
      obtain ⟨h, rfl⟩ := hs
      exact .idleSwapOut h
  | leaveIdle t =>
      simp only [step, Option.ite_none_right_eq_some, Option.some.injEq] at hs
      obtain ⟨h, rfl⟩ := hs
      exact .leaveIdle h
  | exit t =>
      simp only [step, Option.ite_none_right_eq_some, Option.some.injEq] at hs
      obtain ⟨⟨h, he⟩, rfl⟩ := hs
      exact .exit h he
  | stop =>
      cases hs
      exact .stop

/-- The way of one worker in a step, and whether its idle fiber is at its end then. -/
inductive Edge (s : Loop θ ε) (a : Move θ ε) (t : θ) : Place → Bool → Prop
  | pop (h : s.place t = .top) : Edge s a t .busy (s.ended t)
  | scanEmpty (h : s.place t = .top) (ha : a = .scanEmpty t) : Edge s a t .gap (s.ended t)
  | turn (h : s.place t = .busy) : Edge s a t .busy (s.ended t)
  | drop (h : s.place t = .busy) : Edge s a t .dropped (s.ended t)
  | release (h : s.place t = .busy) : Edge s a t .settled (s.ended t)
  | top (h : s.place t = .dropped ∨ s.place t = .settled ∨ s.place t = .back) :
      Edge s a t .top (s.ended t)
  | enterIdle (h : s.place t = .gap) (he : s.ended t = false) : Edge s a t .entered (s.ended t)
  | noTimer (h : s.place t = .entered) (hn : s.timers = 0) : Edge s a t .timed (s.ended t)
  | noPending (h : s.place t = .timed) (hn : s.pendingEventCount = 0) : Edge s a t .counted (s.ended t)
  | wait (h : s.place t = .entered ∨ s.place t = .timed ∨ s.place t = .counted) :
      Edge s a t .waiting (s.ended t)
  | giveUp (h : s.place t = .counted) (ha : a = .checkQueue t)
      (hs : s.stopping = true ∧ s.workers.fibers = [] ∧ s.activethreadcount = 0) : Edge s a t .back true
  | wake (tickled : Bool) (h : s.place t = .waiting) : Edge s a t (.woken tickled) (s.ended t)
  | list (tickled : Bool) (cbs : Nat) (h : s.place t = .woken tickled) :
      Edge s a t (.listed tickled cbs) (s.ended t)
  | handle (tickled : Bool) (cbs : Nat) (h : s.place t = .listed tickled cbs) :
      Edge s a t (.handling tickled) (s.ended t)
  | drain (h : s.place t = .handling true) : Edge s a t (.handling false) (s.ended t)
  | idleSwapOut (h : s.place t = .handling false) : Edge s a t .back (s.ended t)
  | exit (h : s.place t = .gap) (he : s.ended t = true) : Edge s a t .exited (s.ended t)

/-- One worker has gone along an edge. -/
def Moved (s : Loop θ ε) (a : Move θ ε) (s' : Loop θ ε) : Prop :=
  ∃ t p e, Edge s a t p e ∧ s'.place = Function.update s.place t p ∧
    s'.ended = Function.update s.ended t e

omit [DecidableEq ε] in
theorem Edge.moved (h : Edge s a t p (s.ended t)) (hp : s'.place = Function.update s.place t p)
    (he : s'.ended = s.ended) : Moved s a s' :=
  ⟨t, p, s.ended t, h, hp, he.trans (Function.update_eq_self t s.ended).symm⟩

/-- A step moves one worker, or none. -/
theorem place_step (hs : s.step a = some s') :
    (s'.place = s.place ∧ s'.ended = s.ended) ∨ Moved s a s' := by
  cases step_rule hs with
  | pop h => exact Or.inr (Edge.moved (.pop h.1) rfl rfl)
  | scanEmpty h hf => exact Or.inr (Edge.moved (.scanEmpty h.1 rfl) rfl rfl)
  | turn h => exact Or.inr (Edge.moved (.turn h.1) rfl rfl)
  | drop h => exact Or.inr (Edge.moved (.drop h.1) rfl rfl)
  | discard h => exact Or.inr (Edge.moved (.top (Or.inl h.1)) rfl rfl)
  | release h => exact Or.inr (Edge.moved (.release h.1) rfl rfl)
  | update h => exact Or.inr (Edge.moved (.top (Or.inr (Or.inl h.1))) rfl rfl)
  | enterIdle h he => exact Or.inr (Edge.moved (.enterIdle h.1 he) rfl rfl)
  | noTimer h hn => exact Or.inr (Edge.moved (.noTimer h.1 hn) rfl rfl)
  | timers h => exact Or.inr (Edge.moved (.wait (Or.inl h.1)) rfl rfl)
  | noPending h hn => exact Or.inr (Edge.moved (.noPending h.1 hn) rfl rfl)
  | pending h => exact Or.inr (Edge.moved (.wait (Or.inr (Or.inl h.1))) rfl rfl)
  | giveUp h hstop => exact Or.inr ⟨_, _, _, .giveUp h.1 rfl hstop, rfl, rfl⟩
  | goOn h => exact Or.inr (Edge.moved (.wait (Or.inr (Or.inr h.1))) rfl rfl)
  | wake h => exact Or.inr (Edge.moved (.wake _ h.1) rfl rfl)
  | listExpiredCb h => exact Or.inr (Edge.moved (.list _ _ h.1) rfl rfl)
  | scheduleExpired h => exact Or.inr (Edge.moved (.handle _ _ h.1) rfl rfl)
  | drain h => exact Or.inr (Edge.moved (.drain h.1) rfl rfl)
  | idleSwapOut h => exact Or.inr (Edge.moved (.idleSwapOut h.1) rfl rfl)
  | leaveIdle h => exact Or.inr (Edge.moved (.top (Or.inr (Or.inr h.1))) rfl rfl)
  | exit h he => exact Or.inr (Edge.moved (.exit h.1 he) rfl rfl)
  | _ => exact Or.inl ⟨rfl, rfl⟩

/-- Some worker stays in a set of places, unless an edge leads out of it. -/
theorem exists_step {R : Place → Bool → Prop} {X : Prop}
    (hedge : ∀ t p e, Edge s a t p e → R (s.place t) (s.ended t) → R p e ∨ X)
    (hs : s.step a = some s') (h : ∃ t, R (s.place t) (s.ended t)) :
    (∃ t, R (s'.place t) (s'.ended t)) ∨ X := by
  obtain ⟨u, hu⟩ := h
  rcases place_step hs with ⟨hplace, hended⟩ | ⟨t, p, e, he, hplace, hended⟩
  · exact Or.inl ⟨u, by rw [hplace, hended]; exact hu⟩
  · rw [hplace, hended]
    by_cases hut : u = t
    · subst hut
      rcases hedge u p e he hu with hR | hX
      · exact Or.inl ⟨u, by rw [Function.update_self, Function.update_self]; exact hR⟩
      · exact Or.inr hX
    · exact Or.inl ⟨u, by rw [Function.update_of_ne hut, Function.update_of_ne hut]; exact hu⟩

/-- Every worker stays in a set of places that no edge leads out of. -/
theorem forall_step {R : Place → Bool → Prop}
    (hedge : ∀ t p e, Edge s a t p e → R (s.place t) (s.ended t) → R p e)
    (hs : s.step a = some s') (h : ∀ t, R (s.place t) (s.ended t)) (u : θ) :
    R (s'.place u) (s'.ended u) := by
  rcases place_step hs with ⟨hplace, hended⟩ | ⟨t, p, e, he, hplace, hended⟩
  · rw [hplace, hended]
    exact h u
  · rw [hplace, hended]
    by_cases hut : u = t
    · subst hut
      rw [Function.update_self, Function.update_self]
      exact hedge u p e he (h u)
    · rw [Function.update_of_ne hut, Function.update_of_ne hut]
      exact h u

/-- A fiber in execution is a busy worker's. -/
structure Kept (s : Loop θ ε) : Prop where
  manned : Manned s.workers
  busy : ∀ t, runs s.workers t ≠ none → s.place t = .busy

omit [DecidableEq θ] [DecidableEq ε] in
theorem Kept.new : Kept (.new : Loop θ ε) := ⟨Manned.new, fun _ h => absurd rfl h⟩

theorem runs_update {w w' : Workers θ} {q : Pc} (hpc : w'.pc = Function.update w.pc t q) {u : θ}
    (hut : u ≠ t) : runs w' u = runs w u :=
  congrArg Pc.runs ((congrFun hpc u).trans (Function.update_of_ne hut q w.pc))

theorem runs_left {w w' : Workers θ} {q : Pc} (hpc : w'.pc = Function.update w.pc t q)
    (hq : q.runs = none) : runs w' t = none :=
  (congrArg Pc.runs ((congrFun hpc t).trans (Function.update_self t q w.pc))).trans hq

namespace Kept

omit [DecidableEq ε] in
theorem enter {q : Place} (h : Kept s) (hst : s.Stands t q) (hq : q ≠ .busy)
    (hw : s'.workers = s.workers) (hp : s'.place = Function.update s.place t p) : Kept s' := by
  refine ⟨hw ▸ h.manned, ?_⟩
  intro u hu
  rw [hw] at hu
  have hut : u ≠ t := by
    rintro rfl
    exact hq (hst.1.symm.trans (h.busy u hu))
  rw [hp, Function.update_of_ne hut]
  exact h.busy u hu

omit [DecidableEq ε] in
/-- The workers take a step that changes `t`'s place in `run` at most. -/
theorem work {w : Workers θ} {b : Action θ} {q : Pc} (h : Kept s) (hw : s.workers.step b = some w)
    (hpc : w.pc = Function.update s.workers.pc t q) (hpq : q.runs = none ∨ p = .busy)
    (hw' : s'.workers = w) (hp : s'.place = Function.update s.place t p) : Kept s' := by
  refine ⟨hw' ▸ h.manned.step hw, ?_⟩
  intro u hu
  rw [hw'] at hu
  rw [hp]
  by_cases hut : u = t
  · subst hut
    rw [Function.update_self]
    rcases hpq with hq | hbusy
    · exact absurd (runs_left hpc hq) hu
    · exact hbusy
  · rw [Function.update_of_ne hut]
    apply h.busy
    rw [← runs_update hpc hut]
    exact hu

omit [DecidableEq ε] in
theorem schedule {w : Workers θ} {fc : FiberOrCb θ} (h : Kept s)
    (hw : s.workers.step fc.action = some w) (hw' : s'.workers = w) (hp : s'.place = s.place) :
    Kept s' := by
  refine ⟨hw' ▸ h.manned.step hw, ?_⟩
  intro u hu
  rw [hw', runs, (schedule_step hw).1] at hu
  rw [hp]
  exact h.busy u hu

theorem step (h : Kept s) (hs : s.step a = some s') : Kept s' := by
  cases step_rule hs with
  | schedule hc hw => exact h.schedule hw rfl rfl
  | fire hc he hw => exact h.schedule hw rfl rfl
  | pop hst hw =>
      obtain ⟨job, hpc, -⟩ := pop_step hw
      exact h.work hw hpc (Or.inl rfl) rfl rfl
  | scanEmpty hst => exact h.enter hst (by simp) rfl rfl
  | turn hst hw hpc =>
      obtain ⟨⟨q, hq⟩, -⟩ := turn_step hw
      exact h.work hw hq (Or.inr rfl) rfl rfl
  | drop hst hw hpc =>
      obtain ⟨⟨q, hq⟩, -⟩ := turn_step hw
      rw [hq, Function.update_self] at hpc
      exact h.work hw hq (Or.inl (congrArg Pc.runs hpc)) rfl rfl
  | discard hst => exact h.enter hst (by simp) rfl rfl
  | release hst hpc =>
      refine ⟨h.manned, ?_⟩
      intro u hu
      refine (Function.update_of_ne ?_ _ s.place).trans (h.busy u hu)
      rintro rfl
      exact hu (runs_of_pc hpc)
  | update hst hw => exact h.work hw (update_step hw).1 (Or.inl rfl) rfl rfl
  | enterIdle hst => exact h.enter hst (by simp) rfl rfl
  | noTimer hst => exact h.enter hst (by simp) rfl rfl
  | timers hst => exact h.enter hst (by simp) rfl rfl
  | noPending hst => exact h.enter hst (by simp) rfl rfl
  | pending hst => exact h.enter hst (by simp) rfl rfl
  | giveUp hst => exact h.enter hst (by simp) rfl rfl
  | goOn hst => exact h.enter hst (by simp) rfl rfl
  | wake hst => exact h.enter hst (by simp) rfl rfl
  | listExpiredCb hst => exact h.enter hst (by simp) rfl rfl
  | @scheduleExpired t tickled cbs hst =>
      have hpushed : Kept { s with workers := pushAll s.workers cbs } := ⟨h.manned, h.busy⟩
      exact hpushed.enter hst (by simp) rfl rfl
  | drain hst => exact h.enter hst (by simp) rfl rfl
  | idleSwapOut hst => exact h.enter hst (by simp) rfl rfl
  | leaveIdle hst => exact h.enter hst (by simp) rfl rfl
  | exit hst => exact h.enter hst (by simp) rfl rfl
  | _ => exact ⟨h.manned, h.busy⟩

end Kept

omit [DecidableEq ε] in
/-- A scan that finds nothing to take in a queue that is not empty has passed another thread's entry, or a
fiber that another worker has in execution. -/
theorem Kept.scan (h : Kept s) (htop : s.place t = .top)
    (hf : s.workers.fibers.find? (s.workers.takes t) = none) {ft : FiberAndThread θ}
    (hft : ft ∈ s.workers.fibers) :
    (ft.threadid ≠ none ∧ s.tickleMe t = true) ∨ ∃ u, u ≠ t ∧ s.place u = .busy := by
  have hnone := List.find?_eq_none.mp hf
  have hpass := hnone ft hft
  by_cases hown : ft.threadid = none ∨ ft.threadid = some t
  · right
    cases hjob : ft.job with
    | cb => simp [Workers.takes, hjob, hown] at hpass
    | fiber f =>
        have hstate : (s.workers.pool[f]?).map Fiber.state = some .EXEC := by
          simpa [Workers.takes, hjob, hown] using hpass
        obtain ⟨r, hr, hexec⟩ := Option.map_eq_some_iff.mp hstate
        obtain ⟨u, hu⟩ := h.manned f ⟨r, hr, hexec⟩
        have hbusy := h.busy u (by simp [hu])
        refine ⟨u, ?_, hbusy⟩
        rintro rfl
        cases htop.symm.trans hbusy
  · left
    rw [not_or] at hown
    refine ⟨hown.1, ?_⟩
    have hall : s.workers.fibers.takeWhile (fun ft => !s.workers.takes t ft) = s.workers.fibers := by
      apply List.takeWhile_eq_self_iff.mpr
      intro x hx
      simpa using hnone x hx
    unfold tickleMe
    rw [hall, List.any_eq_true]
    refine ⟨ft, hft, ?_⟩
    simp [Option.isSome_iff_ne_none, hown]

end Loop
end HCServer.Scheduler
