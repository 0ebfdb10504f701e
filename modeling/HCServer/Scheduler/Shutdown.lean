import HCServer.Scheduler.Wakeup

/-! The end of the workers. Each one tests the timers, the pending events and the queue one after the
other before it gives up, and may still run tasks afterwards. -/
namespace HCServer.Scheduler
open Lib
variable {θ ε : Type}

namespace Loop

/-- When all the workers have returned from `run`, nothing is left to do. -/
def Finished (s : Loop θ ε) : Prop :=
  (∀ t, s.place t = .exited) → s.workers.fibers = [] ∧ s.timers = 0 ∧ s.pendingEventCount = 0

/-- No task has a thread of its own, and after `stop` only the workers schedule, or a fired event. -/
def Promised (s : Loop θ ε) : Move θ ε → Prop
  | .schedule c fc => fc.threadid = none ∧ (s.stopping = true → c.isLeft = true)
  | .fire _ fc => fc.threadid = none
  | _ => True

/-- The last worker to give up does so while no timer is armed and no event pending, and none comes
afterwards. -/
def Covered (s : Loop θ ε) : Move θ ε → Prop
  | .checkQueue t => s.stopping = true → s.workers.fibers = [] → s.activethreadcount = 0 →
      (∀ u, u ≠ t → s.ended u = true) → s.timers = 0 ∧ s.pendingEventCount = 0
  | .addTimer _ => ∃ u, s.ended u = false
  | .addEvent _ => ∃ u, s.ended u = false
  | _ => True

instance [DecidableEq θ] (s : Loop θ ε) (a : Move θ ε) : Decidable (s.Promised a) := by
  cases a <;> unfold Promised <;> infer_instance

instance [DecidableEq θ] [Fintype θ] (s : Loop θ ε) (a : Move θ ε) : Decidable (s.Covered a) := by
  cases a <;> unfold Covered <;> infer_instance

/-- The invariant. -/
structure Minded (s : Loop θ ε) : Prop where
  kept : Kept s
  plain : ∀ ft ∈ s.workers.fibers, ft.threadid = none
  queue : s.workers.fibers = [] ∨ ∃ t, ¬ Gone (s.place t) (s.ended t)
  armed : (s.timers = 0 ∧ s.pendingEventCount = 0) ∨ ∃ t, s.ended t = false
  working : s.stopping = true ∨ ∀ t, s.ended t = false
  exited : ∀ t, s.place t = .exited → s.ended t = true

variable {s s' : Loop θ ε}

theorem Minded.finished (h : Minded s) : Finished s := by
  intro hexited
  refine ⟨?_, ?_⟩
  · rcases h.queue with hempty | ⟨t, ht⟩
    · exact hempty
    · exact absurd (Or.inl (hexited t)) ht
  · rcases h.armed with hnone | ⟨t, ht⟩
    · exact hnone
    · cases (h.exited t (hexited t)).symm.trans ht

variable [DecidableEq θ] [DecidableEq ε] {a : Move θ ε} {t : θ}

theorem stopping_step (hs : s.step a = some s') (h : s.stopping = true) : s'.stopping = true := by
  cases step_rule hs with
  | stop => rfl
  | _ => exact h

theorem timers_step (hs : s.step a = some s') (h : s.timers = 0) :
    s'.timers = 0 ∨ ∃ c, a = .addTimer c := by
  cases step_rule hs with
  | addTimer hc => exact Or.inr ⟨_, rfl⟩
  | cancelTimer hc ht =>
      left
      change s.timers - 1 = 0
      rw [h]
  | @listExpiredCb t expired recurring tickled hst he hr =>
      left
      change s.timers - expired + recurring = 0
      omega
  | _ => exact Or.inl h

theorem pending_step (hs : s.step a = some s') (h : s.pendingEventCount = 0) :
    s'.pendingEventCount = 0 ∨ ∃ c, a = .addEvent c := by
  obtain ⟨hevents, hfiring⟩ := Nat.add_eq_zero_iff.mp h
  cases step_rule hs with
  | addEvent hc => exact Or.inr ⟨_, rfl⟩
  | fire hc he hw => exact absurd hevents he.ne'
  | delEvent hc he => exact absurd hevents he.ne'
  | settle hc =>
      left
      change s.events + (s.firing - 1) = 0
      rw [hevents, hfiring]
  | _ => exact Or.inl h

theorem plain_step (hs : s.step a = some s') (h : ∀ ft ∈ s.workers.fibers, ft.threadid = none)
    (hpromised : s.Promised a) : ∀ ft ∈ s'.workers.fibers, ft.threadid = none := by
  have pushed {w : Workers θ} {fc : FiberOrCb θ} (hw : s.workers.step fc.action = some w)
      (hfc : fc.threadid = none) : ∀ ft ∈ w.fibers, ft.threadid = none := by
    obtain ⟨-, ft', hqueue, hthread⟩ := schedule_step hw
    intro ft hft
    rw [hqueue, List.mem_append, List.mem_singleton] at hft
    rcases hft with hold | rfl
    · exact h ft hold
    · exact hthread.trans hfc
  cases step_rule hs with
  | schedule hc hw => exact pushed hw hpromised.1
  | fire hc he hw => exact pushed hw hpromised
  | pop hst hw =>
      obtain ⟨job, -, hqueue⟩ := pop_step hw
      intro ft hft
      rw [hqueue] at hft
      exact h ft (List.mem_of_mem_eraseP hft)
  | turn hst hw hpc =>
      intro ft hft
      exact h ft ((turn_step hw).2 ▸ hft)
  | drop hst hw hpc =>
      intro ft hft
      exact h ft ((turn_step hw).2 ▸ hft)
  | update hst hw =>
      intro ft hft
      rcases (update_step hw).2 with hqueue | ⟨f, hqueue⟩
      · exact h ft (hqueue ▸ hft)
      · have hmem : ft ∈ s.workers.fibers ++ [⟨.fiber f, none⟩] := hqueue ▸ hft
        rw [List.mem_append, List.mem_singleton] at hmem
        rcases hmem with hold | rfl
        · exact h ft hold
        · rfl
  | scheduleExpired hst =>
      intro ft hft
      rcases List.mem_append.mp hft with hold | hnew
      · exact h ft hold
      · rw [List.eq_of_mem_replicate hnew]
  | _ => exact h

omit [DecidableEq θ] [DecidableEq ε] in
/-- A worker whose idle fiber has not ended scans the queue again. -/
theorem Minded.present (h : Minded s) (ht : s.ended t = false) : ¬ Gone (s.place t) (s.ended t) := by
  rintro (hexited | ⟨-, hended⟩)
  · cases ht.symm.trans (h.exited t hexited)
  · cases ht.symm.trans hended

/-- Who puts a task into the empty queue leaves a worker to scan it. -/
theorem Minded.source [Nonempty θ] (h : Minded s) (hs : s.step a = some s') (hpromised : s.Promised a)
    (hempty : s.workers.fibers = []) :
    s'.workers.fibers = [] ∨ ∃ t, ¬ Gone (s'.place t) (s'.ended t) := by
  have arrives {p : Place} (t : θ) (hp : s'.place t = p) (hexited : p ≠ .exited) (hgap : p ≠ .gap) :
      s'.workers.fibers = [] ∨ ∃ t, ¬ Gone (s'.place t) (s'.ended t) := by
    refine Or.inr ⟨t, ?_⟩
    rintro (hout | ⟨hin, -⟩)
    · exact hexited (hp.symm.trans hout)
    · exact hgap (hp.symm.trans hin)
  cases step_rule hs with
  | @schedule c fc w hc hw =>
      cases c with
      | inl t => exact arrives t (h.kept.busy t (hc.2 t rfl)) (by simp) (by simp)
      | inr e =>
          rcases h.working with hstop | hall
          · cases hpromised.2 hstop
          · obtain ⟨t⟩ := ‹Nonempty θ›
            exact Or.inr ⟨t, h.present (hall t)⟩
  | fire hc he hw =>
      rcases h.armed with ⟨-, hnone⟩ | ⟨t, ht⟩
      · exact absurd (Nat.add_eq_zero_iff.mp hnone).1 he.ne'
      · exact Or.inr ⟨t, h.present ht⟩
  | @update t w hst hw => exact arrives t (Function.update_self t _ s.place) (by simp) (by simp)
  | @scheduleExpired t tickled cbs hst =>
      exact arrives t (Function.update_self t _ s.place) (by simp) (by simp)
  | pop hst hw =>
      obtain ⟨job, -, hqueue⟩ := pop_step hw
      left
      rw [hqueue, hempty]
      rfl
  | turn hst hw hpc => exact Or.inl ((turn_step hw).2.trans hempty)
  | drop hst hw hpc => exact Or.inl ((turn_step hw).2.trans hempty)
  | _ => exact Or.inl hempty

theorem present_step (hs : s.step a = some s') (h : ∃ t, ¬ Gone (s.place t) (s.ended t)) :
    (∃ t, ¬ Gone (s'.place t) (s'.ended t)) ∨ ∃ t, a = .scanEmpty t := by
  apply exists_step (R := fun p e => ¬ Gone p e) _ hs h
  intro t p e hedge hpresent
  cases hedge with
  | scanEmpty htop ha => exact Or.inr ⟨t, ha⟩
  | exit hgap he => exact absurd (Or.inr ⟨hgap, he⟩) hpresent
  | _ => exact Or.inl (by simp [Gone])

theorem Minded.queue_step [Nonempty θ] (h : Minded s) (hs : s.step a = some s')
    (hpromised : s.Promised a) : s'.workers.fibers = [] ∨ ∃ t, ¬ Gone (s'.place t) (s'.ended t) := by
  by_cases hempty : s.workers.fibers = []
  · exact h.source hs hpromised hempty
  · rcases present_step hs (h.queue.resolve_left hempty) with hstill | ⟨t, rfl⟩
    · exact Or.inr hstill
    · obtain ⟨ft, hft⟩ := List.exists_mem_of_ne_nil _ hempty
      cases step_rule hs with
      | scanEmpty hst hf =>
          -- all that is left is in execution elsewhere
          rcases h.kept.scan hst.1 hf hft with ⟨hthread, -⟩ | ⟨u, hut, hbusy⟩
          · exact absurd (h.plain ft hft) hthread
          · refine Or.inr ⟨u, ?_⟩
            have hplace : (s.scanned t .gap).place u = .busy :=
              (Function.update_of_ne hut _ s.place).trans hbusy
            rw [hplace]
            simp [Gone]

/-- An idle fiber runs on until its own worker gives up. -/
theorem idle_fiber_step (hs : s.step a = some s') (h : ∃ t, s.ended t = false) :
    (∃ t, s'.ended t = false) ∨ ∃ t, a = .checkQueue t ∧
      s.stopping = true ∧ s.workers.fibers = [] ∧ s.activethreadcount = 0 := by
  apply exists_step (R := fun _ e => e = false) _ hs h
  intro t p e hedge hrunning
  cases hedge with
  | giveUp hcounted ha hstop => exact Or.inr ⟨t, ha, hstop⟩
  | _ => exact Or.inl hrunning

theorem Minded.armed_step (h : Minded s) (hs : s.step a = some s') (hcovered : s.Covered a) :
    (s'.timers = 0 ∧ s'.pendingEventCount = 0) ∨ ∃ t, s'.ended t = false := by
  rcases h.armed with ⟨htimers, hpending⟩ | hrunning
  · rcases timers_step hs htimers with htimers' | ⟨c, rfl⟩
    · rcases pending_step hs hpending with hpending' | ⟨c, rfl⟩
      · exact Or.inl ⟨htimers', hpending'⟩
      · cases step_rule hs with
        | addEvent hc => exact Or.inr hcovered
    · cases step_rule hs with
      | addTimer hc => exact Or.inr hcovered
  · rcases idle_fiber_step hs hrunning with hstill | ⟨t, rfl, hstop, hqueue, hactive⟩
    · exact Or.inr hstill
    · by_cases hothers : ∀ u, u ≠ t → s.ended u = true
      · have hnone := hcovered hstop hqueue hactive hothers
        cases step_rule hs with
        | giveUp hst => exact Or.inl hnone
        | goOn hst => exact Or.inl hnone
      · push Not at hothers
        obtain ⟨u, hut, hu⟩ := hothers
        right
        cases step_rule hs with
        | giveUp hst => exact ⟨u, (Function.update_of_ne hut _ s.ended).trans (eq_false_of_ne_true hu)⟩
        | goOn hst => exact ⟨u, eq_false_of_ne_true hu⟩

/-- An idle fiber ends only once `stop` has been called. -/
theorem working_step (h : s.stopping = true ∨ ∀ t, s.ended t = false) (hs : s.step a = some s') :
    s'.stopping = true ∨ ∀ t, s'.ended t = false := by
  by_cases hstop : s.stopping = true
  · exact Or.inl (stopping_step hs hstop)
  · right
    apply forall_step (R := fun _ e => e = false) _ hs (h.resolve_left hstop)
    intro t p e hedge hrunning
    cases hedge with
    | giveUp hcounted ha hstopped => exact absurd hstopped.1 hstop
    | _ => exact hrunning

theorem Minded.exited_step (h : Minded s) (hs : s.step a = some s') (t : θ)
    (ht : s'.place t = .exited) : s'.ended t = true := by
  apply forall_step (R := fun p e => p = .exited → e = true) _ hs h.exited t ht
  intro t p e hedge hout hp
  cases hedge with
  | exit hgap he => exact he
  | _ => cases hp

theorem Minded.step [Nonempty θ] (h : Minded s) (hs : s.step a = some s') (hpromised : s.Promised a)
    (hcovered : s.Covered a) : Minded s' where
  kept := h.kept.step hs
  plain := plain_step hs h.plain hpromised
  queue := h.queue_step hs hpromised
  armed := h.armed_step hs hcovered
  working := working_step h.working hs
  exited := h.exited_step hs

omit [DecidableEq θ] [DecidableEq ε] in
theorem Minded.new : Minded (.new : Loop θ ε) where
  kept := Kept.new
  plain := fun ft hft => by cases hft
  queue := Or.inl rfl
  armed := Or.inl ⟨rfl, rfl⟩
  working := Or.inr fun _ => rfl
  exited := fun t ht => by cases ht

/-- The workers leave nothing behind if the last one to give up looks in time. -/
theorem shutdown_finishes [Nonempty θ] (as : List (Move θ ε))
    (h : Each step (fun s a => s.Promised a ∧ s.Covered a) (new : Loop θ ε) as) :
    Always step Finished (new : Loop θ ε) as :=
  always_of_each (fun _ _ _ hs hstep hgood => Minded.step hs hstep hgood.1 hgood.2)
    (fun _ hs => hs.finished) Minded.new h

/-- A callback arms a timer, `stop` comes, and the timer's callback runs before the worker returns. -/
theorem shutdown_finishes_run : Always step Finished (new : Loop Unit Unit)
    [.schedule (.inr ()) (.cb none), .tickle (.inr ()), .pop (), .turn () .choose, .turn () .swapIn,
      .addTimer (.inl ()), .stop, .turn () (.finish false), .turn () .switchOut, .release (), .update (),
      .scanEmpty (), .enterIdle (), .getNextTimer (), .wake () false, .listExpiredCb () 1 0,
      .scheduleExpired (), .tickle (.inl ()), .write (.inl ()), .idleSwapOut (), .leaveIdle (), .pop (),
      .turn () .choose, .turn () .swapIn, .turn () (.finish false), .turn () .switchOut, .release (),
      .update (), .scanEmpty (), .enterIdle (), .getNextTimer (), .readPending (), .checkQueue (),
      .leaveIdle (), .scanEmpty (), .exit ()] :=
  shutdown_finishes _ (by decide)

/-- The timer comes after the worker has read the timers, and `stop` before it tests the queue. -/
theorem timer_left_behind : ¬ ∀ as : List (Move Unit Unit),
    Each step Promised (new : Loop Unit Unit) as → Always step Finished (new : Loop Unit Unit) as := by
  intro h
  have hfinished := always_end (h [.scanEmpty (), .enterIdle (), .getNextTimer (), .readPending (),
    .addTimer (.inr ()), .stop, .checkQueue (), .leaveIdle (), .scanEmpty (), .exit ()] (by decide)) rfl
  obtain ⟨-, htimers, -⟩ := hfinished fun _ => rfl
  cases htimers

/-- A worker here reads the timers before it can give up. -/
def ReadsTimers (p : Place) (ended : Bool) : Prop := ended = false ∧ p ≠ .timed ∧ p ≠ .counted

def ReadsPending (p : Place) (ended : Bool) : Prop := ended = false ∧ p ≠ .counted

/-- From `stop` on, each timer and each event comes while some worker is still to read of it. -/
def SeenLater (s : Loop θ ε) : Move θ ε → Prop
  | .addTimer _ => s.stopping = true → ∃ t, ReadsTimers (s.place t) (s.ended t)
  | .addEvent _ => s.stopping = true → ∃ t, ReadsPending (s.place t) (s.ended t)
  | .stop => (s.timers = 0 ∨ ∃ t, ReadsTimers (s.place t) (s.ended t)) ∧
      (s.pendingEventCount = 0 ∨ ∃ t, ReadsPending (s.place t) (s.ended t))
  | _ => True

structure Foreseen (s : Loop θ ε) : Prop where
  working : s.stopping = true ∨ ∀ t, s.ended t = false
  timers : s.stopping = true → s.timers = 0 ∨ ∃ t, ReadsTimers (s.place t) (s.ended t)
  pending : s.stopping = true → s.pendingEventCount = 0 ∨ ∃ t, ReadsPending (s.place t) (s.ended t)

theorem readsTimers_step (hs : s.step a = some s') (h : ∃ t, ReadsTimers (s.place t) (s.ended t)) :
    (∃ t, ReadsTimers (s'.place t) (s'.ended t)) ∨ s.timers = 0 := by
  apply exists_step (R := ReadsTimers) _ hs h
  rintro t p e hedge ⟨hended, htimed, hcounted⟩
  cases hedge with
  | noTimer hentered hn => exact Or.inr hn
  | noPending hq hn => exact absurd hq htimed
  | giveUp hq ha hstop => exact absurd hq hcounted
  | _ => exact Or.inl ⟨hended, by simp, by simp⟩

theorem readsPending_step (hs : s.step a = some s') (h : ∃ t, ReadsPending (s.place t) (s.ended t)) :
    (∃ t, ReadsPending (s'.place t) (s'.ended t)) ∨ s.pendingEventCount = 0 := by
  apply exists_step (R := ReadsPending) _ hs h
  rintro t p e hedge ⟨hended, hcounted⟩
  cases hedge with
  | noPending htimed hn => exact Or.inr hn
  | giveUp hq ha hstop => exact absurd hq hcounted
  | _ => exact Or.inl ⟨hended, by simp⟩

theorem stop_step (hs : s.step a = some s') (h : s'.stopping = true) :
    s.stopping = true ∨ a = .stop := by
  cases step_rule hs with
  | stop => exact Or.inr rfl
  | _ => exact Or.inl h

theorem Foreseen.step (h : Foreseen s) (hs : s.step a = some s') (hseen : s.SeenLater a) :
    Foreseen s' := by
  refine ⟨working_step h.working hs, ?_, ?_⟩
  · intro hstop'
    rcases stop_step hs hstop' with hstop | rfl
    · have hnow : s.timers = 0 ∨ ∃ t, ReadsTimers (s'.place t) (s'.ended t) :=
        (h.timers hstop).elim Or.inl fun hreads => (readsTimers_step hs hreads).symm
      rcases hnow with hnone | hreads
      · rcases timers_step hs hnone with hstill | ⟨c, rfl⟩
        · exact Or.inl hstill
        · cases step_rule hs with
          | addTimer hc => exact Or.inr (hseen hstop)
      · exact Or.inr hreads
    · cases step_rule hs with
      | stop => exact hseen.1
  · intro hstop'
    rcases stop_step hs hstop' with hstop | rfl
    · have hnow : s.pendingEventCount = 0 ∨ ∃ t, ReadsPending (s'.place t) (s'.ended t) :=
        (h.pending hstop).elim Or.inl fun hreads => (readsPending_step hs hreads).symm
      rcases hnow with hnone | hreads
      · rcases pending_step hs hnone with hstill | ⟨c, rfl⟩
        · exact Or.inl hstill
        · cases step_rule hs with
          | addEvent hc => exact Or.inr (hseen hstop)
      · exact Or.inr hreads
    · cases step_rule hs with
      | stop => exact hseen.2

omit [DecidableEq θ] [DecidableEq ε] in
theorem Foreseen.running [Nonempty θ] (h : Foreseen s) {R : Place → Bool → Prop}
    (hR : ∀ p e, R p e → e = false) (hseen : s.stopping = true → ∃ t, R (s.place t) (s.ended t)) :
    ∃ t, s.ended t = false := by
  rcases h.working with hstop | hall
  · obtain ⟨t, ht⟩ := hseen hstop
    exact ⟨t, hR _ _ ht⟩
  · obtain ⟨t⟩ := ‹Nonempty θ›
    exact ⟨t, hall t⟩

theorem Foreseen.covered [Nonempty θ] (h : Foreseen s) (hs : s.step a = some s')
    (hseen : s.SeenLater a) : s.Covered a := by
  cases a with
  | addTimer c => exact h.running (fun p e hR => hR.1) hseen
  | addEvent c => exact h.running (fun p e hR => hR.1) hseen
  | checkQueue t =>
      intro hstop hqueue hactive hothers
      have hcounted : s.place t = .counted := by
        cases step_rule hs with
        | giveUp hst => exact hst.1
        | goOn hst => exact hst.1
      -- a worker that is still to read is another one, and those have ended
      have hnobody {u : θ} (hu : s.ended u = false) (hread : s.place u ≠ .counted) : False := by
        have hut : u ≠ t := by
          rintro rfl
          exact hread hcounted
        cases hu.symm.trans (hothers u hut)
      refine ⟨?_, ?_⟩
      · rcases h.timers hstop with hnone | ⟨u, hu, -, hread⟩
        · exact hnone
        · exact (hnobody hu hread).elim
      · rcases h.pending hstop with hnone | ⟨u, hu, hread⟩
        · exact hnone
        · exact (hnobody hu hread).elim
  | _ => trivial

/-- The last worker looks in time where someone is to see each timer and each event. -/
theorem covered_of_seenLater [Nonempty θ] {as : List (Move θ ε)}
    (h : Each step (fun s a => s.Promised a ∧ s.SeenLater a) (new : Loop θ ε) as) :
    Each step (fun s a => s.Promised a ∧ s.Covered a) (new : Loop θ ε) as := by
  refine each_imp (I := Foreseen) ?_ ?_ ?_ h
  · exact fun s a s' hs hstep hgood => hs.step hstep hgood.2
  · exact fun s a s' hs hstep hgood => ⟨hgood.1, hs.covered hstep hgood.2⟩
  · exact ⟨Or.inr fun _ => rfl, fun _ => Or.inl rfl, fun _ => Or.inl rfl⟩

end Loop
end HCServer.Scheduler
