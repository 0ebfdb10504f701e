import HCServer.Scheduler.Places
import Mathlib.Data.Fintype.Sum

/-! Wake-ups. `schedule` writes to the tickle pipe if the queue was empty before and some thread counts
as idle afterwards; a worker may decide to block in between, before it counts. -/
namespace HCServer.Scheduler
open Lib
variable {θ ε : Type}

/-- A worker here scans the queue before it blocks. -/
def Place.awake : Place → Bool
  | .gap => false
  | .entered => false
  | .timed => false
  | .counted => false
  | .waiting => false
  | .exited => false
  | _ => true

/-- A worker here is one of `m_idlethreadcount`. -/
def Place.idle : Place → Bool
  | .entered => true
  | .timed => true
  | .counted => true
  | .waiting => true
  | .woken _ => true
  | .listed _ _ => true
  | .handling _ => true
  | .back => true
  | _ => false

/-- The worker returns from `run` without another scan. -/
def Gone (p : Place) (ended : Bool) : Prop := p = .exited ∨ p = .gap ∧ ended = true

instance (p : Place) (ended : Bool) : Decidable (Gone p ended) := inferInstanceAs (Decidable (_ ∨ _))

/-- The caller is about to tickle. -/
def Call.notifies : Call → Bool
  | .tickle _ => true
  | .write _ => true
  | _ => false

namespace Loop

/-- A byte is in the pipe or a caller about to tickle, or some worker is still to scan the queue, or none
will block any more. -/
def Attended (s : Loop θ ε) : Prop :=
  0 < s.pipe ∨ (∃ c, (s.call c).notifies = true) ∨ (∃ t, (s.place t).awake = true) ∨
    ∀ t, Gone (s.place t) (s.ended t)

section Lost
variable [DecidableEq θ]

/-- All the workers that are left block, with an empty pipe, while a task is queued that each would
take. -/
structure Asleep (s : Loop θ ε) : Prop where
  waiting : ∃ t, s.place t = .waiting
  blocked : ∀ t, s.place t = .waiting ∨ s.place t = .exited
  pipe : s.pipe = 0
  task : ∃ ft ∈ s.workers.fibers, ft.threadid = none ∧ ∀ t, s.workers.takes t ft = true

/-- No wake-up is lost: someone is about to write the byte then. -/
def Roused (s : Loop θ ε) : Prop :=
  s.Asleep → ∃ c fired, s.call c = .write fired ∨ s.call c = .tickle fired ∧ 0 < s.idlethreadcount

/-- A `tickle` that counts no idle thread while a task is queued may leave that to a byte in the pipe, to
another `tickle`, or to a worker that has not scanned the queue yet. -/
def Heard (s : Loop θ ε) : Move θ ε → Prop
  | .tickle c => s.idlethreadcount = 0 → s.workers.fibers ≠ [] →
      0 < s.pipe ∨ (∃ d, d ≠ c ∧ (s.call d).notifies = true) ∨ (∃ t, (s.place t).awake = true) ∨
        ∀ t, Gone (s.place t) (s.ended t)
  | _ => True

instance [Fintype θ] [Fintype ε] [DecidableEq ε] (s : Loop θ ε) (a : Move θ ε) : Decidable (s.Heard a) :=
  match a with
  | .tickle c => inferInstanceAs (Decidable (s.idlethreadcount = 0 → s.workers.fibers ≠ [] →
      0 < s.pipe ∨ (∃ d, d ≠ c ∧ (s.call d).notifies = true) ∨ (∃ t, (s.place t).awake = true) ∨
        ∀ t, Gone (s.place t) (s.ended t)))
  | .schedule _ _ | .fire _ _ | .notify _ | .write _ | .settle _ | .addTimer _ | .cancelTimer _
  | .addEvent _ | .delEvent _ | .pop _ | .scanEmpty _ | .turn _ _ | .discard _ | .release _ | .update _
  | .enterIdle _ | .getNextTimer _ | .readPending _ | .checkQueue _ | .wake _ _ | .listExpiredCb _ _ _
  | .scheduleExpired _ | .drain _ | .idleSwapOut _ | .leaveIdle _ | .exit _ | .stop => isTrue trivial

end Lost

variable [DecidableEq θ] [DecidableEq ε] {s s' : Loop θ ε} {a : Move θ ε} {c : θ ⊕ ε} {t : θ}

omit [DecidableEq ε] in
theorem Attended.enter {p : Place} (h : p.awake = true) : Attended (s.enter t p) := by
  refine Or.inr (Or.inr (Or.inl ⟨t, ?_⟩))
  exact (congrArg Place.awake (Function.update_self t p s.place)).trans h

/-- A task that comes into an empty queue is announced. -/
theorem accept_notifies {w : Workers θ} {fired : Bool} (hempty : s.workers.fibers = [])
    (hw : w.fibers ≠ []) : ((s.accept c w fired).call c).notifies = true := by
  have hcall : (s.accept c w fired).call c = .tickle fired := by
    simp [accept, proceed, hempty, hw]
  rw [hcall]
  rfl

theorem queue_grows (hs : s.step a = some s') (hempty : s.workers.fibers = []) :
    s'.workers.fibers = [] ∨ ∃ c, (s'.call c).notifies = true := by
  cases step_rule hs with
  | @schedule c fc w hc hw =>
      by_cases hqueue : w.fibers = []
      · exact Or.inl hqueue
      · exact Or.inr ⟨c, accept_notifies hempty hqueue⟩
  | @fire c fc w hc he hw =>
      by_cases hqueue : w.fibers = []
      · exact Or.inl hqueue
      · exact Or.inr ⟨c, accept_notifies (s := { s with events := _, firing := _ }) hempty hqueue⟩
  | @update t w h hw =>
      by_cases hqueue : w.fibers = []
      · exact Or.inl hqueue
      · exact Or.inr ⟨.inl t, accept_notifies (s := s) hempty hqueue⟩
  | @scheduleExpired t tickled cbs h =>
      by_cases hqueue : (pushAll s.workers cbs).fibers = []
      · exact Or.inl hqueue
      · exact Or.inr ⟨.inl t, accept_notifies (s := s) hempty hqueue⟩
  | pop h hw =>
      obtain ⟨job, -, hqueue⟩ := pop_step hw
      left
      rw [hqueue, hempty]
      rfl
  | turn h hw hpc => exact Or.inl ((turn_step hw).2.trans hempty)
  | drop h hw hpc => exact Or.inl ((turn_step hw).2.trans hempty)
  | _ => exact Or.inl hempty

/-- Only the worker that drains the pipe takes a byte out. -/
theorem pipe_step (hs : s.step a = some s') (hpipe : 0 < s.pipe) : Attended s' := by
  cases step_rule hs with
  | drain h => exact Attended.enter rfl
  | write hc => exact Or.inl (Nat.succ_pos _)
  | _ => exact Or.inl hpipe

/-- The other callers' calls go on as before. -/
theorem notifies_update {k : Call} (hc : (s.call c).notifies = false)
    (h : ∃ d, (s.call d).notifies = true) (hcall : s'.call = Function.update s.call c k) :
    ∃ d, (s'.call d).notifies = true := by
  obtain ⟨d, hd⟩ := h
  refine ⟨d, ?_⟩
  have hdc : d ≠ c := by
    rintro rfl
    exact absurd (hc.symm.trans hd) (by decide)
  rw [hcall, Function.update_of_ne hdc]
  exact hd

/-- A call that is about to tickle does so, unless it counts no idle thread. -/
theorem call_step (hs : s.step a = some s') (h : ∃ c, (s.call c).notifies = true) :
    Attended s' ∨ ∃ c, a = .tickle c ∧ s.idlethreadcount = 0 := by
  have others {k : Call} {c : θ ⊕ ε} (hc : s.call c = .free)
      (hcall : s'.call = Function.update s.call c k) :
      Attended s' ∨ ∃ c, a = .tickle c ∧ s.idlethreadcount = 0 :=
    Or.inl (Or.inr (Or.inl (notifies_update (congrArg Call.notifies hc) h hcall)))
  cases step_rule hs with
  | schedule hc hw => exact others hc.1 rfl
  | fire hc he hw => exact others (hc.elim And.left And.left) rfl
  | notify hc => exact others hc.1 rfl
  | @heard c fired hc hi =>
      refine Or.inl (Or.inr (Or.inl ⟨c, ?_⟩))
      exact congrArg Call.notifies (Function.update_self c _ s.call)
  | @unheard c fired hc hi => exact Or.inr ⟨c, rfl, hi⟩
  | write hc => exact Or.inl (Or.inl (Nat.succ_pos _))
  | settle hc => exact Or.inl (Or.inr (Or.inl (notifies_update (congrArg Call.notifies hc) h rfl)))
  | pop hst hw => exact others hst.2 rfl
  | scanEmpty hst hf => exact others hst.2 rfl
  | update hst hw => exact others hst.2 rfl
  | scheduleExpired hst => exact others hst.2 rfl
  | _ => exact Or.inl (Or.inr (Or.inl h))

/-- A worker stays awake until a scan of its own that finds nothing to take. -/
theorem awake_step (hs : s.step a = some s') (h : ∃ t, (s.place t).awake = true) :
    (∃ t, (s'.place t).awake = true) ∨ ∃ t, a = .scanEmpty t := by
  apply exists_step (R := fun p _ => p.awake = true) _ hs h
  intro t p e hedge hawake
  have asleep {q : Place} (hq : s.place t = q) (hdrowsy : q.awake = false) : False := by
    rw [hq, hdrowsy] at hawake
    cases hawake
  cases hedge with
  | scanEmpty htop ha => exact Or.inr ⟨t, ha⟩
  | enterIdle hgap he => exact (asleep hgap rfl).elim
  | noTimer hentered hn => exact (asleep hentered rfl).elim
  | noPending htimed hn => exact (asleep htimed rfl).elim
  | wait hread =>
      rcases hread with hentered | htimed | hcounted
      · exact (asleep hentered rfl).elim
      · exact (asleep htimed rfl).elim
      · exact (asleep hcounted rfl).elim
  | exit hgap he => exact (asleep hgap rfl).elim
  | _ => exact Or.inl rfl

theorem gone_step (hs : s.step a = some s') (h : ∀ t, Gone (s.place t) (s.ended t)) (u : θ) :
    Gone (s'.place u) (s'.ended u) := by
  apply forall_step (R := Gone) _ hs h
  intro t p e hedge hgone
  rcases hgone with hout | ⟨hgap, hended⟩
  · -- no way leads back
    cases hedge <;> simp_all
  · cases hedge with
    | enterIdle hq he =>
        rw [hended] at he
        cases he
    | exit hq he => exact Or.inl rfl
    | _ => simp_all

/-- The invariant. -/
structure Watched [Fintype θ] (s : Loop θ ε) : Prop where
  kept : Kept s
  idle : s.idlethreadcount = Finset.card {t | (s.place t).idle = true}
  attended : s.workers.fibers = [] ∨ Attended s

/-- The scan that finds nothing leaves another worker awake or tickles for another. -/
theorem scan_step (h : Kept s) (hs : s.step (.scanEmpty t) = some s') (hqueue : s.workers.fibers ≠ []) :
    Attended s' := by
  obtain ⟨ft, hft⟩ := List.exists_mem_of_ne_nil _ hqueue
  cases step_rule hs with
  | scanEmpty hst hf =>
      rcases h.scan hst.1 hf hft with ⟨-, hpassed⟩ | ⟨u, hut, hbusy⟩
      · refine Or.inr (Or.inl ⟨.inl t, ?_⟩)
        have hcall : (s.scanned t .gap).call (.inl t) = .tickle false := by
          simp [scanned, proceed, hpassed]
        rw [hcall]
        rfl
      · refine Or.inr (Or.inr (Or.inl ⟨u, ?_⟩))
        have hplace : (s.scanned t .gap).place u = .busy :=
          (Function.update_of_ne hut _ s.place).trans hbusy
        rw [hplace]
        rfl

theorem heard_step {c : θ ⊕ ε} (hs : s.step (.tickle c) = some s') (hidle : s.idlethreadcount = 0)
    (hqueue : s.workers.fibers ≠ []) (hheard : s.Heard (.tickle c)) : Attended s' := by
  rcases hheard hidle hqueue with hpipe | ⟨d, hdc, hd⟩ | hrest
  · exact pipe_step hs hpipe
  · cases step_rule hs with
    | heard hc hi => exact absurd hidle hi.ne'
    | unheard hc hi =>
        refine Or.inr (Or.inl ⟨d, ?_⟩)
        exact (congrArg Call.notifies (Function.update_of_ne hdc _ s.call)).trans hd
  · cases step_rule hs with
    | heard hc hi => exact absurd hidle hi.ne'
    | unheard hc hi => exact Or.inr (Or.inr hrest)

theorem Attended.step (h : Attended s) (hkept : Kept s) (hqueue : s.workers.fibers ≠ [])
    (hs : s.step a = some s') (hheard : s.Heard a) : Attended s' := by
  rcases h with hpipe | hcall | hawake | hgone
  · exact pipe_step hs hpipe
  · rcases call_step hs hcall with hattended | ⟨c, rfl, hidle⟩
    · exact hattended
    · exact heard_step hs hidle hqueue hheard
  · rcases awake_step hs hawake with hstill | ⟨t, rfl⟩
    · exact Or.inr (Or.inr (Or.inl hstill))
    · exact scan_step hkept hs hqueue
  · exact Or.inr (Or.inr (Or.inr (gone_step hs hgone)))

/-- `m_idlethreadcount` counts the workers in `idle`. -/
theorem idle_step [Fintype θ] (h : s.idlethreadcount = Finset.card {t | (s.place t).idle = true})
    (hs : s.step a = some s') : s'.idlethreadcount = Finset.card {t | (s'.place t).idle = true} := by
  have moved {p q : Place} (t : θ) (hq : s.place t = q)
      (hplace : s'.place = Function.update s.place t p) :
      Finset.card {u | (s'.place u).idle = true} + (if q.idle = true then 1 else 0) =
        s.idlethreadcount + (if p.idle = true then 1 else 0) := by
    rw [h, hplace, ← hq]
    exact card_update (fun p => p.idle = true) s.place t p
  have same {p q : Place} (t : θ) (hst : s.Stands t q)
      (hplace : s'.place = Function.update s.place t p) (hpq : p.idle = q.idle)
      (hcount : s'.idlethreadcount = s.idlethreadcount) :
      s'.idlethreadcount = Finset.card {u | (s'.place u).idle = true} := by
    have hmoved := moved t hst.1 hplace
    rw [hpq] at hmoved
    rw [hcount]
    exact (Nat.add_right_cancel hmoved).symm
  cases step_rule hs with
  | @enterIdle t hst he =>
      have hmoved := moved t hst.1 (p := .entered) rfl
      exact hmoved.symm
  | @leaveIdle t hst =>
      have hmoved := moved t hst.1 (p := .top) rfl
      exact Nat.sub_eq_of_eq_add hmoved.symm
  | pop hst => exact same _ hst rfl rfl rfl
  | scanEmpty hst => exact same _ hst rfl rfl rfl
  | turn hst => exact same _ hst rfl rfl rfl
  | drop hst => exact same _ hst rfl rfl rfl
  | discard hst => exact same _ hst rfl rfl rfl
  | release hst => exact same _ hst rfl rfl rfl
  | update hst => exact same _ hst rfl rfl rfl
  | noTimer hst => exact same _ hst rfl rfl rfl
  | timers hst => exact same _ hst rfl rfl rfl
  | noPending hst => exact same _ hst rfl rfl rfl
  | pending hst => exact same _ hst rfl rfl rfl
  | giveUp hst => exact same _ hst rfl rfl rfl
  | goOn hst => exact same _ hst rfl rfl rfl
  | wake hst => exact same _ hst rfl rfl rfl
  | listExpiredCb hst => exact same _ hst rfl rfl rfl
  | scheduleExpired hst => exact same _ hst rfl rfl rfl
  | drain hst => exact same _ hst rfl rfl rfl
  | idleSwapOut hst => exact same _ hst rfl rfl rfl
  | exit hst => exact same _ hst rfl rfl rfl
  | _ => exact h

theorem Watched.step [Fintype θ] (h : Watched s) (hs : s.step a = some s') (hheard : s.Heard a) :
    Watched s' := by
  refine ⟨h.kept.step hs, idle_step h.idle hs, ?_⟩
  rcases h.attended with hempty | hattended
  · exact (queue_grows hs hempty).imp_right fun hcall => Or.inr (Or.inl hcall)
  · by_cases hqueue : s.workers.fibers = []
    · exact (queue_grows hs hqueue).imp_right fun hcall => Or.inr (Or.inl hcall)
    · exact Or.inr (hattended.step h.kept hqueue hs hheard)

omit [DecidableEq ε] in
theorem Watched.roused [Fintype θ] (h : Watched s) : Roused s := by
  intro hasleep
  obtain ⟨t, ht⟩ := hasleep.waiting
  have hidle : 0 < s.idlethreadcount := by
    rw [h.idle, Finset.card_pos]
    exact ⟨t, Finset.mem_filter.mpr ⟨Finset.mem_univ t, congrArg Place.idle ht⟩⟩
  obtain ⟨ft, hft, -⟩ := hasleep.task
  rcases h.attended with hempty | hpipe | ⟨c, hc⟩ | ⟨u, hu⟩ | hgone
  · rw [hempty] at hft
    cases hft
  · rw [hasleep.pipe] at hpipe
    cases hpipe
  · cases hcall : s.call c with
    | tickle fired => exact ⟨c, fired, Or.inr ⟨hcall, hidle⟩⟩
    | write fired => exact ⟨c, fired, Or.inl hcall⟩
    | free => simp [hcall, Call.notifies] at hc
    | settle => simp [hcall, Call.notifies] at hc
  · rcases hasleep.blocked u with hq | hq
    · simp [hq, Place.awake] at hu
    · simp [hq, Place.awake] at hu
  · rcases hgone t with hq | ⟨hq, -⟩
    · cases ht.symm.trans hq
    · cases ht.symm.trans hq

omit [DecidableEq θ] [DecidableEq ε] in
theorem Watched.new [Fintype θ] : Watched (.new : Loop θ ε) :=
  ⟨Kept.new, (Finset.card_eq_zero.mpr (Finset.filter_false _)).symm, Or.inl rfl⟩

/-- No wake-up is lost in a run in which every `tickle` that counts no idle thread leaves its task to
someone who comes to it later. -/
theorem no_lost_wakeup [Fintype θ] (as : List (Move θ ε)) (h : Each step Heard (new : Loop θ ε) as) :
    Always step Roused (new : Loop θ ε) as :=
  always_of_each (fun _ _ _ hs hstep hheard => Watched.step hs hstep hheard) (fun _ hs => hs.roused)
    Watched.new h

/-- A worker blocks and is woken for a task. -/
theorem no_lost_wakeup_run : Always step Roused (new : Loop Unit Unit)
    [.scanEmpty (), .enterIdle (), .getNextTimer (), .readPending (), .checkQueue (),
      .schedule (.inr ()) (.cb none), .tickle (.inr ()), .write (.inr ()), .wake () true] :=
  no_lost_wakeup _ (by decide)

/-- A task comes after the worker's scan and is announced before the worker counts as idle. -/
theorem sleeps_through_schedule : ¬ ∀ as : List (Move Unit Unit), Always step Roused new as := by
  intro h
  have hroused := always_end (h [.scanEmpty (), .schedule (.inr ()) (.cb none), .tickle (.inr ()),
    .enterIdle (), .getNextTimer (), .readPending (), .checkQueue ()]) rfl
  obtain ⟨c, fired, hcall⟩ := hroused ⟨⟨(), rfl⟩, fun _ => Or.inl rfl, rfl,
    ⟨.cb, none⟩, List.mem_singleton_self _, rfl, fun _ => rfl⟩
  rcases c with ⟨⟩ | ⟨⟩
  · rcases hcall with hwrite | ⟨htickle, -⟩
    · cases hwrite
    · cases htickle
  · rcases hcall with hwrite | ⟨htickle, -⟩
    · cases hwrite
    · cases htickle

end Loop
end HCServer.Scheduler
