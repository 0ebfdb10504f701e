import HCServer.IOManager.Idle

/-! `cancelAll` against the cancellation of each registered event. It triggers one event only, so a
descriptor that is waited for both ways fails the assertion at its end. -/
namespace HCServer.IOManager
open Lib
variable {S F K : Type}

/-- The calls that run on the manager; `dispatch` is the treatment of one report in `idle`. -/
inductive Operation (S F K : Type)
  | call (c : Call S F K)
  | dispatch (fd : Nat) (reported : Mask) (ctl : Bool)
  | cancelAll (fd : Nat) (ctl : Bool)

/-- `none` is a failed assertion or a null pointer, which ends the process. -/
def operate (m : IOManager S F K) : Operation S F K → Option (IOManager S F K)
  | .call c =>
      if c.Admissible m then
        match c.perform m with
        | .ok o => some o.state
        | .error _ => none
      else none
  | .dispatch fd reported ctl =>
      match m.dispatch fd reported ctl with
      | .ok m => some m
      | .error _ => none
  | .cancelAll fd ctl =>
      match m.cancelAll fd ctl with
      | .ok o => some o.state
      | .error _ => none

/-- The registered events. -/
def FdContext.registered (ctx : FdContext S F K) : List Event := [Event.READ, .WRITE].filter ctx.armed

/-- What the schedulers receive for the registered events. -/
def FdContext.waiters (ctx : FdContext S F K) : List (S × Task F K) :=
  ctx.registered.flatMap fun e => (ctx.getcontext e).queued.toList

/-- `cancelEvent` for each registered event, every `epoll_ctl` succeeding. -/
def cancelEach (m : IOManager S F K) (fd : Nat) : Except Abort (IOManager S F K) :=
  (m.context fd).registered.foldlM (fun m e => (m.cancelEvent fd e true).map Outcome.state) m

/-- `cancelAll` as it is meant. -/
structure CancelsAll (m : IOManager S F K) (fd : Nat) (o : Outcome S F K Bool) : Prop where
  done : m.cancelAll fd true = .ok o
  ret : o.ret = true
  each : m.cancelEach fd = .ok o.state
  queued : o.state.fibers = m.fibers ++ (m.context fd).waiters
  once : (m.context fd).waiters.length = (m.context fd).registered.length
  events : (o.state.context fd).events = 0
  empty : ∀ e, (o.state.context fd).getcontext e = .none
  pending : o.state.pendingEventCount = m.pendingEventCount - (m.context fd).registered.length

section CancelAll
variable {m : IOManager S F K} {fd : Nat}

theorem FdContext.Consistent.events_ne_zero {ctx : FdContext S F K} (h : ctx.Consistent)
    (hne : ctx.events ≠ 0) : ∃ e, ctx.armed e = true := by
  by_contra hnone
  apply hne
  rw [h.mask, maskOf_eq_zero]
  intro e
  exact Bool.eq_false_of_not_eq_true fun he => hnone ⟨e, he⟩

theorem cancelAll_refused (hfd : fd < m.fdContexts.length) (hne : (m.context fd).events ≠ 0) :
    m.cancelAll fd false = .ok ⟨m, false, some ⟨.del, fd, 0⟩⟩ := by
  unfold cancelAll
  rw [getElem?_context hfd]
  simp only [if_neg hne, if_true]

/-- The one event that is triggered. -/
def FdContext.triggered (ctx : FdContext S F K) : Event :=
  if ctx.armed .READ = true then .READ else .WRITE

theorem FdContext.Consistent.armed_triggered {ctx : FdContext S F K} (h : ctx.Consistent)
    (hne : ctx.events ≠ 0) : ctx.armed ctx.triggered = true := by
  obtain ⟨e, he⟩ := h.events_ne_zero hne
  by_cases hread : ctx.armed .READ = true
  · rw [triggered, if_pos hread]
    exact hread
  · rw [triggered, if_neg hread]
    cases e with
    | READ => exact absurd he hread
    | WRITE => exact he

/-- The two tests pick the triggered event, and the assertion looks at what is left of it. -/
theorem cancelAll_eq (hm : m.Consistent) (hfd : fd < m.fdContexts.length)
    (hne : (m.context fd).events ≠ 0) :
    m.cancelAll fd true =
      if ((m.context fd).disarm (m.context fd).triggered).events = 0 then
        .ok ⟨m.install fd ((m.context fd).disarm (m.context fd).triggered)
          ((m.context fd).getcontext (m.context fd).triggered).queued.toList, true,
          some ⟨.del, fd, 0⟩⟩
      else .error (.assertion "fd_ctx->m_events==0") := by
  have hon := (hm.context fd).armed_triggered hne
  have htrigger : (m.epollCtl ⟨.del, fd, 0⟩).trigger fd (m.context fd).triggered =
      .ok ⟨m.fdContexts.set fd ((m.context fd).disarm (m.context fd).triggered),
        m.pendingEventCount - 1, (m.epollCtl ⟨.del, fd, 0⟩).interest,
        m.fibers ++ ((m.context fd).getcontext (m.context fd).triggered).queued.toList⟩ :=
    trigger_spec (m := m.epollCtl ⟨.del, fd, 0⟩) hfd (hm.context fd) hon
  have hpick : ∀ next : IOManager S F K → Except Abort (Outcome S F K Bool),
      (if (m.context fd).events &&& Event.READ.bits ≠ 0
        then (m.epollCtl ⟨.del, fd, 0⟩).trigger fd .READ >>= next
      else if (m.context fd).events &&& Event.WRITE.bits ≠ 0
        then (m.epollCtl ⟨.del, fd, 0⟩).trigger fd .WRITE >>= next
      else Except.ok (m.epollCtl ⟨.del, fd, 0⟩) >>= next) =
      (m.epollCtl ⟨.del, fd, 0⟩).trigger fd (m.context fd).triggered >>= next := by
    intro next
    by_cases hread : (m.context fd).armed .READ = true
    · rw [if_pos (FdContext.armed_eq_true.mp hread), FdContext.triggered, if_pos hread]
    · have hoff := FdContext.armed_eq_false.mp (Bool.eq_false_of_not_eq_true hread)
      rw [FdContext.triggered, if_neg hread] at hon
      rw [if_neg (by simp [hoff]), if_pos (FdContext.armed_eq_true.mp hon), FdContext.triggered,
        if_neg hread]
  unfold cancelAll
  rw [getElem?_context hfd]
  simp only [if_neg hne, Bool.true_eq_false, if_false]
  rw [hpick, htrigger]
  have hget : (m.fdContexts.set fd ((m.context fd).disarm (m.context fd).triggered))[fd]? =
      some ((m.context fd).disarm (m.context fd).triggered) := List.getElem?_set_self hfd
  by_cases hzero : ((m.context fd).disarm (m.context fd).triggered).events = 0
  · have hi : (m.epollCtl ⟨.del, fd, 0⟩).interest = Function.update m.interest fd
        (interestOf ((m.context fd).disarm (m.context fd).triggered).events) := by
      rw [hzero]
      rfl
    have hinstall : m.install fd ((m.context fd).disarm (m.context fd).triggered)
          ((m.context fd).getcontext (m.context fd).triggered).queued.toList =
        ⟨m.fdContexts.set fd ((m.context fd).disarm (m.context fd).triggered),
          m.pendingEventCount - 1, (m.epollCtl ⟨.del, fd, 0⟩).interest,
          m.fibers ++ ((m.context fd).getcontext (m.context fd).triggered).queued.toList⟩ := by
      apply install_eq hi
      exact (hm.context fd).bitCount_disarm hon
    rw [if_pos hzero, hinstall]
    simp only [bind, Except.bind, hget, hzero, Option.any_some, ne_eq, not_true_eq_false,
      decide_false, Bool.false_eq_true, if_false]
  · rw [if_neg hzero]
    simp only [bind, Except.bind, hget, hzero, Option.any_some, ne_eq, not_false_eq_true,
      decide_true, if_true]

/-- After the triggered event nothing is left unless both were registered. -/
theorem FdContext.Consistent.disarm_triggered {ctx : FdContext S F K} (h : ctx.Consistent) :
    (ctx.disarm ctx.triggered).events = 0 ↔
      ¬ (ctx.armed .READ = true ∧ ctx.armed .WRITE = true) := by
  rw [h.disarm.mask, maskOf_eq_zero]
  constructor
  · rintro hnone ⟨hread, hwrite⟩
    have hleft := hnone .WRITE
    rw [h.disarm_armed, triggered, if_pos hread, hwrite] at hleft
    cases hleft
  · intro hnot e
    rw [h.disarm_armed, triggered]
    cases hread : ctx.armed .READ with
    | true =>
        have hwrite : ctx.armed .WRITE = false :=
          Bool.eq_false_of_not_eq_true fun hwrite => hnot ⟨hread, hwrite⟩
        cases e with
        | READ => simp
        | WRITE => simp [hwrite]
    | false =>
        cases e with
        | READ => simp [hread]
        | WRITE => simp

theorem FdContext.registered_one {ctx : FdContext S F K} (hon : ctx.armed ctx.triggered = true)
    (hnot : ¬ (ctx.armed .READ = true ∧ ctx.armed .WRITE = true)) :
    ctx.registered = [ctx.triggered] := by
  unfold triggered at hon ⊢
  by_cases hread : ctx.armed .READ = true
  · have hwrite : ctx.armed .WRITE = false :=
      Bool.eq_false_of_not_eq_true fun hwrite => hnot ⟨hread, hwrite⟩
    simp [registered, hread, hwrite]
  · rw [if_neg hread] at hon ⊢
    simp [registered, hread, hon]

theorem cancelAll_ok (hm : m.Consistent) (hfd : fd < m.fdContexts.length)
    (hne : (m.context fd).events ≠ 0)
    (hnot : ¬ ((m.context fd).armed .READ = true ∧ (m.context fd).armed .WRITE = true)) :
    ∃ o, CancelsAll m fd o ∧ o.state.Consistent := by
  have hctx := hm.context fd
  have hon := hctx.armed_triggered hne
  have hzero := hctx.disarm_triggered.mpr hnot
  have hregistered := FdContext.registered_one hon hnot
  have hdone := cancelAll_eq hm hfd hne
  rw [if_pos hzero] at hdone
  have hone : ((m.context fd).getcontext (m.context fd).triggered).queued.isSome :=
    (hctx.triggerEvent hon).2
  have hcontext : (m.install fd ((m.context fd).disarm (m.context fd).triggered)
      ((m.context fd).getcontext (m.context fd).triggered).queued.toList).context fd =
      (m.context fd).disarm (m.context fd).triggered := by
    rw [install_context hfd, if_pos rfl]
  refine ⟨_, ⟨hdone, rfl, ?_, ?_, ?_, ?_, ?_, ?_⟩, hm.install hfd hctx.disarm ?_⟩
  · have hcancel : m.cancelEvent fd (m.context fd).triggered true = .ok (m.removal fd
        (m.context fd).triggered true
        ((m.context fd).getcontext (m.context fd).triggered).queued.toList) := cancelEvent_spec hm
    have hnot' : ¬ (m.context fd).armed (m.context fd).triggered = false := by simp [hon]
    rw [removal, if_neg hnot', if_pos rfl] at hcancel
    rw [cancelEach, hregistered, List.foldlM_cons, hcancel]
    rfl
  · rw [FdContext.waiters, hregistered, List.flatMap_cons, List.flatMap_nil, List.append_nil]
    rfl
  · obtain ⟨task, htask⟩ := Option.isSome_iff_exists.mp hone
    rw [FdContext.waiters, hregistered, List.flatMap_cons, List.flatMap_nil, htask]
    rfl
  · rw [hcontext]
    exact hzero
  · intro e
    rw [hcontext]
    apply hctx.disarm.empty
    have hall := (maskOf_eq_zero _).mp (hctx.disarm.mask.symm.trans hzero)
    exact hall e
  · rw [hregistered]
    have hcount := hctx.bitCount_disarm hon
    simp only [install, hcount, List.length_singleton, Nat.cast_one]
    ring
  · rw [FdContext.disarm_fd]
    exact hm.named fd

end CancelAll

theorem operate_consistent {m m' : IOManager S F K} {op : Operation S F K} (hm : m.Consistent)
    (h : m.operate op = some m') : m'.Consistent := by
  cases op with
  | call c =>
      simp only [operate, Option.ite_none_right_eq_some] at h
      obtain ⟨hc, h⟩ := h
      obtain ⟨o, ho, hcons, -⟩ := c.perform_consistent hm hc
      rw [ho] at h
      cases h
      exact hcons
  | dispatch fd reported ctl =>
      simp only [operate] at h
      split at h
      · case _ m1 hm1 =>
          cases h
          by_cases hfd : fd < m.fdContexts.length
          · exact (dispatch_consistent hm hfd hm1).1
          · rw [dispatch, List.getElem?_eq_none (Nat.le_of_not_lt hfd)] at hm1
            cases hm1
      · cases h
  | cancelAll fd ctl =>
      simp only [operate] at h
      split at h
      · case _ o ho =>
          cases h
          by_cases hne : (m.context fd).events = 0
          · -- nothing registered, or no such descriptor
            unfold cancelAll at ho
            by_cases hfd : fd < m.fdContexts.length
            · rw [getElem?_context hfd] at ho
              simp only [if_pos hne] at ho
              cases ho
              exact hm
            · rw [List.getElem?_eq_none (Nat.le_of_not_lt hfd)] at ho
              cases ho
              exact hm
          · obtain ⟨e, he⟩ := (hm.context fd).events_ne_zero hne
            have hfd := armed_lt he
            cases ctl with
            | false =>
                rw [cancelAll_refused hfd hne] at ho
                cases ho
                exact hm
            | true =>
                by_cases hboth : (m.context fd).armed .READ = true ∧
                    (m.context fd).armed .WRITE = true
                · rw [cancelAll_eq hm hfd hne,
                    if_neg fun hz => (hm.context fd).disarm_triggered.mp hz hboth] at ho
                  cases ho
                · obtain ⟨o', hall, hcons⟩ := cancelAll_ok hm hfd hne hboth
                  rw [hall.done] at ho
                  cases ho
                  exact hcons
      · cases h

/-- What `cancelAll` owes a descriptor with registered events: everything where `epoll_ctl`
succeeds, `false` and no change where it fails. -/
def WakesEveryWaiter (m : IOManager S F K) (fd : Nat) (ctl : Bool) : Prop :=
  if ctl then ∃ o, CancelsAll m fd o
  else ∃ r, m.cancelAll fd false = .ok ⟨m, false, r⟩

/-- After any run of the manager, `cancelAll` wakes every waiter exactly when `epoll_ctl` fails or the
two events are not both registered. -/
theorem cancelAll_wakes_iff (ops : List (Operation S F K)) {m : IOManager S F K}
    (hrun : exec operate new ops = some m) {fd : Nat} (hne : (m.context fd).events ≠ 0) (ctl : Bool) :
    WakesEveryWaiter m fd ctl ↔
      ¬ (ctl = true ∧ (m.context fd).armed .READ = true ∧ (m.context fd).armed .WRITE = true) := by
  have hm : m.Consistent :=
    exec_invariant (fun _ _ _ hm h => operate_consistent hm h) new_consistent hrun
  obtain ⟨e, he⟩ := (hm.context fd).events_ne_zero hne
  have hfd := armed_lt he
  cases ctl with
  | false =>
      refine ⟨fun _ h => absurd h.1 Bool.false_ne_true, fun _ => ?_⟩
      exact ⟨_, cancelAll_refused hfd hne⟩
  | true =>
      constructor
      · rintro ⟨o, hall⟩ ⟨-, hboth⟩
        have hdone := hall.done
        rw [cancelAll_eq hm hfd hne,
          if_neg fun hz => (hm.context fd).disarm_triggered.mp hz hboth] at hdone
        cases hdone
      · intro hnot
        obtain ⟨o, hall, -⟩ := cancelAll_ok hm hfd hne fun hboth => hnot ⟨rfl, hboth⟩
        exact ⟨o, hall⟩

/-- Descriptor 5 is waited for in the given ways. -/
def waitsFor (events : List Event) : List (Operation Nat Nat Nat) :=
  events.map fun e => .call (.addEvent 0 7 5 e none true)

theorem cancelAll_wakes_iff_run : ∃ m : IOManager Nat Nat Nat,
    exec operate new (waitsFor [.WRITE]) = some m ∧ (m.context 5).events ≠ 0 ∧
      (WakesEveryWaiter m 5 true ↔
        ¬ (true = true ∧ (m.context 5).armed .READ = true ∧ (m.context 5).armed .WRITE = true)) := by
  obtain ⟨m, hrun, hevents⟩ := Option.map_eq_some_iff.mp (show (exec operate
    (new : IOManager Nat Nat Nat) (waitsFor [.WRITE])).map (fun m => (m.context 5).events) = some 4 by
      decide)
  have hne : (m.context 5).events ≠ 0 := by
    rw [hevents]
    decide
  exact ⟨m, hrun, hne, cancelAll_wakes_iff _ hrun hne true⟩

/-- With both events registered only the reader is woken, and the assertion fails. -/
theorem cancelAll_forgets_writer : ¬ ∀ (ops : List (Operation Nat Nat Nat)) (m : IOManager Nat Nat Nat),
    exec operate new ops = some m → ∀ (fd : Nat) (ctl : Bool), (m.context fd).events ≠ 0 →
      WakesEveryWaiter m fd ctl := by
  intro h
  obtain ⟨m, hrun, hfacts⟩ := Option.map_eq_some_iff.mp (show (exec operate
    (new : IOManager Nat Nat Nat) (waitsFor [.READ, .WRITE])).map (fun m =>
      ((m.context 5).events, m.cancelAll 5 true matches .ok _)) = some (5, false) by decide)
  simp only [Prod.mk.injEq] at hfacts
  have hne : (m.context 5).events ≠ 0 := by
    rw [hfacts.1]
    decide
  obtain ⟨o, hall⟩ := h _ m hrun 5 true hne
  rw [hall.done] at hfacts
  cases hfacts.2

end HCServer.IOManager
