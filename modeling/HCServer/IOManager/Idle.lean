import HCServer.IOManager.Ledger

/-! The treatment of one report of `epoll_wait`, and runs of several `idle` loops with the calls of
other threads between the wait and the lock. The events that the code triggers are those of
`realEvents`; the events that should be triggered are those of `due`. -/
namespace HCServer.IOManager
open Lib
variable {S F K : Type}

section Report

def reported (r : Mask) (e : Event) : Bool := r &&& e.bits != 0

def failed (r : Mask) : Bool := r &&& (EPOLLERR ||| EPOLLHUP) != 0

/-- The registered events that a report makes ready: all of them where it reports a failure. -/
def due (ctx : FdContext S F K) (r : Mask) (e : Event) : Bool :=
  ctx.armed e && (reported r e || failed r)

/-- The events in `real_events`. -/
def realEvents (ctx : FdContext S F K) (r : Mask) (e : Event) : Bool :=
  reported r e || failed r && (e == .READ || ctx.armed e)

theorem and_or_ne_zero (a b c : Mask) :
    ((a ||| b) &&& c != 0) = ((a &&& c != 0) || (b &&& c != 0)) := by
  rw [BitVec.and_comm, BitVec.and_or_distrib_left, BitVec.and_comm c, BitVec.and_comm c]
  by_cases ha : a &&& c = 0
  · rw [ha]
    simp only [BitVec.zero_or, bne_self_eq_false, Bool.false_or, BitVec.ofNat_eq_ofNat]
  · have hor : a &&& c ||| b &&& c ≠ 0 := fun h => ha (BitVec.or_eq_zero_iff.mp h).1
    rw [bne_iff_ne.mpr ha, bne_iff_ne.mpr hor, Bool.true_or]

theorem maskOf_and (f g : Event → Bool) : maskOf f &&& maskOf g = maskOf fun e => f e && g e := by
  cases hr : f .READ <;> cases hw : f .WRITE <;> cases hr' : g .READ <;> cases hw' : g .WRITE <;>
    simp only [maskOf, hr, hw, hr', hw'] <;> decide

theorem maskOf_sdiff (f g : Event → Bool) :
    maskOf f &&& ~~~maskOf g = maskOf fun e => f e && !g e := by
  cases hr : f .READ <;> cases hw : f .WRITE <;> cases hr' : g .READ <;> cases hw' : g .WRITE <;>
    simp only [maskOf, hr, hw, hr', hw'] <;> decide

theorem added_bits (f : Event → Bool) :
    EPOLLIN ||| (EPOLLOUT &&& maskOf f) = maskOf fun e => e == .READ || f e := by
  cases hr : f .READ <;> cases hw : f .WRITE <;> simp only [maskOf, hr, hw] <;> decide

/-- The mask after the error case has added its bits. -/
def expanded (ctx : FdContext S F K) (r : Mask) : Mask :=
  if r &&& (EPOLLERR ||| EPOLLHUP) ≠ 0 then r ||| (EPOLLIN ||| (EPOLLOUT &&& ctx.events)) else r

theorem expanded_bit {ctx : FdContext S F K} (h : ctx.Consistent) (r : Mask) (e : Event) :
    (expanded ctx r &&& e.bits != 0) = realEvents ctx r e := by
  unfold expanded realEvents
  by_cases hf : r &&& (EPOLLERR ||| EPOLLHUP) = 0
  · have hfailed : failed r = false := bne_eq_false_iff_eq.mpr hf
    rw [if_neg (not_not.mpr hf), hfailed, Bool.false_and, Bool.or_false]
    rfl
  · have hfailed : failed r = true := bne_iff_ne.mpr hf
    rw [if_pos hf, hfailed, Bool.true_and, and_or_ne_zero, h.mask, added_bits, maskOf_armed]
    rfl

theorem real_events_eq {ctx : FdContext S F K} (h : ctx.Consistent) (r : Mask) :
    ((if expanded ctx r &&& EPOLLIN ≠ 0 then Event.READ.bits else 0) |||
      if expanded ctx r &&& EPOLLOUT ≠ 0 then Event.WRITE.bits else 0) =
      maskOf (realEvents ctx r) := by
  have hin := expanded_bit h r .READ
  have hout := expanded_bit h r .WRITE
  unfold maskOf
  rw [← hin, ← hout]
  simp only [bne_iff_ne]
  rfl

end Report

section Dispatch
variable {m : IOManager S F K} {fd : Nat} {r : Mask} {ctl : Bool}

/-- `triggerEvent` and the decrement, where `event` is in `real_events`. -/
def fire (m : IOManager S F K) (fd : Nat) (event : Event) (real : Bool) :
    Except Abort (IOManager S F K) :=
  if real then m.trigger fd event else .ok m

def sweep (m : IOManager S F K) (fd : Nat) (real : Event → Bool) :
    Except Abort (IOManager S F K) :=
  (m.fire fd .READ (real .READ)).bind fun m => m.fire fd .WRITE (real .WRITE)

def firedContext (ctx : FdContext S F K) (event : Event) (real : Bool) : FdContext S F K :=
  if real then ctx.disarm event else ctx

def firedTasks (ctx : FdContext S F K) (event : Event) (real : Bool) : List (S × Task F K) :=
  if real then (ctx.getcontext event).queued.toList else []

/-- No event is due, or the kernel grants the request, every reported event is registered and a
failure is only reported while `READ` is registered. -/
def Covered (m : IOManager S F K) (fd : Nat) (r : Mask) (ctl : Bool) : Prop :=
  (∀ e, due (m.context fd) r e = false) ∨
    ctl = true ∧ (∀ e, reported r e = true → (m.context fd).armed e = true) ∧
      (failed r = true → (m.context fd).armed .READ = true)

theorem dispatch_eq (hctx : (m.context fd).Consistent) (hfd : fd < m.fdContexts.length) :
    m.dispatch fd r ctl =
      if maskOf (fun e => (m.context fd).armed e && realEvents (m.context fd) r e) = 0 then .ok m
      else if ctl = false then .ok m
      else (m.epollCtl (dropRequest fd (maskOf fun e =>
        (m.context fd).armed e && !realEvents (m.context fd) r e))).sweep fd
          (realEvents (m.context fd) r) := by
  unfold dispatch
  rw [getElem?_context hfd]
  have hmask := hctx.mask
  have hreal := real_events_eq hctx r
  have hbit := fun e => maskOf_armed (realEvents (m.context fd) r) e
  unfold expanded at hreal
  simp only [hreal]
  rw [← maskOf_and, ← maskOf_sdiff, ← hmask]
  unfold sweep fire
  simp only [← hbit, bne_iff_ne]
  by_cases hread : maskOf (realEvents (m.context fd) r) &&& Event.READ.bits = 0
  · simp only [hread, ne_eq, not_true_eq_false, if_false]
    rfl
  · simp only [hread, ne_eq, not_false_eq_true, if_true]
    rfl

theorem trigger_unarmed {event : Event} (hfd : fd < m.fdContexts.length)
    (hoff : (m.context fd).armed event = false) :
    m.trigger fd event = .error (.assertion "m_events & event") := by
  unfold trigger FdContext.triggerEvent
  rw [getElem?_context hfd]
  simp only [if_pos (FdContext.armed_eq_false.mp hoff)]
  rfl

/-- An event of `real_events` that is not registered aborts; another does what its trigger does. -/
theorem fire_unarmed {event : Event} (hfd : fd < m.fdContexts.length)
    (hoff : (m.context fd).armed event = false) :
    m.fire fd event true = .error (.assertion "m_events & event") :=
  trigger_unarmed hfd hoff

theorem fire_armed {event : Event} {real : Bool} (hfd : fd < m.fdContexts.length)
    (hctx : (m.context fd).Consistent)
    (hon : real = true → (m.context fd).armed event = true) :
    m.fire fd event real = .ok ⟨m.fdContexts.set fd (firedContext (m.context fd) event real),
      m.pendingEventCount - real.toNat, m.interest,
      m.fibers ++ firedTasks (m.context fd) event real⟩ := by
  cases real with
  | true => exact trigger_spec hfd hctx (hon rfl)
  | false =>
      have hself : m.fdContexts.set fd (m.context fd) = m.fdContexts := by
        have hget : m.context fd = m.fdContexts[fd] := by
          simp only [context, List.getElem?_eq_getElem hfd, Option.getD_some]
        rw [hget, List.set_getElem_self]
      simp only [fire, firedContext, firedTasks, Bool.false_eq_true, if_false, hself,
        Bool.toNat_false, Nat.cast_zero, sub_zero, List.append_nil]

theorem set_context {n : Int} {interest : Nat → Option Mask} {q : List (S × Task F K)}
    (hfd : fd < m.fdContexts.length) (ctx : FdContext S F K) (x : Nat) :
    (⟨m.fdContexts.set fd ctx, n, interest, q⟩ : IOManager S F K).context x =
      if x = fd then ctx else m.context x := by
  by_cases same : x = fd
  · subst same
    simp only [context, List.getElem?_set_self hfd, Option.getD_some, if_pos]
  · simp only [context, List.getElem?_set_ne (Ne.symm same), if_neg same]

theorem firedContext_consistent {ctx : FdContext S F K} (h : ctx.Consistent) (event : Event)
    (real : Bool) : (firedContext ctx event real).Consistent := by
  cases real with
  | false => exact h
  | true => exact h.disarm

theorem firedContext_armed {ctx : FdContext S F K} (h : ctx.Consistent) (event : Event)
    (real : Bool) (e : Event) :
    (firedContext ctx event real).armed e = (ctx.armed e && !(real && e == event)) := by
  cases real with
  | false => simp only [firedContext, Bool.false_and, Bool.not_false, Bool.and_true]; rfl
  | true =>
      rw [Bool.true_and]
      exact h.disarm_armed e

theorem firedContext_getcontext (ctx : FdContext S F K) (event : Event) (real : Bool) (e : Event) :
    (firedContext ctx event real).getcontext e =
      if (real && e == event) = true then .none else ctx.getcontext e := by
  cases real with
  | false => rfl
  | true =>
      simp only [Bool.true_and, beq_iff_eq]
      exact FdContext.getcontext_disarm e

theorem firedTasks_write (ctx : FdContext S F K) (first second : Bool) :
    firedTasks (firedContext ctx .READ first) .WRITE second = firedTasks ctx .WRITE second := by
  cases first <;> rfl

theorem firedContext_write_armed {ctx : FdContext S F K} (h : ctx.Consistent) (first : Bool) :
    (firedContext ctx .READ first).armed .WRITE = ctx.armed .WRITE := by
  rw [firedContext_armed h]
  simp only [beq_eq_false_iff_ne.mpr (show Event.WRITE ≠ .READ by decide), Bool.and_false,
    Bool.not_false, Bool.and_true]

/-- Where every event of `real` is registered, both triggers succeed. -/
theorem sweep_armed {real : Event → Bool} (hfd : fd < m.fdContexts.length)
    (hctx : (m.context fd).Consistent)
    (hreal : ∀ e, real e = true → (m.context fd).armed e = true) :
    m.sweep fd real = .ok ⟨m.fdContexts.set fd
        (firedContext (firedContext (m.context fd) .READ (real .READ)) .WRITE (real .WRITE)),
      m.pendingEventCount - ((real .READ).toNat + (real .WRITE).toNat), m.interest,
      m.fibers ++ (firedTasks (m.context fd) .READ (real .READ) ++
        firedTasks (m.context fd) .WRITE (real .WRITE))⟩ := by
  unfold sweep
  rw [fire_armed hfd hctx (hreal .READ)]
  simp only [Except.bind]
  rw [fire_armed (by rw [List.length_set]; exact hfd)]
  · simp only [set_context hfd, if_pos, List.set_set, firedTasks_write, List.append_assoc, sub_sub]
  · rw [set_context hfd, if_pos rfl]
    exact firedContext_consistent hctx _ _
  · rw [set_context hfd, if_pos rfl, firedContext_write_armed hctx]
    exact hreal .WRITE

theorem sweep_unarmed {real : Event → Bool} {event : Event} (hfd : fd < m.fdContexts.length)
    (hctx : (m.context fd).Consistent) (hreal : real event = true)
    (hoff : (m.context fd).armed event = false) : ∃ a, m.sweep fd real = .error a := by
  unfold sweep
  by_cases hread : real .READ = true → (m.context fd).armed .READ = true
  · cases event with
    | READ =>
        rw [hread hreal] at hoff
        cases hoff
    | WRITE =>
        rw [fire_armed hfd hctx hread, hreal]
        refine ⟨_, fire_unarmed (by rw [List.length_set]; exact hfd) ?_⟩
        rw [set_context hfd, if_pos rfl, firedContext_write_armed hctx]
        exact hoff
  · obtain ⟨hon, hno⟩ := Classical.not_imp.mp hread
    rw [hon, fire_unarmed hfd (Bool.eq_false_of_not_eq_true hno)]
    exact ⟨_, rfl⟩

theorem realEvents_of_armed {ctx : FdContext S F K} {e : Event} (h : ctx.armed e = true) :
    realEvents ctx r e = due ctx r e := by
  simp only [realEvents, due, h, Bool.or_true, Bool.and_true, Bool.true_and]

theorem due_armed {ctx : FdContext S F K} {e : Event} (h : due ctx r e = true) :
    ctx.armed e = true :=
  (Bool.and_eq_true_iff.mp h).1

/-- The events that the code triggers are the due ones where each of them is registered. -/
theorem realEvents_eq_due {ctx : FdContext S F K}
    (hreal : ∀ e, realEvents ctx r e = true → ctx.armed e = true) :
    realEvents ctx r = due ctx r := by
  funext e
  rw [Bool.eq_iff_iff]
  constructor
  · intro h
    rw [← realEvents_of_armed (hreal e h)]
    exact h
  · intro h
    rw [realEvents_of_armed (due_armed h)]
    exact h

/-- The triggers meet registered events only exactly when the report is covered. -/
theorem realEvents_armed_iff {ctx : FdContext S F K} :
    (∀ e, realEvents ctx r e = true → ctx.armed e = true) ↔
      (∀ e, reported r e = true → ctx.armed e = true) ∧
        (failed r = true → ctx.armed .READ = true) := by
  constructor
  · intro h
    constructor
    · intro e he
      apply h
      rw [realEvents, he, Bool.true_or]
    · intro hf
      apply h
      rw [realEvents, hf, beq_self_eq_true, Bool.true_or, Bool.and_true, Bool.or_true]
  · rintro ⟨hrep, hfail⟩ e he
    rw [realEvents, Bool.or_eq_true, Bool.and_eq_true, Bool.or_eq_true, beq_iff_eq] at he
    rcases he with he | ⟨hf, rfl | he⟩
    · exact hrep e he
    · exact hfail hf
    · exact he

theorem bitCount_fired {ctx : FdContext S F K} {event : Event} {real : Bool} (h : ctx.Consistent)
    (hon : real = true → ctx.armed event = true) :
    (firedContext ctx event real).bitCount = ctx.bitCount - real.toNat := by
  cases real with
  | false => exact (sub_zero _).symm
  | true => exact h.bitCount_disarm (hon rfl)

/-- The context of a descriptor once its due events have been triggered. -/
def dueContext (ctx : FdContext S F K) (r : Mask) : FdContext S F K :=
  firedContext (firedContext ctx .READ (due ctx r .READ)) .WRITE (due ctx r .WRITE)

def dueTasks (ctx : FdContext S F K) (r : Mask) : List (S × Task F K) :=
  firedTasks ctx .READ (due ctx r .READ) ++ firedTasks ctx .WRITE (due ctx r .WRITE)

section DueContext
variable {ctx : FdContext S F K}

theorem dueContext_consistent (h : ctx.Consistent) : (dueContext ctx r).Consistent :=
  firedContext_consistent (firedContext_consistent h .READ _) .WRITE _

theorem dueContext_armed (h : ctx.Consistent) (e : Event) :
    (dueContext ctx r).armed e = (ctx.armed e && !due ctx r e) := by
  rw [dueContext, firedContext_armed (firedContext_consistent h .READ _), firedContext_armed h]
  cases e <;> simp [show (Event.WRITE == Event.READ) = false from rfl]

theorem dueContext_getcontext (e : Event) :
    (dueContext ctx r).getcontext e = if due ctx r e then .none else ctx.getcontext e := by
  rw [dueContext, firedContext_getcontext, firedContext_getcontext]
  cases e <;> simp

theorem dueContext_fd : (dueContext ctx r).fd = ctx.fd := by
  unfold dueContext firedContext
  split <;> split <;> simp only [FdContext.disarm_fd]

theorem dueContext_events (h : ctx.Consistent) :
    (dueContext ctx r).events = maskOf fun e => ctx.armed e && !due ctx r e := by
  rw [(dueContext_consistent h).mask]
  congr 1
  funext e
  exact dueContext_armed h e

theorem dueContext_bitCount (h : ctx.Consistent) :
    (dueContext ctx r).bitCount =
      ctx.bitCount - ((due ctx r .READ).toNat + (due ctx r .WRITE).toNat) := by
  rw [dueContext, bitCount_fired (firedContext_consistent h .READ _), bitCount_fired h due_armed,
    sub_sub]
  rw [firedContext_write_armed h]
  exact due_armed

end DueContext

/-- What handling a report should do: the due events, and they only, are disarmed, taken out of
the kernel's mask and the counter, and their waiters queued. -/
structure Dispatched (m : IOManager S F K) (fd : Nat) (r : Mask) (m' : IOManager S F K) : Prop where
  armed : ∀ e, (m'.context fd).armed e = ((m.context fd).armed e && !due (m.context fd) r e)
  waiters : ∀ e, (m'.context fd).getcontext e =
    if due (m.context fd) r e then .none else (m.context fd).getcontext e
  kernel : m'.interest fd = interestOf (m'.context fd).events
  pending : m'.pendingEventCount = m.pendingEventCount -
    ((due (m.context fd) r .READ).toNat + (due (m.context fd) r .WRITE).toNat)
  queue : m'.fibers = m.fibers ++ dueTasks (m.context fd) r
  others : ∀ x, x ≠ fd → m'.context x = m.context x ∧ m'.interest x = m.interest x

/-- Once the due events have been triggered the specification is met. -/
theorem dispatched_install (hm : m.Consistent) (hfd : fd < m.fdContexts.length) :
    Dispatched m fd r
      (m.install fd (dueContext (m.context fd) r) (dueTasks (m.context fd) r)) := by
  have hctx := hm.context fd
  constructor
  case armed =>
    intro e
    rw [install_context hfd, if_pos rfl]
    exact dueContext_armed hctx e
  case waiters =>
    intro e
    rw [install_context hfd, if_pos rfl]
    exact dueContext_getcontext e
  case kernel =>
    rw [install_context hfd, if_pos rfl]
    exact Function.update_self _ _ _
  case pending =>
    simp only [install, dueContext_bitCount hctx]
    ring
  case queue => rfl
  case others =>
    intro x hx
    constructor
    · rw [install_context hfd, if_neg hx]
    · exact Function.update_of_ne hx _ _

theorem dispatched_none (hm : m.Consistent) (hnone : ∀ e, due (m.context fd) r e = false) :
    Dispatched m fd r m := by
  constructor
  case armed =>
    intro e
    rw [hnone, Bool.not_false, Bool.and_true]
  case waiters =>
    intro e
    rw [hnone, if_neg Bool.false_ne_true]
  case kernel => exact hm.interest fd
  case pending =>
    rw [hnone, hnone]
    exact (sub_zero _).symm
  case queue =>
    rw [dueTasks, hnone, hnone]
    exact (List.append_nil _).symm
  case others =>
    intro x _
    exact ⟨rfl, rfl⟩

theorem mask_eq_zero_iff {ctx : FdContext S F K} :
    maskOf (fun e => ctx.armed e && realEvents ctx r e) = 0 ↔ ∀ e, due ctx r e = false := by
  rw [maskOf_eq_zero]
  apply forall_congr'
  intro e
  cases hon : ctx.armed e with
  | false => simp only [due, hon, Bool.false_and]
  | true => rw [Bool.true_and, realEvents_of_armed hon]

theorem dispatch_none (hctx : (m.context fd).Consistent) (hfd : fd < m.fdContexts.length)
    (hnone : ∀ e, due (m.context fd) r e = false) : m.dispatch fd r ctl = .ok m := by
  rw [dispatch_eq hctx hfd, if_pos (mask_eq_zero_iff.mpr hnone)]

theorem dispatch_some (ctl : Bool) (hctx : (m.context fd).Consistent) (hfd : fd < m.fdContexts.length)
    (hsome : ¬ ∀ e, due (m.context fd) r e = false) :
    m.dispatch fd r ctl = if ctl = false then .ok m
      else (m.epollCtl (dropRequest fd (maskOf fun e =>
        (m.context fd).armed e && !realEvents (m.context fd) r e))).sweep fd
          (realEvents (m.context fd) r) := by
  rw [dispatch_eq hctx hfd, if_neg (fun h => hsome (mask_eq_zero_iff.mp h))]

theorem sweep_covered (hctx : (m.context fd).Consistent) (hfd : fd < m.fdContexts.length)
    (hreal : ∀ e, realEvents (m.context fd) r e = true → (m.context fd).armed e = true) :
    (m.epollCtl (dropRequest fd (maskOf fun e =>
        (m.context fd).armed e && !realEvents (m.context fd) r e))).sweep fd
          (realEvents (m.context fd) r) =
      .ok (m.install fd (dueContext (m.context fd) r) (dueTasks (m.context fd) r)) := by
  have hdue : ∀ e, due (m.context fd) r e = true → (m.context fd).armed e = true :=
    fun _ => due_armed
  rw [realEvents_eq_due hreal]
  apply (sweep_armed (m := m.epollCtl _) hfd hctx hdue).trans
  simp only [install, dueContext_bitCount hctx, epollCtl_dropRequest, dueContext_events hctx]
  congr 2
  have hcount (n c k : Int) : n - k = n + (c - k - c) := by ring
  exact hcount _ _ _

/-- A report that is handled without a failing assertion does nothing or what it should. -/
theorem dispatch_ok {m' : IOManager S F K} (hctx : (m.context fd).Consistent)
    (hfd : fd < m.fdContexts.length) (hok : m.dispatch fd r ctl = .ok m') :
    m' = m ∨ m' = m.install fd (dueContext (m.context fd) r) (dueTasks (m.context fd) r) := by
  by_cases hnone : ∀ e, due (m.context fd) r e = false
  · rw [dispatch_none hctx hfd hnone] at hok
    cases hok
    exact Or.inl rfl
  · rw [dispatch_some ctl hctx hfd hnone] at hok
    split at hok
    case isTrue =>
      cases hok
      exact Or.inl rfl
    case isFalse =>
      have hreal : ∀ e, realEvents (m.context fd) r e = true → (m.context fd).armed e = true := by
        intro e he
        by_contra hoff
        obtain ⟨a, ha⟩ := sweep_unarmed (m := m.epollCtl (dropRequest fd (maskOf fun e =>
          (m.context fd).armed e && !realEvents (m.context fd) r e))) hfd hctx he
          (Bool.eq_false_of_not_eq_true hoff)
        rw [ha] at hok
        cases hok
      rw [sweep_covered hctx hfd hreal] at hok
      cases hok
      exact Or.inr rfl

theorem dispatch_consistent {m' : IOManager S F K} (hm : m.Consistent)
    (hfd : fd < m.fdContexts.length) (hok : m.dispatch fd r ctl = .ok m') :
    m'.Consistent ∧ m'.fdContexts.length = m.fdContexts.length := by
  rcases dispatch_ok (hm.context fd) hfd hok with rfl | rfl
  · exact ⟨hm, rfl⟩
  · refine ⟨hm.install hfd (dueContext_consistent (hm.context fd)) ?_, List.length_set⟩
    rw [dueContext_fd]
    exact hm.named fd

/-- One report is handled as it should be exactly when it is covered. -/
theorem dispatch_iff (hm : m.Consistent) (hfd : fd < m.fdContexts.length) :
    (∃ m', m.dispatch fd r ctl = .ok m' ∧ Dispatched m fd r m') ↔ m.Covered fd r ctl := by
  have hctx := hm.context fd
  by_cases hnone : ∀ e, due (m.context fd) r e = false
  · constructor
    · intro _
      exact Or.inl hnone
    · intro _
      exact ⟨m, dispatch_none hctx hfd hnone, dispatched_none hm hnone⟩
  · have hsome := dispatch_some ctl hctx hfd hnone
    constructor
    · rintro ⟨m', hok, hspec⟩
      obtain ⟨e, he⟩ := not_forall.mp hnone
      have hdue := Bool.eq_true_of_not_eq_false he
      cases ctl with
      | false =>
          rw [hsome, if_pos rfl] at hok
          cases hok
          have harmed := hspec.armed e
          rw [hdue, due_armed hdue] at harmed
          cases harmed
      | true =>
          rw [hsome, if_neg Bool.noConfusion] at hok
          refine Or.inr ⟨rfl, realEvents_armed_iff.mp ?_⟩
          intro x hx
          by_contra hoff
          obtain ⟨a, ha⟩ := sweep_unarmed (m := m.epollCtl (dropRequest fd (maskOf fun e =>
            (m.context fd).armed e && !realEvents (m.context fd) r e))) hfd hctx hx
            (Bool.eq_false_of_not_eq_true hoff)
          rw [ha] at hok
          cases hok
    · rintro (hall | ⟨hctl, hcov⟩)
      · exact absurd hall hnone
      · refine ⟨_, ?_, dispatched_install hm hfd⟩
        rw [hsome, hctl, if_neg Bool.noConfusion]
        exact sweep_covered hctx hfd (realEvents_armed_iff.mpr hcov)

end Dispatch

theorem removal_consistent {m : IOManager S F K} (hm : m.Consistent) (fd : Nat) (event : Event)
    (ctl : Bool) (queued : List (S × Task F K)) :
    (m.removal fd event ctl queued).state.Consistent ∧
      (m.removal fd event ctl queued).state.fdContexts.length = m.fdContexts.length := by
  unfold removal
  split
  case isTrue => exact ⟨hm, rfl⟩
  case isFalse hon =>
    split
    case isTrue =>
      have hfd := armed_lt (Bool.eq_true_of_not_eq_false hon)
      refine ⟨hm.install hfd (hm.context fd).disarm ?_, List.length_set⟩
      rw [FdContext.disarm_fd]
      exact hm.named fd
    case isFalse => exact ⟨hm, rfl⟩

theorem length_le_grow {m : IOManager S F K} (hm : m.Consistent) (fd : Nat) :
    m.fdContexts.length ≤ (m.grow fd).fdContexts.length := by
  obtain ⟨size, hle, _, heq⟩ := grow_eq hm fd
  rw [heq]
  simp only [contextResize, List.take_of_length_le hle, List.length_append]
  exact Nat.le_add_right _ _

theorem Call.perform_consistent {m : IOManager S F K} (hm : m.Consistent) (c : Call S F K)
    (hc : c.Admissible m) : ∃ o, c.perform m = .ok o ∧ o.state.Consistent ∧
      m.fdContexts.length ≤ o.state.fdContexts.length := by
  cases c with
  | addEvent scheduler current fd event cb ctl =>
      simp only [Call.perform, addEvent_spec hm hc, Except.map]
      refine ⟨_, rfl, ?_⟩
      have hgrow := length_le_grow hm fd
      cases ctl with
      | false => exact ⟨hm.grow fd, hgrow⟩
      | true =>
          constructor
          · apply (hm.grow fd).install (grow_length hm fd)
            · exact (hm.context fd).arm (waiter_holds scheduler current cb)
            · rw [FdContext.arm_fd]
              exact hm.named fd
          · exact hgrow.trans (le_of_eq List.length_set.symm)
  | delEvent fd event ctl =>
      obtain ⟨hcons, hlen⟩ := removal_consistent hm fd event ctl []
      exact ⟨_, delEvent_spec hm, hcons, hlen.ge⟩
  | cancelEvent fd event ctl =>
      obtain ⟨hcons, hlen⟩ := removal_consistent hm fd event ctl
        ((m.context fd).getcontext event).queued.toList
      exact ⟨_, cancelEvent_spec hm, hcons, hlen.ge⟩

/-- Several `idle` loops over one manager, each with the reports that it has still to handle. -/
structure Loops (ι S F K : Type) where
  io : IOManager S F K
  batches : ι → List (Nat × Mask)
  aborted : Option Abort

/-- `wait` is the return of `epoll_wait`, `ready` the treatment of the next report of a batch. -/
inductive Action (ι S F K : Type)
  | call (c : Call S F K)
  | wait (t : ι) (reports : List (Nat × Mask))
  | ready (t : ι) (ctl : Bool)

/-- A descriptor with a registered event, reported with any of the four bits. -/
def Reportable (m : IOManager S F K) (p : Nat × Mask) : Prop :=
  (m.context p.1).events ≠ 0 ∧ p.2 &&& ~~~(EPOLLIN ||| EPOLLOUT ||| EPOLLERR ||| EPOLLHUP) = 0

instance (m : IOManager S F K) (p : Nat × Mask) : Decidable (m.Reportable p) :=
  inferInstanceAs (Decidable (_ ∧ _))

namespace Loops
variable {ι : Type} [DecidableEq ι]

def new : Loops ι S F K := ⟨.new, fun _ => [], none⟩

def step (s : Loops ι S F K) (a : Action ι S F K) : Option (Loops ι S F K) :=
  if s.aborted.isSome then none
  else match a with
    | .call c =>
        if c.Admissible s.io then
          match c.perform s.io with
          | .ok o => some { s with io := o.state }
          | .error a => some { s with aborted := some a }
        else none
    | .wait t reports =>
        if s.batches t = [] ∧ reports.length ≤ 256 ∧ ∀ p ∈ reports, s.io.Reportable p then
          some { s with batches := Function.update s.batches t reports }
        else none
    | .ready t ctl =>
        match s.batches t with
        | [] => none
        | (fd, r) :: rest =>
            match s.io.dispatch fd r ctl with
            | .ok m => some { s with io := m, batches := Function.update s.batches t rest }
            | .error a => some { s with aborted := some a }

/-- The report that this step handles is handled as it should be. -/
def Handled (s : Loops ι S F K) : Action ι S F K → Prop
  | .ready t ctl => ∀ fd r rest, s.batches t = (fd, r) :: rest →
      ∃ m, s.io.dispatch fd r ctl = .ok m ∧ Dispatched s.io fd r m
  | _ => True

def StepCovered (s : Loops ι S F K) : Action ι S F K → Prop
  | .ready t ctl => ∀ fd r rest, s.batches t = (fd, r) :: rest → s.io.Covered fd r ctl
  | _ => True

structure Good (s : Loops ι S F K) : Prop where
  running : s.aborted = none
  consistent : s.io.Consistent
  known : ∀ t, ∀ p ∈ s.batches t, p.1 < s.io.fdContexts.length

omit [DecidableEq ι] in
theorem new_good : (new : Loops ι S F K).Good where
  running := rfl
  consistent := new_consistent
  known := by
    rintro t p ⟨⟩

/-- The descriptors of the batches stay known while the vector does not shrink. -/
theorem known_update {s : Loops ι S F K} {n : Nat} {t : ι} {reports : List (Nat × Mask)}
    (h : ∀ t, ∀ p ∈ s.batches t, p.1 < n) (hr : ∀ p ∈ reports, p.1 < n) :
    ∀ x, ∀ p ∈ Function.update s.batches t reports x, p.1 < n := by
  intro x p hp
  by_cases same : x = t
  · rw [same, Function.update_self] at hp
    exact hr p hp
  · rw [Function.update_of_ne same] at hp
    exact h x p hp

theorem Good.step {s s' : Loops ι S F K} {a : Action ι S F K} (h : s.Good)
    (hstep : s.step a = some s') (hcov : s.StepCovered a) : s'.Good := by
  have hrun : ¬ s.aborted.isSome := by
    rw [h.running]
    exact Bool.false_ne_true
  unfold Loops.step at hstep
  rw [if_neg hrun] at hstep
  cases a with
  | call c =>
      simp only at hstep
      split at hstep
      case isTrue hc =>
        obtain ⟨o, ho, hcons, hlen⟩ := c.perform_consistent h.consistent hc
        rw [ho] at hstep
        cases hstep
        exact ⟨h.running, hcons, fun t p hp => (h.known t p hp).trans_le hlen⟩
      case isFalse => cases hstep
  | wait t reports =>
      simp only at hstep
      split at hstep
      case isTrue hw =>
        cases hstep
        refine ⟨h.running, h.consistent, known_update h.known ?_⟩
        intro p hp
        by_contra hge
        apply (hw.2.2 p hp).1
        rw [context_beyond (Nat.le_of_not_lt hge)]
        rfl
      case isFalse => cases hstep
  | ready t ctl =>
      simp only at hstep
      split at hstep
      case h_1 => cases hstep
      case h_2 fd r rest hbatch =>
        have hfd : fd < s.io.fdContexts.length :=
          h.known t (fd, r) (by rw [hbatch]; exact List.mem_cons_self)
        obtain ⟨m, hm, _⟩ := (dispatch_iff h.consistent hfd).mpr (hcov fd r rest hbatch)
        obtain ⟨hcons, hlen⟩ := dispatch_consistent h.consistent hfd hm
        rw [hm] at hstep
        cases hstep
        refine ⟨h.running, hcons, ?_⟩
        rw [hlen]
        apply known_update h.known
        intro p hp
        exact h.known t p (by rw [hbatch]; exact List.mem_cons_of_mem _ hp)

omit [DecidableEq ι] in
theorem handled_iff {s : Loops ι S F K} (h : s.Good) (a : Action ι S F K) :
    s.Handled a ↔ s.StepCovered a := by
  cases a with
  | call c => exact Iff.rfl
  | wait t reports => exact Iff.rfl
  | ready t ctl =>
      have hfd (fd : Nat) (r : Mask) (rest : List (Nat × Mask))
          (hbatch : s.batches t = (fd, r) :: rest) : fd < s.io.fdContexts.length :=
        h.known t (fd, r) (by rw [hbatch]; exact List.mem_cons_self)
      constructor
      · intro hall fd r rest hbatch
        exact (dispatch_iff h.consistent (hfd fd r rest hbatch)).mp (hall fd r rest hbatch)
      · intro hall fd r rest hbatch
        exact (dispatch_iff h.consistent (hfd fd r rest hbatch)).mpr (hall fd r rest hbatch)

/-- In a run every report is handled as it should be, with no assertion failing, exactly when
every report that is handled is covered. -/
theorem idle_dispatch (as : List (Action ι S F K)) :
    Each Loops.step Handled (new : Loops ι S F K) as ↔
      Each Loops.step StepCovered (new : Loops ι S F K) as :=
  each_congr (I := Good) (fun _ _ _ h hstep hcov => h.step hstep hcov)
    (fun _ a _ h _ => handled_iff h a) new_good as

/-- A refused connection: only `WRITE` is registered when the error is reported. -/
theorem idle_dispatch_refused : ¬ ∀ as : List (Action Unit Nat Nat Nat),
    Each Loops.step Handled new as := by
  intro h
  obtain ⟨s, hs, hfacts⟩ := Option.map_eq_some_iff.mp (show (exec Loops.step
      (new : Loops Unit Nat Nat Nat) [.call (.addEvent 0 7 5 .WRITE none true),
        .wait () [(5, EPOLLERR ||| EPOLLHUP)]]).map (fun s => (s.batches (),
          s.io.dispatch 5 (EPOLLERR ||| EPOLLHUP) true matches .ok _,
          (s.step (.ready () true)).isSome)) = some ([(5, EPOLLERR ||| EPOLLHUP)], false, true) by
    decide)
  simp only [Prod.mk.injEq] at hfacts
  obtain ⟨hbatch, hfails, hstep⟩ := hfacts
  obtain ⟨s', hs'⟩ := Option.isSome_iff_exists.mp hstep
  obtain ⟨m, hm, _⟩ := each_last (h _) hs hs' 5 _ [] hbatch
  rw [hm] at hfails
  cases hfails

end Loops
end HCServer.IOManager
