import HCServer.IOManager.Bookkeeping
import Mathlib.Data.List.Nodup
import Mathlib.Data.List.Range

/-! The fate of every accepted registration. `Books` is the manager together with a record of the
registrations that it accepted, in three lists that say where each of them is now; the record is
kept from return values only, and `Settled` compares it with the manager's own state. -/
namespace HCServer.IOManager
open Lib
variable {S F K : Type}

/-- A call, with the outcome of its `epoll_ctl` in `ctl`. -/
inductive Call (S F K : Type)
  | addEvent (scheduler : S) (current : F) (fd : Nat) (event : Event) (cb : Option K) (ctl : Bool)
  | delEvent (fd : Nat) (event : Event) (ctl : Bool)
  | cancelEvent (fd : Nat) (event : Event) (ctl : Bool)

namespace Call

def ctl : Call S F K → Bool
  | addEvent _ _ _ _ _ ctl => ctl
  | delEvent _ _ ctl => ctl
  | cancelEvent _ _ ctl => ctl

/-- `addEvent` is only called for an event that is not registered. -/
def Admissible (m : IOManager S F K) : Call S F K → Prop
  | addEvent _ _ fd event _ _ => (m.context fd).armed event = false
  | _ => True

instance (m : IOManager S F K) : (c : Call S F K) → Decidable (c.Admissible m)
  | addEvent _ _ fd event _ _ => inferInstanceAs (Decidable ((m.context fd).armed event = false))
  | delEvent _ _ _ => inferInstanceAs (Decidable True)
  | cancelEvent _ _ _ => inferInstanceAs (Decidable True)

/-- The result tells whether the call took effect. -/
def perform (m : IOManager S F K) : Call S F K → Except Abort (Outcome S F K Bool)
  | addEvent scheduler current fd event cb ctl =>
      (m.addEvent scheduler current fd event cb ctl).map fun o => ⟨o.state, o.ret = 0, o.request⟩
  | delEvent fd event ctl => m.delEvent fd event ctl
  | cancelEvent fd event ctl => m.cancelEvent fd event ctl

end Call

/-- One accepted `addEvent`. -/
structure Registration (S F K : Type) where
  serial : Nat
  fd : Nat
  event : Event
  scheduler : S
  task : Task F K

namespace Registration

def of (serial fd : Nat) (event : Event) (scheduler : S) (current : F) (cb : Option K) :
    Registration S F K :=
  ⟨serial, fd, event, scheduler, match cb with
    | some k => .cb k
    | none => .fiber current⟩

def context (r : Registration S F K) : EventContext S F K :=
  match r.task with
  | .cb k => ⟨some r.scheduler, none, some k⟩
  | .fiber f => ⟨some r.scheduler, some f, none⟩

def queued (r : Registration S F K) : S × Task F K := (r.scheduler, r.task)

def isAt (fd : Nat) (event : Event) (r : Registration S F K) : Bool :=
  r.fd == fd && r.event == event

theorem of_context (serial fd : Nat) (event : Event) (scheduler : S) (current : F)
    (cb : Option K) : (of serial fd event scheduler current cb).context =
      waiter scheduler current cb := by
  cases cb <;> rfl

theorem context_queued (r : Registration S F K) : r.context.queued = some r.queued := by
  rcases r with ⟨_, _, _, _, _ | _⟩ <;> rfl

end Registration

structure Books (S F K : Type) where
  io : IOManager S F K
  accepted : List (Registration S F K)
  registered : List (Registration S F K)
  scheduled : List (Registration S F K)
  removed : List (Registration S F K)

namespace Books

def new : Books S F K := ⟨.new, [], [], [], []⟩

/-- The entry of a call that took effect. -/
def enter (b : Books S F K) (io : IOManager S F K) : Call S F K → Books S F K
  | .addEvent scheduler current fd event cb _ =>
      let r := Registration.of b.accepted.length fd event scheduler current cb
      { b with io, accepted := b.accepted ++ [r], registered := r :: b.registered }
  | .delEvent fd event _ =>
      { b with
        io
        registered := b.registered.filter fun r => !r.isAt fd event
        removed := b.removed ++ b.registered.filter (·.isAt fd event) }
  | .cancelEvent fd event _ =>
      { b with
        io
        registered := b.registered.filter fun r => !r.isAt fd event
        scheduled := b.scheduled ++ b.registered.filter (·.isAt fd event) }

def record (b : Books S F K) (c : Call S F K) (o : Outcome S F K Bool) : Books S F K :=
  if o.ret then b.enter o.state c else { b with io := o.state }

def step (b : Books S F K) (c : Call S F K) : Option (Books S F K) :=
  if c.Admissible b.io then
    match c.perform b.io with
    | .ok o => some (b.record c o)
    | .error _ => none
  else none

structure Settled (b : Books S F K) : Prop where
  consistent : b.io.Consistent
  serials : b.accepted.map Registration.serial = List.range b.accepted.length
  fates : (b.registered ++ b.scheduled ++ b.removed).Perm b.accepted
  queue : b.io.fibers = b.scheduled.map Registration.queued
  slots : ∀ fd event, (b.registered.filter (·.isAt fd event)).map Registration.context =
    if (b.io.context fd).armed event then [(b.io.context fd).getcontext event] else []

end Books

/-- Nothing but empty contexts distinguishes the two states. -/
structure Unchanged (m m' : IOManager S F K) : Prop where
  contexts : ∀ fd, m'.context fd = m.context fd
  rest : m' = { m with fdContexts := m'.fdContexts }

theorem Unchanged.refl (m : IOManager S F K) : Unchanged m m := ⟨fun _ => rfl, rfl⟩

theorem Unchanged.grow {m : IOManager S F K} (hm : m.Consistent) (fd : Nat) :
    Unchanged m (m.grow fd) where
  contexts := grow_context hm fd
  rest := by
    unfold IOManager.grow
    split <;> rfl

namespace Books.Settled
variable {b : Books S F K} {m' : IOManager S F K} {fd : Nat} {event : Event}

theorem new : (Books.new : Books S F K).Settled where
  consistent := new_consistent
  serials := rfl
  fates := List.Perm.refl _
  queue := rfl
  slots := by
    intro fd event
    rw [Books.new, new_context, FdContext.fresh_armed]
    rfl

theorem unchanged (h : b.Settled) (hm' : m'.Consistent) (hu : Unchanged b.io m') :
    ({ b with io := m' } : Books S F K).Settled where
  consistent := hm'
  serials := h.serials
  fates := h.fates
  queue := by
    have hq : m'.fibers = b.io.fibers := by
      rw [hu.rest]
    exact hq.trans h.queue
  slots := by
    intro fd event
    rw [hu.contexts]
    exact h.slots fd event

theorem none_at (h : b.Settled) (hoff : (b.io.context fd).armed event = false) :
    b.registered.filter (·.isAt fd event) = [] := by
  have hslot := h.slots fd event
  rw [hoff] at hslot
  exact List.map_eq_nil_iff.mp hslot

theorem one_at (h : b.Settled) (hon : (b.io.context fd).armed event = true) :
    ∃ r, b.registered.filter (·.isAt fd event) = [r] ∧
      r.context = (b.io.context fd).getcontext event := by
  have hslot := h.slots fd event
  rw [hon] at hslot
  obtain ⟨r, hr, hc⟩ := List.map_eq_singleton_iff.mp hslot
  exact ⟨r, hr, hc⟩

theorem isAt_iff {r : Registration S F K} :
    r.isAt fd event = true ↔ r.fd = fd ∧ r.event = event := by
  simp only [Registration.isAt, Bool.and_eq_true, beq_iff_eq]

/-- A new registration takes the free slot of its event. -/
theorem enter_add (h : b.Settled) (hoff : (b.io.context fd).armed event = false)
    (scheduler : S) (current : F) (cb : Option K) (ctl : Bool) :
    (b.enter ((b.io.grow fd).install fd
      ((b.io.context fd).arm event (waiter scheduler current cb)) [])
      (.addEvent scheduler current fd event cb ctl)).Settled := by
  have hlen := grow_length h.consistent fd
  have hctx := h.consistent.context fd
  constructor
  case consistent =>
    apply (h.consistent.grow fd).install hlen
    · exact hctx.arm (waiter_holds scheduler current cb)
    · rw [FdContext.arm_fd]
      exact h.consistent.named fd
  case serials =>
    simp only [Books.enter, List.map_append, h.serials, List.length_append, List.length_singleton]
    exact List.range_succ.symm
  case fates =>
    have hfates := h.fates.cons (Registration.of b.accepted.length fd event scheduler current cb)
    exact hfates.trans (List.perm_append_singleton _ _).symm
  case queue =>
    simp only [Books.enter, install, List.append_nil, (grow_rest fd).2.2]
    exact h.queue
  case slots =>
    intro x e
    simp only [Books.enter, install_context hlen, grow_context h.consistent]
    by_cases same : x = fd
    · subst same
      rw [if_pos rfl, hctx.arm_armed, FdContext.getcontext_arm]
      by_cases hev : e = event
      · subst hev
        have hat : (Registration.of b.accepted.length x e scheduler current cb).isAt x e = true :=
          isAt_iff.mpr ⟨rfl, rfl⟩
        rw [List.filter_cons_of_pos hat, h.none_at hoff, List.map_singleton,
          Registration.of_context, beq_self_eq_true, Bool.or_true, if_pos rfl, if_pos rfl]
      · have hat : ¬ (Registration.of b.accepted.length x event scheduler current cb).isAt x e :=
          fun hin => hev (isAt_iff.mp hin).2.symm
        rw [List.filter_cons_of_neg hat, h.slots, beq_eq_false_iff_ne.mpr hev, Bool.or_false,
          if_neg hev]
    · have hat : ¬ (Registration.of b.accepted.length fd event scheduler current cb).isAt x e :=
        fun hin => same (isAt_iff.mp hin).1.symm
      rw [List.filter_cons_of_neg hat, h.slots, if_neg same]

/-- The slots once the registration at `fd` and `event` has left. -/
theorem slots_leave (h : b.Settled) (hon : (b.io.context fd).armed event = true)
    {q : List (S × Task F K)} (x : Nat) (e : Event) :
    ((b.registered.filter fun r => !r.isAt fd event).filter (·.isAt x e)).map
        Registration.context =
      if ((b.io.install fd ((b.io.context fd).disarm event) q).context x).armed e then
        [((b.io.install fd ((b.io.context fd).disarm event) q).context x).getcontext e]
      else [] := by
  rw [install_context (armed_lt hon), List.filter_filter]
  have hkeep (hne : ¬ (x = fd ∧ e = event)) :
      (b.registered.filter fun r => r.isAt x e && !r.isAt fd event) =
        b.registered.filter (·.isAt x e) := by
    apply List.filter_congr
    intro r _
    cases hat : r.isAt x e with
    | false => rfl
    | true =>
        have hother : ¬ r.isAt fd event := by
          intro hin
          obtain ⟨hx, he⟩ := isAt_iff.mp hat
          obtain ⟨hf, hv⟩ := isAt_iff.mp hin
          exact hne ⟨hx.symm.trans hf, he.symm.trans hv⟩
        simp only [hother, Bool.not_false, Bool.and_true]
  by_cases same : x = fd
  · subst same
    rw [if_pos rfl, (h.consistent.context x).disarm_armed, FdContext.getcontext_disarm]
    by_cases hev : e = event
    · subst hev
      simp only [Bool.and_not_self, List.filter_false, List.map_nil, bne_self_eq_false,
        Bool.and_false, Bool.false_eq_true, if_false]
    · rw [hkeep (fun hin => hev hin.2), h.slots, bne_iff_ne.mpr hev, Bool.and_true, if_neg hev]
  · rw [hkeep (fun hin => same hin.1), h.slots, if_neg same]

theorem consistent_leave (h : b.Settled) (hon : (b.io.context fd).armed event = true)
    (q : List (S × Task F K)) :
    (b.io.install fd ((b.io.context fd).disarm event) q).Consistent := by
  apply h.consistent.install (armed_lt hon) (h.consistent.context fd).disarm
  rw [FdContext.disarm_fd]
  exact h.consistent.named fd

/-- The entries that leave a list and join the others are neither lost nor doubled. -/
theorem perm_leave {α : Type} (p : α → Bool) (l others : List α) :
    ((l.filter fun r => !p r) ++ (others ++ l.filter p)).Perm (l ++ others) := by
  calc ((l.filter fun r => !p r) ++ (others ++ l.filter p)).Perm
        (others ++ l.filter p ++ l.filter fun r => !p r) := List.perm_append_comm
    _ = others ++ (l.filter p ++ l.filter fun r => !p r) := List.append_assoc _ _ _
    List.Perm _ (others ++ l) := (List.filter_append_perm p l).append_left others
    List.Perm _ (l ++ others) := List.perm_append_comm

theorem enter_del (h : b.Settled) (hon : (b.io.context fd).armed event = true) (ctl : Bool) :
    (b.enter (b.io.install fd ((b.io.context fd).disarm event) [])
      (.delEvent fd event ctl)).Settled where
  consistent := h.consistent_leave hon []
  serials := h.serials
  fates := by
    apply List.Perm.trans _ h.fates
    have hleave := perm_leave (·.isAt fd event) b.registered (b.scheduled ++ b.removed)
    simpa only [Books.enter, List.append_assoc] using hleave
  queue := by
    simp only [Books.enter, install, List.append_nil]
    exact h.queue
  slots := h.slots_leave hon

theorem enter_cancel (h : b.Settled) (hon : (b.io.context fd).armed event = true) (ctl : Bool) :
    (b.enter (b.io.install fd ((b.io.context fd).disarm event)
      ((b.io.context fd).getcontext event).queued.toList) (.cancelEvent fd event ctl)).Settled where
  consistent := h.consistent_leave hon _
  serials := h.serials
  fates := by
    apply List.Perm.trans _ h.fates
    have hcomm : (b.registered.filter (·.isAt fd event) ++ b.removed).Perm
        (b.removed ++ b.registered.filter (·.isAt fd event)) := List.perm_append_comm
    have hswap := hcomm.append_left b.scheduled
    simp only [Books.enter, List.append_assoc]
    apply (hswap.append_left _).trans
    rw [← List.append_assoc b.scheduled]
    exact perm_leave _ _ _
  queue := by
    obtain ⟨r, hr, hc⟩ := h.one_at hon
    simp only [Books.enter, install, hr, List.map_append, List.map_singleton, ← hc,
      Registration.context_queued, Option.toList_some, h.queue]
  slots := h.slots_leave hon

end Books.Settled

/-- What one admissible call does, besides not to abort. -/
structure Books.Sound (b : Books S F K) (c : Call S F K) (o : Outcome S F K Bool) : Prop where
  expected : ∀ r, o.request = some r → r.op.Expected (b.io.interest r.fd)
  refused : o.request.isSome → c.ctl = false → o.ret = false
  unchanged : o.ret = false → Unchanged b.io o.state
  settled : (b.record c o).Settled

namespace Books.Settled
variable {b : Books S F K} {fd : Nat} {event : Event}

theorem removal_sound (h : b.Settled) (c : Call S F K) {queued : List (S × Task F K)}
    (henter : (b.io.context fd).armed event = true → c.ctl = true →
      (b.enter (b.io.install fd ((b.io.context fd).disarm event) queued) c).Settled) :
    b.Sound c (b.io.removal fd event c.ctl queued) := by
  have hm := h.consistent
  unfold removal
  by_cases hoff : (b.io.context fd).armed event = false
  · rw [if_pos hoff]
    refine ⟨?_, ?_, ?_, ?_⟩
    · rintro r ⟨⟩
    · intro _ _
      rfl
    · intro _
      exact Unchanged.refl b.io
    · exact h
  · have hon := Bool.eq_true_of_not_eq_false hoff
    rw [if_neg hoff]
    cases hctl : c.ctl with
    | false =>
        refine ⟨?_, ?_, ?_, ?_⟩
        · rintro r ⟨⟩
          exact dropRequest_expected hm (armed_ne_zero hon)
        · intro _ _
          rfl
        · intro _
          exact Unchanged.refl b.io
        · exact h
    | true =>
        refine ⟨?_, ?_, ?_, ?_⟩
        · rintro r ⟨⟩
          exact dropRequest_expected hm (armed_ne_zero hon)
        · intro _ hno
          rw [hctl] at hno
          cases hno
        · intro hret
          cases hret
        · exact henter hon hctl

theorem addEvent_sound (h : b.Settled) (scheduler : S) (current : F) (cb : Option K) (ctl : Bool)
    (hoff : (b.io.context fd).armed event = false) :
    ∃ o, (Call.addEvent scheduler current fd event cb ctl).perform b.io = .ok o ∧
      b.Sound (.addEvent scheduler current fd event cb ctl) o := by
  have hm := h.consistent
  simp only [Call.perform, addEvent_spec hm hoff, Except.map]
  refine ⟨_, rfl, ?_⟩
  cases ctl with
  | false =>
      refine ⟨?_, ?_, ?_, ?_⟩
      · rintro r ⟨⟩
        exact addRequest_expected hm
      · intro _ _
        rfl
      · intro _
        exact Unchanged.grow hm fd
      · exact h.unchanged (hm.grow fd) (Unchanged.grow hm fd)
  | true =>
      refine ⟨?_, ?_, ?_, ?_⟩
      · rintro r ⟨⟩
        exact addRequest_expected hm
      · intro _ hctl
        cases hctl
      · intro hret
        cases hret
      · exact h.enter_add hoff scheduler current cb true

theorem perform_sound (h : b.Settled) (c : Call S F K) (hc : c.Admissible b.io) :
    ∃ o, c.perform b.io = .ok o ∧ b.Sound c o := by
  cases c with
  | addEvent scheduler current fd event cb ctl => exact h.addEvent_sound scheduler current cb ctl hc
  | delEvent fd event ctl =>
      refine ⟨_, delEvent_spec h.consistent, ?_⟩
      apply h.removal_sound
      intro hon _
      exact h.enter_del hon ctl
  | cancelEvent fd event ctl =>
      refine ⟨_, cancelEvent_spec h.consistent, ?_⟩
      apply h.removal_sound
      intro hon _
      exact h.enter_cancel hon ctl

theorem step {b' : Books S F K} {c : Call S F K} (h : b.Settled) (hstep : b.step c = some b') :
    b'.Settled := by
  unfold Books.step at hstep
  split at hstep
  case isTrue hc =>
    obtain ⟨o, ho, hsound⟩ := h.perform_sound c hc
    rw [ho] at hstep
    cases hstep
    exact hsound.settled
  case isFalse => cases hstep

end Books.Settled

/-- Where an accepted registration is. -/
inductive Fate
  | registered
  | scheduled
  | removed
  deriving DecidableEq, Repr

def Books.withFate (b : Books S F K) : Fate → List (Registration S F K)
  | .registered => b.registered
  | .scheduled => b.scheduled
  | .removed => b.removed

theorem Books.Settled.accepted_nodup {b : Books S F K} (h : b.Settled) : b.accepted.Nodup := by
  apply List.Nodup.of_map Registration.serial
  rw [h.serials]
  exact List.nodup_range

theorem Books.Settled.fate_unique {b : Books S F K} (h : b.Settled) :
    (∀ fate, (b.withFate fate).Nodup) ∧
      ∀ r ∈ b.accepted, ∃! fate, r ∈ b.withFate fate := by
  have hnodup := h.fates.nodup_iff.mpr h.accepted_nodup
  obtain ⟨hrs, hremoved, hrm⟩ := List.nodup_append.mp hnodup
  obtain ⟨hregistered, hscheduled, hrsd⟩ := List.nodup_append.mp hrs
  constructor
  · intro fate
    cases fate with
    | registered => exact hregistered
    | scheduled => exact hscheduled
    | removed => exact hremoved
  · intro r hr
    have hmem := h.fates.mem_iff.mpr hr
    rcases List.mem_append.mp hmem with hmem | hmem
    · rcases List.mem_append.mp hmem with hreg | hsch
      · refine ⟨.registered, hreg, ?_⟩
        intro fate hfate
        cases fate with
        | registered => rfl
        | scheduled => exact absurd rfl (hrsd r hreg r hfate)
        | removed => exact absurd rfl (hrm r hmem r hfate)
      · refine ⟨.scheduled, hsch, ?_⟩
        intro fate hfate
        cases fate with
        | registered => exact absurd rfl (hrsd r hfate r hsch)
        | scheduled => rfl
        | removed => exact absurd rfl (hrm r hmem r hfate)
    · refine ⟨.removed, hmem, ?_⟩
      intro fate hfate
      cases fate with
      | registered => exact absurd rfl (hrm r (List.mem_append_left _ hfate) r hmem)
      | scheduled => exact absurd rfl (hrm r (List.mem_append_right _ hfate) r hmem)
      | removed => rfl

/-- After every run of calls the three records agree, the next call asks the kernel for what the
kernel expects and a refused one changes nothing, and each accepted registration has one fate. -/
theorem event_bookkeeping (cs : List (Call S F K)) (b : Books S F K)
    (hrun : exec Books.step Books.new cs = some b) :
    b.Settled ∧ ((∀ fate, (b.withFate fate).Nodup) ∧
      ∀ r ∈ b.accepted, ∃! fate, r ∈ b.withFate fate) ∧
      ∀ c, c.Admissible b.io → ∃ o, c.perform b.io = .ok o ∧ b.Sound c o := by
  have h : b.Settled := exec_invariant (fun _ _ _ hs hstep => hs.step hstep) Books.Settled.new hrun
  refine ⟨h, h.fate_unique, ?_⟩
  intro c hc
  exact h.perform_sound c hc

/-- A fiber waits to read and a callback to write; the first is cancelled, the removal of the
second is refused. -/
theorem event_bookkeeping_run : ∃ b : Books Nat Nat Nat,
    exec Books.step Books.new [.addEvent 0 7 5 .READ none true, .addEvent 0 8 40 .WRITE (some 9) true,
      .addEvent 0 7 5 .WRITE none false, .cancelEvent 5 .READ true, .delEvent 40 .WRITE false]
      = some b ∧
    b.io.pendingEventCount = 1 ∧ b.io.fibers = [(0, .fiber 7)] ∧ b.Settled := by
  have hrun : (exec Books.step (Books.new : Books Nat Nat Nat) [.addEvent 0 7 5 .READ none true,
      .addEvent 0 8 40 .WRITE (some 9) true, .addEvent 0 7 5 .WRITE none false,
      .cancelEvent 5 .READ true, .delEvent 40 .WRITE false]).map
        (fun b => (b.io.pendingEventCount, b.io.fibers)) = some (1, [(0, .fiber 7)]) := by
    decide
  obtain ⟨b, hb, hvalues⟩ := Option.map_eq_some_iff.mp hrun
  obtain ⟨hcount, hqueue⟩ := Prod.mk.inj hvalues
  exact ⟨b, hb, hcount, hqueue, (event_bookkeeping _ b hb).1⟩

end HCServer.IOManager
