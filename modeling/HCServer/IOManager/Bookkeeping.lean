import HCServer.IOManager.Context
import HCServer.Lib.Transition
import Mathlib.Algebra.BigOperators.Group.List.Basic

/-! The books of `IOManager` over whole runs. Each successful call installs one new context, and
`Consistent.install` is the only place where the counter and the kernel's mask are compared with
it. Above that, a ledger of the accepted registrations follows each of them to its end. -/
namespace HCServer.IOManager
open Lib
variable {S F K : Type}

/-- A descriptor's context. One beyond the vector is still to be created, so it is fresh. -/
def context (m : IOManager S F K) (fd : Nat) : FdContext S F K :=
  (m.fdContexts[fd]?).getD (.fresh fd)

/-- What the kernel should hold for a descriptor with these events. -/
def interestOf (events : Mask) : Option Mask :=
  if events = 0 then none else some (EPOLLET ||| events)

structure Consistent (m : IOManager S F K) : Prop where
  size : 32 ≤ m.fdContexts.length
  named : ∀ fd, (m.context fd).fd = fd
  context : ∀ fd, (m.context fd).Consistent
  pending : m.pendingEventCount = (m.fdContexts.map FdContext.bitCount).sum
  interest : ∀ fd, m.interest fd = interestOf (m.context fd).events

/-- The vector is made long enough for `fd`. -/
def grow (m : IOManager S F K) (fd : Nat) : IOManager S F K :=
  if m.fdContexts.length > fd then m else m.contextResize (fd * 3 / 2)

/-- The state after `ctx` has replaced the context of `fd` and every record has followed. -/
def install (m : IOManager S F K) (fd : Nat) (ctx : FdContext S F K)
    (queued : List (S × Task F K)) : IOManager S F K where
  fdContexts := m.fdContexts.set fd ctx
  pendingEventCount := m.pendingEventCount + (ctx.bitCount - (m.context fd).bitCount)
  interest := Function.update m.interest fd (interestOf ctx.events)
  fibers := m.fibers ++ queued

section Contexts
variable {m : IOManager S F K} {fd : Nat} {ctx : FdContext S F K} {q : List (S × Task F K)}

theorem getElem?_context (h : fd < m.fdContexts.length) :
    m.fdContexts[fd]? = some (m.context fd) := by
  simp only [context, List.getElem?_eq_getElem h, Option.getD_some]

theorem context_beyond (h : m.fdContexts.length ≤ fd) : m.context fd = .fresh fd := by
  simp only [context, List.getElem?_eq_none h, Option.getD_none]

theorem contextResize_context {size : Nat} (h : m.fdContexts.length ≤ size) (x : Nat) :
    (m.contextResize size).context x = m.context x := by
  simp only [context, contextResize, List.take_of_length_le h]
  by_cases hx : x < m.fdContexts.length
  · rw [List.getElem?_append_left hx]
  · have hle := Nat.le_of_not_lt hx
    rw [List.getElem?_append_right hle, List.getElem?_eq_none hle, List.getElem?_map]
    by_cases hin : x - m.fdContexts.length < size - m.fdContexts.length
    · rw [List.getElem?_range' hin, Option.map_some, Option.getD_some, Option.getD_none,
        Nat.one_mul, Nat.add_sub_cancel' hle]
    · rw [List.getElem?_eq_none (by simpa using Nat.le_of_not_lt hin)]
      rfl

theorem contextResize_sum {size : Nat} (h : m.fdContexts.length ≤ size) :
    ((m.contextResize size).fdContexts.map FdContext.bitCount).sum =
      (m.fdContexts.map FdContext.bitCount).sum := by
  have hfresh : ∀ x ∈ (List.range' m.fdContexts.length (size - m.fdContexts.length)).map
      (FdContext.bitCount ∘ (FdContext.fresh : Nat → FdContext S F K)), x = 0 := by
    intro x hx
    obtain ⟨k, _, rfl⟩ := List.mem_map.mp hx
    simp only [Function.comp_apply, FdContext.bitCount, FdContext.fresh_armed]
    rfl
  simp only [contextResize, List.take_of_length_le h, List.map_append, List.sum_append,
    List.map_map, List.sum_eq_zero hfresh, add_zero]

theorem ite_eq_grow (m : IOManager S F K) (fd : Nat) :
    (if m.fdContexts.length > fd then m else m.contextResize (fd * 3 / 2)) = m.grow fd := rfl

theorem grow_eq (hm : m.Consistent) (fd : Nat) :
    ∃ size, m.fdContexts.length ≤ size ∧ fd < size ∧ m.grow fd = m.contextResize size := by
  unfold grow
  by_cases h : m.fdContexts.length > fd
  · refine ⟨m.fdContexts.length, le_refl _, h, ?_⟩
    simp only [if_pos h, contextResize, List.take_length, Nat.sub_self, List.range'_zero,
      List.map_nil, List.append_nil]
  · have hsize := hm.size
    refine ⟨fd * 3 / 2, by omega, by omega, ?_⟩
    rw [if_neg h]

theorem grow_length (hm : m.Consistent) (fd : Nat) : fd < (m.grow fd).fdContexts.length := by
  obtain ⟨size, hle, hlt, heq⟩ := grow_eq hm fd
  rw [heq]
  simp only [contextResize, List.take_of_length_le hle, List.length_append, List.length_map,
    List.length_range']
  omega

theorem grow_context (hm : m.Consistent) (fd x : Nat) :
    (m.grow fd).context x = m.context x := by
  obtain ⟨size, hle, _, heq⟩ := grow_eq hm fd
  rw [heq]
  exact contextResize_context hle x

@[simp] theorem grow_rest (fd : Nat) :
    (m.grow fd).pendingEventCount = m.pendingEventCount ∧ (m.grow fd).interest = m.interest ∧
      (m.grow fd).fibers = m.fibers := by
  unfold grow
  split <;> exact ⟨rfl, rfl, rfl⟩

theorem Consistent.grow (hm : m.Consistent) (fd : Nat) : (m.grow fd).Consistent := by
  have hrest := grow_rest (m := m) fd
  constructor
  case size =>
    obtain ⟨size, hle, _, heq⟩ := grow_eq hm fd
    have hsize := hm.size
    rw [heq]
    simp only [contextResize, List.take_of_length_le hle, List.length_append]
    omega
  case named =>
    intro x
    rw [grow_context hm]
    exact hm.named x
  case context =>
    intro x
    rw [grow_context hm]
    exact hm.context x
  case pending =>
    obtain ⟨size, hle, _, heq⟩ := grow_eq hm fd
    rw [hrest.1, hm.pending, heq, contextResize_sum hle]
  case interest =>
    intro x
    rw [hrest.2.1, grow_context hm]
    exact hm.interest x

theorem install_context (h : fd < m.fdContexts.length) (x : Nat) :
    (m.install fd ctx q).context x = if x = fd then ctx else m.context x := by
  by_cases same : x = fd
  · subst same
    simp only [context, install, List.getElem?_set_self h, Option.getD_some, if_pos]
  · simp only [context, install, List.getElem?_set_ne (Ne.symm same), if_neg same]

theorem sum_set (l : List (FdContext S F K)) (h : fd < l.length) :
    ((l.set fd ctx).map FdContext.bitCount).sum =
      (l.map FdContext.bitCount).sum + (ctx.bitCount - (l[fd]).bitCount) := by
  rw [List.map_set, List.sum_set', dif_pos (by simpa using h), List.getElem_map]
  ring

/-- Where the context that is installed agrees with itself, so do the counter and the kernel. -/
theorem Consistent.install (hm : m.Consistent) (h : fd < m.fdContexts.length)
    (hctx : ctx.Consistent) (hname : ctx.fd = fd) : (m.install fd ctx q).Consistent := by
  constructor
  case size =>
    simp only [IOManager.install, List.length_set]
    exact hm.size
  case named =>
    intro x
    rw [install_context h]
    by_cases same : x = fd
    · rw [if_pos same, hname, same]
    · rw [if_neg same]
      exact hm.named x
  case context =>
    intro x
    rw [install_context h]
    by_cases same : x = fd
    · rw [if_pos same]
      exact hctx
    · rw [if_neg same]
      exact hm.context x
  case pending =>
    have hold : m.context fd = m.fdContexts[fd] := by
      simp only [IOManager.context, List.getElem?_eq_getElem h, Option.getD_some]
    simp only [IOManager.install]
    rw [sum_set _ h, hm.pending, hold]
  case interest =>
    intro x
    rw [install_context h]
    by_cases same : x = fd
    · subst same
      simp only [IOManager.install, Function.update_self, if_pos]
    · simp only [IOManager.install, Function.update_of_ne same, if_neg same]
      exact hm.interest x

theorem new_context (fd : Nat) : (new : IOManager S F K).context fd = .fresh fd := by
  rw [new, contextResize_context (Nat.zero_le _)]
  rfl

theorem new_consistent : (new : IOManager S F K).Consistent := by
  constructor
  case size => exact Nat.le_refl 32
  case named =>
    intro fd
    rw [new_context]
    rfl
  case context =>
    intro fd
    rw [new_context]
    exact FdContext.fresh_consistent fd
  case pending =>
    rw [new, contextResize_sum (Nat.zero_le _)]
    rfl
  case interest =>
    intro fd
    rw [new_context]
    rfl

end Contexts

section Operations
variable {m : IOManager S F K} {fd : Nat} {event : Event} {ctl : Bool}

/-- The waiter that `addEvent` stores. -/
def waiter (scheduler : S) (current : F) (cb : Option K) : EventContext S F K :=
  match cb with
  | some k => ⟨some scheduler, none, some k⟩
  | none => ⟨some scheduler, some current, none⟩

/-- What `addEvent` asks the kernel for. -/
def addRequest (fd : Nat) (events : Mask) (event : Event) : CtlRequest :=
  ⟨if events ≠ 0 then .mod else .add, fd, EPOLLET ||| events ||| event.bits⟩

theorem waiter_holds (scheduler : S) (current : F) (cb : Option K) :
    (waiter scheduler current cb).Holds := by
  cases cb with
  | none => exact ⟨rfl, Bool.true_eq_false_eq_False⟩
  | some k => exact ⟨rfl, Bool.false_ne_true⟩

theorem interestOf_eq_none {events : Mask} : interestOf events = none ↔ events = 0 := by
  unfold interestOf
  split
  case isTrue h => exact ⟨fun _ => h, fun _ => rfl⟩
  case isFalse h => exact ⟨(fun hn => nomatch hn), fun hz => absurd hz h⟩

theorem addRequest_expected (hm : m.Consistent) :
    (addRequest fd (m.context fd).events event).op.Expected (m.interest fd) := by
  simp only [addRequest, hm.interest]
  split
  case isTrue h => exact fun hn => h (interestOf_eq_none.mp hn)
  case isFalse h => exact interestOf_eq_none.mpr (Decidable.not_not.mp h)

theorem dropRequest_expected (hm : m.Consistent) {left : Mask} (h : (m.context fd).events ≠ 0) :
    (dropRequest fd left).op.Expected (m.interest fd) := by
  have hknown : m.interest fd ≠ none := by
    rw [hm.interest]
    exact fun hn => h (interestOf_eq_none.mp hn)
  simp only [dropRequest]
  split <;> exact hknown

theorem or_bits_ne_zero (events : Mask) : events ||| event.bits ≠ 0 := by
  intro h
  have hbit : event.bits = 0 := (BitVec.or_eq_zero_iff.mp h).2
  cases event <;> exact absurd hbit (by decide)

theorem epollCtl_addRequest (m : IOManager S F K) (fd : Nat) (event : Event) (events : Mask) :
    (m.epollCtl (addRequest fd events event)).interest =
      Function.update m.interest fd (interestOf (events ||| event.bits)) := by
  have hop : (addRequest fd events event).op ≠ .del := by
    simp only [addRequest]
    split <;> decide
  simp only [epollCtl, if_neg hop, interestOf, if_neg (or_bits_ne_zero events)]
  simp only [addRequest, BitVec.or_assoc]

theorem epollCtl_dropRequest (left : Mask) :
    (m.epollCtl (dropRequest fd left)).interest =
      Function.update m.interest fd (interestOf left) := by
  simp only [epollCtl, dropRequest, interestOf]
  by_cases h : left = 0 <;> simp [h]

theorem armed_ne_zero {ctx : FdContext S F K} (h : ctx.armed event = true) : ctx.events ≠ 0 := by
  intro hz
  apply FdContext.armed_eq_true.mp h
  rw [hz]
  exact BitVec.zero_and

theorem armed_lt (h : (m.context fd).armed event = true) : fd < m.fdContexts.length := by
  by_contra hge
  rw [context_beyond (Nat.le_of_not_lt hge), FdContext.fresh_armed] at h
  cases h

/-- A granted request, a counter that moved by `change` and a stored context are one `install`. -/
theorem install_eq {ctx : FdContext S F K} {q : List (S × Task F K)} {r : CtlRequest} {change : Int}
    (hi : (m.epollCtl r).interest = Function.update m.interest fd (interestOf ctx.events))
    (hc : ctx.bitCount = (m.context fd).bitCount + change) :
    m.install fd ctx q = ⟨m.fdContexts.set fd ctx, m.pendingEventCount + change,
      (m.epollCtl r).interest, m.fibers ++ q⟩ := by
  have hchange : ctx.bitCount - (m.context fd).bitCount = change := by
    rw [hc]
    ring
  simp only [install, hchange, hi]

theorem addEvent_spec (hm : m.Consistent) (hoff : (m.context fd).armed event = false)
    (scheduler : S) (current : F) (cb : Option K) :
    m.addEvent scheduler current fd event cb ctl =
      .ok (if ctl then
        ⟨(m.grow fd).install fd ((m.context fd).arm event (waiter scheduler current cb)) [], 0,
          some (addRequest fd (m.context fd).events event)⟩
        else ⟨m.grow fd, -1, some (addRequest fd (m.context fd).events event)⟩) := by
  have hget : (m.grow fd).fdContexts[fd]? = some (m.context fd) := by
    rw [getElem?_context (grow_length hm fd), grow_context hm]
  have hbit := FdContext.armed_eq_false.mp hoff
  have hempty := (hm.context fd).isEmpty hoff
  simp only [addEvent, ite_eq_grow, hget, hbit, ne_eq, not_true_eq_false, if_false, hempty,
    Bool.true_eq_false]
  cases ctl with
  | false => rfl
  | true =>
      have hcount : ((m.context fd).arm event (waiter scheduler current cb)).bitCount =
          ((m.grow fd).context fd).bitCount + 1 := by
        rw [grow_context hm]
        exact (hm.context fd).bitCount_arm hoff
      have hinterest := epollCtl_addRequest (m.grow fd) fd event (m.context fd).events
      rw [← FdContext.arm_events] at hinterest
      rw [if_pos rfl, install_eq hinterest hcount, List.append_nil]
      rfl

theorem addEvent_ok {scheduler : S} {current : F} {cb : Option K} {o : Outcome S F K Int}
    (hm : m.Consistent) (hok : m.addEvent scheduler current fd event cb ctl = .ok o) :
    (m.context fd).armed event = false := by
  by_contra hon
  have hget : (m.grow fd).fdContexts[fd]? = some (m.context fd) := by
    rw [getElem?_context (grow_length hm fd), grow_context hm]
  have hbit := FdContext.armed_eq_true.mp (Bool.eq_true_of_not_eq_false hon)
  simp only [addEvent, ite_eq_grow, hget, ne_eq, hbit, not_false_eq_true, if_true] at hok
  cases hok

theorem install_disarm {q : List (S × Task F K)} (hm : m.Consistent)
    (hon : (m.context fd).armed event = true) :
    m.install fd ((m.context fd).disarm event) q =
      ⟨m.fdContexts.set fd ((m.context fd).disarm event), m.pendingEventCount - 1,
        (m.epollCtl (dropRequest fd ((m.context fd).events &&& ~~~event.bits))).interest,
        m.fibers ++ q⟩ := by
  apply install_eq
  · rw [FdContext.disarm_events]
    exact epollCtl_dropRequest _
  · exact (hm.context fd).bitCount_disarm hon

/-- What `delEvent` and `cancelEvent` do; they differ in the tasks that they queue. -/
def removal (m : IOManager S F K) (fd : Nat) (event : Event) (ctl : Bool)
    (queued : List (S × Task F K)) : Outcome S F K Bool :=
  let request := dropRequest fd ((m.context fd).events &&& ~~~event.bits)
  if (m.context fd).armed event = false then ⟨m, false, none⟩
  else if ctl then ⟨m.install fd ((m.context fd).disarm event) queued, true, some request⟩
  else ⟨m, false, some request⟩

theorem delEvent_spec (hm : m.Consistent) :
    m.delEvent fd event ctl = .ok (m.removal fd event ctl []) := by
  unfold delEvent removal
  by_cases hin : fd < m.fdContexts.length
  · rw [getElem?_context hin]
    by_cases hoff : (m.context fd).armed event = false
    · simp only [FdContext.armed_eq_false.mp hoff, hoff, if_true]
    · have hon := Bool.eq_true_of_not_eq_false hoff
      simp only [if_neg (FdContext.armed_eq_true.mp hon), if_neg hoff]
      cases ctl with
      | false => rfl
      | true =>
          rw [if_pos rfl, install_disarm hm hon, List.append_nil]
          rfl
  · have hle := Nat.le_of_not_lt hin
    simp only [List.getElem?_eq_none hle, context_beyond hle, FdContext.fresh_armed, if_true]

theorem trigger_spec (hfd : fd < m.fdContexts.length) (hctx : (m.context fd).Consistent)
    (hon : (m.context fd).armed event = true) :
    m.trigger fd event = .ok ⟨m.fdContexts.set fd ((m.context fd).disarm event),
      m.pendingEventCount - 1, m.interest,
      m.fibers ++ ((m.context fd).getcontext event).queued.toList⟩ := by
  unfold trigger
  rw [getElem?_context hfd]
  simp only [(hctx.triggerEvent hon).1]
  rfl

theorem cancelEvent_spec (hm : m.Consistent) :
    m.cancelEvent fd event ctl = .ok (m.removal fd event ctl
      ((m.context fd).getcontext event).queued.toList) := by
  unfold cancelEvent removal
  by_cases hin : fd < m.fdContexts.length
  · rw [getElem?_context hin]
    by_cases hoff : (m.context fd).armed event = false
    · simp only [FdContext.armed_eq_false.mp hoff, hoff, if_true]
    · have hon := Bool.eq_true_of_not_eq_false hoff
      simp only [if_neg (FdContext.armed_eq_true.mp hon), if_neg hoff]
      cases ctl with
      | false => rfl
      | true =>
          have htrigger := trigger_spec (m := m.epollCtl (dropRequest fd
            ((m.context fd).events &&& ~~~event.bits))) hin (hm.context fd) hon
          rw [if_pos rfl, install_disarm hm hon, if_neg Bool.noConfusion, htrigger]
          rfl
  · have hle := Nat.le_of_not_lt hin
    simp only [List.getElem?_eq_none hle, context_beyond hle, FdContext.fresh_armed, if_true]

end Operations
end HCServer.IOManager
