import Mathlib.Data.List.Basic
import Mathlib.Logic.Function.Basic

/-! Event registration of `IOManager`: the per-descriptor contexts, the counter of pending events,
the kernel's interest list and the tasks handed to the schedulers. Schedulers, fibers and
callbacks are opaque tokens. Every body runs under its descriptor's mutex, so it is one step. -/
namespace HCServer

/-- An assertion of the source that fails, or a null pointer that is used. -/
inductive Abort
  | assertion (what : String)
  | nullPointer
  deriving DecidableEq, Repr

abbrev Mask := BitVec 32

namespace IOManager

inductive Event
  | READ
  | WRITE
  deriving DecidableEq, Repr

/-- The enumerators' values, equal to `EPOLLIN` and `EPOLLOUT`. -/
def Event.bits : Event → Mask
  | .READ => 0x1
  | .WRITE => 0x4

def EPOLLIN : Mask := 0x1
def EPOLLOUT : Mask := 0x4
def EPOLLERR : Mask := 0x8
def EPOLLHUP : Mask := 0x10
def EPOLLET : Mask := 0x80000000

inductive CtlOp
  | add
  | mod
  | del
  deriving DecidableEq, Repr

/-- The arguments of one `epoll_ctl` call. -/
structure CtlRequest where
  op : CtlOp
  fd : Nat
  events : Mask
  deriving DecidableEq, Repr

/-- What the kernel requires of an operation: `ADD` of an unknown descriptor, `MOD` and `DEL` of
a known one. -/
def CtlOp.Expected (interest : Option Mask) : CtlOp → Prop
  | .add => interest = none
  | .mod => interest ≠ none
  | .del => interest ≠ none

variable {S F K : Type}

structure EventContext (S F K : Type) where
  scheduler : Option S
  fiber : Option F
  cb : Option K
  deriving DecidableEq, Repr

/-- `resetContext`, and the state of a fresh context. -/
def EventContext.none : EventContext S F K := ⟨Option.none, Option.none, Option.none⟩

/-- `!ctx.scheduler && !ctx.fiber && !ctx.m_cb` -/
def EventContext.isEmpty (c : EventContext S F K) : Bool :=
  c.scheduler.isNone && c.fiber.isNone && c.cb.isNone

structure FdContext (S F K : Type) where
  fd : Nat
  read : EventContext S F K
  write : EventContext S F K
  events : Mask
  deriving DecidableEq, Repr

/-- What a scheduler is given to run. -/
inductive Task (F K : Type)
  | fiber (f : F)
  | cb (k : K)
  deriving DecidableEq, Repr

namespace FdContext

def fresh (fd : Nat) : FdContext S F K := ⟨fd, .none, .none, 0⟩

def getcontext (ctx : FdContext S F K) : Event → EventContext S F K
  | .READ => ctx.read
  | .WRITE => ctx.write

def setcontext (ctx : FdContext S F K) (e : Event) (c : EventContext S F K) : FdContext S F K :=
  match e with
  | .READ => { ctx with read := c }
  | .WRITE => { ctx with write := c }

/-- `schedule(&ctx.m_cb)` or `schedule(&ctx.fiber)`: the pointer is swapped into the queue entry,
and an entry that holds neither is not queued. -/
def triggerEvent (ctx : FdContext S F K) (event : Event) :
    Except Abort (FdContext S F K × Option (S × Task F K)) :=
  if ctx.events &&& event.bits = 0 then .error (.assertion "m_events & event")
  else
    let c := ctx.getcontext event
    match c.scheduler with
    | none => .error .nullPointer
    | some s =>
        let queued := match c.cb with
          | some k => some (s, Task.cb k)
          | none => c.fiber.map fun f => (s, Task.fiber f)
        let emptied := match c.cb with
          | some _ => { c with cb := none, scheduler := none }
          | none => { c with fiber := none, scheduler := none }
        .ok ({ ctx with events := ctx.events &&& ~~~event.bits }.setcontext event emptied, queued)

end FdContext
end IOManager

open IOManager

/-- `fibers` is the sequence of tasks handed to schedulers so far, `interest` the mask of the last
successful `epoll_ctl` for each descriptor. -/
structure IOManager (S F K : Type) where
  fdContexts : List (FdContext S F K)
  pendingEventCount : Int
  interest : Nat → Option Mask
  fibers : List (S × Task F K)

namespace IOManager
variable {S F K : Type}

/-- `m_fdContexts.resize(size)` and the loop that fills the null slots. -/
def contextResize (m : IOManager S F K) (size : Nat) : IOManager S F K :=
  { m with fdContexts := m.fdContexts.take size ++
      (List.range' m.fdContexts.length (size - m.fdContexts.length)).map FdContext.fresh }

def new : IOManager S F K := contextResize ⟨[], 0, fun _ => none, []⟩ 32

/-- A successful `epoll_ctl`. -/
def epollCtl (m : IOManager S F K) (r : CtlRequest) : IOManager S F K :=
  { m with interest := Function.update m.interest r.fd (if r.op = .del then none else some r.events) }

def putContext (m : IOManager S F K) (fd : Nat) (ctx : FdContext S F K) : IOManager S F K :=
  { m with fdContexts := m.fdContexts.set fd ctx }

/-- What a call leaves behind: the state, its return value and the `epoll_ctl` it attempted. -/
structure Outcome (S F K : Type) (α : Type) where
  state : IOManager S F K
  ret : α
  request : Option CtlRequest

/-- `scheduler` and `current` are `Scheduler::getthis()` and `Fiber::getthis()` of the caller,
`ctl` tells whether `epoll_ctl` succeeds. -/
def addEvent (m : IOManager S F K) (scheduler : S) (current : F) (fd : Nat) (event : Event)
    (cb : Option K) (ctl : Bool) : Except Abort (Outcome S F K Int) :=
  let m := if m.fdContexts.length > fd then m else m.contextResize (fd * 3 / 2)
  match m.fdContexts[fd]? with
  | none => .error .nullPointer
  | some ctx =>
      if ctx.events &&& event.bits ≠ 0 then
        .error (.assertion "!(fd_ctx->m_events & event)")
      else
        let request : CtlRequest :=
          ⟨if ctx.events ≠ 0 then .mod else .add, fd, EPOLLET ||| ctx.events ||| event.bits⟩
        if ctl = false then .ok ⟨m, -1, some request⟩
        else
          let m := m.epollCtl request
          let m := { m with pendingEventCount := m.pendingEventCount + 1 }
          if (ctx.getcontext event).isEmpty = false then
            .error (.assertion "!event_ctx.scheduler&&!event_ctx.fiber&&!event_ctx.m_cb")
          else
            let c : EventContext S F K := match cb with
              | some k => ⟨some scheduler, none, some k⟩
              | none => ⟨some scheduler, some current, none⟩
            let ctx := { ctx with events := ctx.events ||| event.bits }.setcontext event c
            .ok ⟨m.putContext fd ctx, 0, some request⟩

/-- The removal that `delEvent` and `cancelEvent` ask the kernel for. -/
def dropRequest (fd : Nat) (left : Mask) : CtlRequest :=
  ⟨if left ≠ 0 then .mod else .del, fd, EPOLLET ||| left⟩

def delEvent (m : IOManager S F K) (fd : Nat) (event : Event) (ctl : Bool) :
    Except Abort (Outcome S F K Bool) :=
  match m.fdContexts[fd]? with
  | none => .ok ⟨m, false, none⟩
  | some ctx =>
      if ctx.events &&& event.bits = 0 then .ok ⟨m, false, none⟩
      else
        let new_events := ctx.events &&& ~~~event.bits
        let request := dropRequest fd new_events
        if ctl = false then .ok ⟨m, false, some request⟩
        else
          let m := m.epollCtl request
          let m := { m with pendingEventCount := m.pendingEventCount - 1 }
          let ctx := { ctx with events := new_events }.setcontext event .none
          .ok ⟨m.putContext fd ctx, true, some request⟩

/-- `fd_ctx->triggerEvent(event)` and the decrement of the counter after it. -/
def trigger (m : IOManager S F K) (fd : Nat) (event : Event) : Except Abort (IOManager S F K) :=
  match m.fdContexts[fd]? with
  | none => .error .nullPointer
  | some ctx => do
      let (ctx, queued) ← ctx.triggerEvent event
      .ok { m.putContext fd ctx with
        fibers := m.fibers ++ queued.toList
        pendingEventCount := m.pendingEventCount - 1 }

def cancelEvent (m : IOManager S F K) (fd : Nat) (event : Event) (ctl : Bool) :
    Except Abort (Outcome S F K Bool) :=
  match m.fdContexts[fd]? with
  | none => .ok ⟨m, false, none⟩
  | some ctx =>
      if ctx.events &&& event.bits = 0 then .ok ⟨m, false, none⟩
      else
        let request := dropRequest fd (ctx.events &&& ~~~event.bits)
        if ctl = false then .ok ⟨m, false, some request⟩
        else do
          let m ← (m.epollCtl request).trigger fd event
          .ok ⟨m, true, some request⟩

def cancelAll (m : IOManager S F K) (fd : Nat) (ctl : Bool) : Except Abort (Outcome S F K Bool) :=
  match m.fdContexts[fd]? with
  | none => .ok ⟨m, false, none⟩
  | some ctx =>
      if ctx.events = 0 then .ok ⟨m, false, none⟩
      else
        let request : CtlRequest := ⟨.del, fd, 0⟩
        if ctl = false then .ok ⟨m, false, some request⟩
        else do
          let m := m.epollCtl request
          let m ← if ctx.events &&& Event.READ.bits ≠ 0 then m.trigger fd .READ
            else if ctx.events &&& Event.WRITE.bits ≠ 0 then m.trigger fd .WRITE
            else .ok m
          if (m.fdContexts[fd]?).any fun ctx => ctx.events ≠ 0 then
            .error (.assertion "fd_ctx->m_events==0")
          else .ok ⟨m, true, some request⟩

/-- The treatment of one entry of `events` in `idle`, from taking the descriptor's mutex on.
`&` binds tighter than `|`, so the error case always adds `EPOLLIN`. -/
def dispatch (m : IOManager S F K) (fd : Nat) (reported : Mask) (ctl : Bool) :
    Except Abort (IOManager S F K) :=
  match m.fdContexts[fd]? with
  | none => .error .nullPointer
  | some ctx =>
      let events := if reported &&& (EPOLLERR ||| EPOLLHUP) ≠ 0
        then reported ||| (EPOLLIN ||| (EPOLLOUT &&& ctx.events)) else reported
      let real_events := (if events &&& EPOLLIN ≠ 0 then Event.READ.bits else 0) |||
        (if events &&& EPOLLOUT ≠ 0 then Event.WRITE.bits else 0)
      if ctx.events &&& real_events = 0 then .ok m
      else if ctl = false then .ok m
      else do
        let m := m.epollCtl (dropRequest fd (ctx.events &&& ~~~real_events))
        let m ← if real_events &&& Event.READ.bits ≠ 0 then m.trigger fd .READ else .ok m
        if real_events &&& Event.WRITE.bits ≠ 0 then m.trigger fd .WRITE else .ok m

end IOManager
end HCServer
