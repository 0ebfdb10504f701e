import HCServer.Hook.FdManager
import HCServer.Hook.Sleep
import Mathlib.Data.List.Count
import Mathlib.Data.List.Induction

/-! One hooked call of a fiber, as the fiber sees it: `do_io` and `connect_with_timeout` with the answers of
the kernel and the ends of the waits, and the timeouts that `Socket` sets for them. -/
namespace HCServer.Calls
open Fds Hook Lib

inductive Errno
  | EINTR
  | EAGAIN
  | EBADF
  | ETIMEDOUT
  | EINPROGRESS
  | other (number : Nat)
  deriving DecidableEq, Repr

/-- What a call gives: a result other than -1, or the `errno`. -/
inductive Ret
  | value (n : Nat)
  | error (errno : Errno)
  deriving DecidableEq, Repr

/-- A wait for an event: the `errno` where `addEvent` fails, and whether the callback of a timer has run
before the fiber goes on. -/
structure Wait where
  refused : Option Errno
  fired : Bool
  deriving DecidableEq, Repr

inductive Op
  | call
  | addConditiomTimer (ms : Nat)
  | addEvent
  | yieldToHold
  | cancelTimer
  deriving DecidableEq, Repr

/-- What the call has done, and its result once it has one. -/
structure Trace where
  ops : List Op
  ret : Option Ret
  deriving DecidableEq, Repr

def Trace.after (ops : List Op) (t : Trace) : Trace := { t with ops := ops ++ t.ops }

/-- `(uint64_t)-1` -/
def noTimeout : Nat := 2 ^ 64 - 1

/-- The steps up to `addEvent`. -/
def arming (timeout : Nat) : List Op :=
  if timeout = noTimeout then [.call, .addEvent] else [.call, .addConditiomTimer timeout, .addEvent]

/-- `if (timer) timer->cancel()` -/
def disarming (timeout : Nat) : List Op := if timeout = noTimeout then [] else [.cancelTimer]

/-- The loop behind `retry`, with the answers of the kernel and the waits in their order. -/
def retry (timeout : Nat) : List Ret → List Wait → Trace
  | [], _ => ⟨[], none⟩
  | .error .EINTR :: answers, waits => (retry timeout answers waits).after [.call]
  | .error .EAGAIN :: _, [] => ⟨arming timeout ++ [.yieldToHold], none⟩
  | .error .EAGAIN :: answers, w :: waits =>
      match w.refused with
      | some errno => ⟨arming timeout ++ disarming timeout, some (.error errno)⟩
      | none =>
          let waited := arming timeout ++ .yieldToHold :: disarming timeout
          if timeout ≠ noTimeout ∧ w.fired = true then ⟨waited, some (.error .ETIMEDOUT)⟩
          else (retry timeout answers waits).after waited
  | a :: _, _ => ⟨[.call], some a⟩

/-- `ctx->getTimeout(type)` -/
def getTimeout (ctx : FdCtx) : TimeoutType → Nat
  | .SO_RCVTIMEO => ctx.recvTimeout
  | .SO_SNDTIMEO => ctx.sendTimeout

/-- `hook` is `t_hook_enable`, `ctx` the object that `FdMgr` has for the descriptor. -/
def doIo (hook : Bool) (ctx : Option FdCtx) (timeout_so : TimeoutType) (answers : List Ret)
    (waits : List Wait) : Trace :=
  let direct : Trace := ⟨[.call], answers.head?⟩
  if !hook then direct
  else match ctx with
    | none => direct
    | some ctx =>
        if ctx.isClosed then ⟨[], some (.error .EBADF)⟩
        else if !ctx.isSocket || ctx.userNonblock then direct
        else retry (getTimeout ctx timeout_so) answers waits

/-! ### What the fiber sees -/

/-- The answers that `do_io` keeps to itself. -/
def Hidden (a : Ret) : Prop := a = .error .EINTR ∨ a = .error .EAGAIN

/-- The `errno` of a wait that ends the call. -/
def Wait.ending (timeout : Nat) (w : Wait) : Option Errno :=
  w.refused.or (if timeout ≠ noTimeout ∧ w.fired = true then some .ETIMEDOUT else none)

/-- The call gives the first answer that is not hidden, unless a wait before it ends the call. -/
def Gives (timeout : Nat) (answers : List Ret) (waits : List Wait) (r : Ret) : Prop :=
  ∃ noise a later, answers = noise ++ a :: later ∧ (∀ b ∈ noise, Hidden b) ∧
    ∃ before rest, waits = before ++ rest ∧ before.length = noise.count (.error .EAGAIN) ∧
      (∀ w ∈ before, w.ending timeout = none) ∧
      (¬ Hidden a ∧ r = a ∨
        a = .error .EAGAIN ∧ ∃ w ∈ rest.head?, ∃ errno ∈ w.ending timeout, r = .error errno)

variable {timeout : Nat} {answers : List Ret} {waits : List Wait} {r : Ret} {w : Wait}

theorem not_gives_nil : ¬ Gives timeout [] waits r := by
  rintro ⟨noise, a, later, hnil, -⟩
  cases noise <;> cases hnil

theorem gives_interrupted : Gives timeout (.error .EINTR :: answers) waits r ↔ Gives timeout answers waits r := by
  constructor
  · rintro ⟨noise, a, later, hsplit, hnoise, before, rest, hwaits, hcount, hgoes, hend⟩
    cases noise with
    | nil =>
        cases hsplit
        rcases hend with ⟨hseen, -⟩ | ⟨heq, -⟩
        · exact absurd (Or.inl rfl) hseen
        · cases heq
    | cons b noise =>
        cases hsplit
        refine ⟨noise, a, later, rfl, fun b hb => hnoise b (List.mem_cons_of_mem _ hb), before, rest,
          hwaits, ?_, hgoes, hend⟩
        rwa [List.count_cons_of_ne (by decide)] at hcount
  · rintro ⟨noise, a, later, rfl, hnoise, before, rest, hwaits, hcount, hgoes, hend⟩
    refine ⟨.error .EINTR :: noise, a, later, rfl, List.forall_mem_cons.mpr ⟨Or.inl rfl, hnoise⟩, before,
      rest, hwaits, ?_, hgoes, hend⟩
    rw [List.count_cons_of_ne (by decide)]
    exact hcount

theorem not_gives_waiting : ¬ Gives timeout (.error .EAGAIN :: answers) [] r := by
  rintro ⟨noise, a, later, hsplit, hnoise, before, rest, hwaits, hcount, hgoes, hend⟩
  obtain ⟨rfl, rfl⟩ := List.append_eq_nil_iff.mp hwaits.symm
  cases noise with
  | nil =>
      cases hsplit
      rcases hend with ⟨hseen, -⟩ | ⟨-, w, hw, -⟩
      · exact hseen (Or.inr rfl)
      · cases hw
  | cons b noise =>
      cases hsplit
      rw [List.count_cons_self] at hcount
      cases hcount

/-- A wait that ends the call, or one that the call goes on behind. -/
theorem gives_waited : Gives timeout (.error .EAGAIN :: answers) (w :: waits) r ↔
    (∃ errno ∈ w.ending timeout, r = .error errno) ∨ w.ending timeout = none ∧ Gives timeout answers waits r := by
  constructor
  · rintro ⟨noise, a, later, hsplit, hnoise, before, rest, hwaits, hcount, hgoes, hend⟩
    cases noise with
    | nil =>
        cases hsplit
        obtain rfl : before = [] := List.length_eq_zero_iff.mp hcount
        cases hwaits
        rcases hend with ⟨hseen, -⟩ | ⟨-, w', hw', hr⟩
        · exact absurd (Or.inr rfl) hseen
        · cases hw'
          exact Or.inl hr
    | cons b noise =>
        cases hsplit
        rw [List.count_cons_self] at hcount
        cases before with
        | nil => cases hcount
        | cons w' before =>
            cases hwaits
            refine Or.inr ⟨hgoes w List.mem_cons_self, noise, a, later, rfl,
              fun b hb => hnoise b (List.mem_cons_of_mem _ hb), before, rest, rfl, Nat.succ.inj hcount,
              fun w hw => hgoes w (List.mem_cons_of_mem _ hw), hend⟩
  · rintro (hends | ⟨hgoes, noise, a, later, rfl, hnoise, before, rest, rfl, hcount, hall, hend⟩)
    · exact ⟨[], .error .EAGAIN, answers, rfl, fun b hb => absurd hb List.not_mem_nil, [], w :: waits, rfl,
        rfl, fun w hw => absurd hw List.not_mem_nil, Or.inr ⟨rfl, w, rfl, hends⟩⟩
    · refine ⟨.error .EAGAIN :: noise, a, later, rfl, List.forall_mem_cons.mpr ⟨Or.inr rfl, hnoise⟩,
        w :: before, rest, rfl, ?_, List.forall_mem_cons.mpr ⟨hgoes, hall⟩, hend⟩
      rw [List.length_cons, List.count_cons_self, hcount]

theorem gives_seen {a : Ret} (h : ¬ Hidden a) : Gives timeout (a :: answers) waits r ↔ r = a := by
  constructor
  · rintro ⟨noise, b, later, hsplit, hnoise, before, rest, hwaits, hcount, hgoes, hend⟩
    cases noise with
    | nil =>
        cases hsplit
        rcases hend with ⟨-, hr⟩ | ⟨heq, -⟩
        · exact hr
        · exact absurd (Or.inr heq) h
    | cons c noise =>
        cases hsplit
        exact absurd (hnoise a List.mem_cons_self) h
  · rintro rfl
    exact ⟨[], r, answers, rfl, fun b hb => absurd hb List.not_mem_nil, [], waits, rfl, rfl,
      fun w hw => absurd hw List.not_mem_nil, Or.inl ⟨h, rfl⟩⟩

theorem gives_ended {errno : Errno} (h : w.ending timeout = some errno) :
    Gives timeout (.error .EAGAIN :: answers) (w :: waits) r ↔ r = .error errno := by
  rw [gives_waited, h]
  constructor
  · rintro (⟨errno', herrno, hr⟩ | ⟨hnone, -⟩)
    · cases herrno
      exact hr
    · cases hnone
  · intro hr
    exact Or.inl ⟨errno, rfl, hr⟩

theorem gives_resumed (h : w.ending timeout = none) :
    Gives timeout (.error .EAGAIN :: answers) (w :: waits) r ↔ Gives timeout answers waits r := by
  rw [gives_waited, h]
  constructor
  · rintro (⟨errno, herrno, -⟩ | ⟨-, hgives⟩)
    · cases herrno
    · exact hgives
  · intro hgives
    exact Or.inr ⟨rfl, hgives⟩

theorem retry_ret (timeout : Nat) (answers : List Ret) (waits : List Wait) (r : Ret) :
    (retry timeout answers waits).ret = some r ↔ Gives timeout answers waits r := by
  fun_induction retry timeout answers waits with
  | case1 waits => exact iff_of_false (fun h => by cases h) not_gives_nil
  | case2 answers waits ih => exact ih.trans gives_interrupted.symm
  | case3 answers => exact iff_of_false (fun h => by cases h) not_gives_waiting
  | case4 answers w waits errno hrefused =>
      have hends : w.ending timeout = some errno := by rw [Wait.ending, hrefused, Option.some_or]
      rw [gives_ended hends, Option.some.injEq, eq_comm]
  | case5 answers w waits hadded waited hfired =>
      have hends : w.ending timeout = some .ETIMEDOUT := by
        rw [Wait.ending, hadded, if_pos hfired, Option.none_or]
      rw [gives_ended hends, Option.some.injEq, eq_comm]
  | case6 answers w waits hadded waited hquiet ih =>
      have hgoes : w.ending timeout = none := by
        rw [Wait.ending, hadded, if_neg hquiet, Option.none_or]
      rw [gives_resumed hgoes]
      exact ih
  | case7 a answers waits hintr hagain hnone =>
      have hseen : ¬ Hidden a := by
        rintro (rfl | rfl)
        · exact hintr rfl
        · cases waits with
          | nil => exact hagain rfl rfl
          | cons w waits => exact hnone w waits rfl rfl
      rw [gives_seen hseen, Option.some.injEq, eq_comm]

/-! ### The timers -/

/-- Whether a timer is in place after an operation, none where the operation breaks the order: a timer is
added with the timeout and only where there is none, the function is called without one, and the fiber
waits under one whenever there is a timeout. -/
def Op.timer (timeout : Nat) : Bool → Op → Option Bool
  | false, .call => some false
  | false, .addConditiomTimer ms => if ms = timeout ∧ ms ≠ noTimeout then some true else none
  | true, .cancelTimer => some false
  | placed, .addEvent => if placed = decide (timeout ≠ noTimeout) then some placed else none
  | placed, .yieldToHold => if placed = decide (timeout ≠ noTimeout) then some placed else none
  | _, _ => none

/-- The operations keep the order, and leave no timer behind a call that is over. -/
def Trace.Clean (timeout : Nat) (t : Trace) : Prop :=
  ∃ placed, exec (Op.timer timeout) false t.ops = some placed ∧ (t.ret.isSome → placed = false)

theorem exec_arming (timeout : Nat) :
    exec (Op.timer timeout) false (arming timeout) = some (decide (timeout ≠ noTimeout)) := by
  rw [arming]
  split
  case isTrue hnever => simp [exec, Op.timer, hnever]
  case isFalse hfinite => simp [exec, Op.timer, hfinite]

theorem exec_disarming (timeout : Nat) :
    exec (Op.timer timeout) (decide (timeout ≠ noTimeout)) (disarming timeout) = some false := by
  rw [disarming]
  split
  case isTrue hnever => simp [exec, hnever]
  case isFalse hfinite => simp [exec, Op.timer, hfinite]

theorem exec_yield (timeout : Nat) (ops : List Op) :
    exec (Op.timer timeout) (decide (timeout ≠ noTimeout)) (.yieldToHold :: ops) =
      exec (Op.timer timeout) (decide (timeout ≠ noTimeout)) ops := by
  rw [exec, Op.timer.eq_def]
  simp

theorem exec_waited (timeout : Nat) :
    exec (Op.timer timeout) false (arming timeout ++ .yieldToHold :: disarming timeout) = some false := by
  rw [exec_append, exec_arming, Option.bind_some, exec_yield, exec_disarming]

theorem Trace.Clean.after {ops : List Op} {t : Trace} (hops : exec (Op.timer timeout) false ops = some false)
    (h : t.Clean timeout) : (t.after ops).Clean timeout := by
  obtain ⟨placed, hplaced, hover⟩ := h
  refine ⟨placed, ?_, hover⟩
  rw [Trace.after, exec_append, hops, Option.bind_some, hplaced]

theorem retry_clean (timeout : Nat) (answers : List Ret) (waits : List Wait) :
    (retry timeout answers waits).Clean timeout := by
  fun_induction retry timeout answers waits with
  | case1 waits => exact ⟨false, rfl, fun _ => rfl⟩
  | case2 answers waits ih => exact ih.after rfl
  | case3 answers =>
      refine ⟨decide (timeout ≠ noTimeout), ?_, fun hover => by cases hover⟩
      rw [exec_append, exec_arming, Option.bind_some, exec_yield]
      rfl
  | case4 answers w waits errno hrefused =>
      refine ⟨false, ?_, fun _ => rfl⟩
      rw [exec_append, exec_arming, Option.bind_some, exec_disarming]
  | case5 answers w waits hadded waited hfired => exact ⟨false, exec_waited timeout, fun _ => rfl⟩
  | case6 answers w waits hadded waited hquiet ih => exact ih.after (exec_waited timeout)
  | case7 a answers waits hintr hagain hnone => exact ⟨false, rfl, fun _ => rfl⟩

/-- A hooked call on a socket that is open and left blocking by the user. -/
theorem hooked_call_gives {ctx : FdCtx} (hopen : ctx.isClosed = false) (hsocket : ctx.isSocket = true)
    (hblocking : ctx.userNonblock = false) (type : TimeoutType) (answers : List Ret) (waits : List Wait) :
    (∀ r, (doIo true (some ctx) type answers waits).ret = some r ↔
      Gives (getTimeout ctx type) answers waits r) ∧
    (doIo true (some ctx) type answers waits).Clean (getTimeout ctx type) := by
  have hretry : doIo true (some ctx) type answers waits = retry (getTimeout ctx type) answers waits := by
    simp [doIo, hopen, hsocket, hblocking]
  rw [hretry]
  exact ⟨retry_ret _ answers waits, retry_clean _ answers waits⟩

def acceptedSocket : FdCtx := (FdCtx.init 7 (some true)).setTimeout .SO_RCVTIMEO 300

/-- The first wait ends with data that another fiber takes, the second with the timer. -/
theorem hooked_call_gives_timeout :
    (∀ r, (doIo true (some acceptedSocket) .SO_RCVTIMEO [.error .EAGAIN, .error .EINTR, .error .EAGAIN]
        [⟨none, false⟩, ⟨none, true⟩]).ret = some r ↔
      Gives 300 [.error .EAGAIN, .error .EINTR, .error .EAGAIN] [⟨none, false⟩, ⟨none, true⟩] r) ∧
    (doIo true (some acceptedSocket) .SO_RCVTIMEO [.error .EAGAIN, .error .EINTR, .error .EAGAIN]
      [⟨none, false⟩, ⟨none, true⟩]).Clean 300 :=
  hooked_call_gives rfl rfl rfl .SO_RCVTIMEO _ _

/-! ### The timeouts of a socket -/

structure Timeval where
  tvSec : Int
  tvUsec : Int
  deriving DecidableEq, Repr

/-- `v->tv_sec * 1000 + v->tv_usec / 1000`, the argument of `setTimeout`. -/
def Timeval.ms (tv : Timeval) : Nat := uint64OfInt (tv.tvSec * 1000 + tv.tvUsec.tdiv 1000)

end HCServer.Calls
