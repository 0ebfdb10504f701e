import HCServer.Hook.FdManager
import HCServer.IOManager.Model

/-! The two non-blocking flags of a socket: the kernel's, which keeps `do_io` from blocking its thread,
and the one in `FdCtx`, which is the mode the program has asked for. `fcntl` and `ioctl` are hooked on
every thread. Of `fcntl` the commands `F_SETFL` and `F_GETFL` are here, of `ioctl` the request
`FIONBIO`. -/
namespace HCServer.Nonblock
open Lib Fds

def O_NONBLOCK : Mask := 0x800

/-- What `F_SETFL` changes: `O_APPEND`, `O_NONBLOCK`, `O_ASYNC`, `O_DIRECT` and `O_NOATIME`. -/
def settable : Mask := 0x46c00

/-- `flags & O_NONBLOCK` as a `bool`. -/
def nonblock (flags : Mask) : Bool := flags &&& O_NONBLOCK != 0

/-- An open descriptor: its status flags, and `S_ISSOCK` of its mode. -/
structure File where
  flags : Mask
  socket : Bool
  deriving DecidableEq, Repr

structure Process where
  manager : FdManager
  kernel : Nat → Option File

theorem nonblock_eq (flags : Mask) : nonblock flags = flags.getLsbD 11 := by
  have hbit : O_NONBLOCK = BitVec.twoPow 32 11 := rfl
  rw [nonblock, hbit, BitVec.and_twoPow]
  cases flags.getLsbD 11 <;> decide

theorem nonblock_setfl (flags arg : Mask) :
    nonblock (flags &&& ~~~settable ||| arg &&& settable) = nonblock arg := by
  have hbit : settable[11] = true := by decide
  simp [nonblock_eq, hbit]

theorem nonblock_or (flags : Mask) : nonblock (flags ||| O_NONBLOCK) = true := by
  have hbit : O_NONBLOCK.getLsbD 11 = true := by decide
  simp [nonblock_eq, hbit]

theorem nonblock_and_not (flags : Mask) : nonblock (flags &&& ~~~O_NONBLOCK) = false := by
  have hbit : O_NONBLOCK.getLsbD 11 = true := by decide
  simp [nonblock_eq, hbit]

namespace Process
variable (p : Process)

def setFlags (fd : Nat) (flags : Mask) : Process :=
  { p with kernel := Function.update p.kernel fd ((p.kernel fd).map fun f => { f with flags }) }

/-- `fcntl_f(fd, F_SETFL, arg)` -/
def fcntlfSetfl (fd : Nat) (arg : Mask) : Process :=
  match p.kernel fd with
  | none => p
  | some f => p.setFlags fd (f.flags &&& ~~~settable ||| arg &&& settable)

/-- `fcntl_f(fd, F_GETFL)`, `none` for -1. -/
def fcntlfGetfl (fd : Nat) : Option Mask := (p.kernel fd).map File.flags

/-- `ioctl_f(fd, FIONBIO, &v)` -/
def ioctlfFionbio (fd : Nat) (v : Int) : Process :=
  match p.kernel fd with
  | none => p
  | some f => p.setFlags fd (if v = 0 then f.flags &&& ~~~O_NONBLOCK else f.flags ||| O_NONBLOCK)

/-- What `FdCtx::init` asks of the kernel for a socket. -/
def initSocket (fd : Nat) : Process :=
  match p.fcntlfGetfl fd with
  | none => p
  | some flags => if nonblock flags then p else p.fcntlfSetfl fd (flags ||| O_NONBLOCK)

/-- `FdMgr::get(fd, true)` -/
def create (fd : Nat) : Process :=
  match p.manager.lookup fd true with
  | some _ => p
  | none =>
      let fstat := (p.kernel fd).map File.socket
      let p' := { p with manager := (p.manager.create fd fstat).1 }
      if (FdCtx.init fd fstat).isSocket then p'.initSocket fd else p'

/-- The object of `get(fd)`, unless `!ctx || ctx->isClose() || !ctx->isSocket()`. -/
def socketCtx (fd : Nat) : Option Nat :=
  (p.manager.get fd false none).2.filter fun o =>
    !(p.manager.heap o).isClosed && (p.manager.heap o).isSocket

def writeCtx (o : Nat) (c : FdCtx) : Process :=
  { p with manager := { p.manager with heap := Function.update p.manager.heap o c } }

/-- `fcntl(fd, F_SETFL, arg)` -/
def fcntlSetfl (fd : Nat) (arg : Mask) : Process :=
  match p.socketCtx fd with
  | none => p.fcntlfSetfl fd arg
  | some o =>
      let ctx := { p.manager.heap o with sysNonblock := nonblock arg }
      (p.writeCtx o ctx).fcntlfSetfl fd (if ctx.sysNonblock then arg ||| O_NONBLOCK else arg)

/-- `fcntl(fd, F_GETFL)` -/
def fcntlGetfl (fd : Nat) : Option Mask := p.fcntlfGetfl fd

/-- `ioctl(fd, FIONBIO, &v)` -/
def ioctlFionbio (fd : Nat) (v : Int) : Process :=
  match p.socketCtx fd with
  | none => p.ioctlfFionbio fd v
  | some o =>
      (p.writeCtx o ((p.manager.heap o).setUserNonblock (decide (v ≠ 0)))).ioctlfFionbio fd v

variable {p : Process} {fd : Nat}

@[simp] theorem fcntlfSetfl_manager (arg : Mask) : (p.fcntlfSetfl fd arg).manager = p.manager := by
  unfold fcntlfSetfl
  split <;> rfl

@[simp] theorem ioctlfFionbio_manager (v : Int) : (p.ioctlfFionbio fd v).manager = p.manager := by
  unfold ioctlfFionbio
  split <;> rfl

@[simp] theorem initSocket_manager : (p.initSocket fd).manager = p.manager := by
  unfold initSocket
  split
  · rfl
  · split
    · rfl
    · exact fcntlfSetfl_manager _

theorem setFlags_kernel_of_ne {x : Nat} (hx : x ≠ fd) (flags : Mask) :
    (p.setFlags fd flags).kernel x = p.kernel x := Function.update_of_ne hx _ _

theorem setFlags_kernel {f : File} (hf : p.kernel fd = some f) (flags : Mask) :
    (p.setFlags fd flags).kernel fd = some { f with flags } := by
  rw [setFlags, hf]
  exact Function.update_self _ _ _

theorem fcntlfSetfl_kernel {f : File} (hf : p.kernel fd = some f) (arg : Mask) :
    ∃ f', (p.fcntlfSetfl fd arg).kernel fd = some f' ∧ nonblock f'.flags = nonblock arg := by
  rw [fcntlfSetfl, hf]
  exact ⟨_, setFlags_kernel hf _, nonblock_setfl _ _⟩

theorem fcntlfSetfl_kernel_of_ne {x : Nat} (hx : x ≠ fd) (arg : Mask) :
    (p.fcntlfSetfl fd arg).kernel x = p.kernel x := by
  unfold fcntlfSetfl
  split
  · rfl
  · exact setFlags_kernel_of_ne hx _

theorem ioctlfFionbio_kernel {f : File} (hf : p.kernel fd = some f) (v : Int) :
    ∃ f', (p.ioctlfFionbio fd v).kernel fd = some f' ∧ nonblock f'.flags = decide (v ≠ 0) := by
  rw [ioctlfFionbio, hf]
  refine ⟨_, setFlags_kernel hf _, ?_⟩
  by_cases hv : v = 0
  · simp only [hv, if_true, nonblock_and_not]
    rfl
  · simp only [hv, if_false, nonblock_or]
    simp [hv]

theorem ioctlfFionbio_kernel_of_ne {x : Nat} (hx : x ≠ fd) (v : Int) :
    (p.ioctlfFionbio fd v).kernel x = p.kernel x := by
  unfold ioctlfFionbio
  split
  · rfl
  · exact setFlags_kernel_of_ne hx _

theorem initSocket_kernel {f : File} (hf : p.kernel fd = some f) :
    ∃ f', (p.initSocket fd).kernel fd = some f' ∧ nonblock f'.flags = true := by
  rw [initSocket, fcntlfGetfl, hf]
  cases hbit : nonblock f.flags with
  | true =>
      refine ⟨f, ?_, hbit⟩
      simpa [hbit] using hf
  | false =>
      obtain ⟨f', hf', hset⟩ := fcntlfSetfl_kernel hf (f.flags ||| O_NONBLOCK)
      refine ⟨f', ?_, hset.trans (nonblock_or _)⟩
      simpa [hbit] using hf'

theorem initSocket_kernel_of_ne {x : Nat} (hx : x ≠ fd) :
    (p.initSocket fd).kernel x = p.kernel x := by
  unfold initSocket
  split
  · rfl
  · split
    · rfl
    · exact fcntlfSetfl_kernel_of_ne hx _

theorem create_found {ctx : Option Nat} (h : p.manager.lookup fd true = some ctx) :
    p.create fd = p := by
  rw [create, h]

theorem create_manager (h : p.manager.lookup fd true = none) :
    (p.create fd).manager = (p.manager.create fd ((p.kernel fd).map File.socket)).1 := by
  rw [create, h]
  dsimp only
  split
  · exact initSocket_manager
  · rfl

theorem create_kernel (h : p.manager.lookup fd true = none)
    (hsocket : (FdCtx.init fd ((p.kernel fd).map File.socket)).isSocket = true) :
    ∃ f, (p.create fd).kernel fd = some f ∧ nonblock f.flags = true := by
  rw [create, h]
  dsimp only
  rw [if_pos hsocket]
  cases hf : p.kernel fd with
  | none =>
      rw [hf] at hsocket
      cases hsocket
  | some f => exact initSocket_kernel hf

theorem create_kernel_of_ne {x : Nat} (hx : x ≠ fd) : (p.create fd).kernel x = p.kernel x := by
  unfold create
  split
  · rfl
  · dsimp only
    split
    · exact initSocket_kernel_of_ne hx
    · rfl

end Process

/-- What `F_GETFL` has returned for a socket with an `FdCtx`, with the state of its two flags then. -/
structure Report where
  returned : Mask
  kernel : Mask
  user : Bool
  deriving DecidableEq, Repr

/-- `requested` is the mode last asked for since the descriptor got its `FdCtx`. -/
structure Modes where
  process : Process
  requested : Nat → Bool
  reports : List Report

inductive Action
  | create (fd : Nat)
  | del (fd : Nat)
  | setfl (fd : Nat) (arg : Mask)
  | getfl (fd : Nat)
  | fionbio (fd : Nat) (v : Int)
  deriving DecidableEq, Repr

namespace Modes

def new (kernel : Nat → Option File) : Modes := ⟨⟨.new, kernel⟩, fun _ => false, []⟩

def step (s : Modes) : Action → Option Modes
  | .create fd =>
      some { s with
        process := s.process.create fd
        requested := if (s.process.manager.slot fd).isSome then s.requested
          else Function.update s.requested fd false }
  | .del fd => some { s with process := { s.process with manager := s.process.manager.del fd } }
  | .setfl fd arg =>
      some { s with
        process := s.process.fcntlSetfl fd arg
        requested := Function.update s.requested fd (nonblock arg) }
  | .getfl fd =>
      match s.process.socketCtx fd, s.process.fcntlGetfl fd, s.process.kernel fd with
      | some o, some returned, some f =>
          some { s with
            reports := ⟨returned, f.flags, (s.process.manager.heap o).userNonblock⟩ :: s.reports }
      | _, _, _ => some s
  | .fionbio fd v =>
      some { s with
        process := s.process.ioctlFionbio fd v
        requested := Function.update s.requested fd (decide (v ≠ 0)) }

end Modes

/-- `O_NONBLOCK` stands for the user's mode, the other flags are the kernel's. -/
structure Report.Faithful (r : Report) : Prop where
  mode : nonblock r.returned = r.user
  others : r.returned &&& ~~~O_NONBLOCK = r.kernel &&& ~~~O_NONBLOCK

namespace Modes

/-- The object of a socket that `FdManager` knows. -/
def Knows (s : Modes) (fd o : Nat) : Prop :=
  s.process.manager.slot fd = some o ∧ (s.process.manager.heap o).isSocket = true

structure Virtualised (s : Modes) : Prop where
  kernel : ∀ fd o, s.Knows fd o → ∃ f, s.process.kernel fd = some f ∧ nonblock f.flags = true
  user : ∀ fd o, s.Knows fd o → (s.process.manager.heap o).userNonblock = s.requested fd
  reports : ∀ r ∈ s.reports, r.Faithful

/-- A socket is switched to non-blocking mode by `FIONBIO` only, never back, and what `F_SETFL` or
`F_GETFL` meets has been switched. -/
def StaysNonblocking (s : Modes) : Action → Prop
  | .setfl fd arg => ∀ o, s.Knows fd o →
      nonblock arg = true ∧ (s.process.manager.heap o).userNonblock = true
  | .getfl fd => ∀ o, s.Knows fd o → (s.process.manager.heap o).userNonblock = true
  | .fionbio fd v => ∀ o, s.Knows fd o → v ≠ 0
  | _ => True

/-- The invariant. -/
structure Kept (s : Modes) : Prop where
  sound : s.process.manager.Sound
  heap : ∀ o, (s.process.manager.heap o).isClosed = false
  owner : ∀ fd o, s.process.manager.slot fd = some o → (s.process.manager.heap o).fd = fd
  virtualised : Virtualised s

variable {s s' : Modes} {a : Action} {fd o : Nat}

theorem Kept.socketCtx_eq (h : Kept s) : s.process.socketCtx fd = some o ↔ s.Knows fd o := by
  rw [Process.socketCtx, FdManager.get_found, Option.filter_eq_some_iff]
  simp only [h.heap, Bool.not_false, Bool.true_and, Knows]

theorem Kept.unknown (h : Kept s) (hnone : s.process.socketCtx fd = none) : ¬ s.Knows fd o := by
  intro hknows
  cases hnone.symm.trans (h.socketCtx_eq.mpr hknows)

/-- A call that reaches the object of a known socket, and leaves the socket non-blocking. -/
theorem Kept.update (h : Kept s) (hknows : s.Knows fd o) {c : FdCtx} (hclosed : c.isClosed = false)
    (hfd : c.fd = (s.process.manager.heap o).fd) {p : Process}
    (hmanager : p.manager = (s.process.writeCtx o c).manager)
    (hkernel : ∃ f, p.kernel fd = some f ∧ nonblock f.flags = true)
    (hothers : ∀ x, x ≠ fd → p.kernel x = s.process.kernel x) :
    Kept { s with process := p, requested := Function.update s.requested fd c.userNonblock } := by
  have hheap (x : Nat) : p.manager.heap x = if x = o then c else s.process.manager.heap x := by
    rw [hmanager]
    exact Function.update_apply _ _ _ _
  have hslot (x : Nat) : p.manager.slot x = s.process.manager.slot x := by
    rw [hmanager]
    rfl
  have hother {x y : Nat} (hx : x ≠ fd) (hy : s.process.manager.slot x = some y) : y ≠ o := by
    rintro rfl
    exact hx ((h.owner x y hy).symm.trans (h.owner fd y hknows.1))
  refine ⟨?_, ?_, ?_, ?_, ?_, h.virtualised.reports⟩
  · rw [hmanager]
    exact ⟨h.sound.length, h.sound.made⟩
  · intro x
    change (p.manager.heap x).isClosed = false
    rw [hheap]
    split
    · exact hclosed
    · exact h.heap x
  · intro x y hy
    change (p.manager.heap y).fd = x
    have hy' : s.process.manager.slot x = some y := (hslot x).symm.trans hy
    rw [hheap]
    split
    case isTrue heq =>
      subst heq
      exact hfd.trans (h.owner x y hy')
    case isFalse => exact h.owner x y hy'
  · rintro x y ⟨hy, hsocket⟩
    have hy' : s.process.manager.slot x = some y := (hslot x).symm.trans hy
    by_cases hx : x = fd
    · subst hx
      exact hkernel
    · have hsocket' : (s.process.manager.heap y).isSocket = true := by
        simpa [hheap, hother hx hy'] using hsocket
      change ∃ f, p.kernel x = some f ∧ nonblock f.flags = true
      rw [hothers x hx]
      exact h.virtualised.kernel x y ⟨hy', hsocket'⟩
  · rintro x y ⟨hy, hsocket⟩
    have hy' : s.process.manager.slot x = some y := (hslot x).symm.trans hy
    change (p.manager.heap y).userNonblock = Function.update s.requested fd c.userNonblock x
    by_cases hx : x = fd
    · subst hx
      cases hy'.symm.trans hknows.1
      rw [hheap, if_pos rfl, Function.update_self]
    · have hne := hother hx hy'
      have hsocket' : (s.process.manager.heap y).isSocket = true := by
        simpa [hheap, hne] using hsocket
      rw [hheap, if_neg hne, Function.update_of_ne hx]
      exact h.virtualised.user x y ⟨hy', hsocket'⟩

/-- A call for a descriptor that is not a known socket. -/
theorem Kept.pass (h : Kept s) (hunknown : ∀ o, ¬ s.Knows fd o) {p : Process}
    (hmanager : p.manager = s.process.manager)
    (hothers : ∀ x, x ≠ fd → p.kernel x = s.process.kernel x) (mode : Bool) :
    Kept { s with process := p, requested := Function.update s.requested fd mode } := by
  have hne {x y : Nat} (hknows : s.Knows x y) : x ≠ fd := by
    rintro rfl
    exact hunknown y hknows
  refine ⟨?_, ?_, ?_, ?_, ?_, h.virtualised.reports⟩
  · rw [hmanager]
    exact h.sound
  · rw [hmanager]
    exact h.heap
  · rw [hmanager]
    exact h.owner
  · intro x y hknows
    have hknows' : s.Knows x y := by simpa only [Knows, hmanager] using hknows
    change ∃ f, p.kernel x = some f ∧ nonblock f.flags = true
    rw [hothers x (hne hknows')]
    exact h.virtualised.kernel x y hknows'
  · intro x y hknows
    have hknows' : s.Knows x y := by simpa only [Knows, hmanager] using hknows
    change (p.manager.heap y).userNonblock = Function.update s.requested fd mode x
    rw [hmanager, Function.update_of_ne (hne hknows')]
    exact h.virtualised.user x y hknows'

theorem Kept.create (h : Kept s) (hs : s.step (.create fd) = some s') : Kept s' := by
  cases hs
  cases hlookup : s.process.manager.lookup fd true with
  | some ctx =>
      have hsome : (s.process.manager.slot fd).isSome := by
        rw [← FdManager.slot_of_lookup hlookup]
        exact FdManager.isSome_of_lookup hlookup
      rw [Process.create_found hlookup, if_pos hsome]
      exact h
  | none =>
      obtain ⟨-, hnone⟩ := FdManager.slot_of_lookup_none hlookup
      have hmanager := Process.create_manager hlookup
      have hslot (x : Nat) : (s.process.create fd).manager.slot x =
          if x = fd then some s.process.manager.size else s.process.manager.slot x := by
        rw [hmanager, FdManager.slot_create h.sound]
      have hheap (o : Nat) : (s.process.create fd).manager.heap o =
          if o = s.process.manager.size then .init fd ((s.process.kernel fd).map File.socket)
            else s.process.manager.heap o := by
        rw [hmanager]
        exact Function.update_apply _ _ _ _
      have hold {x o : Nat} (ho : s.process.manager.slot x = some o) :
          o ≠ s.process.manager.size := (h.sound.made x o ho).ne
      rw [if_neg (by simp [hnone])]
      refine ⟨?_, ?_, ?_, ?_, ?_, h.virtualised.reports⟩
      · rw [hmanager]
        exact h.sound.create _
      · intro o
        change ((s.process.create fd).manager.heap o).isClosed = false
        rw [hheap]
        split
        · rfl
        · exact h.heap o
      · intro x o ho
        change ((s.process.create fd).manager.heap o).fd = x
        change (s.process.create fd).manager.slot x = some o at ho
        rw [hslot] at ho
        split at ho
        case isTrue heq =>
          cases ho
          rw [hheap, if_pos rfl, heq]
          rfl
        case isFalse =>
          rw [hheap, if_neg (hold ho)]
          exact h.owner x o ho
      · rintro x o ⟨ho, hsocket⟩
        change (s.process.create fd).manager.slot x = some o at ho
        change ((s.process.create fd).manager.heap o).isSocket = true at hsocket
        rw [hslot] at ho
        split at ho
        case isTrue heq =>
          cases ho
          rw [hheap, if_pos rfl] at hsocket
          rw [heq]
          exact Process.create_kernel hlookup hsocket
        case isFalse hne =>
          rw [hheap, if_neg (hold ho)] at hsocket
          change ∃ f, (s.process.create fd).kernel x = some f ∧ nonblock f.flags = true
          rw [Process.create_kernel_of_ne hne]
          exact h.virtualised.kernel x o ⟨ho, hsocket⟩
      · rintro x o ⟨ho, hsocket⟩
        change (s.process.create fd).manager.slot x = some o at ho
        change ((s.process.create fd).manager.heap o).isSocket = true at hsocket
        change ((s.process.create fd).manager.heap o).userNonblock =
          Function.update s.requested fd false x
        rw [hslot] at ho
        split at ho
        case isTrue heq =>
          cases ho
          rw [hheap, if_pos rfl, heq, Function.update_self]
          rfl
        case isFalse hne =>
          rw [hheap, if_neg (hold ho)] at hsocket
          rw [hheap, if_neg (hold ho), Function.update_of_ne hne]
          exact h.virtualised.user x o ⟨ho, hsocket⟩

theorem Kept.del (h : Kept s) (hs : s.step (.del fd) = some s') : Kept s' := by
  cases hs
  have hheap : (s.process.manager.del fd).heap = s.process.manager.heap := by
    unfold FdManager.del
    split <;> rfl
  have hslot {x o : Nat} (ho : (s.process.manager.del fd).slot x = some o) :
      s.process.manager.slot x = some o := by
    rw [FdManager.slot_del] at ho
    split at ho
    · cases ho
    · exact ho
  refine ⟨h.sound.del, ?_, ?_, ?_, ?_, h.virtualised.reports⟩
  · intro o
    change ((s.process.manager.del fd).heap o).isClosed = false
    rw [hheap]
    exact h.heap o
  · intro x o ho
    change ((s.process.manager.del fd).heap o).fd = x
    rw [hheap]
    exact h.owner x o (hslot ho)
  · rintro x o ⟨ho, hsocket⟩
    exact h.virtualised.kernel x o ⟨hslot ho, hheap ▸ hsocket⟩
  · rintro x o ⟨ho, hsocket⟩
    change ((s.process.manager.del fd).heap o).userNonblock = s.requested x
    rw [hheap]
    exact h.virtualised.user x o ⟨hslot ho, hheap ▸ hsocket⟩

theorem Kept.step (h : Kept s) (hs : s.step a = some s') (hstays : s.StaysNonblocking a) :
    Kept s' := by
  cases a with
  | create fd => exact h.create hs
  | del fd => exact h.del hs
  | setfl fd arg =>
      cases hs
      cases hctx : s.process.socketCtx fd with
      | none =>
          simp only [Process.fcntlSetfl, hctx]
          exact h.pass (fun o => h.unknown hctx) (Process.fcntlfSetfl_manager arg)
            (fun x hx => Process.fcntlfSetfl_kernel_of_ne hx arg) _
      | some o =>
          have hknows := h.socketCtx_eq.mp hctx
          obtain ⟨hset, huser⟩ := hstays o hknows
          obtain ⟨f, hf, -⟩ := h.virtualised.kernel fd o hknows
          have hkept := h.update hknows (c := { s.process.manager.heap o with sysNonblock := true })
            (h.heap o) rfl (Process.fcntlfSetfl_manager (arg ||| O_NONBLOCK)) ?_
            (fun x hx => Process.fcntlfSetfl_kernel_of_ne hx _)
          · simpa only [Process.fcntlSetfl, hctx, hset, if_true, huser] using hkept
          · obtain ⟨f', hf', hbit⟩ := Process.fcntlfSetfl_kernel
              (p := s.process.writeCtx o { s.process.manager.heap o with sysNonblock := true })
              hf (arg ||| O_NONBLOCK)
            exact ⟨f', hf', hbit.trans (nonblock_or arg)⟩
  | getfl fd =>
      simp only [Modes.step] at hs
      split at hs
      case h_1 o returned f hctx hreturned hf =>
        cases hs
        have hknows := h.socketCtx_eq.mp hctx
        obtain ⟨f', hf', hbit⟩ := h.virtualised.kernel fd o hknows
        cases hf.symm.trans hf'
        rw [Process.fcntlGetfl, Process.fcntlfGetfl, hf] at hreturned
        cases hreturned
        refine ⟨h.sound, h.heap, h.owner, h.virtualised.kernel, h.virtualised.user, ?_⟩
        intro r hr
        rcases List.mem_cons.mp hr with rfl | hold
        · exact ⟨hbit.trans (hstays o hknows).symm, rfl⟩
        · exact h.virtualised.reports r hold
      case h_2 =>
        cases hs
        exact h
  | fionbio fd v =>
      cases hs
      cases hctx : s.process.socketCtx fd with
      | none =>
          simp only [Process.ioctlFionbio, hctx]
          exact h.pass (fun o => h.unknown hctx) (Process.ioctlfFionbio_manager v)
            (fun x hx => Process.ioctlfFionbio_kernel_of_ne hx v) _
      | some o =>
          have hknows := h.socketCtx_eq.mp hctx
          obtain ⟨f, hf, -⟩ := h.virtualised.kernel fd o hknows
          simp only [Process.ioctlFionbio, hctx]
          refine h.update hknows (c := (s.process.manager.heap o).setUserNonblock (decide (v ≠ 0)))
            (h.heap o) rfl (Process.ioctlfFionbio_manager v) ?_ ?_
          · obtain ⟨f', hf', hbit⟩ := Process.ioctlfFionbio_kernel
              (p := s.process.writeCtx o _) hf v
            exact ⟨f', hf', hbit.trans (by simpa using hstays o hknows)⟩
          · exact fun x hx => Process.ioctlfFionbio_kernel_of_ne hx v

/-- `F_SETFL` hands on the bit it was given. -/
theorem Kept.setfl_kernel (h : Kept s) (hknows : s.Knows fd o) (arg : Mask) :
    ∃ f, (s.process.fcntlSetfl fd arg).kernel fd = some f ∧ nonblock f.flags = nonblock arg := by
  obtain ⟨f, hf, -⟩ := h.virtualised.kernel fd o hknows
  simp only [Process.fcntlSetfl, h.socketCtx_eq.mpr hknows]
  obtain ⟨f', hf', hbit⟩ := Process.fcntlfSetfl_kernel
    (p := s.process.writeCtx o { s.process.manager.heap o with sysNonblock := nonblock arg })
    hf (if nonblock arg then arg ||| O_NONBLOCK else arg)
  refine ⟨f', hf', hbit.trans ?_⟩
  cases hset : nonblock arg with
  | true => simpa using nonblock_or arg
  | false => simpa using hset

theorem Kept.setfl_heap (h : Kept s) (hknows : s.Knows fd o) (arg : Mask) :
    (s.process.fcntlSetfl fd arg).manager.heap o =
      { s.process.manager.heap o with sysNonblock := nonblock arg } := by
  simp only [Process.fcntlSetfl, h.socketCtx_eq.mpr hknows, Process.fcntlfSetfl_manager]
  exact Function.update_self _ _ _

theorem Kept.setfl_slot (h : Kept s) (hknows : s.Knows fd o) (arg : Mask) :
    (s.process.fcntlSetfl fd arg).manager.slot fd = some o := by
  simp only [Process.fcntlSetfl, h.socketCtx_eq.mpr hknows, Process.fcntlfSetfl_manager]
  exact hknows.1

theorem Kept.broken (h : Kept s) (hs : s.step a = some s') (hstays : ¬ s.StaysNonblocking a) :
    ¬ Virtualised s' := by
  cases a with
  | create fd => exact absurd trivial hstays
  | del fd => exact absurd trivial hstays
  | setfl fd arg =>
      simp only [StaysNonblocking, not_forall] at hstays
      obtain ⟨o, hknows, hnot⟩ := hstays
      cases hs
      intro hvirtualised
      have hknows' : Modes.Knows { s with
          process := s.process.fcntlSetfl fd arg
          requested := Function.update s.requested fd (nonblock arg) } fd o := by
        refine ⟨h.setfl_slot hknows arg, ?_⟩
        rw [h.setfl_heap hknows]
        exact hknows.2
      obtain ⟨f, hf, hbit⟩ := hvirtualised.kernel fd o hknows'
      obtain ⟨f', hf', hbit'⟩ := h.setfl_kernel hknows arg
      cases hf.symm.trans hf'
      have hset : nonblock arg = true := hbit'.symm.trans hbit
      have huser := hvirtualised.user fd o hknows'
      rw [h.setfl_heap hknows] at huser
      exact hnot ⟨hset, huser.trans ((Function.update_self _ _ _).trans hset)⟩
  | getfl fd =>
      simp only [StaysNonblocking, not_forall] at hstays
      obtain ⟨o, hknows, hnot⟩ := hstays
      obtain ⟨f, hf, hbit⟩ := h.virtualised.kernel fd o hknows
      simp only [Modes.step, h.socketCtx_eq.mpr hknows, Process.fcntlGetfl, Process.fcntlfGetfl,
        hf, Option.map_some] at hs
      cases hs
      intro hvirtualised
      have hreport := (hvirtualised.reports _ List.mem_cons_self).mode
      exact hnot (hreport.symm.trans hbit)
  | fionbio fd v =>
      simp only [StaysNonblocking, not_forall] at hstays
      obtain ⟨o, hknows, hv⟩ := hstays
      obtain ⟨f, hf, -⟩ := h.virtualised.kernel fd o hknows
      cases hs
      intro hvirtualised
      have hknows' : Modes.Knows { s with
          process := s.process.ioctlFionbio fd v
          requested := Function.update s.requested fd (decide (v ≠ 0)) } fd o := by
        simp only [Knows, Process.ioctlFionbio, h.socketCtx_eq.mpr hknows,
          Process.ioctlfFionbio_manager]
        refine ⟨hknows.1, ?_⟩
        simp only [Process.writeCtx, Function.update_self]
        exact hknows.2
      obtain ⟨f', hf', hbit⟩ := hvirtualised.kernel fd o hknows'
      obtain ⟨f'', hf'', hbit'⟩ := Process.ioctlfFionbio_kernel (p := s.process.writeCtx o
        ((s.process.manager.heap o).setUserNonblock (decide (v ≠ 0)))) hf v
      simp only [Process.ioctlFionbio, h.socketCtx_eq.mpr hknows] at hf'
      cases hf'.symm.trans hf''
      exact absurd (hbit'.symm.trans hbit) (by simpa using hv)

theorem new_kept (kernel : Nat → Option File) : Kept (new kernel) := by
  have hempty {fd o : Nat} : (new kernel).process.manager.slot fd ≠ some o :=
    fun ho => absurd (FdManager.new_sound.made fd o ho) (Nat.not_lt_zero o)
  refine ⟨FdManager.new_sound, fun _ => rfl, ?_, ?_, ?_, ?_⟩
  · exact fun fd o ho => absurd ho hempty
  · exact fun fd o hknows => absurd hknows.1 hempty
  · exact fun fd o hknows => absurd hknows.1 hempty
  · intro r hr
    cases hr

/-- The kernel's flag is kept apart from the user's exactly as long as the two are never to differ
once `F_SETFL` or `F_GETFL` is called. -/
theorem nonblock_virtualised (kernel : Nat → Option File) (as : List Action) :
    Always step Virtualised (new kernel) as ↔ Each step StaysNonblocking (new kernel) as :=
  always_iff_each (fun _ _ _ h hs hstays => h.step hs hstays)
    (fun _ _ _ h hs hstays => h.broken hs hstays) (fun _ h => h.virtualised) (new_kept kernel) as

/-- `fcntl(5, F_SETFL, 0)` makes socket 5 block. -/
theorem setfl_blocks : ¬ ∀ (kernel : Nat → Option File) (as : List Action),
    Always step Virtualised (new kernel) as := by
  intro h
  have hfaithful := always_end (h (fun _ => some ⟨2, true⟩) [.create 5, .setfl 5 2]) rfl
  obtain ⟨f, hf, hbit⟩ := hfaithful.kernel 5 0 ⟨by decide, by decide⟩
  cases hf
  exact absurd hbit (by decide)

end Modes
end HCServer.Nonblock
