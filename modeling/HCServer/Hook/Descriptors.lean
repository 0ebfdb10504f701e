import HCServer.Hook.FdManager
import HCServer.IOManager.Ledger
import Mathlib.Data.Finset.Option

/-! The life of a descriptor: `socket` and `accept` open it, `close` should release it. The kernel is the
set of the sockets that are open; what it answers to a call is part of the action. -/
namespace HCServer.Descriptors
open Lib IOManager Fds
variable {S F K : Type}

structure Process (S F K : Type) where
  hookEnable : Bool
  kernel : Finset Nat
  manager : FdManager
  iom : Option (IOManager S F K)

/-- What `close` calls on its way. -/
inductive Effect
  | cancelAll (fd : Nat)
  | del (fd : Nat)
  | close_f (fd : Nat) (ret : Int)
  deriving DecidableEq, Repr

structure Socket where
  isConnected : Bool
  sock : Option Nat
  deriving DecidableEq, Repr

namespace Process

/-- `get(fd, true)`; `fstat` finds the descriptors that are open. -/
def create (p : Process S F K) (fd : Nat) : Process S F K :=
  { p with manager := (p.manager.get fd true (if fd ∈ p.kernel then some true else none)).1 }

/-- `answer` is what `socket_f` returns, `none` for -1. -/
def socket (p : Process S F K) (answer : Option Nat) : Process S F K × Option Nat :=
  match answer with
  | none => (p, none)
  | some fd =>
      let p := { p with kernel := insert fd p.kernel }
      if p.hookEnable = false then (p, some fd) else (p.create fd, some fd)

/-- `answer` is what `do_io` ends with: a descriptor of `accept_f`, or `none`. -/
def accept (p : Process S F K) (answer : Option Nat) : Process S F K × Option Nat :=
  match answer with
  | none => (p, none)
  | some fd => (({ p with kernel := insert fd p.kernel } : Process S F K).create fd, some fd)

/-- `close` on a thread with hooks has no `return`; `ret` is the answer of `close_f`. -/
def close (p : Process S F K) (fd : Nat) (ret : Int) (ctl : Bool) :
    Except Abort (Process S F K × List Effect × Option Int) :=
  if p.hookEnable = false then
    .ok ({ p with kernel := p.kernel.erase fd }, [.close_f fd ret], some ret)
  else
    match (p.manager.get fd false none).2 with
    | none => .ok (p, [], none)
    | some _ =>
        match p.iom with
        | none => .ok ({ p with manager := p.manager.del fd }, [.del fd], none)
        | some m =>
            (m.cancelAll fd ctl).map fun o =>
              ({ p with manager := p.manager.del fd, iom := some o.state },
                [.cancelAll fd, .del fd], none)

/-- `Socket::close`, with what `::close` did if it was called. -/
def socketClose (p : Process S F K) (s : Socket) (ret : Int) (ctl : Bool) :
    Except Abort (Process S F K × Socket × Bool × List Effect × Option Int) :=
  if s.isConnected = false ∧ s.sock = none then .ok (p, s, true, [], none)
  else
    match s.sock with
    | none => .ok (p, ⟨false, none⟩, false, [], none)
    | some fd => (p.close fd ret ctl).map fun r => (r.1, ⟨false, none⟩, false, r.2.1, r.2.2)

end Process

/-- A call of `close` for a descriptor that was open. -/
structure Closing where
  fd : Nat
  managed : Bool
  effects : List Effect
  ret : Option Int
  deriving DecidableEq, Repr

/-- `owned` are the descriptors that `socket` and `accept` have returned and `close` has not got. -/
structure Lifetime (S F K : Type) where
  process : Process S F K
  owned : Finset Nat
  closes : List Closing

/-- `other` is what fibers do with the events of descriptors. -/
inductive Action (S F K : Type)
  | socket (answer : Option Nat)
  | accept (answer : Option Nat)
  | close (fd : Nat) (ret : Int) (ctl : Bool)
  | socketClose (s : Socket) (ret : Int) (ctl : Bool)
  | other (c : Call S F K)

namespace Lifetime

/-- A thread with hooks, before any call. -/
def new (iom : Option (IOManager S F K)) : Lifetime S F K := ⟨⟨true, ∅, .new, iom⟩, ∅, []⟩

/-- The books after `close(fd)`. -/
def closed (s : Lifetime S F K) (fd : Nat) (p : Process S F K) (effects : List Effect)
    (ret : Option Int) : Lifetime S F K :=
  ⟨p, s.owned.erase fd, if fd ∈ s.process.kernel
    then s.closes ++ [⟨fd, s.process.iom.isSome, effects, ret⟩] else s.closes⟩

/-- The kernel gives no descriptor that is open; a failing assertion ends the run. -/
def step (s : Lifetime S F K) : Action S F K → Option (Lifetime S F K)
  | .socket answer =>
      if ∀ fd ∈ answer, fd ∉ s.process.kernel then
        let r := s.process.socket answer
        some { s with process := r.1, owned := s.owned ∪ r.2.toFinset }
      else none
  | .accept answer =>
      if ∀ fd ∈ answer, fd ∉ s.process.kernel then
        let r := s.process.accept answer
        some { s with process := r.1, owned := s.owned ∪ r.2.toFinset }
      else none
  | .close fd ret ctl =>
      match s.process.close fd ret ctl with
      | .ok (p, effects, r) => some (s.closed fd p effects r)
      | .error _ => none
  | .socketClose sock ret ctl =>
      match s.process.socketClose sock ret ctl with
      | .ok (p, _, _, effects, r) =>
          match sock.sock with
          | none => some { s with process := p }
          | some fd => some (s.closed fd p effects r)
      | .error _ => none
  | .other c =>
      match s.process.iom with
      | none => none
      | some m =>
          match c.perform m with
          | .ok o => some { s with process := { s.process with iom := some o.state } }
          | .error _ => none

end Lifetime

/-- The events are cancelled first, then the descriptor is released, and the caller gets the result. -/
def Closing.Releases (c : Closing) : Prop :=
  ∃ before after r, c.effects = before ++ .close_f c.fd r :: after ∧ c.ret = some r ∧
    (c.managed = true → .cancelAll c.fd ∈ before)

namespace Lifetime

structure NoLeak (s : Lifetime S F K) : Prop where
  kernel : s.process.kernel = s.owned
  contexts : ∀ fd, (s.process.manager.slot fd).isSome ↔ fd ∈ s.process.kernel
  closes : ∀ c ∈ s.closes, c.Releases

/-- No descriptor that is open is closed. -/
def LeavesOpen (s : Lifetime S F K) : Action S F K → Prop
  | .close fd _ _ => fd ∉ s.process.kernel
  | .socketClose sock _ _ => ∀ fd ∈ sock.sock, fd ∉ s.process.kernel
  | _ => True

structure Kept (s : Lifetime S F K) : Prop where
  hook : s.process.hookEnable = true
  sound : s.process.manager.Sound
  noLeak : NoLeak s

variable {s s' : Lifetime S F K} {a : Action S F K}

theorem Kept.opened (h : Kept s) (fd : Nat) :
    Kept { s with
      process := ({ s.process with kernel := insert fd s.process.kernel } : Process S F K).create fd
      owned := s.owned ∪ (some fd).toFinset } := by
  refine ⟨h.hook, h.sound.get true _, ?_, ?_, h.noLeak.closes⟩
  · have hkernel := h.noLeak.kernel
    ext x
    simp [Process.create, hkernel]
  · intro x
    simp only [Process.create, FdManager.slot_get h.sound, Finset.mem_insert, h.noLeak.contexts]

/-- For a descriptor that has no context `close` does nothing. -/
theorem Kept.close_unopened (h : Kept s) {fd : Nat} (hfd : fd ∉ s.process.kernel) (ret : Int)
    (ctl : Bool) : s.process.close fd ret ctl = .ok (s.process, [], none) := by
  have hslot : s.process.manager.slot fd = none := by
    have hcontexts := h.noLeak.contexts fd
    simpa [hfd] using hcontexts
  rw [Process.close, if_neg (by simp [h.hook]), FdManager.get_found, hslot]

theorem Kept.closed_unopened (h : Kept s) {fd : Nat} (hfd : fd ∉ s.process.kernel)
    (effects : List Effect) (r : Option Int) : s.closed fd s.process effects r = s := by
  have howned : fd ∉ s.owned := h.noLeak.kernel ▸ hfd
  rw [closed, if_neg hfd, Finset.erase_eq_of_notMem howned]

theorem Kept.step (h : Kept s) (hs : s.step a = some s') (hopen : s.LeavesOpen a) : Kept s' := by
  cases a with
  | socket answer =>
      simp only [Lifetime.step] at hs
      split at hs
      case isFalse => cases hs
      case isTrue =>
        cases hs
        cases answer with
        | none =>
            have hsame : s.owned ∪ (none : Option Nat).toFinset = s.owned := Finset.union_empty _
            simp only [Process.socket, hsame]
            exact h
        | some fd =>
            have hsocket : (s.process.socket (some fd)).1 =
                ({ s.process with kernel := insert fd s.process.kernel } : Process S F K).create fd := by
              simp only [Process.socket]
              rw [if_neg (by simp [h.hook])]
            have hreturned : (s.process.socket (some fd)).2 = some fd := by
              simp only [Process.socket]
              split <;> rfl
            rw [hsocket, hreturned]
            exact h.opened fd
  | accept answer =>
      simp only [Lifetime.step] at hs
      split at hs
      case isFalse => cases hs
      case isTrue =>
        cases hs
        cases answer with
        | none =>
            have hsame : s.owned ∪ (none : Option Nat).toFinset = s.owned := Finset.union_empty _
            simp only [Process.accept, hsame]
            exact h
        | some fd => exact h.opened fd
  | close fd ret ctl =>
      simp only [Lifetime.step, h.close_unopened hopen] at hs
      cases hs
      rw [h.closed_unopened hopen]
      exact h
  | socketClose sock ret ctl =>
      simp only [Lifetime.step, Process.socketClose] at hs
      split at hs
      case h_1 hcall =>
        cases hsock : sock.sock with
        | none =>
            rw [hsock] at hs hcall
            simp only [and_true] at hcall
            have hsame : s = s' := by
              split at hcall <;> cases hcall <;> cases hs <;> rfl
            exact hsame ▸ h
        | some fd =>
            have hfd := hopen fd hsock
            rw [hsock] at hs hcall
            simp only [h.close_unopened hfd, Except.map] at hcall
            rw [if_neg (by simp)] at hcall
            cases hcall
            cases hs
            rw [h.closed_unopened hfd]
            exact h
      case h_2 => cases hs
  | other c =>
      simp only [Lifetime.step] at hs
      split at hs
      case h_1 => cases hs
      case h_2 =>
        split at hs
        · cases hs
          exact ⟨h.hook, h.sound, h.noLeak.kernel, h.noLeak.contexts, h.noLeak.closes⟩
        · cases hs

/-- `close_f` is called on no path. -/
theorem close_kernel {p p' : Process S F K} (hhook : p.hookEnable = true) {fd : Nat} {ret : Int}
    {ctl : Bool} {effects : List Effect} {r : Option Int}
    (h : p.close fd ret ctl = .ok (p', effects, r)) : p'.kernel = p.kernel := by
  rw [Process.close, if_neg (by simp [hhook])] at h
  split at h
  · cases h
    rfl
  · split at h
    · cases h
      rfl
    · rename_i m _
      cases hcancel : m.cancelAll fd ctl with
      | error e =>
          rw [hcancel] at h
          cases h
      | ok o =>
          rw [hcancel] at h
          cases h
          rfl

theorem leaks {fd : Nat} (hfd : fd ∈ s.process.kernel) {p : Process S F K}
    (hp : p.kernel = s.process.kernel) (effects : List Effect) (r : Option Int) :
    ¬ NoLeak (s.closed fd p effects r) := by
  intro hno
  have hkernel : p.kernel = s.owned.erase fd := hno.kernel
  rw [hp] at hkernel
  rw [hkernel] at hfd
  exact absurd rfl (Finset.ne_of_mem_erase hfd)

theorem Kept.broken (h : Kept s) (hs : s.step a = some s') (hopen : ¬ s.LeavesOpen a) :
    ¬ NoLeak s' := by
  cases a with
  | close fd ret ctl =>
      simp only [Lifetime.step] at hs
      split at hs
      case h_1 p effects r hclose =>
        cases hs
        exact leaks (not_not.mp hopen) (close_kernel h.hook hclose) effects r
      case h_2 => cases hs
  | socketClose sock ret ctl =>
      simp only [Lifetime.step] at hs
      split at hs
      case h_1 p _ _ effects r hcall =>
        cases hsock : sock.sock with
        | none => exact absurd (by simp [LeavesOpen, hsock]) hopen
        | some fd =>
            have hfd : fd ∈ s.process.kernel := by simpa [LeavesOpen, hsock] using hopen
            rw [hsock] at hs
            cases hs
            have hkernel : p.kernel = s.process.kernel := by
              rw [Process.socketClose, hsock, if_neg (by simp)] at hcall
              cases hclose : s.process.close fd ret ctl with
              | error e =>
                  simp only [hclose] at hcall
                  cases hcall
              | ok q =>
                  simp only [hclose] at hcall
                  cases hcall
                  exact close_kernel h.hook hclose
            exact leaks hfd hkernel effects r
      case h_2 => cases hs
  | socket answer => exact absurd trivial hopen
  | accept answer => exact absurd trivial hopen
  | other c => exact absurd trivial hopen

theorem new_kept (iom : Option (IOManager S F K)) : Kept (new iom) := by
  refine ⟨rfl, FdManager.new_sound, rfl, ?_, ?_⟩
  · intro fd
    constructor
    · intro h
      obtain ⟨o, ho⟩ := Option.isSome_iff_exists.mp h
      exact absurd (FdManager.new_sound.made fd o ho) (Nat.not_lt_zero o)
    · intro h
      exact absurd h (Finset.notMem_empty fd)
  · intro c hc
    cases hc

/-- No descriptor leaks exactly as long as none that is open is closed. -/
theorem no_descriptor_leak (iom : Option (IOManager S F K)) (as : List (Action S F K)) :
    Always step NoLeak (new iom) as ↔ Each step LeavesOpen (new iom) as :=
  always_iff_each (fun _ _ _ h hs hopen => h.step hs hopen)
    (fun _ _ _ h hs hopen => h.broken hs hopen) (fun _ h => h.noLeak) (new_kept iom) as

/-- Descriptor 7 stays open in the kernel. -/
theorem closed_descriptor_leaks :
    ¬ ∀ (iom : Option (IOManager Unit Unit Unit)) (as : List (Action Unit Unit Unit)),
      Always step NoLeak (new iom) as := by
  intro h
  have hleak := always_end (h none [.socket (some 7), .close 7 0 true]) rfl
  exact absurd hleak.kernel (by decide)

end Lifetime
end HCServer.Descriptors
