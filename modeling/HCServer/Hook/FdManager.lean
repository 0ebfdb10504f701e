import HCServer.Lib.Transition
import Mathlib.Logic.Function.Basic
import Mathlib.Tactic.NormNum

/-! `FdManager`: a vector of pointers to `FdCtx` objects, with null for a descriptor that has none. The
lookup of `get` and the creation are two critical sections; objects are numbered as they are made. -/
namespace HCServer.Fds
open Lib

inductive TimeoutType
  | SO_RCVTIMEO
  | SO_SNDTIMEO
  deriving DecidableEq, Repr

structure FdCtx where
  isInit : Bool
  isSocket : Bool
  sysNonblock : Bool
  userNonblock : Bool
  isClosed : Bool
  fd : Nat
  recvTimeout : Nat
  sendTimeout : Nat
  deriving DecidableEq, Repr

namespace FdCtx

/-- `FdCtx(fd)` with its `init`. `fstat` is `none` where the call fails, else `S_ISSOCK` of the mode. -/
def init (fd : Nat) (fstat : Option Bool) : FdCtx :=
  let isSocket := fstat.getD false
  ⟨fstat.isSome, isSocket, isSocket, false, false, fd, 2 ^ 64 - 1, 2 ^ 64 - 1⟩

def setTimeout (c : FdCtx) (type : TimeoutType) (v : Nat) : FdCtx :=
  match type with
  | .SO_RCVTIMEO => { c with recvTimeout := v }
  | .SO_SNDTIMEO => { c with sendTimeout := v }

def setUserNonblock (c : FdCtx) (v : Bool) : FdCtx := { c with userNonblock := v }

end FdCtx

structure FdManager where
  datas : List (Option Nat)
  size : Nat
  heap : Nat → FdCtx

namespace FdManager

def new : FdManager := ⟨List.replicate 64 none, 0, fun _ => .init 0 none⟩

/-- The pointer for `fd`, null beyond the end of the vector. -/
def slot (m : FdManager) (fd : Nat) : Option Nat := (m.datas[fd]?).join

/-- `get` under the read lock: `some` is what it returns, `none` that it goes on to create. -/
def lookup (m : FdManager) (fd : Nat) (auto_create : Bool) : Option (Option Nat) :=
  match m.datas[fd]? with
  | none => if auto_create = false then some none else none
  | some ctx => if ctx.isSome || !auto_create then some ctx else none

/-- `get` under the write lock. -/
def create (m : FdManager) (fd : Nat) (fstat : Option Bool) : FdManager × Nat :=
  let datas := if fd ≥ m.datas.length
    then m.datas ++ List.replicate (fd * 3 / 2 - m.datas.length) none else m.datas
  (⟨datas.set fd (some m.size), m.size + 1, Function.update m.heap m.size (.init fd fstat)⟩, m.size)

/-- A `get` that no other call comes between. -/
def get (m : FdManager) (fd : Nat) (auto_create : Bool) (fstat : Option Bool) : FdManager × Option Nat :=
  match m.lookup fd auto_create with
  | some ctx => (m, ctx)
  | none => ((m.create fd fstat).1, some (m.create fd fstat).2)

def del (m : FdManager) (fd : Nat) : FdManager :=
  if m.datas.length ≤ fd then m else { m with datas := m.datas.set fd none }

/-- Large enough for `resize(fd*1.5)` to make room for `fd`; pointers lead to objects. -/
structure Sound (m : FdManager) : Prop where
  length : 64 ≤ m.datas.length
  made : ∀ fd o, m.slot fd = some o → o < m.size

variable {m : FdManager} {fd : Nat}

theorem new_sound : Sound new where
  length := by simp [new]
  made fd o h := by
    rw [slot, new, List.getElem?_replicate] at h
    split at h <;> cases h

theorem slot_create (h : Sound m) (fstat : Option Bool) (x : Nat) :
    (m.create fd fstat).1.slot x = if x = fd then some m.size else m.slot x := by
  have hroom : fd < (if fd ≥ m.datas.length
      then m.datas ++ List.replicate (fd * 3 / 2 - m.datas.length) none else m.datas).length := by
    have hlength := h.length
    split
    · rw [List.length_append, List.length_replicate]
      omega
    · omega
  have hsame : ((if fd ≥ m.datas.length
      then m.datas ++ List.replicate (fd * 3 / 2 - m.datas.length) none else m.datas)[x]?).join =
      m.slot x := by
    split
    · rw [slot, List.getElem?_append]
      split
      · rfl
      · have hbeyond : m.datas[x]? = none := List.getElem?_eq_none (by omega)
        rw [hbeyond, List.getElem?_replicate]
        split <;> rfl
    · rfl
  simp only [create, slot, List.getElem?_set]
  by_cases hx : fd = x
  · subst hx
    simp [hroom]
  · have hne : x ≠ fd := fun he => hx he.symm
    rw [if_neg hx, if_neg hne]
    exact hsame

theorem slot_del (x : Nat) : (m.del fd).slot x = if x = fd then none else m.slot x := by
  unfold del
  split
  · split
    · subst x
      rw [slot, List.getElem?_eq_none (by omega)]
      rfl
    · rfl
  · simp only [slot, List.getElem?_set]
    by_cases hx : fd = x
    · subst hx
      simp only [if_true]
      split <;> rfl
    · have hne : x ≠ fd := fun he => hx he.symm
      rw [if_neg hx, if_neg hne]

theorem Sound.create (h : Sound m) (fstat : Option Bool) : Sound (m.create fd fstat).1 := by
  refine ⟨?_, ?_⟩
  · have hlength := h.length
    simp only [FdManager.create, List.length_set]
    split
    · rw [List.length_append]
      omega
    · exact hlength
  · intro x o hx
    rw [slot_create h] at hx
    split at hx
    · cases hx
      exact Nat.lt_succ_self m.size
    · exact Nat.lt_succ_of_lt (h.made x o hx)

theorem Sound.del (h : Sound m) : Sound (m.del fd) := by
  have hsize : (m.del fd).size = m.size := by
    unfold FdManager.del
    split <;> rfl
  refine ⟨?_, ?_⟩
  · unfold FdManager.del
    split
    · exact h.length
    · simpa using h.length
  · intro x o hx
    rw [slot_del] at hx
    rw [hsize]
    split at hx
    · cases hx
    · exact h.made x o hx

/-- The lookup returns what is there. -/
theorem slot_of_lookup {auto_create : Bool} {ctx : Option Nat} (h : m.lookup fd auto_create = some ctx) :
    ctx = m.slot fd := by
  unfold lookup at h
  split at h
  case h_1 hnone =>
    rw [slot, hnone]
    split at h <;> cases h
    rfl
  case h_2 ctx' hsome =>
    rw [slot, hsome]
    split at h <;> cases h
    rfl

theorem isSome_of_lookup {ctx : Option Nat} (h : m.lookup fd true = some ctx) : ctx.isSome := by
  unfold lookup at h
  split at h
  · cases h
  · rename_i found _
    cases found with
    | none => cases h
    | some o =>
        cases h
        rfl

theorem slot_of_lookup_none {auto_create : Bool} (h : m.lookup fd auto_create = none) :
    auto_create = true ∧ m.slot fd = none := by
  unfold lookup at h
  split at h
  case h_1 hnone =>
    rw [slot, hnone]
    cases auto_create
    · cases h
    · exact ⟨rfl, rfl⟩
  case h_2 ctx hsome =>
    rw [slot, hsome]
    cases auto_create
    · simp at h
    · cases ctx
      · exact ⟨rfl, rfl⟩
      · simp at h

theorem Sound.get (h : Sound m) (auto_create : Bool) (fstat : Option Bool) :
    Sound (m.get fd auto_create fstat).1 := by
  unfold FdManager.get
  split
  · exact h
  · exact h.create fstat

/-- After `get(fd, true)` there is an object for `fd`, and for the others what there was. -/
theorem slot_get (h : Sound m) (fstat : Option Bool) (x : Nat) :
    ((m.get fd true fstat).1.slot x).isSome ↔ x = fd ∨ (m.slot x).isSome := by
  unfold FdManager.get
  split
  case h_1 ctx hlookup =>
    have hslot := slot_of_lookup hlookup
    have hsome : ctx.isSome := isSome_of_lookup hlookup
    constructor
    · exact Or.inr
    · rintro (rfl | hx)
      · rwa [← hslot]
      · exact hx
  case h_2 =>
    rw [slot_create h]
    by_cases hx : x = fd <;> simp [hx]

theorem get_found (fstat : Option Bool) : (m.get fd false fstat).2 = m.slot fd := by
  unfold FdManager.get
  split
  case h_1 ctx hlookup => exact slot_of_lookup hlookup
  case h_2 hlookup => exact absurd (slot_of_lookup_none hlookup).1 (by decide)

end FdManager

/-- `creating` is the descriptor of a call of `get` between its lookup and its creation; `since` has
the pointers that calls on a descriptor have returned after the last `del` of it. -/
structure Table (θ : Type) where
  manager : FdManager
  creating : θ → Option Nat
  since : List (Nat × Nat)

inductive Action (θ : Type)
  | lookup (t : θ) (fd : Nat) (auto_create : Bool)
  | create (t : θ) (fstat : Option Bool)
  | del (fd : Nat)
  | setTimeout (o : Nat) (type : TimeoutType) (v : Nat)
  | setUserNonblock (o : Nat) (v : Bool)

namespace Table
variable {θ : Type} [DecidableEq θ]

def new : Table θ := ⟨.new, fun _ => none, []⟩

def write (s : Table θ) (o : Nat) (c : FdCtx) : Table θ :=
  { s with manager := { s.manager with heap := Function.update s.manager.heap o c } }

def step (s : Table θ) : Action θ → Option (Table θ)
  | .lookup t fd auto_create =>
      match s.creating t with
      | some _ => none
      | none =>
          match s.manager.lookup fd auto_create with
          | some (some ctx) => some { s with since := (fd, ctx) :: s.since }
          | some none => some s
          | none => some { s with creating := Function.update s.creating t (some fd) }
  | .create t fstat => do
      let fd ← s.creating t
      let r := s.manager.create fd fstat
      some ⟨r.1, Function.update s.creating t none, (fd, r.2) :: s.since⟩
  | .del fd =>
      some { s with manager := s.manager.del fd, since := s.since.filter fun r => r.1 ≠ fd }
  | .setTimeout o type v => some (s.write o ((s.manager.heap o).setTimeout type v))
  | .setUserNonblock o v => some (s.write o ((s.manager.heap o).setUserNonblock v))

/-- Calls on one descriptor with no `del` between them have returned one object. -/
def OneObject (s : Table θ) : Prop :=
  ∀ fd o o', (fd, o) ∈ s.since → (fd, o') ∈ s.since → o = o'

/-- A creation finds no object made since its lookup. -/
def Vacant (s : Table θ) : Action θ → Prop
  | .create t _ => ∀ fd ∈ s.creating t, s.manager.slot fd = none
  | _ => True

structure Agrees (s : Table θ) : Prop where
  sound : s.manager.Sound
  since : ∀ fd o, (fd, o) ∈ s.since ↔ s.manager.slot fd = some o

variable {s s' : Table θ} {a : Action θ}

omit [DecidableEq θ] in
theorem Agrees.oneObject (h : Agrees s) : OneObject s := by
  intro fd o o' ho ho'
  rw [h.since] at ho ho'
  exact Option.some.inj (ho.symm.trans ho')

theorem Agrees.step (h : Agrees s) (hs : s.step a = some s') (hvacant : s.Vacant a) : Agrees s' := by
  cases a with
  | lookup t fd auto_create =>
      simp only [Table.step] at hs
      split at hs
      case h_1 => cases hs
      case h_2 =>
        split at hs
        case h_1 ctx hlookup =>
          cases hs
          refine ⟨h.sound, ?_⟩
          intro x o
          have hslot := FdManager.slot_of_lookup hlookup
          rw [List.mem_cons, h.since, Prod.mk.injEq]
          constructor
          · rintro (⟨rfl, rfl⟩ | hold)
            · exact hslot.symm
            · exact hold
          · intro hx
            exact Or.inr hx
        case h_2 =>
          cases hs
          exact h
        case h_3 =>
          cases hs
          exact ⟨h.sound, h.since⟩
  | create t fstat =>
      obtain ⟨fd, hfd, hs⟩ := Option.bind_eq_some_iff.mp hs
      cases hs
      have hnone : s.manager.slot fd = none := hvacant fd hfd
      refine ⟨h.sound.create fstat, ?_⟩
      intro x o
      rw [FdManager.slot_create h.sound, List.mem_cons, h.since, Prod.mk.injEq]
      by_cases hx : x = fd
      · subst hx
        rw [if_pos rfl, hnone]
        constructor
        · rintro (⟨-, rfl⟩ | hold)
          · rfl
          · cases hold
        · intro ho
          cases ho
          exact Or.inl ⟨rfl, rfl⟩
      · rw [if_neg hx]
        simp [hx]
  | del fd =>
      cases hs
      refine ⟨h.sound.del, ?_⟩
      intro x o
      rw [List.mem_filter, h.since, FdManager.slot_del]
      by_cases hx : x = fd
      · subst hx
        simp
      · simp [hx]
  | setTimeout o type v =>
      cases hs
      exact ⟨⟨h.sound.length, h.sound.made⟩, h.since⟩
  | setUserNonblock o v =>
      cases hs
      exact ⟨⟨h.sound.length, h.sound.made⟩, h.since⟩

theorem Agrees.broken (h : Agrees s) (hs : s.step a = some s') (hvacant : ¬ s.Vacant a) :
    ¬ OneObject s' := by
  cases a with
  | create t fstat =>
      obtain ⟨fd, hfd, hs⟩ := Option.bind_eq_some_iff.mp hs
      cases hs
      have hother : s.manager.slot fd ≠ none := by
        intro hnone
        refine hvacant ?_
        intro x hx
        rw [Option.mem_def, hfd] at hx
        cases hx
        exact hnone
      obtain ⟨o, ho⟩ := Option.ne_none_iff_exists'.mp hother
      intro hone
      have hsame : s.manager.size = o :=
        hone fd _ _ List.mem_cons_self (List.mem_cons_of_mem _ ((h.since fd o).mpr ho))
      have hlt := h.sound.made fd o ho
      omega
  | lookup t fd auto_create => exact absurd trivial hvacant
  | del fd => exact absurd trivial hvacant
  | setTimeout o type v => exact absurd trivial hvacant
  | setUserNonblock o v => exact absurd trivial hvacant

omit [DecidableEq θ] in
theorem new_agrees : Agrees (new : Table θ) := by
  refine ⟨FdManager.new_sound, ?_⟩
  intro fd o
  constructor
  · intro h
    cases h
  · intro h
    exact absurd (FdManager.new_sound.made fd o h) (Nat.not_lt_zero o)

/-- One object for each open descriptor exactly when no creation comes after another. -/
theorem one_context_per_fd (as : List (Action θ)) :
    Always step OneObject new as ↔ Each step Vacant new as :=
  always_iff_each (fun _ _ _ h hs hvacant => h.step hs hvacant)
    (fun _ _ _ h hs hvacant => h.broken hs hvacant) (fun _ h => h.oneObject) new_agrees as

/-- Both callers have found nothing for descriptor 5 when the first of them makes its object. -/
theorem two_creators : ¬ ∀ as : List (Action Bool), Always step OneObject new as := by
  intro h
  have hone := always_end (h [.lookup false 5 true, .lookup true 5 true, .create false (some true),
    .create true (some true)]) rfl
  exact absurd (hone 5 1 0 (by decide) (by decide)) (by decide)

end Table
end HCServer.Fds
