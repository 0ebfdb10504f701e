import HCServer.Lib.Transition
import HCServer.IOManager.Context

/-! `m_fdContexts` as a vector of pointers, and `addEvent` in its three steps: the size test under the
read lock, the resize under the write lock, and the body under the descriptor's mutex. Objects are
numbered in the order in which they are made, and none is freed before the `IOManager` is. -/
namespace HCServer.Contexts
open Lib IOManager
variable {S F K θ : Type}

/-- Where a call of `addEvent` stands. -/
inductive Stage
  | outside
  | resizing (fd : Nat) (event : Event)
  | fetched (fd_ctx : Nat) (event : Event)
  deriving DecidableEq, Repr

structure Registry (S F K θ : Type) where
  fdContexts : List Nat
  size : Nat
  heap : Nat → FdContext S F K
  stage : θ → Stage

/-- `addEvent` starts with `sizeTest`; `register` is its body, `ctl` tells whether `epoll_ctl`
succeeds. -/
inductive Action (S F K θ : Type)
  | sizeTest (t : θ) (fd : Nat) (event : Event)
  | contextResize (t : θ)
  | register (t : θ) (scheduler : S) (current : F) (cb : Option K) (ctl : Bool)

namespace Registry

/-- `m_fdContexts.resize(size)`, then `new FdContext` for each null slot in turn. -/
def contextResize (s : Registry S F K θ) (size : Nat) : Registry S F K θ :=
  let length := s.fdContexts.length
  { s with
    fdContexts := s.fdContexts.take size ++ List.range' s.size (size - length)
    size := s.size + (size - length)
    heap := fun o => if s.size ≤ o ∧ o < s.size + (size - length) then .fresh (length + (o - s.size))
      else s.heap o }

def new : Registry S F K θ :=
  contextResize ⟨[], 0, fun _ => .fresh 0, fun _ => .outside⟩ 32

/-- The fetch that `delEvent`, `cancelEvent` and `cancelAll` begin with. -/
def lookup (s : Registry S F K θ) (fd : Nat) : Option Nat := s.fdContexts[fd]?

/-- What the registry shows of its contexts, without the identity of the objects. -/
def view (s : Registry S F K θ) : List (FdContext S F K) := s.fdContexts.map s.heap

variable [DecidableEq θ]

def goto (s : Registry S F K θ) (t : θ) (stage : Stage) : Registry S F K θ :=
  { s with stage := Function.update s.stage t stage }

/-- One step; a failing assertion and an index out of bounds end the run. -/
def step (s : Registry S F K θ) : Action S F K θ → Option (Registry S F K θ)
  | .sizeTest t fd event =>
      match s.stage t with
      | .outside =>
          some (s.goto t (match s.lookup fd with
            | some fd_ctx => .fetched fd_ctx event
            | none => .resizing fd event))
      | _ => none
  | .contextResize t =>
      match s.stage t with
      | .resizing fd event => do
          let s := s.contextResize (fd * 3 / 2)
          let fd_ctx ← s.lookup fd
          some (s.goto t (.fetched fd_ctx event))
      | _ => none
  | .register t scheduler current cb ctl =>
      match s.stage t with
      | .fetched fd_ctx event =>
          let ctx := s.heap fd_ctx
          if ctx.events &&& event.bits ≠ 0 then none
          else if ctl = false then some (s.goto t .outside)
          else if (ctx.getcontext event).isEmpty = false then none
          else
            let c : EventContext S F K := match cb with
              | some k => ⟨some scheduler, none, some k⟩
              | none => ⟨some scheduler, some current, none⟩
            some ({ s with heap := Function.update s.heap fd_ctx (ctx.arm event c) }.goto t .outside)
      | _ => none

/-- The vector has not outgrown the size that the call is about to give it. -/
def Fits (s : Registry S F K θ) : Action S F K θ → Prop
  | .contextResize t =>
      match s.stage t with
      | .resizing fd _ => s.fdContexts.length ≤ fd * 3 / 2
      | _ => True
  | _ => True

/-- Every object stays at its index, and the vector does not shrink. -/
def Keeps (s s' : Registry S F K θ) : Prop := s.fdContexts <+: s'.fdContexts

/-- Where an event is registered, the calls that take it away find it. -/
def Findable (s : Registry S F K θ) : Prop :=
  ∀ o < s.size, (s.heap o).events ≠ 0 → s.lookup (s.heap o).fd = some o

section Resize
variable {θ : Type} (s : Registry S F K θ) (n : Nat)

theorem contextResize_grows (h : s.fdContexts.length ≤ n) :
    (s.contextResize n).fdContexts =
      s.fdContexts ++ List.range' s.size (n - s.fdContexts.length) := by
  rw [contextResize, List.take_of_length_le h]

theorem keeps_contextResize : Keeps s (s.contextResize n) ↔ s.fdContexts.length ≤ n := by
  constructor
  · intro h
    by_contra hlt
    have hlength := h.length_le
    have hshort : (s.contextResize n).fdContexts.length = n := by
      simp only [contextResize, List.length_append, List.length_take, List.length_range']
      omega
    omega
  · intro h
    rw [Keeps, contextResize_grows s n h]
    exact List.prefix_append _ _

/-- Without the identity of the objects, this is the resize of the vector of contexts. -/
theorem view_contextResize (m : IOManager S F K) (hview : m.fdContexts = s.view)
    (h : ∀ o ∈ s.fdContexts, o < s.size) :
    (s.contextResize n).view = (m.contextResize n).fdContexts := by
  have hold : ∀ o ∈ s.fdContexts.take n, (s.contextResize n).heap o = s.heap o := by
    intro o ho
    have hlt := h o (List.mem_of_mem_take ho)
    simp only [contextResize]
    exact if_neg (by omega)
  have hnew : ∀ k length : Nat, k = n - s.fdContexts.length → length = s.fdContexts.length →
      (List.range' s.size k).map (s.contextResize n).heap =
        (List.range' length k).map FdContext.fresh := by
    intro k length hk hlength
    refine List.ext_getElem (by simp) ?_
    intro i hi _
    have hlt : i < k := by simpa using hi
    simp only [List.getElem_map, List.getElem_range', contextResize]
    rw [if_pos (by omega)]
    congr 1
    omega
  have hlength : s.view.length = s.fdContexts.length := List.length_map _
  rw [IOManager.contextResize, hview, hlength, view, view, ← List.map_take, ← hnew _ _ rfl rfl,
    ← List.map_congr_left hold]
  exact List.map_append

end Resize

/-- Objects are numbered as the descriptors they belong to. -/
structure InPlace (s : Registry S F K θ) : Prop where
  contexts : s.fdContexts = List.range s.size
  fd : ∀ o < s.size, (s.heap o).fd = o

variable {s s' : Registry S F K θ}

omit [DecidableEq θ] in
theorem InPlace.contextResize (h : InPlace s) {n : Nat} (hn : s.fdContexts.length ≤ n) :
    InPlace (s.contextResize n) := by
  have hlength : s.fdContexts.length = s.size := by rw [h.contexts, List.length_range]
  refine ⟨?_, ?_⟩
  · have happend : List.range' 0 s.size ++ List.range' (0 + s.size) (n - s.size) =
        List.range' 0 (s.size + (n - s.size)) := List.range'_append_1
    rw [Nat.zero_add] at happend
    rw [contextResize_grows s n hn, h.contexts, List.length_range, List.range_eq_range', happend,
      ← List.range_eq_range', Registry.contextResize, hlength]
  · intro o ho
    simp only [Registry.contextResize] at ho ⊢
    by_cases hold : o < s.size
    · rw [if_neg (by omega)]
      exact h.fd o hold
    · rw [if_pos (by omega)]
      simp only [FdContext.fresh]
      omega

omit [DecidableEq θ] in
theorem InPlace.findable (h : InPlace s) : Findable s := by
  intro o ho _
  rw [lookup, h.contexts, h.fd o ho]
  exact List.getElem?_range ho

theorem InPlace.step {a : Action S F K θ} (h : InPlace s) (hs : s.step a = some s')
    (hfits : s.Fits a) : InPlace s' := by
  cases a with
  | sizeTest t fd event =>
      simp only [Registry.step] at hs
      split at hs
      case h_1 =>
        cases hs
        exact ⟨h.contexts, h.fd⟩
      case h_2 => cases hs
  | contextResize t =>
      simp only [Registry.step] at hs
      simp only [Fits] at hfits
      split at hs
      case h_1 fd event hstage =>
        rw [hstage] at hfits
        obtain ⟨fd_ctx, -, hs⟩ := Option.bind_eq_some_iff.mp hs
        cases hs
        have hplace := h.contextResize hfits
        exact ⟨hplace.contexts, hplace.fd⟩
      case h_2 => cases hs
  | register t scheduler current cb ctl =>
      simp only [Registry.step] at hs
      split at hs
      case h_1 fd_ctx event hstage =>
        split at hs
        · cases hs
        · split at hs
          · cases hs
            exact ⟨h.contexts, h.fd⟩
          · split at hs
            · cases hs
            · cases hs
              refine ⟨h.contexts, ?_⟩
              intro o ho
              have hfd := h.fd o ho
              by_cases heq : o = fd_ctx
              · subst heq
                simpa [goto] using hfd
              · simpa [goto, Function.update_of_ne heq] using hfd
      case h_2 => cases hs

theorem step_keeps_iff {a : Action S F K θ} (hs : s.step a = some s') : Keeps s s' ↔ s.Fits a := by
  cases a with
  | sizeTest t fd event =>
      simp only [Registry.step] at hs
      split at hs
      case h_1 =>
        cases hs
        exact iff_of_true (List.prefix_refl _) trivial
      case h_2 => cases hs
  | contextResize t =>
      simp only [Registry.step] at hs
      split at hs
      case h_1 fd event hstage =>
        obtain ⟨fd_ctx, -, hs⟩ := Option.bind_eq_some_iff.mp hs
        cases hs
        have hkeeps := s.keeps_contextResize (fd * 3 / 2)
        simp only [Fits, hstage]
        exact hkeeps
      case h_2 => cases hs
  | register t scheduler current cb ctl =>
      simp only [Registry.step] at hs
      split at hs
      case h_1 =>
        split at hs
        · cases hs
        · split at hs
          · cases hs
            exact iff_of_true (List.prefix_refl _) trivial
          · split at hs
            · cases hs
            · cases hs
              exact iff_of_true (List.prefix_refl _) trivial
      case h_2 => cases hs

omit [DecidableEq θ] in
theorem new_inPlace : InPlace (new : Registry S F K θ) := by
  have hempty : InPlace (⟨[], 0, fun _ => .fresh 0, fun _ => .outside⟩ : Registry S F K θ) :=
    ⟨rfl, fun o ho => absurd ho (Nat.not_lt_zero o)⟩
  exact hempty.contextResize (Nat.zero_le 32)

/-- Contexts are permanent exactly when no resize comes too late. -/
theorem context_permanent (as : List (Action S F K θ)) :
    (Throughout step Keeps new as ∧ Always step Findable new as) ↔ Each step Fits new as := by
  have hkeep : ∀ (s : Registry S F K θ) a s', InPlace s → s.step a = some s' → s.Fits a → InPlace s' :=
    fun _ _ _ h hs hfits => h.step hs hfits
  have hthroughout : Throughout step Keeps new as ↔ Each step Fits new as :=
    throughout_iff_each (R := Keeps) hkeep (fun s => List.prefix_refl s.fdContexts)
      (fun _ _ _ => List.IsPrefix.trans) (fun _ _ _ _ hs => step_keeps_iff hs) new_inPlace as
  constructor
  · rintro ⟨h, -⟩
    exact hthroughout.mp h
  · intro h
    exact ⟨hthroughout.mpr h, always_of_each hkeep (fun _ hs => hs.findable) new_inPlace h⟩

/-- The test for descriptor 40 is out of date when descriptor 100 has made room for 150. -/
theorem stale_resize_shrinks :
    ¬ ∀ as : List (Action Unit Unit Unit Bool), Throughout step Keeps new as := by
  intro h
  have hkeeps := h _ [.sizeTest false 40 .READ, .sizeTest true 100 .READ, .contextResize true]
    [.contextResize false] [] _ _ rfl rfl rfl
  have hlength := hkeeps.length_le
  revert hlength
  decide +kernel

end Registry
end HCServer.Contexts
