import Mathlib.Data.Fintype.Basic
import Mathlib.Data.List.Chain
import Mathlib.Logic.Function.Basic
import HCServer.Lib.Transition

/-! `ConfigVar::setValue` and `fromString` as called by several threads `θ`, and what the listeners are
told. A call compares and notifies under the shared lock and stores under the exclusive one: these are
two steps, and other calls come between them. -/
namespace HCServer.ConfigVar
open Lib
variable {T θ : Type}

structure Change (T : Type) where
  old_value : T
  new_value : T

/-- A listener with the changes it was told of, the last one first. -/
structure Listener (T : Type) where
  key : Nat
  told : List (Change T)

def Listener.call (l : Listener T) (c : Change T) : Listener T := { l with told := c :: l.told }

structure Shared (T θ : Type) where
  m_val : T
  m_cbs : List (Listener T)
  s_fun_id : Nat
  /-- The `v` of the calls that have notified and not yet stored. -/
  storing : θ → Option T

inductive Action (T θ : Type)
  | setValue (i : θ) (v : T)
  | fromString (i : θ) (text : String)
  | store (i : θ)

namespace Shared

def new (default_value : T) (s_fun_id : Nat) : Shared T θ := ⟨default_value, [], s_fun_id, fun _ => none⟩

def addListener (s : Shared T θ) : Shared T θ :=
  { s with
    s_fun_id := s.s_fun_id + 1
    m_cbs := s.m_cbs ++ [⟨s.s_fun_id + 1, []⟩] }

/-- A variable with `n` listeners. -/
def listened (default_value : T) (s_fun_id n : Nat) : Shared T θ :=
  addListener^[n] (new default_value s_fun_id)

variable [DecidableEq θ] [BEq T]

/-- `setValue` up to the release of the shared lock. -/
def compare (s : Shared T θ) (i : θ) (v : T) : Shared T θ :=
  if v == s.m_val then s
  else
    { s with
      m_cbs := s.m_cbs.map fun l => l.call ⟨s.m_val, v⟩
      storing := Function.update s.storing i (some v) }

variable (fromStr : String → Option T)

/-- The value that a call is to set, `none` where the conversion throws. -/
def wanted : Action T θ → Option T
  | .setValue _ v => some v
  | .fromString _ text => fromStr text
  | .store _ => none

def step (s : Shared T θ) : Action T θ → Option (Shared T θ)
  | .setValue i v => if (s.storing i).isSome then none else some (s.compare i v)
  | .fromString i text =>
      if (s.storing i).isSome then none
      else
        match fromStr text with
        | none => some s
        | some v => some (s.compare i v)
  | .store i =>
      match s.storing i with
      | none => none
      | some v => some { s with m_val := v, storing := Function.update s.storing i none }

omit [DecidableEq θ]

/-- Each listener is told of consecutive changes, and when no call is under way it was last told of the
value that is stored. -/
structure Informed (s : Shared T θ) : Prop where
  consecutive : ∀ l ∈ s.m_cbs,
    l.told.IsChain fun later earlier => later.old_value = earlier.new_value
  latest : (∀ i, s.storing i = none) → ∀ l ∈ s.m_cbs, ∀ c ∈ l.told.head?, c.new_value = s.m_val

/-- A call that has listeners to notify finds no other call between its notifications and its store. -/
def Alone (s : Shared T θ) (a : Action T θ) : Prop :=
  ∀ v, wanted fromStr a = some v → (v == s.m_val) = false → s.m_cbs ≠ [] → ∀ i, s.storing i = none

instance [Fintype θ] (s : Shared T θ) (a : Action T θ) : Decidable (s.Alone fromStr a) :=
  inferInstanceAs (Decidable (∀ v ∈ wanted fromStr a,
    (v == s.m_val) = false → s.m_cbs ≠ [] → ∀ i, s.storing i = none))

/-- The one call under way: every listener was last told of its value. -/
structure Storing (s : Shared T θ) (i : θ) (v : T) : Prop where
  value : s.storing i = some v
  others : ∀ j, j ≠ i → s.storing j = none
  change : (v == s.m_val) = false
  told : ∀ l ∈ s.m_cbs, ∃ old earlier, l.told = ⟨old, v⟩ :: earlier

/-- The invariant, of a variable that has listeners. -/
structure Kept (s : Shared T θ) : Prop where
  informed : Informed s
  calls : s.m_cbs ≠ [] → (∀ i, s.storing i = none) ∨ ∃ i v, s.Storing i v

variable {fromStr} {s s' : Shared T θ} {a : Action T θ}

omit [BEq T] in
theorem mem_compared {c : Change T} {l : Listener T}
    (h : l ∈ s.m_cbs.map fun l => l.call c) : ∃ l' ∈ s.m_cbs, l.told = c :: l'.told := by
  obtain ⟨l', hl', rfl⟩ := List.mem_map.mp h
  exact ⟨l', hl', rfl⟩

theorem Kept.idle_latest (h : Kept s) (hidle : ∀ i, s.storing i = none) {l : Listener T}
    (hl : l ∈ s.m_cbs) : ∀ c ∈ l.told.head?, s.m_val = c.new_value :=
  fun c hc => (h.informed.latest hidle l hl c hc).symm

variable [DecidableEq θ]

theorem Kept.compare (h : Kept s) {i : θ} {v : T}
    (hidle : (v == s.m_val) = false → s.m_cbs ≠ [] → ∀ j, s.storing j = none) :
    Kept (s.compare i v) := by
  unfold Shared.compare
  split
  case isTrue => exact h
  case isFalse hchange =>
    have hchange := eq_false_of_ne_true hchange
    have hcbs (l : Listener T) (hl : l ∈ s.m_cbs.map fun l => l.call ⟨s.m_val, v⟩) :
        ∀ j, s.storing j = none :=
      hidle hchange (by rintro hnil; rw [hnil] at hl; cases hl)
    refine ⟨⟨?_, ?_⟩, ?_⟩
    · intro l hl
      obtain ⟨l', hl', htold⟩ := mem_compared hl
      rw [htold, List.isChain_cons]
      exact ⟨h.idle_latest (hcbs l hl) hl', h.informed.consecutive l' hl'⟩
    · intro hnone
      cases (Function.update_self i _ _).symm.trans (hnone i)
    · intro hne
      obtain ⟨l, hl⟩ := List.exists_mem_of_ne_nil _ hne
      refine Or.inr ⟨i, v, Function.update_self _ _ _, ?_, hchange, ?_⟩
      · intro j hj
        exact (Function.update_of_ne hj _ _).trans (hcbs l hl j)
      · intro l hl
        obtain ⟨l', -, htold⟩ := mem_compared hl
        exact ⟨s.m_val, l'.told, htold⟩

theorem Kept.store (h : Kept s) {i : θ} {v : T} (hi : s.storing i = some v) :
    Kept { s with m_val := v, storing := Function.update s.storing i none } := by
  have hcalls (hne : s.m_cbs ≠ []) : s.Storing i v := by
    rcases h.calls hne with hidle | ⟨j, w, hstoring⟩
    · cases (hidle i).symm.trans hi
    · have hij : i = j := by
        by_contra hij
        cases (hstoring.others i hij).symm.trans hi
      subst hij
      cases hstoring.value.symm.trans hi
      exact hstoring
  refine ⟨⟨h.informed.consecutive, ?_⟩, ?_⟩
  · intro _ l hl c hc
    obtain ⟨old, earlier, htold⟩ := (hcalls (List.ne_nil_of_mem hl)).told l hl
    rw [htold] at hc
    cases hc
    rfl
  · intro hne
    refine Or.inl fun j => ?_
    by_cases hj : j = i
    · subst hj
      exact Function.update_self _ _ _
    · exact (Function.update_of_ne hj _ _).trans ((hcalls hne).others j hj)

/-- Each step is a call that compares, one that does nothing, or a store. -/
theorem step_cases (h : s.step fromStr a = some s') :
    (∃ i v, wanted fromStr a = some v ∧ s' = s.compare i v) ∨
      (wanted fromStr a = none ∧ s' = s) ∨
      ∃ i v, a = .store i ∧ s.storing i = some v ∧
        s' = { s with m_val := v, storing := Function.update s.storing i none } := by
  cases a with
  | setValue i v =>
      simp only [step] at h
      split at h
      · cases h
      · cases h
        exact Or.inl ⟨i, v, rfl, rfl⟩
  | fromString i text =>
      simp only [step] at h
      split at h
      · cases h
      · split at h
        case h_1 hnone =>
          cases h
          exact Or.inr (Or.inl ⟨hnone, rfl⟩)
        case h_2 v hv =>
          cases h
          exact Or.inl ⟨i, v, hv, rfl⟩
  | store i =>
      simp only [step] at h
      split at h
      case h_1 => cases h
      case h_2 v hv =>
        cases h
        exact Or.inr (Or.inr ⟨i, v, rfl, hv, rfl⟩)

theorem Kept.step (h : Kept s) (hs : s.step fromStr a = some s') (halone : s.Alone fromStr a) :
    Kept s' := by
  rcases step_cases hs with ⟨i, v, hv, rfl⟩ | ⟨-, rfl⟩ | ⟨i, v, -, hi, rfl⟩
  · exact h.compare fun hchange hne => halone v hv hchange hne
  · exact h
  · exact h.store hi

/-- The second of two calls under way names an old value that the listeners were never told of. -/
theorem Kept.broken (h : Kept s) (hrefl : ∀ v : T, (v == v) = true)
    (hs : s.step fromStr a = some s') (halone : ¬ s.Alone fromStr a) : ¬ Informed s' := by
  simp only [Alone, not_forall] at halone
  obtain ⟨v, hv, hchange, hne, j, hj⟩ := halone
  rcases step_cases hs with ⟨i, v', hv', rfl⟩ | ⟨hnone, -⟩ | ⟨i, v', rfl, -, -⟩
  · cases hv.symm.trans hv'
    rcases h.calls hne with hidle | ⟨k, w, hstoring⟩
    · exact absurd (hidle j) hj
    intro hinformed
    obtain ⟨l, hl⟩ := List.exists_mem_of_ne_nil _ hne
    obtain ⟨old, earlier, htold⟩ := hstoring.told l hl
    have hchain := hinformed.consecutive (l.call ⟨s.m_val, v⟩) (by
      rw [Shared.compare, if_neg (ne_true_of_eq_false hchange)]
      exact List.mem_map_of_mem hl)
    rw [Listener.call, htold, List.isChain_cons] at hchain
    have heq : s.m_val = w := hchain.1 _ rfl
    have hsame := hstoring.change
    rw [heq, hrefl] at hsame
    cases hsame
  · cases hv.symm.trans hnone
  · cases hv

omit [BEq T] [DecidableEq θ] in
theorem listened_new (default_value : T) (s_fun_id n : Nat) :
    (∀ i, (listened default_value s_fun_id n : Shared T θ).storing i = none) ∧
      ∀ l ∈ (listened default_value s_fun_id n : Shared T θ).m_cbs, l.told = [] := by
  induction n with
  | zero => exact ⟨fun _ => rfl, fun _ h => absurd h List.not_mem_nil⟩
  | succ n ih =>
      rw [listened, Function.iterate_succ_apply']
      refine ⟨ih.1, ?_⟩
      intro l hl
      rcases List.mem_append.mp hl with hold | hnew
      · exact ih.2 l hold
      · rw [List.mem_singleton.mp hnew]

omit [DecidableEq θ] in
theorem listened_kept (default_value : T) (s_fun_id n : Nat) :
    Kept (listened default_value s_fun_id n : Shared T θ) := by
  obtain ⟨hidle, htold⟩ := listened_new default_value s_fun_id n
  refine ⟨⟨?_, ?_⟩, fun _ => Or.inl hidle⟩
  · intro l hl
    rw [htold l hl]
    exact List.isChain_nil
  · intro _ l hl c hc
    rw [htold l hl] at hc
    cases hc

/-- The listeners are informed as long as each change is stored before the next one is notified, and,
where `==` is reflexive, no longer. -/
theorem listeners_informed (fromStr : String → Option T) (default_value : T) (s_fun_id n : Nat)
    (as : List (Action T θ)) :
    (Each (step fromStr) (Alone fromStr) (listened default_value s_fun_id n) as →
      Always (step fromStr) Informed (listened default_value s_fun_id n) as) ∧
    ((∀ v : T, (v == v) = true) →
      Always (step fromStr) Informed (listened default_value s_fun_id n) as →
      Each (step fromStr) (Alone fromStr) (listened default_value s_fun_id n) as) := by
  have hkept : Kept (listened default_value s_fun_id n : Shared T θ) :=
    listened_kept default_value s_fun_id n
  constructor
  · exact always_of_each (fun _ _ _ h hs halone => h.step hs halone) (fun _ h => h.informed) hkept
  · intro hrefl
    exact (always_iff_each (fun _ _ _ h hs halone => h.step hs halone)
      (fun _ _ _ h hs halone => h.broken hrefl hs halone) (fun _ h => h.informed) hkept as).mp

/-- `tcp.connect.timeout` is set to 3, by one thread. -/
theorem timeout_informed : Always (step fun _ => none) Informed
    (listened 5 0 2 : Shared Nat Bool) [.setValue false 3, .store false, .setValue true 3] :=
  (listeners_informed (fun _ => none) 5 0 2 [.setValue false 3, .store false, .setValue true 3]).1
    (by decide)

/-- Two threads set the variable to 2 and to 3: 3 is told last, and 2 is stored last. -/
theorem listener_stale : ¬ ∀ (fromStr : String → Option Nat) (default_value n : Nat)
    (as : List (Action Nat Bool)),
    Always (step fromStr) Informed (listened default_value 0 n) as := by
  intro h
  have hend := always_end (h (fun _ => none) 1 1
    [.setValue false 2, .setValue true 3, .store true, .store false]) rfl
  have hlatest := hend.latest (by decide) _ List.mem_cons_self _ rfl
  exact absurd hlatest (by decide)

end Shared
end HCServer.ConfigVar
