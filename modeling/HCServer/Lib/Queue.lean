import Mathlib.Data.List.Basic
import Mathlib.Data.List.Induction
import Mathlib.Data.List.Nodup
import Mathlib.Data.List.Perm.Basic

/-! A queue with several readers, each of which takes the first item it may take at that moment. Items are
numbered as they come in, so that equal ones can be told apart. -/
namespace HCServer.Lib

structure Tickets (α ρ : Type*) where
  pushed : List α
  waiting : List Nat
  taken : List (Nat × ρ)

namespace Tickets
variable {α ρ : Type*}

def empty : Tickets α ρ := ⟨[], [], []⟩

/-- The queue itself. -/
def items (q : Tickets α ρ) : List α := q.waiting.filterMap (q.pushed[·]?)

def push (q : Tickets α ρ) (x : α) : Tickets α ρ :=
  { q with pushed := q.pushed ++ [x], waiting := q.waiting ++ [q.pushed.length] }

def pushAll (q : Tickets α ρ) (xs : List α) : Tickets α ρ := xs.foldl push q

/-- The number of the first item that meets `p`. -/
def first (q : Tickets α ρ) (p : α → Bool) : Option Nat :=
  q.waiting.find? fun n => (q.pushed[n]?).any p

def take (q : Tickets α ρ) (p : α → Bool) (r : ρ) : Tickets α ρ :=
  match q.first p with
  | some n => { q with
      waiting := q.waiting.eraseP fun n => (q.pushed[n]?).any p
      taken := q.taken ++ [(n, r)] }
  | none => q

/-- Whoever took an item took it after the earlier ones that were open to the same reader all along. -/
def InOrder (opens : α → ρ → Prop) (q : Tickets α ρ) : Prop :=
  ∀ before n r after, q.taken = before ++ (n, r) :: after →
    ∀ i < n, ∀ x, q.pushed[i]? = some x → opens x r → i ∈ before.map Prod.fst

/-- The invariant. Every number is in one place, once. -/
structure Fair (opens : α → ρ → Prop) (q : Tickets α ρ) : Prop where
  once : (q.taken.map Prod.fst ++ q.waiting).Perm (List.range q.pushed.length)
  increasing : q.waiting.Pairwise (· < ·)
  inOrder : InOrder opens q

variable {opens : α → ρ → Prop} {q : Tickets α ρ} {p : α → Bool} {r : ρ} {n : Nat}

theorem fair_empty : Fair opens (empty : Tickets α ρ) := by
  refine ⟨List.Perm.refl _, List.Pairwise.nil, ?_⟩
  intro before n r after hsplit
  simp [empty] at hsplit

theorem Fair.taken_lt (h : Fair opens q) {m : Nat × ρ} (hm : m ∈ q.taken) : m.1 < q.pushed.length := by
  have hmem := h.once.mem_iff.mp (List.mem_append_left _ (List.mem_map_of_mem hm))
  exact List.mem_range.mp hmem

theorem Fair.waiting_lt (h : Fair opens q) (hn : n ∈ q.waiting) : n < q.pushed.length :=
  List.mem_range.mp (h.once.mem_iff.mp (List.mem_append_right _ hn))

theorem Fair.nodup (h : Fair opens q) : (q.taken.map Prod.fst).Nodup :=
  (List.nodup_append.mp (h.once.nodup_iff.mpr List.nodup_range)).1

/-- An item is taken by one reader. -/
theorem Fair.taken_unique (h : Fair opens q) {u v : ρ} (hu : (n, u) ∈ q.taken) (hv : (n, v) ∈ q.taken) :
    u = v := by
  have hpair := List.inj_on_of_nodup_map h.nodup hu hv rfl
  exact congrArg Prod.snd hpair

/-- A prefix of the pushed items does not change. -/
theorem getElem?_push (x : α) (hn : n < q.pushed.length) : (q.push x).pushed[n]? = q.pushed[n]? :=
  List.getElem?_append_left hn

theorem Fair.push (h : Fair opens q) (x : α) : Fair opens (q.push x) := by
  refine ⟨?_, ?_, ?_⟩
  · have hone := h.once.append_right [q.pushed.length]
    simpa [Tickets.push, List.range_succ, List.append_assoc] using hone
  · refine List.pairwise_append.mpr ⟨h.increasing, List.pairwise_singleton _ _, ?_⟩
    intro i hi j hj
    rw [List.mem_singleton.mp hj]
    exact h.waiting_lt hi
  · intro before n r after hsplit i hi y hy hopen
    have hn : n < q.pushed.length := h.taken_lt (m := (n, r)) (hsplit ▸ by simp)
    rw [getElem?_push x (Nat.lt_trans hi hn)] at hy
    exact h.inOrder before n r after hsplit i hi y hy hopen

theorem Fair.pushAll (h : Fair opens q) (xs : List α) : Fair opens (q.pushAll xs) := by
  induction xs generalizing q with
  | nil => exact h
  | cons x xs ih => exact ih (h.push x)

theorem items_push (h : Fair opens q) (x : α) : (q.push x).items = q.items ++ [x] := by
  have hold : q.waiting.filterMap ((q.pushed ++ [x])[·]?) = q.items := by
    apply List.filterMap_congr
    intro n hn
    exact List.getElem?_append_left (h.waiting_lt hn)
  have hnew : [q.pushed.length].filterMap ((q.pushed ++ [x])[·]?) = [x] := by simp
  simp only [items, push, List.filterMap_append] at hold hnew ⊢
  rw [hold, hnew]

theorem items_pushAll (h : Fair opens q) (xs : List α) : (q.pushAll xs).items = q.items ++ xs := by
  induction xs generalizing q with
  | nil => exact (List.append_nil _).symm
  | cons x xs ih =>
      have hrest := ih (h.push x)
      rw [items_push h x, List.append_assoc] at hrest
      exact hrest

theorem pushed_pushAll (xs : List α) : (q.pushAll xs).pushed = q.pushed ++ xs := by
  induction xs generalizing q with
  | nil => exact (List.append_nil _).symm
  | cons x xs ih => exact (ih (q := q.push x)).trans (List.append_assoc _ _ _)

theorem taken_pushAll (xs : List α) : (q.pushAll xs).taken = q.taken := by
  induction xs generalizing q with
  | nil => rfl
  | cons x xs ih => exact ih (q := q.push x)

/-- What stands before the item taken, and after it. -/
theorem first_split (hfirst : q.first p = some n) : ∃ front back x,
    q.waiting = front ++ n :: back ∧ (∀ i ∈ front, ∀ y, q.pushed[i]? = some y → p y = false) ∧
      q.pushed[n]? = some x ∧ p x = true ∧
      q.take p r = { q with waiting := front ++ back, taken := q.taken ++ [(n, r)] } := by
  obtain ⟨hn, front, back, hsplit, hfront⟩ := List.find?_eq_some_iff_append.mp hfirst
  obtain ⟨x, hx, hp⟩ := (Option.any_eq_true _ _).mp hn
  refine ⟨front, back, x, hsplit, ?_, hx, hp, ?_⟩
  · intro i hi y hy
    simpa [hy] using hfront i hi
  · have herase : q.waiting.eraseP (fun n => (q.pushed[n]?).any p) = front ++ back := by
      rw [hsplit, List.eraseP_append_right _ fun i hi => by simpa using hfront i hi]
      exact congrArg (front ++ ·) (List.eraseP_cons_of_pos hn)
    simp only [take, hfirst, herase]

theorem items_take (hfirst : q.first p = some n) :
    (q.take p r).items = q.items.eraseP p ∧ q.items.find? p = q.pushed[n]? := by
  obtain ⟨front, back, x, hsplit, hfront, hx, hp, htake⟩ := first_split (r := r) hfirst
  have hbefore : ∀ y ∈ front.filterMap (q.pushed[·]?), p y = false := by
    intro y hy
    obtain ⟨i, hi, hiy⟩ := List.mem_filterMap.mp hy
    exact hfront i hi y hiy
  have hitems : q.items = front.filterMap (q.pushed[·]?) ++ x :: back.filterMap (q.pushed[·]?) := by
    rw [items, hsplit, List.filterMap_append, List.filterMap_cons_some hx]
  refine ⟨?_, ?_⟩
  · rw [htake, hitems, List.eraseP_append_right _ (by simpa using hbefore), List.eraseP_cons_of_pos hp]
    simp [items]
  · rw [hitems, hx]
    exact List.find?_eq_some_iff_append.mpr ⟨hp, _, _, rfl, fun y hy => by simp [hbefore y hy]⟩

theorem first_isSome (h : (q.items.find? p).isSome) : ∃ n, q.first p = some n := by
  have hbind : q.items.find? p = (q.first p).bind (q.pushed[·]?) := List.find?_filterMap
  rw [hbind] at h
  cases hfirst : q.first p with
  | some n => exact ⟨n, rfl⟩
  | none => simp [hfirst] at h

/-- What is open to the reader meets the test, so nothing open to it stands before what it takes. -/
theorem Fair.take (h : Fair opens q) (hp : ∀ x, opens x r → p x = true) : Fair opens (q.take p r) := by
  cases hfirst : q.first p with
  | none => simpa [Tickets.take, hfirst] using h
  | some n =>
      obtain ⟨front, back, x, hsplit, hfront, hx, -, htake⟩ := first_split (r := r) hfirst
      rw [htake]
      have hincreasing := h.increasing
      rw [hsplit] at hincreasing
      refine ⟨?_, hincreasing.sublist (by simp), ?_⟩
      · have hperm := h.once
        rw [hsplit] at hperm
        refine List.Perm.trans ?_ hperm
        simp only [List.map_append, List.map_cons, List.map_nil, List.append_assoc,
          List.singleton_append]
        exact List.perm_middle.symm.append_left _
      · intro before m u after htaken i hi y hy hopen
        rcases List.eq_nil_or_concat after with rfl | ⟨rest, last, rfl⟩
        · obtain ⟨hbefore, hlast⟩ := List.append_inj' htaken rfl
          cases hlast
          rw [← hbefore]
          have hlt : i < q.pushed.length := (List.getElem?_eq_some_iff.mp hy).1
          have hplace := h.once.mem_iff.mpr (List.mem_range.mpr hlt)
          refine (List.mem_append.mp hplace).resolve_right ?_
          intro hwaiting
          rw [hsplit] at hwaiting
          rcases List.mem_append.mp hwaiting with hin | hin
          · exact absurd (hp y hopen) (by simp [hfront i hin y hy])
          · have hle : n ≤ i := by
              rcases List.mem_cons.mp hin with rfl | hback
              · exact Nat.le_refl _
              · exact Nat.le_of_lt
                  ((List.pairwise_cons.mp (List.pairwise_append.mp hincreasing).2.1).1 i hback)
            omega
        · have hcut : q.taken = before ++ (m, u) :: rest := by
            have hlist : q.taken ++ [(n, r)] = (before ++ (m, u) :: rest) ++ [last] := by
              simpa using htaken
            exact (List.append_inj' hlist rfl).1
          exact h.inOrder before m u rest hcut i hi y hy hopen

/-- As many numbers as items. -/
theorem length_filter_range (xs : List α) (p : α → Bool) :
    ((List.range xs.length).filter fun n => (xs[n]?).any p).length = (xs.filter p).length := by
  induction xs using List.reverseRecOn with
  | nil => rfl
  | append_singleton xs x ih =>
      have hold : (List.range xs.length).filter (fun n => ((xs ++ [x])[n]?).any p) =
          (List.range xs.length).filter fun n => (xs[n]?).any p := by
        apply List.filter_congr
        intro n hn
        rw [List.getElem?_append_left (List.mem_range.mp hn)]
      rw [List.length_append, List.length_singleton, List.range_succ, List.filter_append, hold,
        List.filter_append, List.length_append, List.length_append, ih]
      congr 1
      cases hx : p x <;> simp [hx]

end Tickets
end HCServer.Lib
