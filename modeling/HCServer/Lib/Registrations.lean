import Mathlib.Data.List.Nodup
import Mathlib.Logic.Function.Basic

/-! Values registered under keys by a history of operations, of which some delete a key. What stands
in the end is what was registered last under a key and not deleted since, the oldest first. -/
namespace HCServer.Lib
variable {ω κ ν : Type*}

/-- What an operation does to the registrations, if anything. -/
inductive Registration (κ ν : Type*)
  | add (key : κ) (value : ν)
  | del (key : κ)

namespace Registration

def key : Registration κ ν → κ
  | .add key _ => key
  | .del key => key

@[simp] theorem key_add (k : κ) (v : ν) : (add k v).key = k := rfl

@[simp] theorem key_del (k : κ) : (del k : Registration κ ν).key = k := rfl

variable [DecidableEq κ] (event : ω → Option (Registration κ ν))

/-- The operation registers something under the key, or deletes it. -/
def concerns (k : κ) (o : ω) : Bool := (event o).any fun e => decide (e.key = k)

/-- The operation at `i` registers `v` under `k`, and none behind it concerns `k`. -/
structure Stands (os : List ω) (i : Nat) (k : κ) (v : ν) : Prop where
  added : os[i]?.bind event = some (.add k v)
  last : ∀ j o, i < j → os[j]? = some o → concerns event k o = false

/-- The registrations that stand, the oldest first. -/
def standing : List ω → List (κ × ν)
  | [] => []
  | o :: os =>
    match event o with
    | some (.add k v) => if os.any (concerns event k) then standing os else (k, v) :: standing os
    | _ => standing os

variable {event} {os : List ω} {o : ω} {i j : Nat} {k : κ} {v w : ν}

theorem concerns_none (h : event o = none) (k : κ) : concerns event k o = false := by
  rw [concerns, h, Option.any_none]

theorem concerns_some {e : Registration κ ν} (h : event o = some e) (k : κ) :
    concerns event k o = decide (e.key = k) := by
  rw [concerns, h, Option.any_some]

theorem stands_zero : Stands event (o :: os) 0 k v ↔
    event o = some (.add k v) ∧ os.any (concerns event k) = false := by
  rw [List.any_eq_false]
  constructor
  · rintro ⟨hadded, hlast⟩
    refine ⟨hadded, fun x hx => ?_⟩
    obtain ⟨j, hj⟩ := List.mem_iff_getElem?.mp hx
    rw [hlast (j + 1) x (Nat.succ_pos j) hj]
    exact Bool.false_ne_true
  · rintro ⟨hadded, hlast⟩
    refine ⟨hadded, fun j x hj hx => ?_⟩
    obtain ⟨j, rfl⟩ := Nat.exists_eq_add_of_lt hj
    rw [Nat.zero_add, List.getElem?_cons_succ] at hx
    exact eq_false_of_ne_true (hlast x (List.mem_of_getElem? hx))

theorem stands_succ : Stands event (o :: os) (i + 1) k v ↔ Stands event os i k v := by
  constructor
  · rintro ⟨hadded, hlast⟩
    exact ⟨hadded, fun j x hj hx => hlast (j + 1) x (Nat.succ_lt_succ hj) hx⟩
  · rintro ⟨hadded, hlast⟩
    refine ⟨hadded, fun j x hj hx => ?_⟩
    cases j with
    | zero => exact absurd hj (Nat.not_lt_zero _)
    | succ j => exact hlast j x (Nat.lt_of_succ_lt_succ hj) hx

theorem not_stands_nil : ¬ Stands event [] i k v := by
  rintro ⟨hadded, -⟩
  cases hadded

/-- At one place of the history stands one registration. -/
theorem Stands.eq_of_index {k' : κ} (h : Stands event os i k v) (h' : Stands event os i k' w) :
    k = k' ∧ v = w := by
  have heq := h.added.symm.trans h'.added
  cases heq
  exact ⟨rfl, rfl⟩

theorem Stands.concerned (h : Stands event os i k v) : ∃ o, os[i]? = some o ∧ concerns event k o = true := by
  obtain ⟨o, ho, hevent⟩ := Option.bind_eq_some_iff.mp h.added
  exact ⟨o, ho, by rw [concerns_some hevent, key_add, decide_eq_true rfl]⟩

/-- Under one key stands one registration. -/
theorem Stands.index_eq (h : Stands event os i k v) (h' : Stands event os j k w) : i = j := by
  obtain ⟨x, hx, hconcerns⟩ := h.concerned
  obtain ⟨y, hy, hconcerns'⟩ := h'.concerned
  rcases Nat.lt_trichotomy i j with hlt | heq | hgt
  · rw [h.last j y hlt hy] at hconcerns'
    cases hconcerns'
  · exact heq
  · rw [h'.last i x hgt hx] at hconcerns
    cases hconcerns

/-- The history begins with an operation that stands, or with one that does not count. -/
theorem standing_cons (event : ω → Option (Registration κ ν)) (o : ω) (os : List ω) :
    (∃ k v, Stands event (o :: os) 0 k v ∧ standing event (o :: os) = (k, v) :: standing event os) ∨
      (∀ k v, ¬ Stands event (o :: os) 0 k v) ∧ standing event (o :: os) = standing event os := by
  rw [standing]
  simp only [stands_zero]
  cases hevent : event o with
  | none => exact .inr ⟨by simp, rfl⟩
  | some e =>
      cases e with
      | del k => exact .inr ⟨by simp, rfl⟩
      | add k v =>
          cases hlater : os.any (concerns event k)
          · exact .inl ⟨k, v, ⟨rfl, hlater⟩, by simp [hlater]⟩
          · refine .inr ⟨?_, by simp [hlater]⟩
            rintro k' v' ⟨heq, hnone⟩
            cases heq
            rw [hlater] at hnone
            cases hnone

theorem exists_of_find?_standing {p : κ × ν → Bool} {e : κ × ν}
    (h : (standing event os).find? p = some e) :
    ∃ i, Stands event os i e.1 e.2 ∧ p e = true ∧
      ∀ j k v, Stands event os j k v → p (k, v) = true → i ≤ j := by
  induction os with
  | nil => cases h
  | cons o os ih =>
      have hlater (hfind : (standing event os).find? p = some e)
          (hhead : ∀ k v, Stands event (o :: os) 0 k v → p (k, v) = false) :
          ∃ i, Stands event (o :: os) i e.1 e.2 ∧ p e = true ∧
            ∀ j k v, Stands event (o :: os) j k v → p (k, v) = true → i ≤ j := by
        obtain ⟨i, hstands, hp, holdest⟩ := ih hfind
        refine ⟨i + 1, stands_succ.mpr hstands, hp, ?_⟩
        intro j k v hj hpj
        cases j with
        | zero =>
            rw [hhead k v hj] at hpj
            cases hpj
        | succ j => exact Nat.succ_le_succ (holdest j k v (stands_succ.mp hj) hpj)
      obtain ⟨k, v, hstands, hcons⟩ | ⟨hnone, hsame⟩ := standing_cons event o os
      · rw [hcons, List.find?_cons] at h
        cases hp : p (k, v)
        · rw [hp] at h
          refine hlater h fun k' v' hstands' => ?_
          have heq := hstands.added.symm.trans hstands'.added
          cases heq
          exact hp
        · rw [hp] at h
          cases h
          exact ⟨0, hstands, hp, fun j _ _ _ _ => Nat.zero_le j⟩
      · rw [hsame] at h
        exact hlater h fun k v hstands => absurd hstands (hnone k v)

theorem forall_of_find?_standing {p : κ × ν → Bool} (h : (standing event os).find? p = none) :
    ∀ i k v, Stands event os i k v → p (k, v) = false := by
  induction os with
  | nil => exact fun i k v hstands => absurd hstands not_stands_nil
  | cons o os ih =>
      intro i k v hstands
      obtain ⟨k', v', hhead, hcons⟩ | ⟨hnone, hsame⟩ := standing_cons event o os
      · rw [hcons, List.find?_cons] at h
        cases hp : p (k', v') with
        | true =>
            rw [hp] at h
            cases h
        | false =>
            rw [hp] at h
            cases i with
            | zero =>
                have heq := hhead.added.symm.trans hstands.added
                cases heq
                exact hp
            | succ i => exact ih h i k v (stands_succ.mp hstands)
      · rw [hsame] at h
        cases i with
        | zero => exact absurd hstands (hnone k v)
        | succ i => exact ih h i k v (stands_succ.mp hstands)

theorem find?_standing_eq_none {p : κ × ν → Bool} : (standing event os).find? p = none ↔
    ∀ i k v, Stands event os i k v → p (k, v) = false := by
  constructor
  · exact forall_of_find?_standing
  · intro h
    cases hfind : (standing event os).find? p with
    | none => rfl
    | some e =>
        obtain ⟨i, hstands, hp, -⟩ := exists_of_find?_standing hfind
        rw [h i e.1 e.2 hstands] at hp
        cases hp

/-- Searched from its beginning, the list gives the oldest registration that fits. -/
theorem find?_standing_eq_some {p : κ × ν → Bool} {e : κ × ν} : (standing event os).find? p = some e ↔
    ∃ i, Stands event os i e.1 e.2 ∧ p e = true ∧
      ∀ j k v, Stands event os j k v → p (k, v) = true → i ≤ j := by
  constructor
  · exact exists_of_find?_standing
  · rintro ⟨i, hstands, hp, holdest⟩
    cases hfind : (standing event os).find? p with
    | none =>
        rw [forall_of_find?_standing hfind i e.1 e.2 hstands] at hp
        cases hp
    | some e' =>
        obtain ⟨j, hstands', hp', holdest'⟩ := exists_of_find?_standing hfind
        have hindex := Nat.le_antisymm (holdest j _ _ hstands' hp') (holdest' i _ _ hstands hp)
        subst hindex
        obtain ⟨hkey, hvalue⟩ := hstands.eq_of_index hstands'
        rw [Prod.ext hkey hvalue]

/-! ### A table in the order of registration -/

/-- The table without the first entry of the key. -/
def erase (k : κ) (l : List (κ × ν)) : List (κ × ν) := l.eraseP fun e => decide (e.1 = k)

def apply (l : List (κ × ν)) : Option (Registration κ ν) → List (κ × ν)
  | none => l
  | some (.add k v) => erase k l ++ [(k, v)]
  | some (.del k) => erase k l

variable {l : List (κ × ν)}

theorem erase_eq_filter (hl : (l.map Prod.fst).Nodup) (k : κ) :
    erase k l = l.filter fun e => decide (e.1 ≠ k) := by
  induction l with
  | nil => rfl
  | cons e l ih =>
      obtain ⟨hnew, hrest⟩ := List.nodup_cons.mp hl
      by_cases he : e.1 = k
      · have hall : ∀ x ∈ l, decide (x.1 ≠ k) = true := by
          intro x hx
          refine decide_eq_true fun hxk => hnew ?_
          rw [he, ← hxk]
          exact List.mem_map_of_mem hx
        rw [List.filter_cons_of_neg (by simpa using he), List.filter_eq_self.mpr hall]
        exact List.eraseP_cons_of_pos (by simpa using he)
      · rw [List.filter_cons_of_pos (by simpa using he), ← ih hrest]
        exact List.eraseP_cons_of_neg (by simpa using he)

theorem nodup_erase (hl : (l.map Prod.fst).Nodup) (k : κ) : ((erase k l).map Prod.fst).Nodup :=
  hl.sublist (List.eraseP_sublist.map Prod.fst)

theorem not_mem_erase (hl : (l.map Prod.fst).Nodup) (k : κ) : k ∉ (erase k l).map Prod.fst := by
  rw [erase_eq_filter hl]
  simp

/-- One operation keeps one entry a key. -/
theorem nodup_apply (hl : (l.map Prod.fst).Nodup) (e : Option (Registration κ ν)) :
    ((apply l e).map Prod.fst).Nodup := by
  cases e with
  | none => exact hl
  | some e =>
      cases e with
      | del k => exact nodup_erase hl k
      | add k v =>
          rw [apply, List.map_append, List.nodup_append]
          refine ⟨nodup_erase hl k, List.nodup_singleton k, ?_⟩
          rintro a ha b hb rfl
          rw [List.mem_singleton.mp hb] at ha
          exact not_mem_erase hl k ha

theorem nodup_foldl (hl : (l.map Prod.fst).Nodup) (os : List ω) :
    ((os.foldl (fun l o => apply l (event o)) l).map Prod.fst).Nodup := by
  induction os generalizing l with
  | nil => exact hl
  | cons o os ih => exact ih (nodup_apply hl (event o))

/-- The step: an operation before others drops the entries that it concerns, and adds its own if that
stands in the end. -/
theorem filter_apply (hl : (l.map Prod.fst).Nodup) (o : ω) (os : List ω) :
    (apply l (event o)).filter (fun e => !os.any (concerns event e.1)) ++ standing event os =
      l.filter (fun e => !(o :: os).any (concerns event e.1)) ++ standing event (o :: os) := by
  rw [standing]
  cases hevent : event o with
  | none => simp [apply, concerns_none hevent]
  | some e =>
      have herased : (erase e.key l).filter (fun x => !os.any (concerns event x.1)) =
          l.filter fun x => !(o :: os).any (concerns event x.1) := by
        rw [erase_eq_filter hl, List.filter_filter]
        refine List.filter_congr fun x _ => ?_
        rw [List.any_cons, concerns_some hevent, Bool.not_or, Bool.and_comm, ← decide_not]
        simp only [eq_comm]
      cases e with
      | del k => rw [apply, ← herased, key_del]
      | add k v =>
          rw [apply, ← herased, key_add, List.filter_append, List.append_assoc]
          cases hlater : os.any (concerns event k)
          · simp [hlater]
          · simp [hlater]

/-- The run: what is left of the table before, then what stands of the history. -/
theorem foldl_apply (hl : (l.map Prod.fst).Nodup) (os : List ω) :
    os.foldl (fun l o => apply l (event o)) l =
      l.filter (fun e => !os.any (concerns event e.1)) ++ standing event os := by
  induction os generalizing l with
  | nil => simp [standing]
  | cons o os ih => rw [List.foldl_cons, ih (nodup_apply hl (event o)), filter_apply hl]

theorem foldl_apply_nil (event : ω → Option (Registration κ ν)) (os : List ω) :
    os.foldl (fun l o => apply l (event o)) [] = standing event os := by
  have hnil : (([] : List (κ × ν)).map Prod.fst).Nodup := List.nodup_nil
  rw [foldl_apply hnil, List.filter_nil, List.nil_append]

theorem nodup_standing (event : ω → Option (Registration κ ν)) (os : List ω) :
    ((standing event os).map Prod.fst).Nodup := by
  have hnil : (([] : List (κ × ν)).map Prod.fst).Nodup := List.nodup_nil
  rw [← foldl_apply_nil]
  exact nodup_foldl hnil os

theorem any_concerns_filter {k' : κ} (hne : k' ≠ k) (os : List ω) :
    (os.filter fun o => !concerns event k o).any (concerns event k') = os.any (concerns event k') := by
  rw [List.any_filter]
  congr 1
  funext o
  cases hevent : event o with
  | none => rw [concerns_none hevent k', Bool.and_false]
  | some e =>
      rw [concerns_some hevent, concerns_some hevent]
      by_cases he : e.key = k'
      · have hother : e.key ≠ k := fun h => hne (he.symm.trans h)
        simp [he, hne]
      · simp [he]

/-- A history without the operations on a key leaves what stands under the others. -/
theorem standing_filter (k : κ) (os : List ω) :
    standing event (os.filter fun o => !concerns event k o) =
      (standing event os).filter fun e => decide (e.1 ≠ k) := by
  induction os with
  | nil => rfl
  | cons o os ih =>
      cases hconcerns : concerns event k o
      · rw [List.filter_cons_of_pos (by simp [hconcerns]), standing, standing]
        cases hevent : event o with
        | none => exact ih
        | some e =>
            rw [concerns_some hevent, decide_eq_false_iff_not] at hconcerns
            cases e with
            | del key => exact ih
            | add key v =>
                rw [key_add] at hconcerns
                dsimp only
                rw [any_concerns_filter hconcerns]
                split
                · exact ih
                · rw [ih, List.filter_cons_of_pos (by simpa using hconcerns)]
      · rw [List.filter_cons_of_neg (by simp [hconcerns]), ih]
        obtain ⟨key, v, hstands, hcons⟩ | ⟨-, hsame⟩ := standing_cons event o os
        · rw [concerns_some (stands_zero.mp hstands).1, decide_eq_true_iff, key_add] at hconcerns
          rw [hcons, List.filter_cons_of_neg (by simpa using hconcerns)]
        · rw [hsame]

/-! ### A table without an order -/

def update (m : κ → Option ν) : Option (Registration κ ν) → κ → Option ν
  | none => m
  | some (.add k v) => Function.update m k (some v)
  | some (.del k) => Function.update m k none

theorem update_eq_some {m : κ → Option ν} : update m (event o) k = some v ↔
    event o = some (.add k v) ∨ concerns event k o = false ∧ m k = some v := by
  cases hevent : event o with
  | none => simp [update, concerns_none hevent]
  | some e =>
      rw [concerns_some hevent, decide_eq_false_iff_not]
      cases e with
      | add key w =>
          by_cases hkey : k = key
          · simp [update, hkey]
          · simp [update, hkey, Ne.symm hkey]
      | del key =>
          by_cases hkey : k = key
          · simp [update, hkey]
          · simp [update, hkey, Ne.symm hkey]

theorem exists_stands_cons : (∃ i, Stands event (o :: os) i k v) ↔
    event o = some (.add k v) ∧ os.any (concerns event k) = false ∨ ∃ i, Stands event os i k v := by
  constructor
  · rintro ⟨i, hi⟩
    cases i with
    | zero => exact .inl (stands_zero.mp hi)
    | succ i => exact .inr ⟨i, stands_succ.mp hi⟩
  · rintro (hhead | ⟨i, hi⟩)
    · exact ⟨0, stands_zero.mpr hhead⟩
    · exact ⟨i + 1, stands_succ.mpr hi⟩

/-- Under a key there is what stands, or what was there before operations that do not concern it. -/
theorem foldl_update_eq_some {m : κ → Option ν} :
    os.foldl (fun m o => update m (event o)) m k = some v ↔
      (∃ i, Stands event os i k v) ∨ os.any (concerns event k) = false ∧ m k = some v := by
  induction os generalizing m with
  | nil => simp [not_stands_nil]
  | cons o os ih =>
      rw [List.foldl_cons, ih, update_eq_some, exists_stands_cons, List.any_cons, Bool.or_eq_false_iff]
      tauto

/-- Operations that do not count may be left out. -/
theorem foldl_update_filter {p : ω → Bool} (h : ∀ o, p o = false → event o = none) (m : κ → Option ν)
    (os : List ω) : (os.filter p).foldl (fun m o => update m (event o)) m =
      os.foldl (fun m o => update m (event o)) m := by
  rw [List.foldl_filter]
  refine List.foldl_ext _ _ m fun m o _ => ?_
  cases hp : p o
  · rw [h o hp]
    rfl
  · rfl

end Registration

end HCServer.Lib
