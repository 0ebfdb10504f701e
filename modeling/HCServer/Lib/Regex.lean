import Mathlib.Computability.Language

/-! Regular expressions over classes of symbols, their languages, and the automaton of their
positions: each leaf is a state, and reading a symbol of its class leads to the leaves that may
come next. -/
namespace HCServer.Lib
open Computability

inductive Regex (C : Type*)
  | one
  | sym (c : C)
  | alt (a b : Regex C)
  | cat (a b : Regex C)
  | star (a : Regex C)
  deriving DecidableEq, Repr

namespace Regex
variable {C X : Type*}

def opt (a : Regex C) : Regex C := alt one a

def plus (a : Regex C) : Regex C := cat a (star a)

/-- Exactly `n` times. -/
def rep (a : Regex C) : Nat → Regex C
  | 0 => one
  | n + 1 => cat a (a.rep n)

/-- At most `n` times. -/
def upTo (a : Regex C) : Nat → Regex C
  | 0 => one
  | n + 1 => alt one (cat a (a.upTo n))

/-- One after the other. -/
def seq : List (Regex C) → Regex C
  | [] => one
  | [a] => a
  | a :: as => cat a (seq as)

/-- One of `a` and `as`. -/
def any (a : Regex C) : List (Regex C) → Regex C
  | [] => a
  | b :: bs => alt a (any b bs)

section Language
variable (mem : C → X → Bool)

def lang : Regex C → Language X
  | one => 1
  | sym c => {w | ∃ x, mem c x = true ∧ w = [x]}
  | alt a b => a.lang + b.lang
  | cat a b => a.lang * b.lang
  | star a => a.lang∗

theorem lang_alt (a b : Regex C) : (alt a b).lang mem = a.lang mem + b.lang mem := rfl

theorem lang_cat (a b : Regex C) : (cat a b).lang mem = a.lang mem * b.lang mem := rfl

theorem mem_lang_sym {c : C} {w : List X} :
    w ∈ (sym c).lang mem ↔ ∃ x, mem c x = true ∧ w = [x] := Iff.rfl

theorem lang_sym_append {D : Type*} {mem : List D → X → Bool} {c d : List D}
    (hmem : ∀ x, mem (c ++ d) x = (mem c x || mem d x)) :
    (sym (c ++ d)).lang mem = (sym c).lang mem + (sym d).lang mem := by
  ext w
  rw [Language.mem_add, mem_lang_sym, mem_lang_sym, mem_lang_sym]
  simp only [hmem, Bool.or_eq_true, or_and_right, exists_or]

theorem lang_upTo_succ (a : Regex C) (n : Nat) :
    (a.upTo (n + 1)).lang mem = (a.upTo n).lang mem + (a.rep (n + 1)).lang mem := by
  induction n with
  | zero => rfl
  | succ n ih =>
      calc (a.upTo (n + 2)).lang mem = 1 + a.lang mem * (a.upTo (n + 1)).lang mem := rfl
        _ = 1 + (a.lang mem * (a.upTo n).lang mem + a.lang mem * (a.rep (n + 1)).lang mem) := by
            rw [ih, mul_add]
        _ = (a.upTo (n + 1)).lang mem + (a.rep (n + 2)).lang mem := by
            rw [← add_assoc]
            rfl

theorem mem_star_of_forall {a : Regex C} {w : List X} (h : ∀ x ∈ w, [x] ∈ a.lang mem) :
    w ∈ (star a).lang mem := by
  refine Language.mem_kstar.mpr ⟨w.map fun x => [x], ?_, ?_⟩
  · rw [← List.flatMap_def, List.flatMap_singleton']
  · intro u hu
    obtain ⟨x, hx, rfl⟩ := List.mem_map.mp hu
    exact h x hx

end Language

def nullable : Regex C → Bool
  | one => true
  | sym _ => false
  | alt a b => a.nullable || b.nullable
  | cat a b => a.nullable && b.nullable
  | star _ => true

theorem nullable_iff (mem : C → X → Bool) (r : Regex C) :
    r.nullable = true ↔ [] ∈ r.lang mem := by
  induction r with
  | one => exact iff_of_true rfl Language.nil_mem_one
  | sym c => simp [nullable, mem_lang_sym]
  | alt a b iha ihb =>
      simp only [nullable, lang, Bool.or_eq_true, Language.mem_add]
      rw [iha, ihb]
  | cat a b iha ihb =>
      simp only [nullable, lang, Bool.and_eq_true, Language.mem_mul, List.append_eq_nil_iff]
      rw [iha, ihb]
      constructor
      · rintro ⟨ha, hb⟩
        exact ⟨[], ha, [], hb, rfl, rfl⟩
      · rintro ⟨u, hu, v, hv, rfl, rfl⟩
        exact ⟨hu, hv⟩
  | star a _ => exact iff_of_true rfl (Language.nil_mem_kstar _)

/-- Words of classes that contain `x` in every word, and classes that never contain it. -/
def needs (p : C → Bool) : Regex C → Bool
  | one => false
  | sym c => p c
  | alt a b => a.needs p && b.needs p
  | cat a b => a.needs p || b.needs p
  | star _ => false

def every (p : C → Bool) : Regex C → Bool
  | one => true
  | sym c => p c
  | alt a b => a.every p && b.every p
  | cat a b => a.every p && b.every p
  | star a => a.every p

theorem exists_of_needs {mem : C → X → Bool} {p : C → Bool} {P : X → Prop}
    (hp : ∀ c x, p c = true → mem c x = true → P x) {r : Regex C} (hr : r.needs p = true)
    {w : List X} (hw : w ∈ r.lang mem) : ∃ x ∈ w, P x := by
  induction r generalizing w with
  | one => cases hr
  | sym c =>
      obtain ⟨x, hx, rfl⟩ := hw
      exact ⟨x, List.mem_singleton_self x, hp c x hr hx⟩
  | alt a b iha ihb =>
      obtain ⟨ha, hb⟩ := Bool.and_eq_true_iff.mp hr
      rcases (Language.mem_add _ _ _).mp hw with hw | hw
      · exact iha ha hw
      · exact ihb hb hw
  | cat a b iha ihb =>
      obtain ⟨u, hu, v, hv, rfl⟩ := Language.mem_mul.mp hw
      rcases Bool.or_eq_true_iff.mp hr with ha | hb
      · obtain ⟨x, hx, hP⟩ := iha ha hu
        exact ⟨x, List.mem_append_left v hx, hP⟩
      · obtain ⟨x, hx, hP⟩ := ihb hb hv
        exact ⟨x, List.mem_append_right u hx, hP⟩
  | star a _ => cases hr

theorem forall_of_every {mem : C → X → Bool} {p : C → Bool} {P : X → Prop}
    (hp : ∀ c x, p c = true → mem c x = true → P x) {r : Regex C} (hr : r.every p = true)
    {w : List X} (hw : w ∈ r.lang mem) : ∀ x ∈ w, P x := by
  induction r generalizing w with
  | one =>
      cases hw
      intro x hx
      cases hx
  | sym c =>
      obtain ⟨x, hx, rfl⟩ := hw
      intro y hy
      rw [List.mem_singleton.mp hy]
      exact hp c x hr hx
  | alt a b iha ihb =>
      obtain ⟨ha, hb⟩ := Bool.and_eq_true_iff.mp hr
      rcases (Language.mem_add _ _ _).mp hw with hw | hw
      · exact iha ha hw
      · exact ihb hb hw
  | cat a b iha ihb =>
      obtain ⟨ha, hb⟩ := Bool.and_eq_true_iff.mp hr
      obtain ⟨u, hu, v, hv, rfl⟩ := Language.mem_mul.mp hw
      intro x hx
      rcases List.mem_append.mp hx with hx | hx
      · exact iha ha hu x hx
      · exact ihb hb hv x hx
  | star a ih =>
      obtain ⟨ws, rfl, hws⟩ := Language.mem_kstar.mp hw
      intro x hx
      obtain ⟨u, hu, hxu⟩ := List.mem_flatten.mp hx
      exact ih hr (hws u hu) x hxu

/-! ### Positions -/

def size : Regex C → Nat
  | one => 0
  | sym _ => 1
  | alt a b => a.size + b.size
  | cat a b => a.size + b.size
  | star a => a.size

/-- The leaves that a nonempty word may start with, where the leaves are numbered from `o`. -/
def first : Regex C → Nat → List Nat
  | one, _ => []
  | sym _, o => [o]
  | alt a b, o => a.first o ++ b.first (o + a.size)
  | cat a b, o => a.first o ++ if a.nullable then b.first (o + a.size) else []
  | star a, o => a.first o

/-- Each leaf with its class and what follows it, where `after` follows the expression. -/
def links : Regex C → Nat → List Nat → List (C × List Nat)
  | one, _, _ => []
  | sym c, _, after => [(c, after)]
  | alt a b, o, after => a.links o after ++ b.links (o + a.size) after
  | cat a b, o, after =>
    a.links o (b.first (o + a.size) ++ if b.nullable then after else []) ++
      b.links (o + a.size) after
  | star a, o, after => a.links o (a.first o ++ after)

def start (r : Regex C) : List Nat := r.first 0 ++ if r.nullable then [r.size] else []

theorem length_links (r : Regex C) (o : Nat) (after : List Nat) :
    (r.links o after).length = r.size := by
  induction r generalizing o after with
  | one => rfl
  | sym c => rfl
  | alt a b iha ihb => simp only [links, size, List.length_append, iha, ihb]
  | cat a b iha ihb => simp only [links, size, List.length_append, iha, ihb]
  | star a ih => exact ih o _

section Positions
variable (mem : C → X → Bool) (at? : Nat → Option (C × List Nat)) (stop : Nat)

/-- The words that a position reads on the way to `stop`. -/
def Reads : Nat → List X → Prop
  | i, [] => i = stop
  | i, x :: w =>
    ∃ c after, at? i = some (c, after) ∧ mem c x = true ∧ ∃ j ∈ after, Reads j w

def ReadsAny (is : List Nat) (w : List X) : Prop := ∃ i ∈ is, Reads mem at? stop i w

variable {mem at? stop}

theorem readsAny_append {is js : List Nat} {w : List X} :
    ReadsAny mem at? stop (is ++ js) w ↔
      ReadsAny mem at? stop is w ∨ ReadsAny mem at? stop js w := by
  simp only [ReadsAny, List.mem_append, or_and_right, exists_or]

theorem readsAny_ite {p : Prop} [Decidable p] {is : List Nat} {w : List X} :
    ReadsAny mem at? stop (if p then is else []) w ↔ p ∧ ReadsAny mem at? stop is w := by
  by_cases h : p
  · simp [h]
  · simp [h, ReadsAny]

/-- The leaves of `r` stand at `o`. -/
def Placed (at? : Nat → Option (C × List Nat)) (r : Regex C) (o : Nat) (after : List Nat) : Prop :=
  ∀ i, i < r.size → at? (o + i) = (r.links o after)[i]?

theorem Placed.left {r a b : Regex C} {o : Nat} {after after' : List Nat}
    (h : Placed at? r o after) (hsize : r.size = a.size + b.size)
    (hlinks : r.links o after = a.links o after' ++ b.links (o + a.size) after) :
    Placed at? a o after' := by
  intro i hi
  rw [h i (by omega), hlinks, List.getElem?_append_left (by rw [length_links]; exact hi)]

theorem Placed.right {r a b : Regex C} {o : Nat} {after after' : List Nat}
    (h : Placed at? r o after) (hsize : r.size = a.size + b.size)
    (hlinks : r.links o after = a.links o after' ++ b.links (o + a.size) after) :
    Placed at? b (o + a.size) after := by
  intro i hi
  rw [Nat.add_assoc, h (a.size + i) (by omega), hlinks,
    List.getElem?_append_right (by rw [length_links]; exact Nat.le_add_right _ _), length_links,
    Nat.add_sub_cancel_left]

/-- A nonempty word of `r`, and then what follows `r`. -/
def Opens (mem : C → X → Bool) (at? : Nat → Option (C × List Nat)) (stop : Nat) (r : Regex C)
    (after : List Nat) (w : List X) : Prop :=
  ∃ u v, u ++ v = w ∧ u ≠ [] ∧ u ∈ r.lang mem ∧ ReadsAny mem at? stop after v

theorem opens_sym {c : C} {o : Nat} {after : List Nat} (h : at? o = some (c, after))
    (ho : o ≠ stop) (w : List X) :
    ReadsAny mem at? stop [o] w ↔ Opens mem at? stop (sym c) after w := by
  simp only [ReadsAny, List.mem_singleton, exists_eq_left]
  constructor
  · intro hread
    cases w with
    | nil => exact absurd hread ho
    | cons x w =>
        obtain ⟨c', after', hat, hx, hrest⟩ := hread
        rw [h] at hat
        cases hat
        exact ⟨[x], w, rfl, List.cons_ne_nil x [], ⟨x, hx, rfl⟩, hrest⟩
  · rintro ⟨u, v, rfl, _, ⟨x, hx, rfl⟩, hv⟩
    exact ⟨c, after, h, hx, hv⟩

theorem opens_alt {a b : Regex C} {after : List Nat} (w : List X) :
    Opens mem at? stop (alt a b) after w ↔
      Opens mem at? stop a after w ∨ Opens mem at? stop b after w := by
  constructor
  · rintro ⟨u, v, rfl, hne, hu | hu, hv⟩
    · exact Or.inl ⟨u, v, rfl, hne, hu, hv⟩
    · exact Or.inr ⟨u, v, rfl, hne, hu, hv⟩
  · rintro (⟨u, v, rfl, hne, hu, hv⟩ | ⟨u, v, rfl, hne, hu, hv⟩)
    · exact ⟨u, v, rfl, hne, Or.inl hu, hv⟩
    · exact ⟨u, v, rfl, hne, Or.inr hu, hv⟩

theorem opens_cat {a b : Regex C} {after after' : List Nat}
    (hafter : ∀ w, ReadsAny mem at? stop after' w ↔
      Opens mem at? stop b after w ∨ b.nullable = true ∧ ReadsAny mem at? stop after w)
    (w : List X) :
    Opens mem at? stop (cat a b) after w ↔
      Opens mem at? stop a after' w ∨ a.nullable = true ∧ Opens mem at? stop b after w := by
  constructor
  · rintro ⟨uv, t, rfl, hne, huv, ht⟩
    obtain ⟨u, hu, v, hv, rfl⟩ := Language.mem_mul.mp huv
    by_cases hunil : u = []
    · subst hunil
      exact Or.inr ⟨(nullable_iff mem a).mpr hu, v, t, rfl, hne, hv, ht⟩
    · refine Or.inl ⟨u, v ++ t, (List.append_assoc u v t).symm, hunil, hu, (hafter _).mpr ?_⟩
      by_cases hvnil : v = []
      · subst hvnil
        exact Or.inr ⟨(nullable_iff mem b).mpr hv, ht⟩
      · exact Or.inl ⟨v, t, rfl, hvnil, hv, ht⟩
  · rintro (⟨u, t, rfl, hne, hu, ht⟩ | ⟨ha, v, t, rfl, hne, hv, ht⟩)
    · rcases (hafter t).mp ht with ⟨v, t, rfl, _, hv, ht⟩ | ⟨hb, ht⟩
      · exact ⟨u ++ v, t, List.append_assoc u v t, by simp [hne],
          Language.append_mem_mul hu hv, ht⟩
      · refine ⟨u ++ [], t, by rw [List.append_nil], by simp [hne],
          Language.append_mem_mul hu ((nullable_iff mem b).mp hb), ht⟩
    · exact ⟨[] ++ v, t, rfl, hne, Language.append_mem_mul ((nullable_iff mem a).mp ha) hv, ht⟩

/-- A nonempty word of `a∗` starts with a nonempty word of `a`. -/
theorem exists_head_of_mem_kstar {l : Language X} {u : List X} (hu : u ∈ l∗) (hne : u ≠ []) :
    ∃ y z, y ++ z = u ∧ y ≠ [] ∧ y ∈ l ∧ z ∈ l∗ := by
  rw [Language.kstar_def_nonempty] at hu
  obtain ⟨ys, rfl, hys⟩ := hu
  cases ys with
  | nil => exact absurd rfl hne
  | cons y ys =>
      refine ⟨y, ys.flatten, rfl, (hys y List.mem_cons_self).2, (hys y List.mem_cons_self).1, ?_⟩
      exact Language.join_mem_kstar fun z hz => (hys z (List.mem_cons_of_mem y hz)).1

theorem append_mem_kstar {l : Language X} {y z : List X} (hy : y ∈ l) (hz : z ∈ l∗) :
    y ++ z ∈ l∗ := by
  rw [← Language.one_add_self_mul_kstar_eq_kstar]
  exact Or.inr (Language.append_mem_mul hy hz)

theorem opens_star {a : Regex C} {firsts after : List Nat}
    (ih : ∀ w, ReadsAny mem at? stop firsts w ↔ Opens mem at? stop a (firsts ++ after) w)
    (w : List X) : ReadsAny mem at? stop firsts w ↔ Opens mem at? stop (star a) after w := by
  generalize hn : w.length = n
  induction n using Nat.strong_induction_on generalizing w with
  | _ n shorter =>
    rw [ih]
    constructor
    · rintro ⟨y, t, rfl, hne, hy, ht⟩
      rcases readsAny_append.mp ht with ht | ht
      · have hlt : t.length < n := by
          have hpos := List.length_pos_of_ne_nil hne
          rw [List.length_append] at hn
          omega
        obtain ⟨z, v, rfl, _, hz, hv⟩ := (shorter t.length hlt t rfl).mp ht
        exact ⟨y ++ z, v, List.append_assoc y z v, by simp [hne], append_mem_kstar hy hz, hv⟩
      · refine ⟨y ++ [], t, by rw [List.append_nil], by simp [hne], ?_, ht⟩
        exact append_mem_kstar hy (Language.nil_mem_kstar _)
    · rintro ⟨u, v, rfl, hne, hu, hv⟩
      obtain ⟨y, z, rfl, hyne, hy, hz⟩ := exists_head_of_mem_kstar hu hne
      refine ⟨y, z ++ v, (List.append_assoc y z v).symm, hyne, hy, readsAny_append.mpr ?_⟩
      by_cases hznil : z = []
      · subst hznil
        exact Or.inr hv
      · have hlt : (z ++ v).length < n := by
          have hpos := List.length_pos_of_ne_nil hyne
          simp only [List.length_append] at hn ⊢
          omega
        exact Or.inl ((shorter _ hlt (z ++ v) rfl).mpr ⟨z, v, rfl, hznil, hz, hv⟩)

theorem readsAny_first {r : Regex C} {o : Nat} {after : List Nat} (h : Placed at? r o after)
    (hstop : o + r.size ≤ stop) (w : List X) :
    ReadsAny mem at? stop (r.first o) w ↔ Opens mem at? stop r after w := by
  induction r generalizing o after w with
  | one =>
      constructor
      · rintro ⟨i, hi, _⟩
        cases hi
      · rintro ⟨u, v, _, hne, hu, _⟩
        exact absurd ((Language.mem_one u).mp hu) hne
  | sym c =>
      apply opens_sym
      · exact h 0 Nat.one_pos
      · intro ho
        subst ho
        exact absurd hstop (Nat.not_succ_le_self o)
  | alt a b iha ihb =>
      simp only [size] at hstop
      rw [first, readsAny_append, opens_alt, iha (h.left rfl rfl) (by omega),
        ihb (h.right rfl rfl) (by omega)]
  | cat a b iha ihb =>
      simp only [size] at hstop
      have hb := ihb (h.right rfl rfl) (by omega)
      rw [first, readsAny_append, readsAny_ite, iha (h.left rfl rfl) (by omega), hb]
      refine (opens_cat (fun t => ?_) w).symm
      rw [readsAny_append, readsAny_ite, hb]
  | star a ih => exact opens_star (ih h hstop) w

/-- The positions of `r` read the words of `r`. -/
theorem readsAny_start {r : Regex C}
    (hat : ∀ i, i < r.size → at? i = (r.links 0 [r.size])[i]?) (hstop : at? r.size = none)
    (w : List X) : ReadsAny mem at? r.size r.start w ↔ w ∈ r.lang mem := by
  have hend : ∀ v, ReadsAny mem at? r.size [r.size] v ↔ v = [] := by
    intro v
    simp only [ReadsAny, List.mem_singleton, exists_eq_left]
    cases v with
    | nil => exact iff_of_true rfl rfl
    | cons x v => simp [Reads, hstop]
  have hplaced : Placed at? r 0 [r.size] := by
    intro i hi
    rw [Nat.zero_add]
    exact hat i hi
  rw [start, readsAny_append, readsAny_ite, readsAny_first hplaced (Nat.zero_add _).le, hend,
    nullable_iff mem]
  constructor
  · rintro (⟨u, v, rfl, _, hu, hv⟩ | ⟨hnil, rfl⟩)
    · rw [(hend v).mp hv, List.append_nil]
      exact hu
    · exact hnil
  · intro hw
    by_cases hnil : w = []
    · subst hnil
      exact Or.inr ⟨hw, rfl⟩
    · exact Or.inl ⟨w, [], List.append_nil w, hnil, hw, (hend []).mpr rfl⟩

end Positions
end Regex
end HCServer.Lib
