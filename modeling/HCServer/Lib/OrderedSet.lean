import Mathlib.Data.List.Basic
import Mathlib.Data.List.Nodup
import Mathlib.Data.List.TakeWhile
import Mathlib.Tactic.ByContra

/-! Ordered sets as lists in the order of their comparator, as `std::set` presents them. The order
may change between two operations, as long as it stays the same on the members. -/
namespace HCServer.Lib.OrderedSet
variable {α : Type*} (before : α → α → Prop) [DecidableRel before]

def lowerBound (x : α) (l : List α) : List α := l.dropWhile fun y => decide (before y x)

/-- The members that lie before `lowerBound`. -/
def below (x : α) (l : List α) : List α := l.takeWhile fun y => decide (before y x)

/-- The member that is equivalent to `x`. -/
def find (x : α) (l : List α) : Option α :=
  match lowerBound before x l with
  | [] => none
  | y :: _ => if before x y then none else some y

def insert (x : α) (l : List α) : List α :=
  match find before x l with
  | none => below before x l ++ x :: lowerBound before x l
  | some _ => l

/-- On `s` the comparator orders any two different elements one way. -/
structure Orders (s : α → Prop) : Prop where
  irrefl : ∀ x, s x → ¬ before x x
  trans : ∀ x y z, s x → s y → s z → before x y → before y z → before x z
  total : ∀ x y, s x → s y → x ≠ y → before x y ∨ before y x

variable {before} {s : α → Prop} {x y : α} {l : List α}

theorem below_append (x : α) (l : List α) : below before x l ++ lowerBound before x l = l :=
  List.takeWhile_append_dropWhile

theorem mem_below (hy : y ∈ below before x l) : before y x := by
  have hdecide := List.mem_takeWhile_imp hy
  exact of_decide_eq_true hdecide

theorem lowerBound_cons (h : before y x) (l : List α) :
    lowerBound before x (y :: l) = lowerBound before x l := by
  simp [lowerBound, h]

/-- From the first member that is not before `x` on, none is. -/
theorem not_before_of_mem_lowerBound (ho : Orders before s) (hl : l.Pairwise before)
    (hs : ∀ z ∈ l, s z) (hx : s x) (hy : y ∈ lowerBound before x l) : ¬ before y x := by
  induction l with
  | nil => cases hy
  | cons z l ih =>
      obtain ⟨hz, hl'⟩ := List.pairwise_cons.mp hl
      have hs' : ∀ w ∈ l, s w := fun w hw => hs w (List.mem_cons_of_mem z hw)
      by_cases hzx : before z x
      · rw [lowerBound_cons hzx] at hy
        exact ih hl' hs' hy
      · have hall : lowerBound before x (z :: l) = z :: l := by simp [lowerBound, hzx]
        rw [hall] at hy
        rcases List.mem_cons.mp hy with rfl | hy
        · exact hzx
        · intro hyx
          exact hzx (ho.trans z y x (hs z List.mem_cons_self) (hs' y hy) hx (hz y hy) hyx)

/-- A member is found, and nothing else stands for it. -/
theorem find_of_mem (ho : Orders before s) (hl : l.Pairwise before) (hs : ∀ z ∈ l, s z)
    (hx : x ∈ l) : find before x l = some x := by
  induction l with
  | nil => cases hx
  | cons z l ih =>
      obtain ⟨hz, hl'⟩ := List.pairwise_cons.mp hl
      by_cases same : x = z
      · subst same
        have hself := ho.irrefl x (hs x List.mem_cons_self)
        simp [find, lowerBound, hself]
      · have hmem : x ∈ l := (List.mem_cons.mp hx).resolve_left same
        have hrest := ih hl' (fun w hw => hs w (List.mem_cons_of_mem z hw)) hmem
        rw [find, lowerBound_cons (hz x hmem)]
        exact hrest

theorem find_of_not_mem (ho : Orders before s) (hl : l.Pairwise before) (hs : ∀ z ∈ l, s z)
    (hx : s x) (hmem : x ∉ l) : find before x l = none := by
  rw [find]
  cases hlow : lowerBound before x l with
  | nil => rfl
  | cons y rest =>
      have hin : y ∈ lowerBound before x l := by
        rw [hlow]
        exact List.mem_cons_self
      have hy : y ∈ l := List.dropWhile_subset _ hin
      have hne : x ≠ y := by
        rintro rfl
        exact hmem hy
      have hnot := not_before_of_mem_lowerBound ho hl hs hx hin
      exact if_pos ((ho.total x y hx (hs y hy) hne).resolve_right hnot)

theorem insert_perm (ho : Orders before s) (hl : l.Pairwise before) (hs : ∀ z ∈ l, s z)
    (hx : s x) (hmem : x ∉ l) : (insert before x l).Perm (x :: l) := by
  rw [insert, find_of_not_mem ho hl hs hx hmem]
  have hback : (below before x l ++ x :: lowerBound before x l).Perm
      (x :: (below before x l ++ lowerBound before x l)) := List.perm_middle
  rwa [below_append] at hback

theorem mem_insert (ho : Orders before s) (hl : l.Pairwise before) (hs : ∀ z ∈ l, s z)
    (hx : s x) (hmem : x ∉ l) : y ∈ insert before x l ↔ y = x ∨ y ∈ l := by
  rw [(insert_perm ho hl hs hx hmem).mem_iff, List.mem_cons]

theorem pairwise_insert (ho : Orders before s) (hl : l.Pairwise before) (hs : ∀ z ∈ l, s z)
    (hx : s x) (hmem : x ∉ l) : (insert before x l).Pairwise before := by
  have hparts : (below before x l ++ lowerBound before x l).Pairwise before := by
    rw [below_append]
    exact hl
  rw [List.pairwise_append] at hparts
  obtain ⟨hbelow, hlow, hcross⟩ := hparts
  have hfirst : ∀ y ∈ lowerBound before x l, before x y := by
    intro y hy
    have hin : y ∈ l := List.dropWhile_subset _ hy
    have hne : x ≠ y := by
      rintro rfl
      exact hmem hin
    exact (ho.total x y hx (hs y hin) hne).resolve_right
      (not_before_of_mem_lowerBound ho hl hs hx hy)
  rw [insert, find_of_not_mem ho hl hs hx hmem, List.pairwise_append]
  refine ⟨hbelow, List.pairwise_cons.mpr ⟨hfirst, hlow⟩, ?_⟩
  intro a ha b hb
  rcases List.mem_cons.mp hb with rfl | hb
  · exact mem_below ha
  · exact hcross a ha b hb

/-- Under a strict weak order, `find` gives the one member that is equivalent to `x`. -/
theorem find_eq_some_iff (htrans : ∀ x y z, before x y → before y z → before x z)
    (hweak : ∀ x y z, before x y → before x z ∨ before z y) (hl : l.Pairwise before) :
    find before x l = some y ↔ y ∈ l ∧ ¬ before x y ∧ ¬ before y x := by
  induction l with
  | nil => simp [find, lowerBound]
  | cons z l ih =>
      obtain ⟨hz, hl'⟩ := List.pairwise_cons.mp hl
      by_cases hzx : before z x
      · rw [find, lowerBound_cons hzx, ← find, ih hl', List.mem_cons]
        constructor
        · rintro ⟨hy, hsame⟩
          exact ⟨Or.inr hy, hsame⟩
        · rintro ⟨rfl | hy, hxy, hyx⟩
          · exact absurd hzx hyx
          · exact ⟨hy, hxy, hyx⟩
      · have hlow : lowerBound before x (z :: l) = z :: l := by simp [lowerBound, hzx]
        rw [find, hlow, List.mem_cons]
        change (if before x z then none else some z) = some y ↔ _
        split
        case isTrue hxz =>
          constructor
          · rintro ⟨⟩
          · rintro ⟨rfl | hy, hxy, -⟩
            · exact absurd hxz hxy
            · exact absurd (htrans x z y hxz (hz y hy)) hxy
        case isFalse hxz =>
          constructor
          · rintro ⟨rfl⟩
            exact ⟨Or.inl rfl, hxz, hzx⟩
          · rintro ⟨rfl | hy, hxy, -⟩
            · rfl
            · rcases hweak z y x (hz y hy) with h | h
              · exact absurd h hzx
              · exact absurd h hxy

theorem pairwise_insert_of_trans (htrans : ∀ x y z, before x y → before y z → before x z)
    (hl : l.Pairwise before) : (insert before x l).Pairwise before := by
  rw [insert]
  split
  case h_2 => exact hl
  case h_1 hfind =>
    have hparts : (below before x l ++ lowerBound before x l).Pairwise before := by
      rw [below_append]
      exact hl
    obtain ⟨hbelow, hlow, hcross⟩ := List.pairwise_append.mp hparts
    have hfirst : ∀ y ∈ lowerBound before x l, before x y := by
      rw [find] at hfind
      split at hfind
      case h_1 hnil =>
        intro y hy
        rw [hnil] at hy
        cases hy
      case h_2 z rest hcons =>
        have hxz : before x z := by
          by_contra hxz
          rw [if_neg hxz] at hfind
          cases hfind
        rw [hcons] at hlow ⊢
        refine List.forall_mem_cons.mpr ⟨hxz, ?_⟩
        exact fun y hy => htrans x z y hxz ((List.pairwise_cons.mp hlow).1 y hy)
    refine List.pairwise_append.mpr ⟨hbelow, List.pairwise_cons.mpr ⟨hfirst, hlow⟩, ?_⟩
    intro a ha
    exact List.forall_mem_cons.mpr ⟨mem_below ha, hcross a ha⟩

/-- What comes after all members goes in at the end. -/
theorem insert_last (h : ∀ y ∈ l, before y x) : insert before x l = l ++ [x] := by
  have hlow : lowerBound before x l = [] := by
    rw [lowerBound, List.dropWhile_eq_nil_iff]
    exact fun y hy => decide_eq_true (h y hy)
  have hbelow : below before x l = l := by
    have happend : below before x l ++ lowerBound before x l = l := below_append x l
    rwa [hlow, List.append_nil] at happend
  rw [insert, find, hlow, hbelow]

/-- Elements that come in ascending order. -/
theorem foldl_insert {xs : List α} (h : (l ++ xs).Pairwise before) :
    xs.foldl (fun l x => insert before x l) l = l ++ xs := by
  induction xs generalizing l with
  | nil => rw [List.foldl_nil, List.append_nil]
  | cons x xs ih =>
      have hlast : ∀ y ∈ l, before y x := fun y hy =>
        (List.pairwise_append.mp h).2.2 y hy x List.mem_cons_self
      have hrest : (l ++ [x] ++ xs).Pairwise before := by
        rwa [List.append_assoc, List.singleton_append]
      rw [List.foldl_cons, insert_last hlast, ih hrest, List.append_assoc, List.singleton_append]

/-- An element that goes in anywhere but in front leaves a member at the front that is before it. -/
theorem head_of_insert (h : below before x l ≠ []) : ∃ y ∈ l, before y x := by
  cases hbelow : below before x l with
  | nil => exact absurd hbelow h
  | cons y ys =>
      have hy : y ∈ below before x l := by
        rw [hbelow]
        exact List.mem_cons_self
      exact ⟨y, List.takeWhile_subset _ hy, mem_below hy⟩

end HCServer.Lib.OrderedSet
