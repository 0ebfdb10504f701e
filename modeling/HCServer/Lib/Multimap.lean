import Mathlib

/-! Ordered multimaps as sorted lists of pairs: an insertion goes behind the pairs with the same key, so that
the range of a key has its values in the order in which they came. -/
namespace HCServer.Lib.Multimap
variable {κ ν : Type*} [LinearOrder κ]

def insert (m : List (κ × ν)) (e : κ × ν) : List (κ × ν) :=
  (m.takeWhile fun x => decide (x.1 ≤ e.1)) ++ e :: m.dropWhile fun x => decide (x.1 ≤ e.1)

def equalRange (m : List (κ × ν)) (k : κ) : List ν :=
  ((m.dropWhile fun x => decide (x.1 < k)).takeWhile fun x => decide (x.1 ≤ k)).map Prod.snd

def Sorted (m : List (κ × ν)) : Prop := m.Pairwise fun x y => x.1 ≤ y.1

variable {m : List (κ × ν)} {e : κ × ν} {k : κ}

theorem of_mem_dropWhile (h : Sorted m) {x : κ × ν} (hx : x ∈ m.dropWhile fun x => decide (x.1 ≤ e.1)) :
    e.1 < x.1 := by
  induction m with
  | nil => cases hx
  | cons y m ih =>
      obtain ⟨hy, hm⟩ := List.pairwise_cons.mp h
      rw [List.dropWhile_cons] at hx
      split at hx
      case isTrue => exact ih hm hx
      case isFalse hle =>
        have hlt : e.1 < y.1 := not_le.mp fun hle' => hle (decide_eq_true hle')
        rcases List.mem_cons.mp hx with rfl | hmem
        · exact hlt
        · exact hlt.trans_le (hy x hmem)

theorem Sorted.insert (h : Sorted m) (e : κ × ν) : Sorted (Multimap.insert m e) := by
  have htake : ∀ x ∈ m.takeWhile fun x => decide (x.1 ≤ e.1), x.1 ≤ e.1 := by
    intro x hx
    have hle := List.mem_takeWhile_imp hx
    exact of_decide_eq_true hle
  rw [Sorted, Multimap.insert, List.pairwise_append, List.pairwise_cons]
  refine ⟨h.sublist (List.takeWhile_sublist _), ⟨?_, h.sublist (List.dropWhile_sublist _)⟩, ?_⟩
  · intro x hx
    exact (of_mem_dropWhile h hx).le
  · intro x hx y hy
    rcases List.mem_cons.mp hy with rfl | hmem
    · exact htake x hx
    · exact (htake x hx).trans (of_mem_dropWhile h hmem).le

/-- The new pair is the last one of its key. -/
theorem filter_insert (h : Sorted m) (e : κ × ν) (k : κ) :
    ((insert m e).filter fun x => decide (x.1 = k)) =
      (m ++ [e]).filter fun x => decide (x.1 = k) := by
  have hsplit : m ++ [e] = (m.takeWhile fun x => decide (x.1 ≤ e.1)) ++
      (m.dropWhile fun x => decide (x.1 ≤ e.1)) ++ [e] := by
    rw [List.takeWhile_append_dropWhile]
  rw [hsplit, insert, List.filter_append, List.filter_cons, List.append_assoc, List.filter_append,
    List.filter_append, List.filter_cons]
  by_cases hk : e.1 = k
  · have hnone : ((m.dropWhile fun x => decide (x.1 ≤ e.1)).filter fun x => decide (x.1 = k)) = [] := by
      rw [List.filter_eq_nil_iff]
      intro x hx heq
      have hlt := of_mem_dropWhile h hx
      rw [of_decide_eq_true heq, hk] at hlt
      exact lt_irrefl k hlt
    rw [hnone]
    rfl
  · rw [decide_eq_false hk]
    simp

theorem Sorted.equalRange (h : Sorted m) (k : κ) :
    Multimap.equalRange m k = (m.filter fun x => decide (x.1 = k)).map Prod.snd := by
  unfold Multimap.equalRange
  congr 1
  induction m with
  | nil => rfl
  | cons x m ih =>
      obtain ⟨hx, hm⟩ := List.pairwise_cons.mp h
      have hrest := ih hm
      obtain hlt | heq | hgt := lt_trichotomy x.1 k
      · rw [List.dropWhile_cons, if_pos (decide_eq_true hlt), List.filter_cons,
          decide_eq_false hlt.ne, hrest]
        rfl
      · have hstay : (m.dropWhile fun x => decide (x.1 < k)) = m := by
          rw [List.dropWhile_eq_self_iff]
          intro hlen hlt
          have hle := hx _ (List.getElem_mem hlen)
          rw [heq] at hle
          exact not_lt_of_ge hle (of_decide_eq_true hlt)
        rw [hstay] at hrest
        rw [List.dropWhile_cons, if_neg (by simp [heq]), List.takeWhile_cons, List.filter_cons,
          decide_eq_true heq, decide_eq_true heq.le, hrest]
        rfl
      · have hnone : ((x :: m).filter fun y => decide (y.1 = k)) = [] := by
          rw [List.filter_eq_nil_iff]
          intro y hy heq
          have heq := of_decide_eq_true heq
          rcases List.mem_cons.mp hy with rfl | hmem
          · exact hgt.ne' heq
          · exact (hgt.trans_le (hx y hmem)).ne' heq
        rw [hnone, List.dropWhile_cons, if_neg (by simp [hgt.le]), List.takeWhile_cons,
          decide_eq_false (not_le.mpr hgt)]
        rfl

/-- The range of a key: its values, in the order of their insertion. -/
theorem equalRange_foldl (items : List (κ × ν)) (k : κ) :
    equalRange (items.foldl insert []) k = (items.filter fun x => decide (x.1 = k)).map Prod.snd := by
  have hrun : ∀ m : List (κ × ν), Sorted m → Sorted (items.foldl insert m) ∧
      ((items.foldl insert m).filter fun x => decide (x.1 = k)) =
        (m ++ items).filter fun x => decide (x.1 = k) := by
    induction items with
    | nil => exact fun m h => ⟨h, by rw [List.append_nil]; rfl⟩
    | cons e items ih =>
        intro m h
        obtain ⟨hsorted, hfilter⟩ := ih (insert m e) (h.insert e)
        refine ⟨hsorted, hfilter.trans ?_⟩
        rw [List.filter_append, filter_insert h, ← List.filter_append, List.append_assoc]
        rfl
  obtain ⟨hsorted, hfilter⟩ := hrun [] List.Pairwise.nil
  rw [hsorted.equalRange, hfilter, List.nil_append]

theorem foldl_insert_ne_nil (items : List (κ × ν)) (h : m ≠ []) : items.foldl insert m ≠ [] := by
  induction items generalizing m with
  | nil => exact h
  | cons e items ih => exact ih (by simp [insert])

theorem foldl_insert_eq_nil {items : List (κ × ν)} : items.foldl insert [] = [] ↔ items = [] := by
  cases items with
  | nil => exact iff_of_true rfl rfl
  | cons e items =>
      exact iff_of_false (foldl_insert_ne_nil items (m := insert [] e) (by simp [insert]))
        (List.cons_ne_nil e items)

end HCServer.Lib.Multimap
