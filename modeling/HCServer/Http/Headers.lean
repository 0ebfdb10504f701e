import HCServer.Http.RoundTrip

/-! Lookups in the header map, which compares names without their case and keeps the spelling that
came first. -/
namespace HCServer.Http

theorem strcasecmpEq_congr {a b : Bytes} (h : strcasecmpEq a b = true) (c : Bytes) :
    strcasecmpEq a c = strcasecmpEq b c := by
  unfold strcasecmpEq at h ⊢
  rw [beq_iff_eq.mp h]

namespace MapType
variable {m : MapType} {k : Bytes}

theorem find_cons (i : Bytes × Bytes) (m : MapType) (k : Bytes) :
    find (i :: m) k = if strcasecmpEq i.1 k then some i.2 else find m k := by
  rw [find, List.find?_cons]
  cases strcasecmpEq i.1 k
  · rfl
  · rfl

theorem find_append (m m' : MapType) (k : Bytes) : find (m ++ m') k = (find m k).or (find m' k) := by
  rw [find, List.find?_append, Option.map_or]
  rfl

theorem find_of_none (h : ∀ e ∈ m, strcasecmpEq e.1 k = false) : find m k = none := by
  have hnone : List.find? (fun e => strcasecmpEq e.1 k) m = none :=
    List.find?_eq_none.mpr fun e he => by simp [h e he]
  rw [find, hnone]
  rfl

/-- With the value of one key replaced, other keys find what they found. -/
theorem find_replace (m : MapType) (key val k : Bytes) :
    find (m.map fun e => if strcasecmpEq e.1 key then (e.1, val) else e) k =
      if strcasecmpEq key k then (find m k).map fun _ => val else find m k := by
  induction m with
  | nil =>
      rw [List.map_nil]
      split
      · rfl
      · rfl
  | cons e m ih =>
      rw [List.map_cons, find_cons, find_cons, ih]
      cases hkey : strcasecmpEq e.1 key
      · cases hsame : strcasecmpEq key k
        · simp
        · have hother : strcasecmpEq e.1 k = false := by
            rw [strcasecmpEq_comm, ← strcasecmpEq_congr hsame, strcasecmpEq_comm, hkey]
          simp [hother]
      · rw [strcasecmpEq_congr hkey k]
        cases hsame : strcasecmpEq key k
        · simp [strcasecmpEq_congr hkey k, hsame]
        · simp [strcasecmpEq_congr hkey k, hsame]

/-- A key finds the last value that it was given, in any spelling. -/
theorem find_assign (m : MapType) (key val k : Bytes) :
    find (m.assign key val) k = if strcasecmpEq key k then some val else find m k := by
  unfold assign
  split
  · case isTrue hany =>
      rw [find_replace]
      split
      · case isTrue hkey =>
          obtain ⟨e, he, hsame⟩ := List.any_eq_true.mp hany
          have hfound : (find m k).isSome = true := by
            rw [find, Option.isSome_map, List.find?_isSome]
            exact ⟨e, he, (strcasecmpEq_congr hsame k).trans hkey⟩
          obtain ⟨v, hv⟩ := Option.isSome_iff_exists.mp hfound
          rw [hv]
          rfl
      · rfl
  · case isFalse hnone =>
      rw [find_append, find_cons]
      split
      · case isTrue hkey =>
          have hmissing : find m k = none := by
            apply find_of_none
            intro e he
            rw [← Bool.not_eq_true]
            intro hek
            apply hnone
            refine List.any_eq_true.mpr ⟨e, he, ?_⟩
            rw [strcasecmpEq_comm, strcasecmpEq_congr hkey, strcasecmpEq_comm, hek]
          rw [hmissing]
          rfl
      · exact Option.or_none

/-- Of several fields of one name the last one stays. -/
theorem find_foldl_assign (is m : MapType) (k : Bytes) :
    find (is.foldl (fun m i => m.assign i.1 i.2) m) k = (find is.reverse k).or (find m k) := by
  induction is generalizing m with
  | nil => rfl
  | cons i is ih =>
      rw [List.foldl_cons, ih, find_assign, List.reverse_cons, find_append, find_cons]
      cases strcasecmpEq i.1 k
      · simp [find]
      · cases find is.reverse k
        · rfl
        · rfl

/-- Where no name comes twice, the order of the fields does not matter. -/
theorem find_eq_some_iff (h : m.Pairwise Apart) {v : Bytes} :
    find m k = some v ↔ ∃ i ∈ m, strcasecmpEq i.1 k = true ∧ i.2 = v := by
  induction m with
  | nil => simp [find]
  | cons e m ih =>
      obtain ⟨hfirst, hrest⟩ := List.pairwise_cons.mp h
      rw [find_cons]
      split
      · case isTrue hkey =>
          constructor
          · intro hv
            exact ⟨e, List.mem_cons_self, hkey, Option.some.inj hv⟩
          · intro hmem
            obtain ⟨i, hi, hsame, rfl⟩ := hmem
            obtain rfl | hi := List.mem_cons.mp hi
            · rfl
            · have happart : strcasecmpEq e.1 i.1 = false := hfirst i hi
              rw [strcasecmpEq_congr hkey, strcasecmpEq_comm, hsame] at happart
              cases happart
      · case isFalse hkey =>
          rw [ih hrest]
          constructor
          · intro hmem
            obtain ⟨i, hi, hfound⟩ := hmem
            exact ⟨i, List.mem_cons_of_mem e hi, hfound⟩
          · intro hmem
            obtain ⟨i, hi, hsame, hv⟩ := hmem
            obtain rfl | hi := List.mem_cons.mp hi
            · exact absurd hsame hkey
            · exact ⟨i, hi, hsame, hv⟩

end MapType
end HCServer.Http
