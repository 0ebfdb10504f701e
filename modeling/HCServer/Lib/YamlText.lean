import HCServer.Lib.Yaml
import Mathlib.Data.List.Nodup

/-! A text for each YAML document that no other one has: strings are quoted character by character, and
collections are closed by a bracket. -/
namespace HCServer.Lib.YAML

def quoted : List Char → List Char
  | [] => ['"']
  | c :: cs => '\\' :: c :: quoted cs

theorem quoted_inj {cs cs' rest rest' : List Char} (h : quoted cs ++ rest = quoted cs' ++ rest') :
    cs = cs' ∧ rest = rest' := by
  induction cs generalizing cs' with
  | nil =>
      cases cs' with
      | nil => exact ⟨rfl, (List.cons.inj h).2⟩
      | cons c' cs' => cases (List.cons.inj h).1
  | cons c cs ih =>
      cases cs' with
      | nil => cases (List.cons.inj h).1
      | cons c' cs' =>
          obtain ⟨hc, hrest⟩ := List.cons.inj (List.cons.inj h).2
          obtain ⟨hcs, hrest⟩ := ih hrest
          exact ⟨congrArg₂ List.cons hc hcs, hrest⟩

namespace Node

mutual

def spell : Node → List Char
  | .null => ['~']
  | .scalar text => '\\' :: quoted text.toList
  | .sequence items => '[' :: spellItems items
  | .map entries => '(' :: spellEntries entries

def spellItems : List Node → List Char
  | [] => [']']
  | n :: items => ',' :: (spell n ++ spellItems items)

def spellEntries : List (String × Node) → List Char
  | [] => [')']
  | (key, n) :: entries => ',' :: (quoted key.toList ++ (spell n ++ spellEntries entries))

end

mutual

theorem spell_inj (n n' : Node) {rest rest' : List Char} (h : n.spell ++ rest = n'.spell ++ rest') :
    n = n' ∧ rest = rest' := by
  cases n with
  | null =>
      cases n' with
      | null => exact ⟨rfl, (List.cons.inj h).2⟩
      | scalar text' => cases (List.cons.inj h).1
      | sequence items' => cases (List.cons.inj h).1
      | map entries' => cases (List.cons.inj h).1
  | scalar text =>
      cases n' with
      | null => cases (List.cons.inj h).1
      | scalar text' =>
          obtain ⟨htext, hrest⟩ := quoted_inj (List.cons.inj h).2
          exact ⟨congrArg scalar (String.toList_inj.mp htext), hrest⟩
      | sequence items' => cases (List.cons.inj h).1
      | map entries' => cases (List.cons.inj h).1
  | sequence items =>
      cases n' with
      | null => cases (List.cons.inj h).1
      | scalar text' => cases (List.cons.inj h).1
      | sequence items' =>
          obtain ⟨hitems, hrest⟩ := spellItems_inj items items' (List.cons.inj h).2
          exact ⟨congrArg sequence hitems, hrest⟩
      | map entries' => cases (List.cons.inj h).1
  | map entries =>
      cases n' with
      | null => cases (List.cons.inj h).1
      | scalar text' => cases (List.cons.inj h).1
      | sequence items' => cases (List.cons.inj h).1
      | map entries' =>
          obtain ⟨hentries, hrest⟩ := spellEntries_inj entries entries' (List.cons.inj h).2
          exact ⟨congrArg map hentries, hrest⟩

theorem spellItems_inj (items items' : List Node) {rest rest' : List Char}
    (h : spellItems items ++ rest = spellItems items' ++ rest') : items = items' ∧ rest = rest' := by
  cases items with
  | nil =>
      cases items' with
      | nil => exact ⟨rfl, (List.cons.inj h).2⟩
      | cons n' items' => cases (List.cons.inj h).1
  | cons n items =>
      cases items' with
      | nil => cases (List.cons.inj h).1
      | cons n' items' =>
          have htail : n.spell ++ (spellItems items ++ rest) =
              n'.spell ++ (spellItems items' ++ rest') := by
            rw [← List.append_assoc, ← List.append_assoc]
            exact (List.cons.inj h).2
          obtain ⟨rfl, hitems⟩ := spell_inj n n' htail
          obtain ⟨rfl, hrest⟩ := spellItems_inj items items' hitems
          exact ⟨rfl, hrest⟩

theorem spellEntries_inj (entries entries' : List (String × Node)) {rest rest' : List Char}
    (h : spellEntries entries ++ rest = spellEntries entries' ++ rest') :
    entries = entries' ∧ rest = rest' := by
  cases entries with
  | nil =>
      cases entries' with
      | nil => exact ⟨rfl, (List.cons.inj h).2⟩
      | cons i' entries' => cases (List.cons.inj h).1
  | cons i entries =>
      obtain ⟨key, n⟩ := i
      cases entries' with
      | nil => cases (List.cons.inj h).1
      | cons i' entries' =>
          obtain ⟨key', n'⟩ := i'
          have htail : quoted key.toList ++ (n.spell ++ (spellEntries entries ++ rest)) =
              quoted key'.toList ++ (n'.spell ++ (spellEntries entries' ++ rest')) := by
            rw [← List.append_assoc n.spell, ← List.append_assoc n'.spell, ← List.append_assoc,
              ← List.append_assoc (quoted key'.toList)]
            exact (List.cons.inj h).2
          obtain ⟨hkey, hvalue⟩ := quoted_inj htail
          obtain ⟨rfl, hentries⟩ := spell_inj n n' hvalue
          obtain ⟨rfl, hrest⟩ := spellEntries_inj entries entries' hentries
          rw [String.toList_inj.mp hkey]
          exact ⟨rfl, hrest⟩

end

def text (n : Node) : String := .ofList n.spell

variable {known : List (Node × String)}

open Classical in
noncomputable def emit (known : List (Node × String)) (n : Node) : String :=
  match known.find? fun k => k.1 = n with
  | some k => k.2
  | none => n.text

open Classical in
noncomputable def load (known : List (Node × String)) (str : String) : Option Node :=
  if h : ∃ n, emit known n = str then some h.choose else none

end Node
end HCServer.Lib.YAML
