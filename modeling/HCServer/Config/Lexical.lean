import HCServer.Config.Load
import HCServer.Lib.OrderedSet
import HCServer.Lib.YamlText
import Mathlib.Data.Finset.Dedup

/-! `LexicalCast` of the containers. Each one is written element by element, the text of an element being
loaded again before it goes into the node, and read back the same way. -/
namespace HCServer.Configuration
open Lib

/-- What yaml-cpp does: `Load`, `none` where it throws, the text of a node, and the texts of `node[i]`
below `node.size()` for a map. -/
structure Yaml where
  load : String → Option YAML.Node
  emit : YAML.Node → String
  indexed : List (String × YAML.Node) → List (Option String)

/-- The casts between `T` and `string`, `none` where they throw. -/
structure LexicalCast (T : Type) where
  toStr : T → Option String
  fromStr : String → Option T

/-- A container as the casts use it: its elements in the order of iteration, and `push_back` or
`insert`. -/
structure Collection (T C : Type) where
  elements : C → List T
  empty : C
  insert : C → T → C
  rebuilt : ∀ v, (elements v).foldl insert empty = v

/-- A container of pairs, whose `insert` leaves a key alone that is there. -/
structure Dictionary (T C : Type) where
  elements : C → List (String × T)
  empty : C
  insert : C → String × T → C
  keys : ∀ v, (elements v).Pairwise fun i j => i.1 ≠ j.1
  rebuilt : ∀ v, (elements v).foldl insert empty = v

section Casts
variable (y : Yaml) {T C : Type} (c : LexicalCast T)

/-- `YAML::Load(LexicalCast<T,string>()(i))` -/
def LexicalCast.node (i : T) : Option YAML.Node := (c.toStr i).bind y.load

/-- A node after the calls of `push_back`. -/
def pushed (nodes : List YAML.Node) : YAML.Node := if nodes.isEmpty then .null else .sequence nodes

/-- `ss << node[i]` for each `i` below `node.size()`. -/
def Yaml.texts : YAML.Node → List (Option String)
  | .sequence items => items.map fun n => some (y.emit n)
  | .map entries => y.indexed entries
  | _ => []

/-- The casts of `vector<T>`, `list<T>`, `set<T>` and `unordered_set<T>`. -/
def LexicalCast.sequence (k : Collection T C) : LexicalCast C where
  toStr v := ((k.elements v).mapM (c.node y)).map fun nodes => y.emit (pushed nodes)
  fromStr v := (y.load v).bind fun node =>
    (y.texts node).foldlM (fun vec text => (text.bind c.fromStr).map (k.insert vec)) k.empty

/-- `node[key] = n` -/
def assign (entries : List (String × YAML.Node)) (key : String) (n : YAML.Node) :
    List (String × YAML.Node) :=
  if entries.any (fun e => e.1 = key) then entries.map fun e => if e.1 = key then (key, n) else e
  else entries ++ [(key, n)]

/-- `it->first.Scalar()` with the text of `it->second`. An element of a sequence has no `first`. -/
def Yaml.pairs : YAML.Node → Option (List (String × String))
  | .map entries => some (entries.map fun e => (e.1, y.emit e.2))
  | .sequence (_ :: _) => none
  | _ => some []

end Casts

/-! ### The containers of the standard library -/

theorem foldl_val {α β : Type} {p : α → Prop} (f : Subtype p → β → Subtype p) (g : α → β → α)
    (h : ∀ a b, (f a b).1 = g a.1 b) (a : Subtype p) (bs : List β) :
    (bs.foldl f a).1 = bs.foldl g a.1 := by
  induction bs generalizing a with
  | nil => rfl
  | cons b bs ih => rw [List.foldl_cons, ih, h, List.foldl_cons]

namespace Collection
variable {T : Type}

def vector : Collection T (List T) where
  elements := id
  empty := []
  insert v x := v ++ [x]
  rebuilt v := by
    have happend (xs ys : List T) : ys.foldl (fun v x => v ++ [x]) xs = xs ++ ys := by
      induction ys generalizing xs with
      | nil => rw [List.foldl_nil, List.append_nil]
      | cons y ys ih => rw [List.foldl_cons, ih, List.append_assoc, List.singleton_append]
    exact happend [] v

def list : Collection T (List T) := vector

/-- The elements in ascending order. -/
def set [LinearOrder T] : Collection T { l : List T // l.Pairwise (· < ·) } where
  elements := Subtype.val
  empty := ⟨[], List.Pairwise.nil⟩
  insert v x := ⟨OrderedSet.insert (· < ·) x v.1,
    OrderedSet.pairwise_insert_of_trans (fun _ _ _ => lt_trans) v.2⟩
  rebuilt v := by
    refine Subtype.ext ?_
    rw [foldl_val _ (fun l x => OrderedSet.insert (· < ·) x l) fun _ _ => rfl]
    exact OrderedSet.foldl_insert v.2

/-- Without a known order of iteration. -/
def unorderedSet [DecidableEq T] (iterate : Finset T → List T) (h : ∀ s, (iterate s).toFinset = s) :
    Collection T (Finset T) where
  elements := iterate
  empty := ∅
  insert v x := Insert.insert x v
  rebuilt v := by
    have hunion (s : Finset T) (xs : List T) :
        xs.foldl (fun v x => Insert.insert x v) s = s ∪ xs.toFinset := by
      induction xs generalizing s with
      | nil => simp
      | cons x xs ih => rw [List.foldl_cons, ih, List.toFinset_cons, Finset.insert_union, Finset.union_insert]
    rw [hunion, h, Finset.empty_union]

end Collection

namespace Dictionary
variable {T : Type}

/-- The pairs in the order of their keys. -/
def map : Dictionary T { l : List (String × T) // l.Pairwise fun i j => i.1 < j.1 } where
  elements := Subtype.val
  empty := ⟨[], List.Pairwise.nil⟩
  insert v x := ⟨OrderedSet.insert (fun i j => i.1 < j.1) x v.1,
    OrderedSet.pairwise_insert_of_trans (fun _ _ _ => lt_trans) v.2⟩
  keys v := v.2.imp fun h => ne_of_lt h
  rebuilt v := by
    refine Subtype.ext ?_
    rw [foldl_val _ (fun l x => OrderedSet.insert (fun i j => i.1 < j.1) x l) fun _ _ => rfl]
    exact OrderedSet.foldl_insert v.2

/-- What finitely many keys stand for. -/
abbrev Finite (T : Type) := { m : String → Option T // ∃ l : List (String × T), ∀ key, m key = l.lookup key }

def Finite.insert (m : Finite T) (i : String × T) : Finite T :=
  if (m.1 i.1).isSome then m
  else ⟨Function.update m.1 i.1 (some i.2), by
    obtain ⟨l, hl⟩ := m.2
    refine ⟨i :: l, fun key => ?_⟩
    rw [List.lookup_cons]
    by_cases h : key = i.1
    · rw [h, Function.update_self, beq_self_eq_true]
    · rw [Function.update_of_ne h, beq_false_of_ne h, hl]⟩

theorem Finite.insert_apply (m : Finite T) (i : String × T) (key : String) :
    (m.insert i).1 key = (m.1 key).or (if key = i.1 then some i.2 else none) := by
  rw [Finite.insert]
  by_cases hkey : key = i.1
  · subst hkey
    rw [if_pos rfl]
    cases hfound : m.1 i.1 with
    | some t => simp [hfound]
    | none => simp
  · rw [if_neg hkey, Option.or_none]
    split
    · rfl
    · exact Function.update_of_ne hkey _ _

theorem Finite.foldl_insert (m : Finite T) {l : List (String × T)}
    (h : l.Pairwise fun i j => i.1 ≠ j.1) (key : String) :
    (l.foldl Finite.insert m).1 key = (m.1 key).or (l.lookup key) := by
  induction l generalizing m with
  | nil => simp
  | cons i l ih =>
      obtain ⟨hi, hl⟩ := List.pairwise_cons.mp h
      rw [List.foldl_cons, ih _ hl, List.lookup_cons, Finite.insert_apply, Option.or_assoc]
      by_cases hkey : key = i.1
      · rw [if_pos hkey, hkey, beq_self_eq_true, Option.some_or]
      · rw [if_neg hkey, beq_false_of_ne hkey, Option.none_or]

/-- Without a known order of iteration. -/
def unorderedMap (iterate : Finite T → List (String × T))
    (hkeys : ∀ m, (iterate m).Pairwise fun i j => i.1 ≠ j.1)
    (h : ∀ m key, m.1 key = (iterate m).lookup key) : Dictionary T (Finite T) where
  elements := iterate
  empty := ⟨fun _ => none, [], fun _ => rfl⟩
  insert := Finite.insert
  keys := hkeys
  rebuilt m := by
    refine Subtype.ext (funext fun key => ?_)
    rw [Finite.foldl_insert _ (hkeys m), ← h]
    exact Option.none_or

end Dictionary
/-! ### Round trips -/

section RoundTrip
variable {y : Yaml} {T C : Type} {c : LexicalCast T}

/-- The text of the value is read back, also after it has been part of a document. -/
def LexicalCast.Survives (y : Yaml) (c : LexicalCast T) (v : T) : Prop :=
  ∃ text n, c.toStr v = some text ∧ y.load text = some n ∧
    ∀ t ∈ [text, y.emit n, Config.textOf y.emit n], c.fromStr t = some v

theorem assign_new {entries : List (String × YAML.Node)} {key : String}
    (h : ∀ e ∈ entries, e.1 ≠ key) (n : YAML.Node) : assign entries key n = entries ++ [(key, n)] := by
  rw [assign, if_neg]
  intro hany
  obtain ⟨e, he, hkey⟩ := List.any_eq_true.mp hany
  exact h e he (of_decide_eq_true hkey)

end RoundTrip

section Restored
variable {τ : Type} {Val : τ → Type} [DecidableEq τ] [∀ t, BEq (Val t)]
  {fromStr : ∀ t, String → Option (Val t)} {y : Yaml}

end Restored

/-! ### A variable of type `map<string, vector<uint32_t>>` -/

def digits (text : String) : Option Nat :=
  if text.toList.all Char.isDigit then some (text.toList.foldl (fun n c => 10 * n + (c.toNat - 48)) 0)
  else none

end HCServer.Configuration
