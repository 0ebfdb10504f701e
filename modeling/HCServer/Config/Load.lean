import Mathlib
import HCServer.Config.Registry

/-! `LoadFileYaml`: which variable a node of the document reaches. The names of the nodes are put
together from the keys, and checked, on the way down. -/
namespace HCServer.Configuration
open Lib

/-! ### Names -/

theorem hasOnly_append (chars a b : String) :
    hasOnly chars (a ++ b) = (hasOnly chars a && hasOnly chars b) := by
  rw [hasOnly, String.toList_append, List.all_append]
  rfl

/-- The name that `ListAllMember` makes of a key path. -/
def memberName (path : List String) : String := path.foldl extend ""

theorem extend_of_ne {pre : String} (h : pre ≠ "") (key : String) :
    extend pre key = pre ++ "." ++ key := if_neg h

theorem extend_ne {pre : String} (h : pre ≠ "") (key : String) : extend pre key ≠ "" := by
  rw [extend_of_ne h]
  intro heq
  have hlength := congrArg String.length heq
  rw [String.length_append, String.length_append] at hlength
  have hdot : ".".length = 1 := rfl
  simp only [hdot, String.length_empty] at hlength
  omega

theorem foldl_extend {pre : String} (h : pre ≠ "") (path : List String) :
    path.foldl extend pre = dotted (pre :: path) := by
  induction path generalizing pre with
  | nil => simp [dotted]
  | cons key path ih =>
      rw [List.foldl_cons, ih (extend_ne h key), extend_of_ne h]
      cases path with
      | nil => simp [dotted]
      | cons key' path => simp [dotted, String.append_assoc]

/-- Empty keys in front are lost. -/
theorem memberName_eq (path : List String) :
    memberName path = dotted (path.dropWhile (· = "")) := by
  induction path with
  | nil => rfl
  | cons key path ih =>
      rw [memberName, List.foldl_cons, extend, if_pos rfl]
      by_cases hkey : key = ""
      · rw [List.dropWhile_cons_of_pos (by simp [hkey]), hkey]
        exact ih
      · rw [List.dropWhile_cons_of_neg (by simp [hkey])]
        exact foldl_extend hkey path

theorem hasOnly_of_foldl {chars pre : String} {path : List String}
    (h : hasOnly chars (path.foldl extend pre) = true) : hasOnly chars pre = true := by
  induction path generalizing pre with
  | nil => exact h
  | cons key path ih =>
      have hnext := ih h
      by_cases hpre : pre = ""
      · subst hpre
        rfl
      · rw [extend_of_ne hpre, hasOnly_append, hasOnly_append, Bool.and_eq_true,
          Bool.and_eq_true] at hnext
        exact hnext.1.1

/-- Nothing below a name that fails the check is listed. -/
theorem filter_of_not_hasOnly {chars pre : String} (h : hasOnly chars pre = false)
    (members : List (List String × YAML.Node)) :
    (members.filter fun m => hasOnly chars (m.1.foldl extend pre)) = [] := by
  rw [List.filter_eq_nil_iff]
  intro m _ hm
  rw [hasOnly_of_foldl hm] at h
  cases h

theorem listAllMember_leaf {n : YAML.Node} (h : n.members = [([], n)]) (pre : String)
    (hlist : listAllMember pre n = if hasOnly memberChars pre then [(pre, n)] else []) :
    listAllMember pre n =
      (n.members.filter fun m => hasOnly memberChars (m.1.foldl extend pre)).map
        fun m => (m.1.foldl extend pre, m.2) := by
  rw [hlist, h]
  cases hpre : hasOnly memberChars pre with
  | false => simp [hpre]
  | true => simp [hpre]

theorem length_dropWhile_le (path : List String) :
    (dotted (path.dropWhile (· = ""))).length ≤ (dotted path).length := by
  induction path with
  | nil => exact Nat.le_refl _
  | cons key path ih =>
      by_cases hkey : key = ""
      · rw [List.dropWhile_cons_of_pos (by simp [hkey])]
        refine ih.trans ?_
        cases path with
        | nil => simp [dotted]
        | cons key' path => simp [dotted]
      · rw [List.dropWhile_cons_of_neg (by simp [hkey])]

/-- A name that loses an empty key becomes shorter. -/
theorem length_memberName_lt {path : List String} (hhead : path.head? = some "")
    (hne : memberName path ≠ "") : (memberName path).length < (dotted path).length := by
  obtain ⟨path, rfl⟩ := List.head?_eq_some_iff.mp hhead
  rw [memberName_eq, List.dropWhile_cons_of_pos (by simp)] at hne ⊢
  cases path with
  | nil => exact absurd rfl hne
  | cons key path =>
      have hle := length_dropWhile_le (key :: path)
      have hlength : (dotted ("" :: key :: path)).length = 1 + (dotted (key :: path)).length := by
        rw [dotted, String.intercalate_cons_cons, String.length_append, String.length_append]
        exact congrArg (· + _) (Nat.zero_add 1)
      omega

theorem memberName_of_head {path : List String} (h : path.head? ≠ some "") :
    memberName path = dotted path := by
  rw [memberName_eq]
  cases path with
  | nil => rfl
  | cons key path =>
      rw [List.dropWhile_cons_of_neg]
      simpa using h

/-! ### Letter case -/

theorem toLower_toLower (s : String) : s.toLower.toLower = s.toLower := by
  rw [← String.toList_inj, String.toLower, String.toLower, String.toList_map, String.toList_map,
    List.map_map]
  exact List.map_congr_left fun c _ => c.toLower_toLower_eq_toLower

theorem length_toLower (s : String) : s.toLower.length = s.length := String.length_map

theorem mem_memberChars_of_isUpper {c : Char} (h : c.isUpper = true) : c ∈ memberChars.toList := by
  rw [Char.isUpper, decide_eq_true_iff] at h
  have hlow : 65 ≤ c.toNat := h.1
  have hhigh : c.toNat ≤ 90 := h.2
  have hletters : ∀ n : Fin 26, Char.ofNat (65 + n) ∈ memberChars.toList := by decide
  have hmem := hletters ⟨c.toNat - 65, by omega⟩
  rwa [Nat.add_sub_cancel' hlow, Char.ofNat_toNat] at hmem

theorem hasOnly_iff {chars name : String} :
    hasOnly chars name = true ↔ ∀ c ∈ name.toList, c ∈ chars.toList := by
  rw [hasOnly, List.all_eq_true]
  exact forall₂_congr fun c _ => List.contains_iff_mem

/-- The characters that both are meant to let pass. -/
def nameChars : String := "abcdefghijklmnopqrstuvwxyzABCDEFGHIJKLMNOPQRSTUVWXYZ0123456789._"

/-- A set of characters that lacks one. -/
theorem hasOnly_without {chars all : String} {d : Char} (hsub : hasOnly all chars = true)
    (hlack : d ∉ chars.toList) (hsup : hasOnly (chars.push d) all = true) (name : String) :
    hasOnly chars name = true ↔ hasOnly all name = true ∧ d ∉ name.toList := by
  rw [hasOnly_iff] at hsub hsup
  rw [hasOnly_iff, hasOnly_iff]
  constructor
  · intro h
    exact ⟨fun c hc => hsub c (h c hc), fun hd => hlack (h d hd)⟩
  · rintro ⟨hname, hd⟩ c hc
    have hmem := hsup c (hname c hc)
    rw [String.toList_push, List.mem_append, List.mem_singleton] at hmem
    exact hmem.resolve_right fun h => hd (h ▸ hc)

theorem hasOnly_lookupChars (name : String) : hasOnly lookupChars name = true ↔
    hasOnly nameChars name = true ∧ '7' ∉ name.toList :=
  hasOnly_without (by decide) (by decide) (by decide) name

theorem hasOnly_memberChars (name : String) : hasOnly memberChars name = true ↔
    hasOnly nameChars name = true ∧ '9' ∉ name.toList :=
  hasOnly_without (by decide) (by decide) (by decide) name

theorem not_mem_memberChars : '9' ∉ memberChars.toList := fun h =>
  ((hasOnly_memberChars memberChars).mp (hasOnly_iff.mpr fun _ => id)).2 h

/-- What `Lookup` lets pass in small letters, the digit 9 apart, the loader lets pass in letters of
either case. -/
theorem mem_memberChars {c : Char} (h : c.toLower ∈ lookupChars.toList) (hnine : c.toLower ≠ '9') :
    c ∈ memberChars.toList := by
  by_cases hupper : c.isUpper = true
  · exact mem_memberChars_of_isUpper hupper
  · rw [Char.toLower_eq_of_not_isUpper hupper] at h hnine
    have hlookup : hasOnly lookupChars (.singleton c) = true := by
      simpa [hasOnly_iff] using h
    have hmember := (hasOnly_memberChars (.singleton c)).mpr
      ⟨((hasOnly_lookupChars _).mp hlookup).1, by simpa using hnine.symm⟩
    exact hasOnly_iff.mp hmember c (by simp)

/-! ### The nodes that are listed -/

mutual

/-- The nodes whose name passes the check are listed. -/
theorem listAllMember_eq (pre : String) (n : YAML.Node) : listAllMember pre n =
    (n.members.filter fun m => hasOnly memberChars (m.1.foldl extend pre)).map
      fun m => (m.1.foldl extend pre, m.2) := by
  cases n with
  | null => exact listAllMember_leaf rfl pre rfl
  | scalar text => exact listAllMember_leaf rfl pre rfl
  | sequence items => exact listAllMember_leaf rfl pre rfl
  | map entries =>
      rw [listAllMember, YAML.Node.members]
      cases hpre : hasOnly memberChars pre with
      | false =>
          rw [filter_of_not_hasOnly hpre]
          rfl
      | true =>
          rw [if_pos rfl, List.filter_cons_of_pos (by exact hpre), List.map_cons, listEntries_eq pre entries]
          rfl

theorem listEntries_eq (pre : String) (entries : List (String × YAML.Node)) : listEntries pre entries =
    ((YAML.Node.membersOf entries).filter fun m => hasOnly memberChars (m.1.foldl extend pre)).map
      fun m => (m.1.foldl extend pre, m.2) := by
  cases entries with
  | nil => rfl
  | cons e entries =>
      obtain ⟨key, n⟩ := e
      rw [listEntries, YAML.Node.membersOf, listAllMember_eq (extend pre key) n, listEntries_eq pre entries,
        List.filter_append, List.map_append, List.filter_map, List.map_map]
      rfl

end

/-- The nodes that `LoadFileYaml` goes through, with their names. -/
def listed (members : List (List String × YAML.Node)) : List (String × YAML.Node) :=
  (members.filter fun m => hasOnly memberChars (memberName m.1)).map fun m => (memberName m.1, m.2)

theorem listAllMember_root (root : YAML.Node) : listAllMember "" root = listed root.members :=
  listAllMember_eq "" root

theorem listed_append (xs ys : List (List String × YAML.Node)) :
    listed (xs ++ ys) = listed xs ++ listed ys := by
  rw [listed, List.filter_append, List.map_append]
  rfl

theorem listed_cons_of_pos {path : List String} (h : hasOnly memberChars (memberName path) = true)
    (n : YAML.Node) (members : List (List String × YAML.Node)) :
    listed ((path, n) :: members) = (memberName path, n) :: listed members := by
  rw [listed, List.filter_cons_of_pos (by exact h)]
  rfl

theorem listed_cons_of_neg {path : List String} (h : ¬ hasOnly memberChars (memberName path) = true)
    (n : YAML.Node) (members : List (List String × YAML.Node)) :
    listed ((path, n) :: members) = listed members := by
  rw [listed, List.filter_cons_of_neg (by exact h)]
  rfl

theorem of_mem_listed {members : List (List String × YAML.Node)} {i : String × YAML.Node}
    (h : i ∈ listed members) : ∃ e ∈ members, (memberName e.1, e.2) = i := by
  obtain ⟨e, he, heq⟩ := List.mem_map.mp h
  exact ⟨e, (List.mem_filter.mp he).1, heq⟩

/-! ### What reaches a variable -/

/-- The keys spell the name, up to letter case. -/
def Spells (path : List String) (name : String) : Prop := (dotted path).toLower = name.toLower

/-- A node with these keys is loaded into the variable of the name. -/
def Reaches (path : List String) (name : String) : Prop :=
  name ≠ "" ∧ name.toLower = name ∧ '9' ∉ name.toList ∧ path.head? ≠ some ""

theorem toLower_eq_iff {a b : String} : a.toLower = b ↔ a.toList.map Char.toLower = b.toList := by
  rw [← String.toList_inj, String.toLower, String.toList_map]

theorem spells_iff {path : List String} {name : String} : Spells path name ↔
    (dotted path).toList.map Char.toLower = name.toList.map Char.toLower := by
  rw [Spells, toLower_eq_iff, String.toLower, String.toList_map]

instance (path : List String) (name : String) : Decidable (Spells path name) :=
  decidable_of_iff _ spells_iff.symm

instance (path : List String) (name : String) : Decidable (Reaches path name) :=
  decidable_of_iff (name ≠ "" ∧ name.toList.map Char.toLower = name.toList ∧
      '9' ∉ name.toList ∧ path.head? ≠ some "")
    (and_congr_right fun _ => and_congr_left fun _ => toLower_eq_iff.symm)

theorem eq_empty_of_toLower {s : String} (h : s.toLower = "") : s = "" := by
  rw [← String.length_eq_zero_iff, ← length_toLower, h]
  rfl

theorem toLower_eq_nine (c : Char) (h : c.toLower = '9') : c = '9' := by
  by_cases hupper : c.isUpper = true
  · rw [Char.toLower_eq_of_isUpper hupper] at h
    rw [Char.isUpper, decide_eq_true_iff] at hupper
    have hlow : 65 ≤ c.toNat := hupper.1
    have hhigh : c.toNat ≤ 90 := hupper.2
    have hnat := congrArg Char.toNat h
    rw [Char.toNat_ofNat, if_pos (Or.inl (by omega))] at hnat
    have hnine : '9'.toNat = 57 := rfl
    omega
  · rwa [Char.toLower_eq_of_not_isUpper hupper] at h

theorem mem_toLower {s : String} {c : Char} (h : c ∈ s.toList) : c.toLower ∈ s.toLower.toList := by
  rw [String.toLower, String.toList_map]
  exact List.mem_map_of_mem h

theorem reaches_iff {path : List String} {name : String} (hspell : Spells path name)
    (hlegal : hasOnly lookupChars name = true) :
    (hasOnly memberChars (memberName path) = true ∧ memberName path ≠ "" ∧
      (memberName path).toLower = name) ↔ Reaches path name := by
  constructor
  · rintro ⟨hlisted, hne, hname⟩
    have hlower : name.toLower = name := by
      rw [← hname, toLower_toLower]
    refine ⟨?_, hlower, ?_, ?_⟩
    · rintro rfl
      exact hne (eq_empty_of_toLower hname)
    · intro hnine
      rw [← hname, String.toLower, String.toList_map] at hnine
      obtain ⟨c, hc, hlow⟩ := List.mem_map.mp hnine
      have hmem := hasOnly_iff.mp hlisted c hc
      exact not_mem_memberChars (toLower_eq_nine c hlow ▸ hmem)
    · intro hhead
      have hlt := length_memberName_lt hhead hne
      rw [← length_toLower, ← length_toLower (dotted path), hspell, hname, hlower] at hlt
      exact Nat.lt_irrefl _ hlt
  · rintro ⟨hne, hlower, hnine, hhead⟩
    have hmember := memberName_of_head hhead
    have hname : (memberName path).toLower = name := by
      rw [hmember, hspell, hlower]
    refine ⟨?_, ?_, hname⟩
    · rw [hasOnly_iff]
      intro c hc
      have hmem : c.toLower ∈ name.toList := hname ▸ mem_toLower hc
      exact mem_memberChars (hasOnly_iff.mp hlegal _ hmem) fun h => hnine (h ▸ hmem)
    · intro hempty
      rw [hempty] at hname
      exact hne (hname.symm.trans (String.map_eq_empty.mpr rfl))

namespace Config
variable {τ : Type} {Val : τ → Type} [∀ t, BEq (Val t)] (fromStr : ∀ t, String → Option (Val t))
  (emit : YAML.Node → String) {s : Config Val} {t : τ} {name : String} {o : Nat}

/-- The listed node is not for the variable of the name. -/
def Aside (name : String) (i : String × YAML.Node) : Prop := i.1 = "" ∨ i.1.toLower ≠ name

theorem loadNode_aside (hown : ∀ x, s.datas x = some o → x = name) {i : String × YAML.Node}
    (h : Aside name i) : (s.loadNode fromStr emit i).vars[o]? = s.vars[o]? := by
  unfold loadNode lookupBase
  split
  case isTrue => rfl
  case isFalse hne =>
    have hother := h.resolve_left hne
    split
    case h_1 => rfl
    case h_2 o' ho' =>
      have hne : o' ≠ o := fun heq => hother (hown _ (heq ▸ ho'))
      rw [List.getElem?_modify]
      simp [hne]

theorem loadNodes_aside (hown : ∀ x, s.datas x = some o → x = name) {is : List (String × YAML.Node)}
    (h : ∀ i ∈ is, Aside name i) :
    (is.foldl (loadNode fromStr emit) s).vars[o]? = s.vars[o]? := by
  induction is generalizing s with
  | nil => rfl
  | cons i is ih =>
      rw [List.foldl_cons, ih _ fun j hj => h j (List.mem_cons_of_mem _ hj)]
      · exact loadNode_aside fromStr emit hown (h i List.mem_cons_self)
      · intro x hx
        rw [loadNode_datas] at hx
        exact hown x hx

theorem loadNode_reached (ho : s.datas name = some o) {key : String} {n : YAML.Node} (hne : key ≠ "")
    (hkey : key.toLower = name) {c : ConfigVar Val} (hc : s.vars[o]? = some c) :
    (s.loadNode fromStr emit (key, n)).vars[o]? = some (c.fromString fromStr (textOf emit n)) := by
  rw [loadNode, if_neg hne, hkey, lookupBase, ho, List.getElem?_modify, hc]
  simp

/-- The nodes before and after the one for the variable leave it alone. -/
theorem loadFileYaml_reached (hs : s.Sound) (ho : s.datas name = some o) {root : YAML.Node}
    {before after : List (List String × YAML.Node)} {path : List String} {n : YAML.Node}
    (hroot : root.members = before ++ (path, n) :: after)
    (hothers : ∀ e ∈ before ++ after, Aside name (memberName e.1, e.2)) {c : ConfigVar Val}
    (hc : s.vars[o]? = some c) : (s.loadFileYaml fromStr emit root).vars[o]? = some
      (if hasOnly memberChars (memberName path) = true ∧ memberName path ≠ "" ∧
          (memberName path).toLower = name then c.fromString fromStr (textOf emit n) else c) := by
  have hown (x : String) (hx : s.datas x = some o) : x = name := hs.single x name o hx ho
  have haside (part : List (List String × YAML.Node)) (hpart : ∀ e ∈ part, e ∈ before ++ after) :
      ∀ i ∈ listed part, Aside name i := by
    intro i hi
    obtain ⟨e, he, rfl⟩ := of_mem_listed hi
    exact hothers e (hpart e he)
  have hbefore := haside before fun e he => List.mem_append_left _ he
  have hafter := haside after fun e he => List.mem_append_right _ he
  have hstart := (loadNodes_aside fromStr emit hown hbefore).trans hc
  have hown' (x : String)
      (hx : ((listed before).foldl (loadNode fromStr emit) s).datas x = some o) : x = name := by
    rw [loadNodes_datas] at hx
    exact hown x hx
  rw [loadFileYaml, listAllMember_root, hroot, listed_append, List.foldl_append]
  split
  case isTrue hreach =>
    rw [listed_cons_of_pos hreach.1, List.foldl_cons, loadNodes_aside fromStr emit _ hafter]
    · refine loadNode_reached fromStr emit ?_ hreach.2.1 hreach.2.2 hstart
      rw [loadNodes_datas]
      exact ho
    · intro x hx
      rw [loadNode_datas] at hx
      exact hown' x hx
  case isFalse hmiss =>
    rw [loadNodes_aside fromStr emit hown']
    · exact hstart
    · by_cases hlisted : hasOnly memberChars (memberName path) = true
      · rw [listed_cons_of_pos hlisted]
        refine List.forall_mem_cons.mpr ⟨?_, hafter⟩
        by_cases hempty : memberName path = ""
        · exact Or.inl hempty
        · exact Or.inr fun hname => hmiss ⟨hlisted, hempty, hname⟩
      · rw [listed_cons_of_neg hlisted]
        exact hafter

end Config

namespace Users
variable {τ : Type} {Val : τ → Type} [DecidableEq τ] [∀ t, BEq (Val t)]
  {fromStr : ∀ t, String → Option (Val t)} {emit : YAML.Node → String}

theorem sound_step (s : Users Val) (a : Action Val) (s' : Users Val) (h : s.config.Sound)
    (hs : s.step fromStr emit a = some s') : s'.config.Sound := by
  cases a with
  | lookup t name v =>
      simp only [Users.step] at hs
      split at hs
      case h_1 =>
        cases hs
        exact h
      case h_2 config o hlookup =>
        cases hs
        exact h.lookup hlookup
  | find t name =>
      cases hs
      exact h
  | lookupBase name =>
      cases hs
      exact h
  | loadFileYaml root =>
      cases hs
      exact h.loadFileYaml fromStr emit root

omit [∀ t, BEq (Val t)] in
/-- What `Lookup` returns is the variable of the name, and of the type. -/
theorem lookup_variable {s s' : Config Val} {t : τ} {name : String} {o : Nat} {default_value : Val t}
    (hs : s.Sound) (h : s.lookup t name default_value = some (s', o)) :
    s'.datas name = some o ∧ hasOnly lookupChars name = true ∧
      ∃ old, s'.vars[o]? = some ⟨t, old⟩ := by
  rcases Config.lookup_cases h with ⟨rfl, hfound⟩ | ⟨-, hlegal, hcreate⟩
  · obtain ⟨ho, htype⟩ := Config.find_eq_some.mp hfound
    obtain ⟨⟨t', old⟩, hvar, rfl⟩ := Option.map_eq_some_iff.mp (of_decide_eq_true htype)
    exact ⟨ho, hs.legal name o ho, old, hvar⟩
  · cases hcreate
    refine ⟨?_, hlegal, default_value, List.getElem?_concat_length⟩
    exact (Config.create_datas t default_value name name).trans (if_pos rfl)

omit [∀ t, BEq (Val t)] in
theorem lookup_isSome {s : Config Val} (hs : s.Sound) (t : τ) (name : String) (default_value : Val t) :
    (s.lookup t name default_value).isSome = true ↔ hasOnly lookupChars name = true := by
  unfold Config.lookup
  split
  case h_1 o hfound =>
    obtain ⟨ho, -⟩ := Config.find_eq_some.mp hfound
    simp [hs.legal name o ho]
  case h_2 =>
    split
    case isTrue hlegal => simp [hlegal]
    case isFalse hillegal => simp [hillegal]

/-- Which documents set the variable that `Lookup` returned. -/
theorem loaded_iff {s s' : Config Val} {t : τ} {name : String} {o : Nat} {default_value old v : Val t}
    (hs : s.Sound) (hlookup : s.lookup t name default_value = some (s', o))
    (hold : s'.vars[o]? = some ⟨t, old⟩) {root : YAML.Node} {before after : List (List String × YAML.Node)}
    {path : List String} {n : YAML.Node} (hroot : root.members = before ++ (path, n) :: after)
    (hspell : Spells path name)
    (hothers : ∀ e ∈ before ++ after, ¬ Spells (e.1.dropWhile (· = "")) name)
    (hv : fromStr t (Config.textOf emit n) = some v) :
    (s'.loadFileYaml fromStr emit root).vars[o]? = some ⟨t, v⟩ ↔
      old = v ∨ (Reaches path name ∧ (v == old) = false) := by
  obtain ⟨ho, hlegal, -⟩ := lookup_variable hs hlookup
  have haside : ∀ e ∈ before ++ after, Config.Aside name (memberName e.1, e.2) := by
    intro e he
    refine Or.inr fun hname => hothers e he ?_
    rw [Spells, ← memberName_eq, ← hname, toLower_toLower]
  rw [Config.loadFileYaml_reached fromStr emit (hs.lookup hlookup) ho hroot haside hold]
  simp only [reaches_iff hspell hlegal]
  by_cases hreach : Reaches path name
  · rw [if_pos hreach, ConfigVar.fromString]
    simp only [hv, ConfigVar.setValue]
    cases heq : v == old with
    | true => simp
    | false => simp [hreach]
  · simp [hreach]

/-- Every document with one node for the name sets its variable, if the node reaches it; and the names
for which `Lookup` and the loader agree. -/
theorem yaml_reaches_variable {as : List (Action Val)} {u : Users Val}
    (hu : exec (step fromStr emit) new as = some u) (t : τ) (name : String) (default_value : Val t) :
    (∀ s o, u.config.lookup t name default_value = some (s, o) →
      ∃ old, s.vars[o]? = some ⟨t, old⟩ ∧
        ∀ root before path n after v, root.members = before ++ (path, n) :: after →
          Spells path name → (∀ e ∈ before ++ after, ¬ Spells (e.1.dropWhile (· = "")) name) →
          fromStr t (Config.textOf emit n) = some v →
          ((s.loadFileYaml fromStr emit root).vars[o]? = some ⟨t, v⟩ ↔
            old = v ∨ (Reaches path name ∧ (v == old) = false))) ∧
    (((u.config.lookup t name default_value).isSome = true ↔
        hasOnly nameChars name = true ∧ hasOnly memberChars name = true) ↔
      (hasOnly nameChars name = true → ('7' ∈ name.toList ↔ '9' ∈ name.toList))) := by
  have hsound : u.config.Sound := exec_invariant sound_step Config.new_sound hu
  constructor
  · intro s o hlookup
    obtain ⟨-, -, old, hold⟩ := lookup_variable hsound hlookup
    exact ⟨old, hold, fun _ _ _ _ _ _ hroot hspell hothers hv =>
      loaded_iff hsound hlookup hold hroot hspell hothers hv⟩
  · rw [lookup_isSome hsound, hasOnly_lookupChars, hasOnly_memberChars]
    tauto

/-- A document with the one entry `section: {key: text}`. -/
def oneEntry (outer key text : String) : YAML.Node := .map [(outer, .map [(key, .scalar text)])]

theorem oneEntry_members (outer key text : String) : (oneEntry outer key text).members =
    [([], oneEntry outer key text), ([outer], .map [(key, .scalar text)])] ++
      [([outer, key], .scalar text)] := rfl

/-- `tcp.port` is set by the entry `Tcp: {Port: 80}`. -/
theorem port_loaded :
    (((Config.new : Config fun _ : Unit => Nat).create "tcp.port" () 0).1.loadFileYaml
      (fun _ text => if text = "80" then some 80 else none) (fun _ => "")
      (oneEntry "Tcp" "Port" "80")).vars[0]? = some ⟨(), 80⟩ := by
  let fromStr (_ : Unit) (text : String) : Option Nat := if text = "80" then some 80 else none
  have hstart : exec (step fromStr fun _ => "") new [] = some new := rfl
  obtain ⟨old, hold, hall⟩ := (yaml_reaches_variable hstart () "tcp.port" 0).1 _ 0 rfl
  cases hold
  exact (hall _ _ _ _ _ 80 (oneEntry_members _ _ _) (by decide) (by decide) rfl).mpr
    (Or.inr ⟨by decide, rfl⟩)

/-- The variable `tcp.Port` is never found. -/
theorem capital_ignored : ¬ ∀ (fromStr : ∀ _ : Unit, String → Option Nat) (emit : YAML.Node → String)
    (name : String) (config : Config fun _ : Unit => Nat) (o : Nat),
    Config.new.lookup () name 0 = some (config, o) → ∀ (outer key text : String) (v : Nat),
    Spells [outer, key] name → fromStr () text = some v →
    (config.loadFileYaml fromStr emit (oneEntry outer key text)).vars[o]? = some ⟨(), v⟩ := by
  intro h
  have hspell : Spells ["tcp", "Port"] "tcp.Port" := rfl
  have hlookup : (Config.new : Config fun _ : Unit => Nat).lookup () "tcp.Port" 0 =
      some ((Config.new.create "tcp.Port" () 0).1, 0) := rfl
  have hloaded := h (fun _ _ => some 80) (fun _ => "") "tcp.Port" _ 0 hlookup "tcp" "Port" "80" 80
    hspell rfl
  rcases (loaded_iff Config.new_sound hlookup rfl (oneEntry_members _ _ _) hspell (by decide) rfl).mp
    hloaded with heq | ⟨hreach, -⟩
  · cases heq
  · revert hreach
    decide

end Users
end HCServer.Configuration
