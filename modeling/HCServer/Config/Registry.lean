import HCServer.Config.Model

/-! A name stays with its variable: what the users of the registry may rely on over a whole run. -/
namespace HCServer.Configuration
open Lib
variable {τ : Type} {Val : τ → Type}

namespace Users

/-- What was returned for a name is what `LoadFileYaml` finds there, and a `Lookup` with another type
returns null. -/
structure Bound (s : Users Val) : Prop where
  held : ∀ name o, (name, o) ∈ s.held → s.config.lookupBase name = some o
  clashes : ∀ result ∈ s.clashes, result = none

variable [DecidableEq τ]

/-- No variable is looked up with a default of another type. -/
def Agreeing (s : Users Val) : Action Val → Prop
  | .lookup t name _ => ¬ s.Clashes t name
  | _ => True

end Users

namespace Config

/-- The invariant: names stand for different variables. -/
structure Sound (s : Config Val) : Prop where
  made : ∀ name o, s.datas name = some o → o < s.vars.length
  single : ∀ name name' o, s.datas name = some o → s.datas name' = some o → name = name'
  legal : ∀ name o, s.datas name = some o → hasOnly lookupChars name = true

end Config

namespace Users

/-- The invariant of the runs without such a lookup. -/
structure Kept (s : Users Val) : Prop where
  bound : Bound s
  sound : s.config.Sound

end Users

namespace Config
variable {s s' : Config Val} {t : τ} {name : String} {o : Nat}

section
variable [DecidableEq τ]

theorem find_eq_some : s.find t name = some o ↔ s.datas name = some o ∧ s.isOfType t o = true :=
  Option.filter_eq_some_iff

/-- `Lookup` returns the variable that is there, or a new one of the wanted type. -/
theorem lookup_cases {default_value : Val t} (h : s.lookup t name default_value = some (s', o)) :
    (s' = s ∧ s.find t name = some o) ∨
      s.find t name = none ∧ hasOnly lookupChars name = true ∧
        s.create name t default_value = (s', o) := by
  unfold lookup at h
  split at h
  case h_1 found hfound =>
    cases h
    exact Or.inl ⟨rfl, hfound⟩
  case h_2 hnone =>
    split at h
    case isTrue hlegal => exact Or.inr ⟨hnone, hlegal, Option.some.inj h⟩
    case isFalse => cases h

end

theorem new_sound : (new : Config Val).Sound :=
  ⟨(fun _ _ h => nomatch h), (fun _ _ _ h => nomatch h), (fun _ _ h => nomatch h)⟩

theorem create_datas (t : τ) (v : Val t) (name x : String) : (s.create name t v).1.datas x =
    if x = name then some s.vars.length else s.datas x :=
  Function.update_apply _ _ _ _

/-- The new variable is not one that another name stands for. -/
theorem Sound.create (h : s.Sound) (hlegal : hasOnly lookupChars name = true) (v : Val t) :
    (s.create name t v).1.Sound := by
  have hlength : (s.create name t v).1.vars.length = s.vars.length + 1 := List.length_append
  refine ⟨?_, ?_, ?_⟩
  · intro x o hx
    rw [create_datas] at hx
    rw [hlength]
    split at hx
    · cases hx
      exact Nat.lt_succ_self _
    · exact Nat.lt_succ_of_lt (h.made x o hx)
  · intro x y o hx hy
    rw [create_datas] at hx hy
    split at hx
    case isTrue hxname =>
      cases hx
      split at hy
      case isTrue hyname => exact hxname.trans hyname.symm
      case isFalse => exact absurd (h.made y _ hy) (Nat.lt_irrefl _)
    case isFalse =>
      split at hy
      case isTrue =>
        cases hy
        exact absurd (h.made x _ hx) (Nat.lt_irrefl _)
      case isFalse => exact h.single x y o hx hy
  · intro x o hx
    rw [create_datas] at hx
    split at hx
    case isTrue hxname => exact hxname ▸ hlegal
    case isFalse => exact h.legal x o hx

theorem Sound.lookup [DecidableEq τ] (h : s.Sound) {v : Val t}
    (hlookup : s.lookup t name v = some (s', o)) : s'.Sound := by
  rcases lookup_cases hlookup with ⟨rfl, -⟩ | ⟨-, hlegal, hcreate⟩
  · exact h
  · have hs' : (s.create name t v).1 = s' := congrArg Prod.fst hcreate
    exact hs' ▸ h.create hlegal v

variable [∀ t, BEq (Val t)] (fromStr : ∀ t, String → Option (Val t)) (emit : YAML.Node → String)

@[simp] theorem loadNode_datas (i : String × YAML.Node) :
    (s.loadNode fromStr emit i).datas = s.datas := by
  unfold loadNode
  split
  · rfl
  · split <;> rfl

@[simp] theorem loadNode_length (i : String × YAML.Node) :
    (s.loadNode fromStr emit i).vars.length = s.vars.length := by
  unfold loadNode
  split
  · rfl
  · split
    · rfl
    · exact List.length_modify _ _ _

theorem loadNodes_datas (is : List (String × YAML.Node)) :
    (is.foldl (loadNode fromStr emit) s).datas = s.datas := by
  induction is generalizing s with
  | nil => rfl
  | cons i is ih => rw [List.foldl_cons, ih, loadNode_datas]

theorem loadNodes_length (is : List (String × YAML.Node)) :
    (is.foldl (loadNode fromStr emit) s).vars.length = s.vars.length := by
  induction is generalizing s with
  | nil => rfl
  | cons i is ih => rw [List.foldl_cons, ih, loadNode_length]

theorem Sound.loadFileYaml (h : s.Sound) (root : YAML.Node) :
    (s.loadFileYaml fromStr emit root).Sound := by
  have hdatas : (s.loadFileYaml fromStr emit root).datas = s.datas := loadNodes_datas fromStr emit _
  have hlength : (s.loadFileYaml fromStr emit root).vars.length = s.vars.length :=
    loadNodes_length fromStr emit _
  refine ⟨?_, ?_, ?_⟩
  · intro x o hx
    rw [hlength]
    exact h.made x o (hdatas ▸ hx)
  · exact fun x y o hx hy => h.single x y o (hdatas ▸ hx) (hdatas ▸ hy)
  · exact fun x o hx => h.legal x o (hdatas ▸ hx)

end Config

namespace Users
variable [DecidableEq τ] [∀ t, BEq (Val t)] {fromStr : ∀ t, String → Option (Val t)}
  {emit : YAML.Node → String} {s s' : Users Val} {a : Action Val} {t : τ} {name : String} {o : Nat}

omit [∀ t, BEq (Val t)] in
theorem find_of_not_clashes (h : ¬ s.Clashes t name) : s.config.find t name = s.config.datas name := by
  cases ho : s.config.datas name with
  | none => rw [Config.find, ho, Option.filter_none]
  | some o =>
      rw [Config.find_eq_some]
      refine ⟨ho, ?_⟩
      by_contra htype
      exact h ⟨o, ho, eq_false_of_ne_true htype⟩

omit [∀ t, BEq (Val t)] in
theorem find_of_clashes (h : s.Clashes t name) : s.config.find t name = none := by
  obtain ⟨o, ho, htype⟩ := h
  rw [Config.find, ho, Option.filter_some, htype]
  rfl

omit [∀ t, BEq (Val t)] in
/-- The registry stays, and what is returned is the variable of the name, or null. -/
theorem Kept.returned (h : Kept s) {result : Option Nat}
    (hresult : ∀ o, result = some o → s.config.datas name = some o)
    (hclash : s.Clashes t name → result = none) : Kept (s.returned t name result) := by
  refine ⟨⟨?_, ?_⟩, h.sound⟩
  · intro x o hx
    rcases List.mem_append.mp hx with hnew | hold
    · obtain ⟨o', ho', heq⟩ := Option.map_eq_some_iff.mp (Option.mem_toList.mp hnew)
      cases heq
      exact hresult o ho'
    · exact h.bound.held x o hold
  · intro r hr
    simp only [Users.returned] at hr
    split at hr
    case isTrue hc =>
      rcases List.mem_cons.mp hr with rfl | hold
      · exact hclash hc
      · exact h.bound.clashes r hold
    case isFalse => exact h.bound.clashes r hr

omit [∀ t, BEq (Val t)] in
/-- A name that was free gets its variable. -/
theorem Kept.create (h : Kept s) (hfree : s.config.datas name = none)
    (hlegal : hasOnly lookupChars name = true) (v : Val t) :
    Kept { s.returned t name (some s.config.vars.length) with
      config := (s.config.create name t v).1 } := by
  have hclashes : ¬ s.Clashes t name := by
    rintro ⟨o, ho, -⟩
    cases hfree.symm.trans ho
  refine ⟨⟨?_, ?_⟩, h.sound.create hlegal v⟩
  · intro x o hx
    change (s.config.create name t v).1.datas x = some o
    rw [Config.create_datas]
    rcases List.mem_cons.mp hx with hnew | hold
    · cases hnew
      exact if_pos rfl
    · have ho : s.config.datas x = some o := h.bound.held x o hold
      rw [if_neg, ho]
      rintro rfl
      cases hfree.symm.trans ho
  · intro r hr
    simp only [Users.returned, if_neg hclashes] at hr
    exact h.bound.clashes r hr

theorem Kept.step (h : Kept s) (hs : s.step fromStr emit a = some s') (hagree : s.Agreeing a) :
    Kept s' := by
  cases a with
  | lookup t name v =>
      have hfind := find_of_not_clashes hagree
      simp only [Users.step] at hs
      split at hs
      case h_1 =>
        cases hs
        exact h
      case h_2 config o hlookup =>
        cases hs
        rcases Config.lookup_cases hlookup with ⟨rfl, hfound⟩ | ⟨hnone, hlegal, hcreate⟩
        · refine h.returned ?_ fun hc => absurd hc hagree
          intro o' ho'
          cases ho'
          exact hfind ▸ hfound
        · rw [Prod.ext_iff] at hcreate
          obtain ⟨rfl, rfl⟩ := hcreate
          exact h.create (hfind ▸ hnone) hlegal v
  | find t name =>
      cases hs
      refine h.returned (fun o ho => (Config.find_eq_some.mp ho).1) fun hc => find_of_clashes hc
  | lookupBase name =>
      cases hs
      refine ⟨⟨?_, h.bound.clashes⟩, h.sound⟩
      intro x o hx
      rcases List.mem_append.mp hx with hnew | hold
      · obtain ⟨o', ho', heq⟩ := Option.map_eq_some_iff.mp (Option.mem_toList.mp hnew)
        cases heq
        exact ho'
      · exact h.bound.held x o hold
  | loadFileYaml root =>
      cases hs
      have hdatas : (s.config.loadFileYaml fromStr emit root).datas = s.config.datas :=
        Config.loadNodes_datas fromStr emit _
      refine ⟨⟨?_, h.bound.clashes⟩, h.sound.loadFileYaml fromStr emit root⟩
      intro x o hx
      change (s.config.loadFileYaml fromStr emit root).datas x = some o
      rw [hdatas]
      exact h.bound.held x o hx

theorem Kept.broken (h : Kept s) (hs : s.step fromStr emit a = some s') (hagree : ¬ s.Agreeing a) :
    ¬ Bound s' := by
  cases a with
  | lookup t name v =>
      have hclash : s.Clashes t name := not_not.mp hagree
      obtain ⟨o, ho, -⟩ := id hclash
      simp only [Users.step, Config.lookup, find_of_clashes hclash, h.sound.legal name o ho, if_true] at hs
      cases hs
      intro hbound
      have hnull := hbound.clashes (some s.config.vars.length)
        (by simp [Users.returned, hclash, Config.create])
      cases hnull
  | find t name => exact absurd trivial hagree
  | lookupBase name => exact absurd trivial hagree
  | loadFileYaml root => exact absurd trivial hagree

omit [DecidableEq τ] [∀ t, BEq (Val t)] in
theorem new_kept : Kept (new : Users Val) :=
  ⟨⟨fun _ _ h => absurd h List.not_mem_nil, fun _ h => absurd h List.not_mem_nil⟩,
    Config.new_sound⟩

/-- A variable is never replaced exactly as long as no name is looked up with a default of another
type. -/
theorem variable_permanent (fromStr : ∀ t, String → Option (Val t)) (emit : YAML.Node → String)
    (as : List (Action Val)) :
    Always (step fromStr emit) Bound new as ↔ Each (step fromStr emit) Agreeing new as :=
  always_iff_each (fun _ _ _ h hs hagree => h.step hs hagree)
    (fun _ _ _ h hs hagree => h.broken hs hagree) (fun _ h => h.bound) new_kept as

/-- `system.port` is a number, and then a text. -/
theorem variable_replaced : ¬ ∀ (fromStr : ∀ _ : Bool, String → Option Nat) (emit : YAML.Node → String)
    (as : List (Action fun _ : Bool => Nat)), Always (step fromStr emit) Bound new as := by
  intro h
  have hbound := always_end (h (fun _ _ => none) (fun _ => "")
    [.lookup false "system.port" 8080, .lookup true "system.port" 0]) rfl
  have hheld := hbound.held "system.port" 0 (by decide)
  exact absurd hheld (by decide)

end Users
end HCServer.Configuration
