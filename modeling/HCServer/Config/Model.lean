import HCServer.Lib.Yaml
import HCServer.Lib.Transition
import Mathlib.Logic.Function.Basic

/-! `Config`: the registry of configuration variables, `Lookup` and `LoadFileYaml`. The types of the
variables are `τ`, with `Val t` the values of type `t`; `fromStr` converts a text, `none` where it
throws, and `emit` is the text that yaml-cpp writes for a node. Variables are numbered as they are
made. -/
namespace HCServer.Configuration
open Lib

/-- `name.find_first_not_of(chars) == string::npos` -/
def hasOnly (chars name : String) : Bool := name.toList.all fun c => chars.toList.contains c

/-- The characters that `Lookup` lets pass. -/
def lookupChars : String := "abcdefghijklmnopqrstuvwxyzABCDEFGHIJKLMNOPQRSTUVWXYZ._012345689"

/-- The characters that `ListAllMember` lets pass. -/
def memberChars : String := "abcdefghikjlmnopqrstuvwxyzABCDEFGHIJKLMNOPQRSTUVWXYZ._012345678"

def extend (pre key : String) : String := if pre = "" then key else pre ++ "." ++ key

mutual

def listAllMember (pre : String) : YAML.Node → List (String × YAML.Node)
  | .map entries =>
      if hasOnly memberChars pre then (pre, .map entries) :: listEntries pre entries else []
  | n => if hasOnly memberChars pre then [(pre, n)] else []

/-- The loop of `ListAllMember` over a map. -/
def listEntries (pre : String) : List (String × YAML.Node) → List (String × YAML.Node)
  | [] => []
  | (key, n) :: entries => listAllMember (extend pre key) n ++ listEntries pre entries

end

variable {τ : Type} {Val : τ → Type}

structure ConfigVar (Val : τ → Type) where
  type : τ
  val : Val type

structure Config (Val : τ → Type) where
  datas : String → Option Nat
  vars : List (ConfigVar Val)

namespace ConfigVar
variable [∀ t, BEq (Val t)] (fromStr : ∀ t, String → Option (Val t))

def setValue (c : ConfigVar Val) (v : Val c.type) : ConfigVar Val :=
  if v == c.val then c else ⟨c.type, v⟩

def fromString (c : ConfigVar Val) (text : String) : ConfigVar Val :=
  match fromStr c.type text with
  | none => c
  | some v => c.setValue v

end ConfigVar

namespace Config

def new : Config Val := ⟨fun _ => none, []⟩

def create (s : Config Val) (name : String) (t : τ) (default_value : Val t) : Config Val × Nat :=
  (⟨Function.update s.datas name (some s.vars.length), s.vars ++ [⟨t, default_value⟩]⟩,
    s.vars.length)

/-- `LookupBase(name)` -/
def lookupBase (s : Config Val) (name : String) : Option Nat := s.datas name

variable [DecidableEq τ]

/-- Whether `dynamic_pointer_cast<ConfigVar<t>>` succeeds. -/
def isOfType (s : Config Val) (t : τ) (o : Nat) : Bool :=
  decide ((s.vars[o]?).map ConfigVar.type = some t)

/-- `Lookup<t>(name)` -/
def find (s : Config Val) (t : τ) (name : String) : Option Nat :=
  (s.datas name).filter (s.isOfType t)

/-- `Lookup<t>(name, default_value)`, `none` for `invalid_argument`. -/
def lookup (s : Config Val) (t : τ) (name : String) (default_value : Val t) :
    Option (Config Val × Nat) :=
  match s.find t name with
  | some o => some (s, o)
  | none => if hasOnly lookupChars name then some (s.create name t default_value) else none

section
variable [∀ t, BEq (Val t)] (fromStr : ∀ t, String → Option (Val t)) (emit : YAML.Node → String)

omit [DecidableEq τ]

/-- The text of a node as `LoadFileYaml` hands it to `fromString`. -/
def textOf (n : YAML.Node) : String := if n.IsScalar then n.Scalar else emit n

/-- What `LoadFileYaml` does with one of the listed nodes. -/
def loadNode (s : Config Val) (i : String × YAML.Node) : Config Val :=
  if i.1 = "" then s
  else
    match s.lookupBase i.1.toLower with
    | none => s
    | some o =>
        { s with vars := s.vars.modify o fun c => c.fromString fromStr (textOf emit i.2) }

def loadFileYaml (s : Config Val) (root : YAML.Node) : Config Val :=
  (listAllMember "" root).foldl (loadNode fromStr emit) s

end

end Config

/-- The registry with what its users know: the variables that `Lookup` has returned, with their names,
and the results for names that were bound with another type. -/
structure Users (Val : τ → Type) where
  config : Config Val
  held : List (String × Nat)
  clashes : List (Option Nat)

inductive Action (Val : τ → Type)
  | lookup (t : τ) (name : String) (default_value : Val t)
  | find (t : τ) (name : String)
  | lookupBase (name : String)
  | loadFileYaml (root : YAML.Node)

namespace Users
variable [DecidableEq τ] [∀ t, BEq (Val t)] (fromStr : ∀ t, String → Option (Val t))
  (emit : YAML.Node → String)

def new : Users Val := ⟨.new, [], []⟩

/-- The name is bound to a variable of another type. -/
def Clashes (s : Users Val) (t : τ) (name : String) : Prop :=
  ∃ o, s.config.datas name = some o ∧ s.config.isOfType t o = false

instance (s : Users Val) (t : τ) (name : String) : Decidable (s.Clashes t name) :=
  match h : s.config.datas name with
  | none => isFalse fun ⟨_, ho, _⟩ => by cases h.symm.trans ho
  | some o => decidable_of_iff (s.config.isOfType t o = false)
      ⟨fun hty => ⟨o, h, hty⟩, fun ⟨_, ho, hty⟩ => Option.some.inj (h.symm.trans ho) ▸ hty⟩

def returned (s : Users Val) (t : τ) (name : String) (result : Option Nat) : Users Val :=
  { s with
    held := (result.map fun o => (name, o)).toList ++ s.held
    clashes := if s.Clashes t name then result :: s.clashes else s.clashes }

def step (s : Users Val) : Action Val → Option (Users Val)
  | .lookup t name default_value =>
      match s.config.lookup t name default_value with
      | none => some s
      | some (config, o) => some { s.returned t name (some o) with config }
  | .find t name => some (s.returned t name (s.config.find t name))
  | .lookupBase name =>
      some { s with held := ((s.config.lookupBase name).map fun o => (name, o)).toList ++ s.held }
  | .loadFileYaml root => some { s with config := s.config.loadFileYaml fromStr emit root }

end Users
end HCServer.Configuration
