import HCServer.Lib.Yaml
import HCServer.Log.Model

/-! The definitions of the loggers as YAML text: `LexicalCast` in both directions. `emit` and `load` are
yaml-cpp's; what throws is `none`. -/
namespace HCServer.Log
open Lib

def LogLevel.ToString : LogLevel → String
  | .DEBUG => "DEBUG"
  | .INFO => "INFO"
  | .WARN => "WARN"
  | .ERROR => "ERROR"
  | .FATAL => "FATAL"
  | _ => "UNKNOW"

def LogLevel.FromString (str : String) : LogLevel :=
  if str = "debug" then .DEBUG
  else if str = "info" then .INFO
  else if str = "warn" then .WARN
  else if str = "error" then .ERROR
  else if str = "fatal" then .FATAL
  else if str = "DEBUG" then .DEBUG
  else if str = "INFO" then .INFO
  else if str = "WARN" then .WARN
  else if str = "ERROR" then .ERROR
  else if str = "FATAL" then .FATAL
  else .UNKONW

/-! ### Encoding -/

def textEntry (key text : String) : List (String × YAML.Node) :=
  if text = "" then [] else [(key, .scalar text)]

def LogAppenderDefine.encode (a : LogAppenderDefine) : YAML.Node :=
  .map ((if a.type = 0 then
      [("type", .scalar "FileLogAppender"), ("filename", .scalar a.filename)]
    else if a.type = 1 then [("type", .scalar "StdOutLogAppender")]
    else []) ++
    ("level", .scalar a.level.ToString) :: textEntry "formatter" a.formatter)

def LogDefine.encode (i : LogDefine) : YAML.Node :=
  .map (("name", .scalar i.name) ::
    ((if i.level = .UNKONW then [] else [("level", .scalar i.level.ToString)]) ++
      textEntry "formatter" i.formatter ++
      if i.appenders = [] then []
      else [("appenders", .sequence (i.appenders.map LogAppenderDefine.encode))]))

def LogDefines.encode (v : LogDefines) : YAML.Node :=
  if v.1 = [] then .null else .sequence (v.1.map LogDefine.encode)

/-- `LexicalCast<set<LogDefine>, string>` -/
def toYaml (emit : YAML.Node → String) (v : LogDefines) : String := emit v.encode

/-! ### Decoding -/

/-- `n[key]`, which throws for a scalar; the inner `none` is a node that is not defined. -/
def field (key : String) : YAML.Node → Option (Option YAML.Node)
  | .scalar _ => none
  | .map entries => some (entries.lookup key)
  | _ => some none

/-- `as<string>()` -/
def asString : YAML.Node → Option String
  | .scalar text => some text
  | _ => none

/-- The text of a field, or `other` where it is not defined. -/
def textOr (other : String) : Option YAML.Node → Option String
  | none => some other
  | some n => asString n

/-- `node[i]` for `i` below `node.size()`, where it is defined. -/
def elements : YAML.Node → List YAML.Node
  | .sequence items => items
  | .map entries => (List.range entries.length).filterMap fun i => entries.lookup (toString i)
  | _ => []

/-- An appender, `some none` for one that is skipped. -/
def decodeAppender (a : YAML.Node) : Option (Option LogAppenderDefine) := do
  match ← field "type" a with
  | none => some none
  | some type =>
    let type ← asString type
    if type = "FileLogAppender" then
      match ← field "filename" a with
      | none => some none
      | some filename =>
        let filename ← asString filename
        let formatter ← textOr "" (← field "formatter" a)
        some (some ⟨0, .UNKONW, formatter, filename⟩)
    else if type = "StdOutLogAppender" then some (some ⟨1, .UNKONW, "", ""⟩)
    else some none

def decodeAppenders : Option YAML.Node → Option (List LogAppenderDefine)
  | none => some []
  | some as => ((elements as).mapM decodeAppender).map List.reduceOption

def decodeDefine (n : YAML.Node) : Option (Option LogDefine) := do
  match ← field "name" n with
  | none => some none
  | some name =>
    let name ← asString name
    let level ← textOr " " (← field "level" n)
    let formatter ← textOr "" (← field "formatter" n)
    let appenders ← decodeAppenders (← field "appenders" n)
    some (some ⟨name, .FromString level, formatter, appenders⟩)

namespace LogDefines

def empty : LogDefines := ⟨[], List.Pairwise.nil⟩

def insert (se : LogDefines) (ld : LogDefine) : LogDefines :=
  ⟨OrderedSet.insert LogDefine.before ld se.1, OrderedSet.pairwise_insert_of_trans before_trans se.2⟩

def decode (node : YAML.Node) : Option LogDefines :=
  (elements node).foldlM (fun se n => (decodeDefine n).map fun ld => ld.elim se se.insert) empty

end LogDefines

/-- `LexicalCast<string, set<LogDefine>>` -/
def fromYaml (load : String → Option YAML.Node) (v : String) : Option LogDefines :=
  (load v).bind LogDefines.decode

/-! ### What is read back -/

/-- The decoder reads no level of an appender, and nothing else of one for the console. -/
def LogAppenderDefine.reread (a : LogAppenderDefine) : LogAppenderDefine :=
  if a.type = 0 then ⟨0, .UNKONW, a.formatter, a.filename⟩ else ⟨1, .UNKONW, "", ""⟩

def LogDefine.reread (i : LogDefine) : LogDefine :=
  { i with appenders := i.appenders.map LogAppenderDefine.reread }

theorem FromString_ToString {level : LogLevel} (h : ∀ number, level ≠ .cast number) :
    LogLevel.FromString level.ToString = level := by
  cases level with
  | cast number => exact absurd rfl (h number)
  | _ => rfl

theorem decodeAppender_encode {a : LogAppenderDefine} (h : a.type = 0 ∨ a.type = 1) :
    decodeAppender a.encode = some (some a.reread) := by
  rw [LogAppenderDefine.encode, LogAppenderDefine.reread, textEntry]
  rcases h with htype | htype
  · by_cases hformatter : a.formatter = ""
    · simp [decodeAppender, field, asString, textOr, htype, hformatter, List.lookup_cons]
    · simp [decodeAppender, field, asString, textOr, htype, hformatter, List.lookup_cons]
  · simp [decodeAppender, field, asString, htype, List.lookup_cons]

theorem decodeAppenders_encode {as : List LogAppenderDefine}
    (h : ∀ a ∈ as, a.type = 0 ∨ a.type = 1) :
    (as.map LogAppenderDefine.encode).mapM decodeAppender =
      some ((as.map LogAppenderDefine.reread).map some) := by
  induction as with
  | nil => rfl
  | cons a as ih =>
      rw [List.map_cons, List.mapM_cons, decodeAppender_encode (h a List.mem_cons_self),
        ih fun b hb => h b (List.mem_cons_of_mem a hb)]
      rfl

theorem reduceOption_map_some {α : Type} (xs : List α) : (xs.map some).reduceOption = xs := by
  induction xs with
  | nil => rfl
  | cons x xs ih => exact congrArg (x :: ·) ih

theorem decodeAppenders_sequence {as : List LogAppenderDefine}
    (h : ∀ a ∈ as, a.type = 0 ∨ a.type = 1) :
    decodeAppenders (some (.sequence (as.map LogAppenderDefine.encode))) =
      some (as.map LogAppenderDefine.reread) := by
  rw [decodeAppenders, elements, decodeAppenders_encode h, Option.map_some, reduceOption_map_some]

theorem lookup_self (c : Prop) [Decidable c] (key : String) (n : YAML.Node) :
    (if c then [] else [(key, n)]).lookup key = if c then none else some n := by
  split
  · rfl
  · simp

theorem lookup_other (c : Prop) [Decidable c] {k key : String} (h : (k == key) = false) (n : YAML.Node) :
    (if c then [] else [(key, n)]).lookup k = none := by
  split
  · rfl
  · simp [List.lookup_cons, h]

namespace LogDefine
variable (i : LogDefine)

/-- The entries of an encoded definition behind its name. -/
theorem encode_field {key : String} (h : (key == "name") = false) : field key i.encode =
    some ((((if i.level = .UNKONW then [] else [("level", YAML.Node.scalar i.level.ToString)]).lookup
        key).or ((textEntry "formatter" i.formatter).lookup key)).or
      ((if i.appenders = [] then []
        else [("appenders", YAML.Node.sequence (i.appenders.map LogAppenderDefine.encode))]).lookup key)) := by
  rw [encode, field, List.lookup_cons, h, List.lookup_append, List.lookup_append]

theorem encode_name : field "name" i.encode = some (some (.scalar i.name)) := rfl

theorem encode_level : field "level" i.encode =
    some (if i.level = .UNKONW then none else some (.scalar i.level.ToString)) := by
  rw [encode_field i rfl, textEntry, lookup_self, lookup_other _ rfl, lookup_other _ rfl,
    Option.or_none, Option.or_none]

theorem encode_formatter : field "formatter" i.encode =
    some (if i.formatter = "" then none else some (.scalar i.formatter)) := by
  rw [encode_field i rfl, textEntry, lookup_self, lookup_other _ rfl, lookup_other _ rfl,
    Option.none_or, Option.or_none]

theorem encode_appenders : field "appenders" i.encode =
    some (if i.appenders = [] then none
      else some (.sequence (i.appenders.map LogAppenderDefine.encode))) := by
  rw [encode_field i rfl, textEntry, lookup_self, lookup_other _ rfl, lookup_other _ rfl,
    Option.none_or, Option.none_or]

end LogDefine

/-- Of a definition only the appenders change. -/
theorem decodeDefine_encode {i : LogDefine} (hlevel : ∀ number, i.level ≠ .cast number)
    (htypes : ∀ a ∈ i.appenders, a.type = 0 ∨ a.type = 1) :
    decodeDefine i.encode = some (some i.reread) := by
  have hlevel' : (textOr " " (if i.level = .UNKONW then none
      else some (.scalar i.level.ToString))).map LogLevel.FromString = some i.level := by
    split
    case isTrue hunknown =>
      rw [hunknown]
      rfl
    case isFalse => exact congrArg some (FromString_ToString hlevel)
  have hformatter : textOr "" (if i.formatter = "" then none else some (.scalar i.formatter)) =
      some i.formatter := by
    split
    case isTrue hempty => exact congrArg some hempty.symm
    case isFalse => rfl
  have happenders : decodeAppenders (if i.appenders = [] then none
      else some (.sequence (i.appenders.map LogAppenderDefine.encode))) =
      some (i.appenders.map LogAppenderDefine.reread) := by
    split
    case isTrue hnil =>
      rw [hnil]
      rfl
    case isFalse => exact decodeAppenders_sequence htypes
  obtain ⟨level, htext, hread⟩ := Option.map_eq_some_iff.mp hlevel'
  simp only [decodeDefine, i.encode_name, i.encode_level, i.encode_formatter, i.encode_appenders,
    Option.bind_eq_bind, Option.bind_some, asString, htext, hformatter, happenders, hread]
  rfl

namespace LogDefines

theorem pairwise_reread (v : LogDefines) : (v.1.map LogDefine.reread).Pairwise LogDefine.before :=
  List.pairwise_map.mpr v.2

/-- The definitions go in behind each other. -/
theorem decode_definitions {is : List LogDefine} (hlevels : ∀ i ∈ is, ∀ number, i.level ≠ .cast number)
    (htypes : ∀ i ∈ is, ∀ a ∈ i.appenders, a.type = 0 ∨ a.type = 1) (se : LogDefines)
    (hsorted : (se.1 ++ is.map LogDefine.reread).Pairwise LogDefine.before) :
    (is.map LogDefine.encode).foldlM
        (fun se n => (decodeDefine n).map fun ld => ld.elim se se.insert) se =
      some ⟨se.1 ++ is.map LogDefine.reread, hsorted⟩ := by
  induction is generalizing se with
  | nil => exact congrArg some (Subtype.ext (List.append_nil _).symm)
  | cons i is ih =>
      have hlast : ∀ it ∈ se.1, it.before i.reread := fun it hit =>
        (List.pairwise_append.mp hsorted).2.2 it hit _ List.mem_cons_self
      have hinsert : (se.insert i.reread).1 = se.1 ++ [i.reread] := OrderedSet.insert_last hlast
      have happend : (se.insert i.reread).1 ++ is.map LogDefine.reread =
          se.1 ++ (i :: is).map LogDefine.reread := by
        rw [hinsert, List.append_assoc]
        rfl
      rw [List.map_cons, List.foldlM_cons, decodeDefine_encode (hlevels i List.mem_cons_self)
        (htypes i List.mem_cons_self)]
      refine (ih (fun j hj => hlevels j (List.mem_cons_of_mem i hj))
        (fun j hj => htypes j (List.mem_cons_of_mem i hj)) (se.insert i.reread)
        (happend ▸ hsorted)).trans ?_
      exact congrArg some (Subtype.ext happend)

theorem decode_encode {v : LogDefines} (hlevels : ∀ i ∈ v.1, ∀ number, i.level ≠ .cast number)
    (htypes : ∀ i ∈ v.1, ∀ a ∈ i.appenders, a.type = 0 ∨ a.type = 1) :
    decode v.encode = some ⟨v.1.map LogDefine.reread, pairwise_reread v⟩ := by
  have hall := decode_definitions hlevels htypes empty (pairwise_reread v)
  rw [decode, encode]
  split
  case isTrue hnil =>
    simp only [hnil]
    rfl
  case isFalse => exact hall

end LogDefines

/-! ### The round trip -/

/-- The decoder loses nothing of the appender. -/
def LogAppenderDefine.Kept (a : LogAppenderDefine) : Prop :=
  a.level = .UNKONW ∧ (a.type = 1 → a.filename = "" ∧ a.formatter = "")

theorem reread_eq_iff {a : LogAppenderDefine} (h : a.type = 0 ∨ a.type = 1) :
    a.reread = a ↔ a.Kept := by
  obtain ⟨type, level, formatter, filename⟩ := a
  rw [LogAppenderDefine.reread, LogAppenderDefine.Kept]
  rcases h with rfl | rfl
  · simp [eq_comm]
  · simp [eq_comm, and_comm]

theorem map_eq_self_iff {α : Type} {f : α → α} {xs : List α} :
    xs.map f = xs ↔ ∀ x ∈ xs, f x = x := by
  have hid := List.map_inj_left (l := xs) (f := f) (g := id)
  rwa [List.map_id] at hid

theorem define_reread_eq_iff {i : LogDefine} (htypes : ∀ a ∈ i.appenders, a.type = 0 ∨ a.type = 1) :
    i.reread = i ↔ ∀ a ∈ i.appenders, a.Kept := by
  have hparts : i.reread = i ↔ i.appenders.map LogAppenderDefine.reread = i.appenders := by
    constructor
    · exact congrArg LogDefine.appenders
    · intro h
      rw [LogDefine.reread, h]
  rw [hparts, map_eq_self_iff]
  exact forall₂_congr fun a ha => reread_eq_iff (htypes a ha)

/-- The definitions are read back as they were exactly if no appender has a level, and none for the
console a file name or a formatter. -/
theorem defines_round_trip (emit : YAML.Node → String) (load : String → Option YAML.Node) (v : LogDefines)
    (hyaml : load (emit v.encode) = some v.encode)
    (hlevels : ∀ i ∈ v.1, ∀ number, i.level ≠ .cast number)
    (htypes : ∀ i ∈ v.1, ∀ a ∈ i.appenders, a.type = 0 ∨ a.type = 1) :
    fromYaml load (toYaml emit v) = some v ↔ ∀ i ∈ v.1, ∀ a ∈ i.appenders, a.Kept := by
  rw [fromYaml, toYaml, hyaml, Option.bind_some, LogDefines.decode_encode hlevels htypes,
    Option.some_inj, Subtype.ext_iff, map_eq_self_iff]
  exact forall₂_congr fun i hi => define_reread_eq_iff (htypes i hi)

/-- One logger that writes to a file. -/
def oneFile (level : LogLevel) : LogDefines :=
  ⟨[⟨"system", .INFO, "", [⟨0, level, "%m%n", "system.log"⟩]⟩], List.pairwise_singleton _ _⟩

/-- The text that yaml-cpp emits for it. -/
def oneFileText (level : LogLevel) : String :=
  "- name: system\n  level: INFO\n  appenders:\n    - type: FileLogAppender\n      filename: system.log\n      level: " ++
    level.ToString ++ "\n      formatter: \"%m%n\""

def loadOneFile (level : LogLevel) (text : String) : Option YAML.Node :=
  if text = oneFileText level then some (oneFile level).encode else none

theorem oneFile_level (level : LogLevel) :
    ∀ i ∈ (oneFile level).1, ∀ number, i.level ≠ .cast number := by
  intro i hi number
  rw [List.mem_singleton.mp hi]
  exact LogLevel.noConfusion

theorem oneFile_appender {level : LogLevel} {i : LogDefine} {a : LogAppenderDefine}
    (hi : i ∈ (oneFile level).1) (ha : a ∈ i.appenders) : a = ⟨0, level, "%m%n", "system.log"⟩ := by
  rw [List.mem_singleton.mp hi] at ha
  exact List.mem_singleton.mp ha

theorem file_round_trip : fromYaml (loadOneFile .UNKONW)
    (toYaml (fun _ => oneFileText .UNKONW) (oneFile .UNKONW)) = some (oneFile .UNKONW) := by
  refine (defines_round_trip _ _ _ (if_pos rfl) (oneFile_level _) ?_).mpr ?_
  · intro i hi a ha
    rw [oneFile_appender hi ha]
    exact Or.inl rfl
  · intro i hi a ha
    rw [oneFile_appender hi ha]
    exact ⟨rfl, fun h => absurd h (by decide)⟩

/-- The level of an appender is lost. -/
theorem appender_level_lost : ¬ ∀ (emit : YAML.Node → String) (load : String → Option YAML.Node)
    (v : LogDefines), load (emit v.encode) = some v.encode →
    (∀ i ∈ v.1, ∀ number, i.level ≠ .cast number) →
    (∀ i ∈ v.1, ∀ a ∈ i.appenders, (∀ number, a.level ≠ .cast number) ∧ (a.type = 0 ∨ a.type = 1)) →
    fromYaml load (toYaml emit v) = some v := by
  intro h
  have htypes : ∀ i ∈ (oneFile .ERROR).1, ∀ a ∈ i.appenders,
      (∀ number, a.level ≠ .cast number) ∧ (a.type = 0 ∨ a.type = 1) := by
    intro i hi a ha
    rw [oneFile_appender hi ha]
    exact ⟨fun _ => LogLevel.noConfusion, Or.inl rfl⟩
  have hround := h (fun _ => oneFileText .ERROR) (loadOneFile .ERROR) (oneFile .ERROR) (if_pos rfl)
    (oneFile_level _) htypes
  have hload : loadOneFile .ERROR (oneFileText .ERROR) = some (oneFile .ERROR).encode := if_pos rfl
  rw [fromYaml, toYaml, hload, Option.bind_some, LogDefines.decode_encode (oneFile_level _)
    fun i hi a ha => (htypes i hi a ha).2] at hround
  exact absurd hround (by decide)

end HCServer.Log
