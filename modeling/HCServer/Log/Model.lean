import HCServer.Lib.Keyed
import HCServer.Lib.OrderedSet
import Mathlib.Data.String.Basic

/-! Loggers with their appenders and formatters, and the definitions they are configured by. A shared
pointer is the value that it points to. -/
namespace HCServer.Log
open Lib

inductive LogLevel
  | UNKONW
  | DEBUG
  | INFO
  | WARN
  | ERROR
  | FATAL
  /-- A number that is none of these, made by a cast. -/
  | cast (number : Nat)
  deriving DecidableEq

def LogLevel.number : LogLevel → Nat
  | .UNKONW => 0
  | .DEBUG => 1
  | .INFO => 2
  | .WARN => 3
  | .ERROR => 4
  | .FATAL => 5
  | .cast number => number

/-! ### Formatters -/

inductive FormatItem
  | string (str : String)
  /-- The item that `s_format_items` makes for a key. -/
  | field (key fmt : String)

structure LogFormatter where
  m_pattern : String
  m_items : List FormatItem
  m_error : Bool

namespace LogFormatter

/-- The keys of `s_format_items`. -/
def keys : List String := ["m", "p", "r", "c", "t", "n", "d", "f", "l", "T", "F", "N"]

/-- An element of `vec`. -/
inductive Part
  | text (nstr : String)
  | item (str fmt : String)
  | error

/-- The part in braces and what follows it, `none` where the brace is not closed. -/
def argument (str fmt : List Char) : List Char → Option (Part × List Char)
  | [] => none
  | c :: cs =>
      if c = '}' then some (.item (.ofList str) (.ofList fmt), cs) else argument str (fmt ++ [c]) cs

/-- The inner loop of `init`, from behind the `%` on. -/
def item (str : List Char) : List Char → Option (Part × List Char)
  | [] => some (.item (.ofList str) "", [])
  | c :: cs =>
      if !c.isAlpha && c ≠ '{' && c ≠ '}' then some (.item (.ofList str) "", c :: cs)
      else if c = '{' then argument str [] cs
      else item (str ++ [c]) cs

theorem argument_length {str fmt cs rest : List Char} {part : Part}
    (h : argument str fmt cs = some (part, rest)) : rest.length ≤ cs.length := by
  induction cs generalizing fmt with
  | nil => cases h
  | cons c cs ih =>
      rw [argument] at h
      split at h
      · cases h
        exact Nat.le_succ _
      · exact (ih h).trans (Nat.le_succ _)

theorem item_length {str cs rest : List Char} {part : Part}
    (h : item str cs = some (part, rest)) : rest.length ≤ cs.length := by
  induction cs generalizing str with
  | nil =>
      cases h
      exact Nat.le_refl _
  | cons c cs ih =>
      rw [item] at h
      split at h
      · cases h
        exact Nat.le_refl _
      · split at h
        · exact (argument_length h).trans (Nat.le_succ _)
        · exact (ih h).trans (Nat.le_succ _)

def flush (nstr : List Char) : List Part := if nstr.isEmpty then [] else [.text (.ofList nstr)]

/-- The outer loop of `init`. The second of two `%` is looked at again, and so is everything behind a
`%` whose brace is not closed. -/
def parts (nstr : List Char) : List Char → List Part
  | [] => flush nstr
  | c :: cs =>
      if c ≠ '%' then parts (nstr ++ [c]) cs
      else if cs.head? = some '%' then parts (nstr ++ ['%']) cs
      else
        match _hitem : item [] cs with
        | some (part, rest) => flush nstr ++ part :: parts [] rest
        | none => .error :: parts nstr cs
termination_by cs => cs.length
decreasing_by
  · exact Nat.lt_succ_self _
  · exact Nat.lt_succ_self _
  · exact Nat.lt_succ_of_le (item_length _hitem)
  · exact Nat.lt_succ_self _

def Part.formatItem : Part → FormatItem
  | .text nstr => .string nstr
  | .item str fmt =>
      if str ∈ keys then .field str fmt else .string ("<<error_format %" ++ str ++ ">>")
  | .error => .string "<<pattern error>>"

def Part.isError : Part → Bool
  | .text _ => false
  | .item str _ => !keys.contains str
  | .error => true

def new (pattern : String) : LogFormatter :=
  let vec := parts [] pattern.toList
  ⟨pattern, vec.map Part.formatItem, vec.any Part.isError⟩

/-- The formatter that `Logger` is constructed with. -/
def standard : LogFormatter := new "%d{%Y-%m-%d %H:%M:%S}%T%t%T%F%T%N%T[%p]%T[%c]%T%f:%l%T%m%n"

end LogFormatter

/-! ### Loggers -/

inductive Output
  | file (filename : String)
  | stdout

structure LogAppender where
  output : Output
  m_level : LogLevel
  m_hasFormatte : Bool
  m_formatter : Option LogFormatter

namespace LogAppender

def new (output : Output) : LogAppender := ⟨output, .DEBUG, false, none⟩

def SetLevel (ap : LogAppender) (level : LogLevel) : LogAppender := { ap with m_level := level }

def SetLogFormatter (ap : LogAppender) (val : LogFormatter) : LogAppender :=
  { ap with
    m_formatter := some val
    m_hasFormatte := true }

end LogAppender

structure Logger where
  m_name : String
  m_level : LogLevel
  m_appenders : List LogAppender
  m_formatter : LogFormatter

namespace Logger

def new (name : String) : Logger := ⟨name, .DEBUG, [], .standard⟩

/-- Whether `log` lets an event of this level pass. -/
def passes (logger : Logger) (level : LogLevel) : Bool :=
  decide (logger.m_level.number ≤ level.number)

def SetLevel (logger : Logger) (level : LogLevel) : Logger := { logger with m_level := level }

/-- `setFormatter(LogFormatter::ptr)` -/
def setFormatter (logger : Logger) (val : LogFormatter) : Logger :=
  { logger with
    m_formatter := val
    m_appenders := logger.m_appenders.map fun i =>
      if i.m_hasFormatte then i else { i with m_formatter := some val } }

/-- `setFormatter(const string&)` -/
def setPattern (logger : Logger) (val : String) : Logger :=
  if (LogFormatter.new val).m_error then logger else logger.setFormatter (.new val)

def clearAppender (logger : Logger) : Logger := { logger with m_appenders := [] }

def AddAppender (logger : Logger) (appender : LogAppender) : Logger :=
  { logger with
    m_appenders := logger.m_appenders ++
      [{ appender with m_formatter := some (appender.m_formatter.getD logger.m_formatter) }] }

end Logger

/-- The loggers of the manager, by name. -/
abbrev LoggerManager := String → Option Logger

/-! ### Definitions -/

structure LogAppenderDefine where
  type : Int
  level : LogLevel
  formatter : String
  filename : String
  deriving DecidableEq

/-- `operator==`, which does not look at the level. -/
instance : BEq LogAppenderDefine :=
  ⟨fun a oth => a.type == oth.type && a.formatter == oth.formatter && a.filename == oth.filename⟩

structure LogDefine where
  name : String
  level : LogLevel
  formatter : String
  appenders : List LogAppenderDefine
  deriving DecidableEq

instance : BEq LogDefine :=
  ⟨fun i oth => i.name == oth.name && decide (i.level = oth.level) && i.formatter == oth.formatter &&
    i.appenders == oth.appenders⟩

/-- `operator<` -/
def LogDefine.before (i oth : LogDefine) : Prop := i.name < oth.name

instance : DecidableRel LogDefine.before := fun i oth => inferInstanceAs (Decidable (i.name < oth.name))

theorem before_trans (i j k : LogDefine) : i.before j → j.before k → i.before k := lt_trans

theorem before_weak (i j k : LogDefine) (h : i.before j) : i.before k ∨ k.before j :=
  (lt_or_ge i.name k.name).imp_right fun hle => lt_of_le_of_lt hle h

/-- `set<LogDefine>` -/
abbrev LogDefines := { l : List LogDefine // l.Pairwise LogDefine.before }

end HCServer.Log
