import HCServer.Log.Codec
import HCServer.Log.Pattern
import HCServer.Log.Reload
import HCServer.Lib.Transition
import Mathlib.Data.List.Induction

/-! What a call of one of the log macros writes, and where. An event goes to the appenders of its logger, and
to those of the root logger where it has none. -/
namespace HCServer.Log
open Lib LogFormatter

/-- `strftime` into `buf`, in the zone of the process. -/
abbrev Strftime := String → Nat → String

/-- `logger` is the name of `getlogger()`, `content` what has been streamed into the event. -/
structure LogEvent where
  logger : String
  level : LogLevel
  file : String
  line : Int
  elapse : Nat
  threadId : Nat
  fiberId : Nat
  time : Nat
  threadName : String
  content : String

variable (strftime : Strftime)

namespace FormatItem

/-- The items of `s_format_items`, by their keys. Only the one for the time looks at `fmt`. -/
def fieldText (key fmt : String) (level : LogLevel) (event : LogEvent) : String :=
  if key = "m" then event.content
  else if key = "p" then level.ToString
  else if key = "r" then toString event.elapse
  else if key = "c" then event.logger
  else if key = "t" then toString event.threadId
  else if key = "n" then "\n"
  else if key = "d" then strftime (if fmt = "" then "%Y-%m-%d %H:%M:%S" else fmt) event.time
  else if key = "f" then event.file
  else if key = "l" then toString event.line
  else if key = "T" then "\t"
  else if key = "F" then toString event.fiberId
  else if key = "N" then event.threadName
  else ""

def Format (level : LogLevel) (event : LogEvent) : FormatItem → String
  | .string str => str
  | .field key fmt => fieldText strftime key fmt level event

end FormatItem

def LogFormatter.format (formatter : LogFormatter) (level : LogLevel) (event : LogEvent) : String :=
  formatter.m_items.foldl (fun ss i => ss ++ i.Format strftime level event) ""

/-- A null formatter is `none`. -/
def LogAppender.log (ap : LogAppender) (level : LogLevel) (event : LogEvent) :
    Option (List (Output × String)) :=
  if ap.m_level.number ≤ level.number then
    ap.m_formatter.map fun formatter => [(ap.output, formatter.format strftime level event)]
  else some []

/-- The loop over the appenders. -/
def Logger.append (logger : Logger) (level : LogLevel) (event : LogEvent) :
    Option (List (Output × String)) :=
  (logger.m_appenders.mapM fun i => LogAppender.log strftime i level event).map List.flatten

/-- `root` is `m_root`, which the root logger itself has not. -/
def Logger.log (root : Option Logger) (logger : Logger) (level : LogLevel) (event : LogEvent) :
    Option (List (Output × String)) :=
  if logger.passes level then
    if logger.m_appenders ≠ [] then logger.append strftime level event
    else match root with
      | some root => if root.passes level then root.append strftime level event else some []
      | none => some []
  else some []

/-- The constructor of the manager: the root logger writes to the console. -/
def LoggerManager.new : LoggerManager := fun name =>
  if name = "root" then some ((Logger.new "root").AddAppender (.new .stdout)) else none

/-- `HCSERVER_LOG_LEVEL(HCSERVER_LOG_NAME(name), level)`. There is an event only if the level passes. -/
def LoggerManager.write (m : LoggerManager) (name : String) (level : LogLevel) (event : LogEvent) :
    Option (LoggerManager × List (Output × String)) :=
  let logger := getLogger name (m name)
  let m' : LoggerManager := Function.update m name (some logger)
  if logger.passes level then
    (Logger.log strftime (if name = "root" then none else m "root") logger level
      { event with logger := name, level }).map (m', ·)
  else some (m', [])

namespace Delivery

/-- A new value of `g_log_define`, or a call of a macro. -/
inductive Op
  | reload (new_value : LogDefines)
  | write (name : String) (level : LogLevel) (event : LogEvent)

structure State where
  m_val : LogDefines
  m_loggers : LoggerManager
  written : List (Output × String)

def start : State := ⟨.empty, .new, []⟩

def step (s : State) : Op → Option State
  | .reload new_value => (onChange s.m_val new_value s.m_loggers).map fun m =>
      { s with
        m_val := new_value
        m_loggers := m }
  | .write name level event => (s.m_loggers.write strftime name level event).map fun (m, lines) =>
      { s with
        m_loggers := m
        written := s.written ++ lines }

end Delivery

variable {strftime} {level : LogLevel} {event : LogEvent}

/-! ### Patterns -/

namespace Pattern

/-- What an item of a pattern stands for. -/
def PatternItem.line (strftime : Strftime) (level : LogLevel) (event : LogEvent) : PatternItem → String
  | .text str _ => .ofList str
  | .escape => "%"
  | .bare x => FormatItem.fieldText strftime (.ofList [x.1]) "" level event
  | .withArg x arg _ => FormatItem.fieldText strftime (.ofList [x.1]) (.ofList arg) level event

end Pattern

/-! ### Definitions -/

/-- The formatter of an appender's definition, the other one where it has none that is valid. -/
def LogAppenderDefine.formatterOr (a : LogAppenderDefine) (other : LogFormatter) : LogFormatter :=
  if a.formatter = "" ∨ (LogFormatter.new a.formatter).m_error = true then other
  else .new a.formatter

namespace Delivery

/-- The definition of a name in the value. -/
def definition (v : LogDefines) (name : String) : Option LogDefine := v.1.find? fun i => i.name = name

/-- The definitions that there have been of a name, in values set one after the other. -/
def given (vs : List LogDefines) (name : String) : List LogDefine := vs.filterMap (definition · name)

def current (vs : List LogDefines) : LogDefines := vs.getLast?.getD .empty

/-- What a logger goes by. -/
structure Setup where
  level : LogLevel
  formatter : LogFormatter
  appenders : List LogAppenderDefine

/-- The current definition and the last pattern that was valid. A definition that is gone leaves a logger
without appenders, and the root logger has had the console as long as there was none. -/
def setup (vs : List LogDefines) (name : String) : Setup where
  level := match definition (current vs) name with
    | some i => i.level
    | none => if given vs name = [] then .DEBUG else .cast 100
  formatter := (given vs name).foldl (fun other i => i.formatterOr other) .standard
  appenders := match definition (current vs) name with
    | some i => i.appenders
    | none => if given vs name = [] ∧ name = "root" then [⟨1, .DEBUG, "", ""⟩] else []

def Setup.lines (strftime : Strftime) (i : Setup) (level : LogLevel) (event : LogEvent) :
    List (Output × String) :=
  if i.level.number ≤ level.number then
    i.appenders.filterMap fun a =>
      if a.level.number ≤ level.number then
        a.output.map fun output => (output, (a.formatterOr i.formatter).format strftime level event)
      else none
  else []

/-- What a call of a macro is to write. -/
def lines (strftime : Strftime) (vs : List LogDefines) (name : String) (level : LogLevel)
    (event : LogEvent) : List (Output × String) :=
  if (setup vs name).appenders ≠ [] then (setup vs name).lines strftime level event
  else if (setup vs name).level.number ≤ level.number then (setup vs "root").lines strftime level event
  else []

/-- The writes of a run after the values `vs`. -/
def expected (strftime : Strftime) (vs : List LogDefines) : List Op → List (Output × String)
  | [] => []
  | .reload new_value :: ops => expected strftime (vs ++ [new_value]) ops
  | .write name level event :: ops =>
      lines strftime vs name level { event with logger := name, level } ++ expected strftime vs ops

/-- The logger is set up like that. -/
structure Follows (logger : Logger) (i : Setup) : Prop where
  level : logger.m_level = i.level
  formatter : logger.m_formatter = i.formatter
  appenders : i.appenders.map (fun a => a.prescribed i.formatter) = logger.m_appenders.map some

structure Kept (vs : List LogDefines) (s : State) : Prop where
  value : s.m_val = current vs
  root : (s.m_loggers "root").isSome = true
  loggers : ∀ name, Follows (getLogger name (s.m_loggers name)) (setup vs name)

variable {vs : List LogDefines} {name : String} {v : LogDefines} {i : LogDefine} {s s' : State}

end Delivery

end HCServer.Log
