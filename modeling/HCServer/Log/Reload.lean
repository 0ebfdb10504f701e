import HCServer.Log.Model

/-! `LogIniter`: the listener that configures the loggers when their definitions change. It fails where
the source follows a null pointer. -/
namespace HCServer.Log
open Lib

/-! ### The listener -/

/-- The output that a type stands for, none for other types than 0 and 1. -/
def LogAppenderDefine.output (a : LogAppenderDefine) : Option Output :=
  if a.type = 0 then some (.file a.filename)
  else if a.type = 1 then some .stdout
  else none

/-- `ap` as the loop over the appenders makes it. -/
def LogAppenderDefine.appender (a : LogAppenderDefine) : Option LogAppender :=
  a.output.map fun output =>
    let ap := (LogAppender.new output).SetLevel a.level
    if a.formatter = "" then ap
    else if (LogFormatter.new a.formatter).m_error then ap
    else ap.SetLogFormatter (.new a.formatter)

/-- What the listener does with the logger of a definition. -/
def LogDefine.configure (i : LogDefine) (logger : Logger) : Option Logger :=
  let logger := logger.SetLevel i.level
  let logger := if i.formatter = "" then logger else logger.setPattern i.formatter
  i.appenders.foldlM (fun logger a => a.appender.map logger.AddAppender) logger.clearAppender

/-- `getLogger(name)` -/
def getLogger (name : String) (found : Option Logger) : Logger := found.getD (.new name)

/-- The first loop. Where the old definition is the same, `logger` stays null. -/
def change (old_value : LogDefines) (i : LogDefine) (found : Option Logger) : Option Logger :=
  match OrderedSet.find LogDefine.before i old_value.1 with
  | none => i.configure (getLogger i.name found)
  | some it => if i == it then none else i.configure (getLogger i.name found)

/-- The second loop. -/
def disable (i : LogDefine) (found : Option Logger) : Option Logger :=
  some ((getLogger i.name found).SetLevel (.cast 100)).clearAppender

def removed (old_value new_value : LogDefines) : List LogDefine :=
  old_value.1.filter fun i => (OrderedSet.find LogDefine.before i new_value.1).isNone

def onChange (old_value new_value : LogDefines) (m : LoggerManager) : Option LoggerManager :=
  (Keyed.updateAll LogDefine.name (change old_value) m new_value.1).bind fun m =>
    Keyed.updateAll LogDefine.name disable m (removed old_value new_value)

/-! ### What the definitions prescribe -/

/-- The formatter of the definition, the other one where it has none that is valid. -/
def LogDefine.formatterOr (i : LogDefine) (other : LogFormatter) : LogFormatter :=
  if i.formatter = "" ∨ (LogFormatter.new i.formatter).m_error = true then other
  else .new i.formatter

/-- The appender of a definition, with its own formatter if it has one that is valid and the logger's
otherwise. -/
def LogAppenderDefine.prescribed (a : LogAppenderDefine) (other : LogFormatter) : Option LogAppender :=
  a.output.map fun output =>
    if a.formatter = "" ∨ (LogFormatter.new a.formatter).m_error = true then
      ⟨output, a.level, false, some other⟩
    else ⟨output, a.level, true, some (.new a.formatter)⟩

/-- The logger is what the definition makes of a new one. -/
structure Logger.Prescribed (logger : Logger) (i : LogDefine) : Prop where
  level : logger.m_level = i.level
  formatter : logger.m_formatter = i.formatterOr .standard
  appenders : logger.m_appenders.map some =
    i.appenders.map fun a => a.prescribed (i.formatterOr .standard)

structure Logger.Disabled (logger : Logger) : Prop where
  silent : ∀ level : LogLevel, level.number ≤ 5 → logger.passes level = false
  appenders : logger.m_appenders = []

structure Converged (old_value new_value : LogDefines) (m m' : LoggerManager) : Prop where
  configured : ∀ i ∈ new_value.1, i ∉ old_value.1 → ∃ logger, m' i.name = some logger ∧ logger.Prescribed i
  unchanged : ∀ i ∈ new_value.1, i ∈ old_value.1 → m' i.name = m i.name
  disabled : ∀ i ∈ old_value.1, (∀ j ∈ new_value.1, j.name ≠ i.name) →
    ∃ logger, m' i.name = some logger ∧ logger.Disabled

/-- No definition is kept, each appender has a type, and what has no valid formatter has had the
standard one so far. -/
structure Reconfigures (old_value new_value : LogDefines) (m : LoggerManager) : Prop where
  changed : ∀ i ∈ new_value.1, ∀ it ∈ old_value.1, (i == it) = false
  typed : ∀ i ∈ new_value.1, ∀ a ∈ i.appenders, a.type = 0 ∨ a.type = 1
  formatter : ∀ i ∈ new_value.1, i.formatter = "" ∨ (LogFormatter.new i.formatter).m_error = true →
    ∀ logger, m i.name = some logger → logger.m_formatter = .standard

/-! ### Sets of definitions -/

variable {old_value new_value : LogDefines} {m m' : LoggerManager} {i it : LogDefine} {logger : Logger}

theorem find_eq_some_iff (l : LogDefines) :
    OrderedSet.find LogDefine.before i l.1 = some it ↔ it ∈ l.1 ∧ it.name = i.name := by
  rw [OrderedSet.find_eq_some_iff before_trans before_weak l.2]
  refine and_congr_right fun _ => ?_
  constructor
  · rintro ⟨h, h'⟩
    exact le_antisymm (not_lt.mp h) (not_lt.mp h')
  · intro h
    exact ⟨not_lt.mpr h.le, not_lt.mpr h.ge⟩

theorem find_eq_none_iff (l : LogDefines) :
    OrderedSet.find LogDefine.before i l.1 = none ↔ ∀ it ∈ l.1, it.name ≠ i.name := by
  rw [Option.eq_none_iff_forall_ne_some]
  constructor
  · intro h it hit hname
    exact h it ((find_eq_some_iff l).mpr ⟨hit, hname⟩)
  · intro h it hfind
    obtain ⟨hit, hname⟩ := (find_eq_some_iff l).mp hfind
    exact h it hit hname

theorem names_pairwise (l : LogDefines) : l.1.Pairwise fun i j => i.name ≠ j.name :=
  l.2.imp fun h => ne_of_lt h

instance : ReflBEq LogAppenderDefine where
  rfl {a} := by
    change (a.type == a.type && a.formatter == a.formatter && a.filename == a.filename) = true
    simp

instance : ReflBEq LogDefine where
  rfl {i} := by
    change (i.name == i.name && decide (i.level = i.level) && i.formatter == i.formatter &&
      i.appenders == i.appenders) = true
    simp

theorem name_eq_of_beq (h : (i == it) = true) : i.name = it.name := by
  change (i.name == it.name && decide (i.level = it.level) && i.formatter == it.formatter &&
    i.appenders == it.appenders) = true at h
  simp only [Bool.and_eq_true, beq_iff_eq] at h
  exact h.1.1.1

/-! ### One definition -/

/-- The appender as the logger takes it. -/
def LogAppender.added (ap : LogAppender) (other : LogFormatter) : LogAppender :=
  { ap with m_formatter := some (ap.m_formatter.getD other) }

theorem appender_added (a : LogAppenderDefine) (other : LogFormatter) :
    a.appender.map (·.added other) = a.prescribed other := by
  rw [LogAppenderDefine.appender, LogAppenderDefine.prescribed, Option.map_map]
  refine congrArg (Option.map · a.output) (funext fun output => ?_)
  by_cases hempty : a.formatter = ""
  · simp [hempty, LogAppender.added, LogAppender.new, LogAppender.SetLevel]
  · simp only [hempty, if_false, false_or, Function.comp_apply]
    cases (LogFormatter.new a.formatter).m_error with
    | true => rfl
    | false => rfl

/-- The loop over the appenders adds each of them. -/
theorem appenders_added (as : List LogAppenderDefine) (logger logger' : Logger) :
    as.foldlM (fun logger a => a.appender.map logger.AddAppender) logger = some logger' ↔
      ∃ aps, as.map (fun a => a.prescribed logger.m_formatter) = aps.map some ∧
        logger' = { logger with m_appenders := logger.m_appenders ++ aps } := by
  induction as generalizing logger with
  | nil =>
      constructor
      · rintro ⟨⟩
        exact ⟨[], rfl, by rw [List.append_nil]⟩
      · rintro ⟨aps, haps, rfl⟩
        have hnil : aps = [] := List.map_eq_nil_iff.mp haps.symm
        subst hnil
        rw [List.append_nil]
        rfl
  | cons a as ih =>
      have hadded := appender_added a logger.m_formatter
      rw [List.foldlM_cons, List.map_cons, ← hadded]
      cases hap : a.appender with
      | none =>
          constructor
          · rintro ⟨⟩
          · rintro ⟨aps, haps, -⟩
            cases aps <;> cases haps
      | some ap =>
          refine (ih (logger.AddAppender ap)).trans ?_
          constructor
          · rintro ⟨aps, haps, rfl⟩
            refine ⟨ap.added logger.m_formatter :: aps, congrArg (_ :: ·) haps, ?_⟩
            simp [Logger.AddAppender, LogAppender.added]
          · rintro ⟨aps, haps, rfl⟩
            obtain ⟨aps, rfl, haps'⟩ : ∃ rest, aps = ap.added logger.m_formatter :: rest ∧
                as.map (fun a => a.prescribed logger.m_formatter) = rest.map some := by
              cases aps with
              | nil => cases haps
              | cons ap' rest =>
                  obtain ⟨hhead, htail⟩ := List.cons.inj haps
                  cases hhead
                  exact ⟨rest, rfl, htail⟩
            refine ⟨aps, haps', ?_⟩
            simp [Logger.AddAppender, LogAppender.added]

theorem setPattern_formatter (i : LogDefine) (logger : Logger) :
    (if i.formatter = "" then logger else logger.setPattern i.formatter).clearAppender =
      { logger with
        m_formatter := i.formatterOr logger.m_formatter
        m_appenders := [] } := by
  rw [LogDefine.formatterOr]
  by_cases hempty : i.formatter = ""
  · simp [hempty, Logger.clearAppender]
  · cases herror : (LogFormatter.new i.formatter).m_error with
    | true => simp [hempty, Logger.setPattern, herror, Logger.clearAppender]
    | false =>
        simp [hempty, Logger.setPattern, herror, Logger.setFormatter, Logger.clearAppender]

/-- What a definition makes of a logger. -/
theorem configure_eq_some_iff (i : LogDefine) (logger logger' : Logger) :
    i.configure logger = some logger' ↔
      ∃ aps, i.appenders.map (fun a => a.prescribed (i.formatterOr logger.m_formatter)) =
          aps.map some ∧
        logger' = ⟨logger.m_name, i.level, aps, i.formatterOr logger.m_formatter⟩ := by
  rw [LogDefine.configure]
  simp only [setPattern_formatter, appenders_added, Logger.SetLevel, List.nil_append]

theorem prescribed_isSome (a : LogAppenderDefine) (other : LogFormatter) :
    (a.prescribed other).isSome = true ↔ a.type = 0 ∨ a.type = 1 := by
  rw [LogAppenderDefine.prescribed, Option.isSome_map, LogAppenderDefine.output]
  split
  case isTrue hfile => simp [hfile]
  case isFalse hfile =>
    split
    case isTrue hstdout => simp [hstdout]
    case isFalse hstdout => simp [hfile, hstdout]

theorem prescribed_all (as : List LogAppenderDefine) (other : LogFormatter) :
    (∃ aps : List LogAppender, as.map (fun a => a.prescribed other) = aps.map some) ↔
      ∀ a ∈ as, a.type = 0 ∨ a.type = 1 := by
  constructor
  · rintro ⟨aps, haps⟩ a ha
    have hmem : a.prescribed other ∈ aps.map some := haps ▸ List.mem_map_of_mem ha
    obtain ⟨ap, -, hap⟩ := List.mem_map.mp hmem
    exact (prescribed_isSome a other).mp (hap ▸ rfl)
  · intro h
    induction as with
    | nil => exact ⟨[], rfl⟩
    | cons a as ih =>
        obtain ⟨ap, hap⟩ := Option.isSome_iff_exists.mp
          ((prescribed_isSome a other).mpr (h a List.mem_cons_self))
        obtain ⟨aps, haps⟩ := ih fun b hb => h b (List.mem_cons_of_mem a hb)
        exact ⟨ap :: aps, congrArg₂ List.cons hap haps⟩

/-! ### The listener -/

theorem change_eq_some_iff (i : LogDefine) (found : Option Logger) :
    change old_value i found = some logger ↔
      (∀ it ∈ old_value.1, (i == it) = false) ∧ i.configure (getLogger i.name found) = some logger := by
  rw [change]
  split
  case h_1 hnone =>
    rw [find_eq_none_iff] at hnone
    refine (and_iff_right ?_).symm
    intro it hit
    refine eq_false_of_ne_true fun hsame => hnone it hit (name_eq_of_beq hsame).symm
  case h_2 it hfind =>
    obtain ⟨hit, hname⟩ := (find_eq_some_iff old_value).mp hfind
    split
    case isTrue hsame =>
      constructor
      · rintro ⟨⟩
      · rintro ⟨hchanged, -⟩
        rw [hchanged it hit] at hsame
        cases hsame
    case isFalse hdiffers =>
      refine (and_iff_right ?_).symm
      intro it' hit'
      refine eq_false_of_ne_true fun hsame => hdiffers ?_
      have hfind' := (find_eq_some_iff old_value).mpr ⟨hit', (name_eq_of_beq hsame).symm⟩
      cases hfind.symm.trans hfind'
      exact hsame

theorem mem_removed : i ∈ removed old_value new_value ↔
    i ∈ old_value.1 ∧ ∀ j ∈ new_value.1, j.name ≠ i.name := by
  rw [removed, List.mem_filter, Option.isNone_iff_eq_none, find_eq_none_iff]

theorem removed_names : (removed old_value new_value).Pairwise fun i j => i.name ≠ j.name :=
  (names_pairwise old_value).filter _

/-- What the listener makes of each logger. -/
structure Loop (old_value new_value : LogDefines) (m m' : LoggerManager) : Prop where
  configured : ∀ i ∈ new_value.1, ∃ logger, change old_value i (m i.name) = some logger ∧
    m' i.name = some logger
  disabled : ∀ i ∈ old_value.1, (∀ j ∈ new_value.1, j.name ≠ i.name) →
    m' i.name = disable i (m i.name)
  others : ∀ name, (∀ i ∈ new_value.1, i.name ≠ name) → (∀ i ∈ old_value.1, i.name ≠ name) →
    m' name = m name

theorem onChange_eq_some_iff : onChange old_value new_value m = some m' ↔
    Loop old_value new_value m m' := by
  rw [onChange, Option.bind_eq_some_iff]
  simp only [Keyed.updateAll_eq_some_iff (names_pairwise new_value),
    Keyed.updateAll_eq_some_iff removed_names]
  constructor
  · rintro ⟨m₁, ⟨hitems, hsame⟩, hremoved, hsame'⟩
    refine ⟨?_, ?_, ?_⟩
    · intro i hi
      obtain ⟨logger, hlogger, hm₁⟩ := hitems i hi
      refine ⟨logger, hlogger, ?_⟩
      rw [hsame' i.name fun j hj => ((mem_removed.mp hj).2 i hi).symm]
      exact hm₁
    · intro i hi hnew
      obtain ⟨logger, hlogger, hm'⟩ := hremoved i (mem_removed.mpr ⟨hi, hnew⟩)
      rw [hm', ← hlogger, hsame i.name hnew]
    · intro name hnew hold
      rw [hsame' name fun j hj => hold j (mem_removed.mp hj).1, hsame name hnew]
  · intro h
    obtain ⟨m₁, hm₁⟩ := Keyed.updateAll_isSome (names_pairwise new_value) fun i hi =>
      (h.configured i hi).imp fun _ => And.left
    obtain ⟨hitems, hsame⟩ := (Keyed.updateAll_eq_some_iff (names_pairwise new_value)).mp hm₁
    refine ⟨m₁, ⟨hitems, hsame⟩, ?_, ?_⟩
    · intro i hi
      obtain ⟨hold, hnew⟩ := mem_removed.mp hi
      rw [hsame i.name hnew, h.disabled i hold hnew]
      exact ⟨_, rfl, rfl⟩
    · intro name hremoved
      by_cases hnew : ∃ i ∈ new_value.1, i.name = name
      · obtain ⟨i, hi, rfl⟩ := hnew
        obtain ⟨logger, hlogger, hm'⟩ := h.configured i hi
        obtain ⟨logger', hlogger', hm₁'⟩ := hitems i hi
        rw [hm', hm₁', ← hlogger, ← hlogger']
      · have hnew' : ∀ i ∈ new_value.1, i.name ≠ name := fun i hi heq => hnew ⟨i, hi, heq⟩
        rw [hsame name hnew']
        refine h.others name hnew' ?_
        rintro i hi rfl
        exact hremoved i (mem_removed.mpr ⟨hi, hnew'⟩) rfl

/-! ### Convergence -/

theorem disable_disabled (i : LogDefine) (found : Option Logger) :
    ∃ logger, disable i found = some logger ∧ logger.Disabled := by
  refine ⟨_, rfl, ?_, rfl⟩
  intro level hlevel
  have hlow : level.number < 100 := by omega
  exact decide_eq_false (Nat.not_le.mpr hlow)

/-- A logger gets the prescribed formatter unless the definition has none and another one was there. -/
theorem formatterOr_eq_standard_iff (i : LogDefine) (found : Option Logger) :
    i.formatterOr (getLogger i.name found).m_formatter = i.formatterOr .standard ↔
      (i.formatter = "" ∨ (LogFormatter.new i.formatter).m_error = true →
        ∀ logger, found = some logger → logger.m_formatter = .standard) := by
  rw [LogDefine.formatterOr, LogDefine.formatterOr]
  split
  case isTrue hnone =>
    cases found with
    | none => simp [getLogger, Logger.new]
    | some logger => simp [getLogger, hnone]
  case isFalse hown => simp [hown]

theorem configured_prescribed {found : Option Logger}
    (h : i.configure (getLogger i.name found) = some logger) : logger.Prescribed i ↔
      (i.formatter = "" ∨ (LogFormatter.new i.formatter).m_error = true →
        ∀ logger, found = some logger → logger.m_formatter = .standard) := by
  rw [← formatterOr_eq_standard_iff]
  obtain ⟨aps, haps, rfl⟩ := (configure_eq_some_iff _ _ _).mp h
  constructor
  · intro hprescribed
    exact hprescribed.formatter
  · intro hformatter
    exact ⟨rfl, hformatter, hformatter ▸ haps.symm⟩

theorem onChange_isSome (h : Reconfigures old_value new_value m) :
    ∃ m', onChange old_value new_value m = some m' := by
  obtain ⟨m₁, hm₁⟩ : ∃ m₁, Keyed.updateAll LogDefine.name (change old_value) m new_value.1 = some m₁ := by
    refine Keyed.updateAll_isSome (names_pairwise new_value) ?_
    intro i hi
    obtain ⟨aps, haps⟩ := (prescribed_all i.appenders
      (i.formatterOr (getLogger i.name (m i.name)).m_formatter)).mpr (h.typed i hi)
    exact ⟨_, (change_eq_some_iff i _).mpr
      ⟨h.changed i hi, (configure_eq_some_iff i _ _).mpr ⟨aps, haps, rfl⟩⟩⟩
  rw [onChange, hm₁, Option.bind_some]
  exact Keyed.updateAll_isSome removed_names fun i _ => ⟨_, rfl⟩

/-- The loggers converge to their new definitions exactly if every definition changes, and what has no
formatter of its own has had the standard one. -/
theorem reload_converges (old_value new_value : LogDefines) (m : LoggerManager) :
    (∃ m', onChange old_value new_value m = some m' ∧ Converged old_value new_value m m') ↔
      Reconfigures old_value new_value m := by
  constructor
  · rintro ⟨m', hrun, hconverged⟩
    have hloop := onChange_eq_some_iff.mp hrun
    have hchanged : ∀ i ∈ new_value.1, ∀ it ∈ old_value.1, (i == it) = false := by
      intro i hi
      obtain ⟨logger, hlogger, -⟩ := hloop.configured i hi
      exact ((change_eq_some_iff i _).mp hlogger).1
    refine ⟨hchanged, ?_, ?_⟩
    · intro i hi
      obtain ⟨logger, hlogger, -⟩ := hloop.configured i hi
      obtain ⟨aps, haps, -⟩ :=
        (configure_eq_some_iff i _ _).mp ((change_eq_some_iff i _).mp hlogger).2
      exact (prescribed_all i.appenders _).mp ⟨aps, haps⟩
    · intro i hi
      have hnew : i ∉ old_value.1 := by
        intro hold
        cases (hchanged i hi i hold).symm.trans (BEq.refl i)
      obtain ⟨logger, hlogger, hm'⟩ := hloop.configured i hi
      obtain ⟨logger', hlogger', hprescribed⟩ := hconverged.configured i hi hnew
      cases hm'.symm.trans hlogger'
      exact (configured_prescribed ((change_eq_some_iff i _).mp hlogger).2).mp hprescribed
  · intro h
    obtain ⟨m', hrun⟩ := onChange_isSome h
    have hloop := onChange_eq_some_iff.mp hrun
    refine ⟨m', hrun, ?_, ?_, ?_⟩
    · intro i hi _
      obtain ⟨logger, hlogger, hm'⟩ := hloop.configured i hi
      exact ⟨logger, hm',
        (configured_prescribed ((change_eq_some_iff i _).mp hlogger).2).mpr (h.formatter i hi)⟩
    · intro i hi hold
      cases (h.changed i hi i hold).symm.trans (BEq.refl i)
    · intro i hi hnew
      rw [hloop.disabled i hi hnew]
      exact disable_disabled i _

/-- The logger `root` stays as it is and `system` is added. -/
theorem kept_definition_crashes : ¬ ∀ (old_value new_value : LogDefines) (m : LoggerManager),
    onChange ⟨[], List.Pairwise.nil⟩ old_value (fun _ => none) = some m → old_value ≠ new_value →
    ∃ m', onChange old_value new_value m = some m' ∧ Converged old_value new_value m m' := by
  intro h
  let root : LogDefine := ⟨"root", .INFO, "", []⟩
  let old_value : LogDefines := ⟨[root], List.pairwise_singleton _ _⟩
  let new_value : LogDefines := ⟨[root, ⟨"system", .INFO, "", []⟩], by decide⟩
  obtain ⟨m', hrun, -⟩ := h old_value new_value _ rfl (by decide)
  have hloop := onChange_eq_some_iff.mp hrun
  obtain ⟨logger, hlogger, -⟩ := hloop.configured root List.mem_cons_self
  have hchanged := ((change_eq_some_iff root _).mp hlogger).1 root List.mem_cons_self
  cases hchanged.symm.trans (BEq.refl root)

end HCServer.Log
