import HCServer.Log.Model
import Mathlib.Logic.Function.Basic

/-! Appenders on a logger, with the formatters that they share. An appender without a formatter of its
own holds a copy of the logger's pointer; four operations on two classes keep the copies. -/
namespace HCServer.Log

/-- A `LogFormatter::ptr` that is not null. -/
structure FormatterPtr where
  address : Nat
  formatter : LogFormatter

namespace Attached

structure Appender where
  m_hasFormatte : Bool := false
  m_formatter : Option FormatterPtr := none

/-- The store `m_formatter=val`, which leaves the flag alone. -/
def Appender.store (ap : Appender) (val : FormatterPtr) : Appender := { ap with m_formatter := some val }

@[simp] theorem Appender.store_store (ap : Appender) (val : FormatterPtr) :
    (ap.store val).store val = ap.store val := rfl

@[simp] theorem Appender.store_flag (ap : Appender) (val : FormatterPtr) :
    (ap.store val).m_hasFormatte = ap.m_hasFormatte := rfl

/-- The appenders are objects of their own, on the logger or not. -/
structure State where
  m_formatter : FormatterPtr
  m_appenders : List Nat
  heap : Nat → Appender

/-- `setPattern` is `setFormatter(const string&)`, whose new formatter lies at `address`. -/
inductive Op
  | addAppender (appender : Nat)
  | delAppender (appender : Nat)
  | clearAppender
  | setFormatter (val : FormatterPtr)
  | setPattern (val : String) (address : Nat)
  | setLogFormatter (appender : Nat) (val : Option FormatterPtr)

namespace State

/-- A logger as constructed, beside appenders as constructed. -/
def new (address : Nat) : State := ⟨⟨address, .standard⟩, [], fun _ => {}⟩

/-- The body of the loop in `Logger::setFormatter`. -/
def inherit (val : FormatterPtr) (heap : Nat → Appender) (i : Nat) : Nat → Appender :=
  if (heap i).m_hasFormatte then heap
  else Function.update heap i ((heap i).store val)

def setFormatter (s : State) (val : FormatterPtr) : State :=
  { s with m_formatter := val, heap := s.m_appenders.foldl (inherit val) s.heap }

def setPattern (s : State) (val : String) (address : Nat) : State :=
  let new_val : FormatterPtr := ⟨address, .new val⟩
  if new_val.formatter.m_error then s else s.setFormatter new_val

def addAppender (s : State) (appender : Nat) : State :=
  let heap :=
    if (s.heap appender).m_formatter.isNone then
      Function.update s.heap appender ((s.heap appender).store s.m_formatter)
    else s.heap
  { s with heap, m_appenders := s.m_appenders ++ [appender] }

/-- The first occurrence goes. -/
def delAppender (s : State) (appender : Nat) : State :=
  { s with m_appenders := s.m_appenders.erase appender }

def clearAppender (s : State) : State := { s with m_appenders := [] }

/-- `LogAppender::SetLogFormatter`. -/
def setLogFormatter (s : State) (appender : Nat) (val : Option FormatterPtr) : State :=
  { s with heap := Function.update s.heap appender { m_hasFormatte := val.isSome, m_formatter := val } }

def step (s : State) : Op → State
  | .addAppender appender => s.addAppender appender
  | .delAppender appender => s.delAppender appender
  | .clearAppender => s.clearAppender
  | .setFormatter val => s.setFormatter val
  | .setPattern val address => s.setPattern val address
  | .setLogFormatter appender val => s.setLogFormatter appender val

/-- The formatters that a call of `log` uses, one for each appender; `none` is a null one. -/
def log (s : State) : Option (List FormatterPtr) := s.m_appenders.mapM fun i => (s.heap i).m_formatter

/-- Every attached appender has a formatter, the logger's if it has none of its own. -/
def Right (s : State) : Prop :=
  ∀ i ∈ s.m_appenders, ∃ val, (s.heap i).m_formatter = some val ∧
    ((s.heap i).m_hasFormatte = false → val = s.m_formatter)

/-- No formatter is taken from an attached appender, and an appender that is attached has no formatter,
its own or the logger's. -/
def Meets (s : State) : Op → Prop
  | .addAppender i =>
      ∀ val, (s.heap i).m_formatter = some val → (s.heap i).m_hasFormatte = false → val = s.m_formatter
  | .setLogFormatter i none => i ∉ s.m_appenders
  | _ => True

/-- `Right` in every state of the run. -/
def Always (s : State) : List Op → Prop
  | [] => s.Right
  | op :: ops => s.Right ∧ (s.step op).Always ops

/-- `Meets` at every step of the run. -/
def AllMeet (s : State) : List Op → Prop
  | [] => True
  | op :: ops => s.Meets op ∧ (s.step op).AllMeet ops

variable {s : State}

theorem inherit_apply (val : FormatterPtr) (heap : Nat → Appender) (j i : Nat) :
    inherit val heap j i =
      if i = j ∧ (heap i).m_hasFormatte = false then (heap i).store val else heap i := by
  by_cases hij : i = j
  · subst hij
    cases hown : (heap i).m_hasFormatte with
    | false => simp [inherit, hown]
    | true => simp [inherit, hown]
  · rw [if_neg fun h => hij h.1, inherit]
    cases (heap j).m_hasFormatte with
    | false => exact Function.update_of_ne hij _ _
    | true => rfl

/-- The loop gives the formatter to the attached appenders without one of their own. -/
theorem foldl_inherit (val : FormatterPtr) (l : List Nat) (heap : Nat → Appender) (i : Nat) :
    l.foldl (inherit val) heap i =
      if i ∈ l ∧ (heap i).m_hasFormatte = false then (heap i).store val else heap i := by
  induction l generalizing heap with
  | nil => rw [if_neg fun h => List.not_mem_nil h.1, List.foldl_nil]
  | cons j l ih =>
    rw [List.foldl_cons, ih, inherit_apply]
    by_cases hown : (heap i).m_hasFormatte = false
    · by_cases hij : i = j
      · subst hij
        simp [hown]
      · simp [hij]
    · simp [hown]

theorem right_setFormatter (h : s.Right) (val : FormatterPtr) : (s.setFormatter val).Right := by
  intro i hi
  have hheap : (s.setFormatter val).heap i = _ := foldl_inherit val s.m_appenders s.heap i
  rw [hheap]
  by_cases hown : (s.heap i).m_hasFormatte = false
  · rw [if_pos ⟨hi, hown⟩]
    exact ⟨val, rfl, fun _ => rfl⟩
  · obtain ⟨old, hold, -⟩ := h i hi
    rw [if_neg fun hc => hown hc.2]
    exact ⟨old, hold, fun hc => absurd hc hown⟩

theorem right_setPattern (h : s.Right) (val : String) (address : Nat) :
    (s.setPattern val address).Right := by
  rw [setPattern]
  split
  · exact h
  · exact right_setFormatter h _

/-- The appender that is added has the formatter it came with, or the logger's. -/
theorem heap_addAppender (s : State) (i : Nat) :
    ((s.addAppender i).heap i).m_formatter = some ((s.heap i).m_formatter.getD s.m_formatter) ∧
      ((s.addAppender i).heap i).m_hasFormatte = (s.heap i).m_hasFormatte := by
  rw [addAppender]
  cases hformatter : (s.heap i).m_formatter with
  | none => simp [Appender.store]
  | some val => simp [hformatter]

theorem heap_addAppender_of_ne (s : State) {i j : Nat} (h : j ≠ i) :
    (s.addAppender i).heap j = s.heap j := by
  rw [addAppender]
  cases (s.heap i).m_formatter with
  | none => exact Function.update_of_ne h _ _
  | some val => rfl

theorem right_addAppender_iff (h : s.Right) (i : Nat) :
    (s.addAppender i).Right ↔ s.Meets (.addAppender i) := by
  obtain ⟨hformatter, hflag⟩ := heap_addAppender s i
  constructor
  · intro hright val hval hown
    obtain ⟨val', hval', hcurrent⟩ := hright i (List.mem_append_right _ List.mem_cons_self)
    rw [hformatter, hval, Option.getD_some, Option.some.injEq] at hval'
    subst hval'
    exact hcurrent (hflag.trans hown)
  · intro hmeets j hj
    by_cases hji : j = i
    · subst hji
      refine ⟨_, hformatter, ?_⟩
      intro hown
      cases hval : (s.heap j).m_formatter with
      | none => rfl
      | some val => exact hmeets val hval (hflag.symm.trans hown)
    · rw [heap_addAppender_of_ne s hji]
      rcases List.mem_append.mp hj with hold | hnew
      · exact h j hold
      · exact absurd (List.mem_singleton.mp hnew) hji

theorem right_setLogFormatter_iff (h : s.Right) (i : Nat) (val : Option FormatterPtr) :
    (s.setLogFormatter i val).Right ↔ s.Meets (.setLogFormatter i val) := by
  have hself : (s.setLogFormatter i val).heap i = { m_hasFormatte := val.isSome, m_formatter := val } :=
    Function.update_self i _ s.heap
  have hother : ∀ j, j ≠ i → (s.setLogFormatter i val).heap j = s.heap j :=
    fun j hj => Function.update_of_ne hj _ s.heap
  cases val with
  | none =>
    constructor
    · intro hright hi
      obtain ⟨val, hval, -⟩ := hright i hi
      rw [hself] at hval
      cases hval
    · intro hi j hj
      have hji : j ≠ i := fun heq => hi (heq ▸ hj)
      rw [hother j hji]
      exact h j hj
  | some val =>
    refine iff_of_true ?_ trivial
    intro j hj
    by_cases hji : j = i
    · subst hji
      rw [hself]
      exact ⟨val, rfl, fun hown => Bool.noConfusion hown⟩
    · rw [hother j hji]
      exact h j hj

/-- What one operation makes of the appenders. -/
theorem right_step_iff (h : s.Right) (op : Op) : (s.step op).Right ↔ s.Meets op := by
  cases op with
  | addAppender i => exact right_addAppender_iff h i
  | delAppender i => exact iff_of_true (fun j hj => h j (List.mem_of_mem_erase hj)) trivial
  | clearAppender => exact iff_of_true (fun j hj => absurd hj List.not_mem_nil) trivial
  | setFormatter val => exact iff_of_true (right_setFormatter h val) trivial
  | setPattern val address => exact iff_of_true (right_setPattern h val address) trivial
  | setLogFormatter i val => exact right_setLogFormatter_iff h i val

theorem Always.right {ops : List Op} (h : s.Always ops) : s.Right := by
  cases ops with
  | nil => exact h
  | cons op ops => exact h.1

/-- Induction on the operations: up to the first that breaks the condition every state is right. -/
theorem always_iff_of_right (h : s.Right) (ops : List Op) : s.Always ops ↔ s.AllMeet ops := by
  induction ops generalizing s with
  | nil => exact iff_of_true h trivial
  | cons op ops ih =>
    constructor
    · rintro ⟨-, hrest⟩
      have hmeets := (right_step_iff h op).mp hrest.right
      exact ⟨hmeets, (ih ((right_step_iff h op).mpr hmeets)).mp hrest⟩
    · rintro ⟨hmeets, hrest⟩
      exact ⟨h, (ih ((right_step_iff h op).mpr hmeets)).mpr hrest⟩

theorem right_new (address : Nat) : (new address).Right := fun _ hi => absurd hi List.not_mem_nil

/-- A line is then formatted for every appender, and by no formatter that is out of date. -/
theorem log_of_right (h : s.Right) :
    ∃ used, s.log = some used ∧ List.Forall₂
      (fun i val => (s.heap i).m_formatter = some val ∧
        ((s.heap i).m_hasFormatte = false → val = s.m_formatter)) s.m_appenders used := by
  rw [Right] at h
  rw [log]
  generalize s.m_appenders = is at h
  induction is with
  | nil => exact ⟨[], rfl, .nil⟩
  | cons i is ih =>
    obtain ⟨val, hval, hcurrent⟩ := h i List.mem_cons_self
    obtain ⟨used, hused, hall⟩ := ih fun j hj => h j (List.mem_cons_of_mem i hj)
    refine ⟨val :: used, ?_, .cons ⟨hval, hcurrent⟩ hall⟩
    rw [List.mapM_cons, hval, hused]
    rfl

/-- Every run of a logger and its appenders. -/
theorem always_iff (address : Nat) (ops : List Op) :
    (new address).Always ops ↔ (new address).AllMeet ops :=
  always_iff_of_right (right_new address) ops

/-- An appender whose formatter is taken away while it is attached has none at all. -/
theorem reset_formatter_dangles : ¬ ∀ (address : Nat) (ops : List Op), (new address).Always ops := by
  intro hall
  have hrun := hall 0 [.addAppender 0, .setLogFormatter 0 none]
  rw [always_iff_of_right (right_new 0)] at hrun
  exact hrun.2.1 List.mem_cons_self

end State
end Attached
end HCServer.Log
