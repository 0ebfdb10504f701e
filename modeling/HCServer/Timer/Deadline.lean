import HCServer.Timer.Lifecycle

/-! The thread that sleeps until the deadline `getNextTimer` gave it. As long as `m_tickled` is false no
timer is due before that deadline, and when the flag goes up the thread is notified. -/
namespace HCServer.Timers
open Lib
variable {κ : Type}

/-- The deadline was computed from a clock reading of the past. -/
def Timer.Periodic (t : Timer κ) (clock : Nat) : Prop := t.ms ≤ t.next ∧ t.next ≤ clock + t.ms

/-- `none` is the deadline of an empty set. -/
def TimerManager.Covers (m : TimerManager κ) (seen : Option Nat) : Prop :=
  m.tickled = false → ∀ id ∈ m.timers, ∃ d, seen = some d ∧ d ≤ (m.heap id).next

namespace System
variable {s s' : System κ}

def Covered (s : System κ) : Prop := s.manager.Covers s.seen

/-- The clock does not go back, deadlines do not wrap around and no rollover is reported. -/
def Steady (s : System κ) : Action κ → Prop
  | .construct ms _ _ _ now => s.clock ≤ now ∧ now + ms < 2 ^ 64
  | .refresh id now => s.clock ≤ now ∧
      ((s.manager.heap id).cb.isSome → now + (s.manager.heap id).ms < 2 ^ 64)
  | .reset id ms from_now now => s.clock ≤ now ∧
      ((s.manager.heap id).cb.isSome →
        (if from_now then now else (s.manager.heap id).next - (s.manager.heap id).ms) + ms < 2 ^ 64)
  | .readClock now | .getNextTimer now => s.clock ≤ now
  | .listExpiredCb i _ => ∀ now ∈ s.reading[i]?, s.manager.detectClockRollover now = false ∧
      ∀ id ∈ s.manager.timers, (s.manager.heap id).next ≤ now → (s.manager.heap id).recurring →
        now + (s.manager.heap id).ms < 2 ^ 64
  | .addTimer _ | .cancel _ | .leave _ | .onTimerInsertedAtFront => True

instance (s : System κ) (a : Action κ) : Decidable (s.Steady a) := by
  cases a <;> unfold Steady <;> infer_instance

/-- The step sets `m_tickled`. -/
def rises (s : System κ) (_ : Action κ) (s' : System κ) : Nat :=
  (!s.manager.tickled && s'.manager.tickled).toNat

/-- The step is a call of `onTimerInsertedAtFront`. -/
def calls (_ : System κ) : Action κ → System κ → Nat
  | .onTimerInsertedAtFront, _ => 1
  | _, _ => 0

structure Timely (s : System κ) : Prop where
  inv : Inv s
  reading : ∀ now ∈ s.reading, now ≤ s.clock
  period : ∀ id < s.size, (s.manager.heap id).Periodic s.clock
  covered : s.Covered

end System

theorem add64_of_lt {a b : Nat} (h : a + b < 2 ^ 64) : add64 a b = a + b := Nat.mod_eq_of_lt h

theorem sub64_of_le {a b : Nat} (hb : b ≤ a) (ha : a - b < 2 ^ 64) : sub64 a b = a - b := by
  have hshift : a + 2 ^ 64 - b = (a - b) + 2 ^ 64 := by omega
  rw [sub64, hshift, Nat.add_mod_right, Nat.mod_eq_of_lt ha]

namespace TimerManager
variable {m m' : TimerManager κ} {seen : Option Nat} {id : Nat} {out : List Nat}

/-- Fewer timers, none of them due earlier. -/
theorem Covers.mono (h : m.Covers seen) (htickled : m'.tickled = m.tickled)
    (htimers : ∀ y ∈ m'.timers, y ∈ m.timers ∧ (m.heap y).next ≤ (m'.heap y).next) :
    m'.Covers seen := by
  intro hfalse y hy
  obtain ⟨hin, hle⟩ := htimers y hy
  obtain ⟨d, hd, hdy⟩ := h (htickled ▸ hfalse) y hin
  exact ⟨d, hd, hdy.trans hle⟩

/-- A timer that goes in without raising the flag lies behind another. -/
theorem Covers.isaddTimer (h : m.Covers seen) (hheld : Held m (id :: out)) :
    (m.isaddTimer id).1.Covers seen := by
  intro hfalse y hy
  simp only [TimerManager.isaddTimer, Bool.or_eq_false_iff, Bool.and_eq_false_iff] at hfalse
  obtain ⟨hlow, hfront⟩ := hfalse
  have hbelow : OrderedSet.below m.before id m.timers ≠ [] := by
    simpa [hlow] using hfront
  obtain ⟨z, hz, hzid⟩ := OrderedSet.head_of_insert hbelow
  rcases (hheld.mem_put y).mp hy with rfl | hin
  · obtain ⟨d, hd, hdz⟩ := h hlow z hz
    have hle : (m.heap z).next ≤ (m.heap y).next := by
      rcases hzid with hlt | ⟨he, -⟩
      · exact hlt.le
      · exact he.le
    exact ⟨d, hd, hdz.trans hle⟩
  · exact h hlow y hin

theorem Covers.getNextTimer (hsorted : m.timers.Pairwise m.before) (now : Nat) :
    (m.getNextTimer now).1.Covers (m.timers.head?.map fun id => (m.heap id).next) := by
  intro _ y hy
  rw [getNextTimer_timers] at hy
  cases htimers : m.timers with
  | nil =>
      rw [htimers] at hy
      cases hy
  | cons x l =>
      rw [htimers] at hy hsorted
      refine ⟨(m.heap x).next, rfl, ?_⟩
      rcases List.mem_cons.mp hy with rfl | hin
      · exact le_rfl
      · rcases List.rel_of_pairwise_cons hsorted hin with hlt | ⟨he, -⟩
        · exact hlt.le
        · exact he.le

end TimerManager

namespace System
variable {s s' : System κ}

theorem new_timely (now : Nat) : Timely (new now : System κ) where
  inv := new_inv now
  reading := by simp [new]
  period := by simp [new]
  covered := by
    intro _ id hid
    cases hid

theorem Timely.later (h : Timely s) {clock : Nat} (hclock : s.clock ≤ clock) :
    (∀ now ∈ s.reading, now ≤ clock) ∧ ∀ id < s.size, (s.manager.heap id).Periodic clock := by
  refine ⟨fun now hnow => (h.reading now hnow).trans hclock, ?_⟩
  intro id hid
  obtain ⟨hms, hnext⟩ := h.period id hid
  exact ⟨hms, hnext.trans (Nat.add_le_add_right hclock _)⟩

/-- Periods stay what they are when one timer is written with a good one. -/
theorem periodic_update {heap : Nat → Timer κ} {clock id : Nat} {t : Timer κ}
    (h : ∀ y, y ≠ id → y < s'.size → (heap y).Periodic clock) (ht : t.Periodic clock) :
    ∀ y < s'.size, (Function.update heap id t y).Periodic clock := by
  intro y hy
  by_cases hyid : y = id
  · subst hyid
    simpa using ht
  · rw [Function.update_of_ne hyid]
    exact h y hyid hy

theorem construct_timely (h : Timely s) {ms addr now : Nat} {cb : κ} {recurring : Bool}
    (hsteady : s.Steady (.construct ms cb recurring addr now)) (hfree : s.Free addr) :
    Timely { s with
      manager := s.manager.setTimer s.size ⟨recurring, ms, add64 now ms, some cb, addr⟩
      size := s.size + 1
      adding := s.size :: s.adding
      clock := now } := by
  obtain ⟨hclock, hwrap⟩ := hsteady
  obtain ⟨hreading, hperiod⟩ := h.later hclock
  refine ⟨construct_inv h.inv hfree, hreading, ?_, ?_⟩
  · refine periodic_update ?_ ?_
    · intro y hne hy
      exact hperiod y (Nat.lt_of_le_of_ne (Nat.le_of_lt_succ hy) hne)
    · rw [add64_of_lt hwrap]
      exact ⟨Nat.le_add_left ms now, le_rfl⟩
  · refine h.covered.mono rfl ?_
    intro y hy
    have hne : y ≠ s.size := ((h.inv.live y).mp hy).1.1.ne
    simp only [TimerManager.setTimer_heap]
    rw [Function.update_of_ne hne]
    exact ⟨hy, le_rfl⟩

theorem refresh_timely (h : Timely s) {id now : Nat} (hsteady : s.Steady (.refresh id now))
    (hret : s.Returned id) (hid : id ∈ s.manager.timers) (hsome : (s.manager.heap id).cb.isSome) :
    Timely { s with
      manager := ((s.manager.erase id).setTimer id { s.manager.heap id with
        next := add64 now (s.manager.heap id).ms }).insert id
      clock := now } := by
  obtain ⟨hclock, hwrap⟩ := hsteady
  obtain ⟨hreading, hperiod⟩ := h.later hclock
  have hnext : add64 now (s.manager.heap id).ms = now + (s.manager.heap id).ms :=
    add64_of_lt (hwrap hsome)
  obtain ⟨hheld, hmem⟩ := h.inv.held.rekey hid (t := { s.manager.heap id with
    next := add64 now (s.manager.heap id).ms }) rfl
  refine ⟨h.inv.rekeyed hheld rfl hmem rfl rfl rfl rfl rfl, hreading, ?_, ?_⟩
  · refine periodic_update (fun y _ hy => hperiod y hy) ?_
    rw [hnext]
    exact ⟨Nat.le_add_left _ now, le_rfl⟩
  · refine h.covered.mono rfl ?_
    intro y hy
    refine ⟨(hmem y).mp hy, ?_⟩
    by_cases hyid : y = id
    · subst hyid
      have hold := (hperiod y hret.1).2
      simpa [hnext] using hold
    · simp [Function.update_of_ne hyid]

theorem resetNext_eq {m : TimerManager κ} {id ms now : Nat} {from_now : Bool}
    (hms : (m.heap id).ms ≤ (m.heap id).next)
    (hlt : (if from_now then now else (m.heap id).next - (m.heap id).ms) + ms < 2 ^ 64) :
    m.resetNext id ms from_now now =
      (if from_now then now else (m.heap id).next - (m.heap id).ms) + ms := by
  rw [TimerManager.resetNext]
  cases from_now with
  | true =>
      simp only [if_true] at hlt ⊢
      exact add64_of_lt hlt
  | false =>
      simp only [Bool.false_eq_true, if_false] at hlt ⊢
      have hstart : (m.heap id).next - (m.heap id).ms < 2 ^ 64 := (Nat.le_add_right _ ms).trans_lt hlt
      rw [sub64_of_le hms hstart, add64_of_lt hlt]

theorem reset_timely (h : Timely s) {id ms now : Nat} {from_now : Bool} {m : TimerManager κ}
    (hsteady : s.Steady (.reset id ms from_now now)) (hret : s.Returned id)
    (hid : id ∈ s.manager.timers) (hsome : (s.manager.heap id).cb.isSome)
    (hm : m = (s.manager.erase id).setTimer id { s.manager.heap id with
      ms, next := s.manager.resetNext id ms from_now now })
    (hinv : Inv ({ s with
      manager := (m.isaddTimer id).1
      clock := now }.notify (m.isaddTimer id).2)) :
    Timely ({ s with
      manager := (m.isaddTimer id).1
      clock := now }.notify (m.isaddTimer id).2) := by
  obtain ⟨hclock, hwrap⟩ := hsteady
  obtain ⟨hreading, hperiod⟩ := h.later hclock
  have hnext := resetNext_eq (hperiod id hret.1).1 (hwrap hsome)
  have hout : Held m (id :: s.adding) := hm ▸ (h.inv.held.take hid).store rfl
  have hcovers : m.Covers s.seen := by
    subst hm
    refine h.covered.mono rfl ?_
    intro y hy
    have hne : y ≠ id := by
      rintro rfl
      exact hout.not_mem hy
    refine ⟨List.mem_of_mem_erase hy, ?_⟩
    simp [Function.update_of_ne hne]
  refine ⟨hinv, hreading, ?_, hcovers.isaddTimer hout⟩
  subst hm
  refine periodic_update (fun y _ hy => hperiod y hy) ?_
  rw [hnext]
  refine ⟨Nat.le_add_left ms _, Nat.add_le_add_right ?_ ms⟩
  cases from_now with
  | true => exact le_rfl
  | false => exact Nat.sub_le_of_le_add (hperiod id hret.1).2

theorem listExpiredCb_timely (h : Timely s) {i now addr : Nat}
    (hsteady : s.Steady (.listExpiredCb i addr)) (hnow : s.reading[i]? = some now) :
    Timely { s with
      manager := (s.manager.listExpiredCb now addr).1
      reading := s.reading.eraseIdx i
      log := s.log ++ (s.manager.listExpiredCb now addr).2.map fun c => .collected c.1 } := by
  obtain ⟨hrollover, hwrap⟩ := hsteady now hnow
  have hreading : now ≤ s.clock := h.reading now (List.mem_of_getElem? hnow)
  obtain ⟨ids, rest, hfires⟩ := TimerManager.listExpiredCb_fires h.inv.held now addr
  have hids : ∀ y ∈ ids, y ∈ s.manager.timers := fun y hy => by simp [hfires.parts, hy]
  have hnext : ∀ y ∈ ids, (s.manager.heap y).recurring →
      ((s.manager.heap y).expired now).next = now + (s.manager.heap y).ms := by
    intro y hy hrecurring
    have hlt := hwrap y (hids y hy) (hfires.due hrollover y hy) hrecurring
    rw [Timer.expired, if_pos hrecurring]
    exact add64_of_lt hlt
  refine ⟨listExpiredCb_inv h.inv i now addr, ?_, ?_, ?_⟩
  · intro r hr
    exact h.reading r (List.mem_of_mem_eraseIdx hr)
  · intro y hy
    obtain ⟨hms, hle⟩ := h.period y hy
    rw [hfires.heap y]
    by_cases hin : y ∈ ids
    · rw [if_pos hin, Timer.Periodic, Timer.expired_ms]
      cases hrecurring : (s.manager.heap y).recurring with
      | true =>
          rw [hnext y hin hrecurring]
          exact ⟨Nat.le_add_left _ now, Nat.add_le_add_right hreading _⟩
      | false =>
          rw [Timer.expired, if_neg (by simp [hrecurring])]
          exact ⟨hms, hle⟩
    · rw [if_neg hin]
      exact ⟨hms, hle⟩
  · refine h.covered.mono hfires.tickled ?_
    intro y hy
    rw [hfires.heap y]
    rcases (hfires.timers y).mp hy with hrest | ⟨hin, hrecurring⟩
    · have hnot : y ∉ ids := by
        have hnodup := h.inv.held.nodup
        rw [hfires.parts, List.nodup_append] at hnodup
        exact fun hin => hnodup.2.2 y hin y hrest rfl
      rw [if_neg hnot]
      exact ⟨by simp [hfires.parts, hrest], le_rfl⟩
    · have hdue := hfires.due hrollover y hin
      rw [if_pos hin, hnext y hin hrecurring]
      exact ⟨hids y hin, hdue.trans (Nat.le_add_right now _)⟩

theorem step_timely {a : Action κ} (h : Timely s) (hs : s.step a = some s') (hsteady : s.Steady a) :
    Timely s' := by
  have hinv := step_inv h.inv hs
  cases h.inv.rule hs with
  | construct hfree => exact construct_timely h hsteady hfree
  | @addTimer id hid =>
      have hout : Held s.manager (id :: s.adding.erase id) :=
        h.inv.held.perm (List.perm_cons_erase hid)
      exact ⟨hinv, h.reading, h.period, h.covered.isaddTimer hout⟩
  | @cancelLive id hret hid hcb =>
      refine ⟨hinv, h.reading, ?_, ?_⟩
      · exact periodic_update (fun y _ hy => h.period y hy) (h.period id hret.1)
      · refine h.covered.mono rfl ?_
        intro y hy
        refine ⟨List.mem_of_mem_erase hy, ?_⟩
        by_cases hyid : y = id
        · subst hyid
          simp
        · simp [Function.update_of_ne hyid]
  | cancelDead hret => exact h
  | refreshLive hret hid hcb => exact refresh_timely h hsteady hret hid hcb
  | refreshDead hret =>
      obtain ⟨hreading, hperiod⟩ := h.later hsteady.1
      exact ⟨hinv, hreading, hperiod, h.covered⟩
  | resetLive hret hid hcb hm => exact reset_timely h hsteady hret hid hcb hm hinv
  | resetDead hret =>
      obtain ⟨hreading, hperiod⟩ := h.later hsteady.1
      exact ⟨hinv, hreading, hperiod, h.covered⟩
  | readClock =>
      obtain ⟨hreading, hperiod⟩ := h.later hsteady
      refine ⟨hinv, ?_, hperiod, h.covered⟩
      intro r hr
      rcases List.mem_cons.mp hr with rfl | hr
      · exact le_rfl
      · exact hreading r hr
  | leave hempty =>
      exact ⟨hinv, fun r hr => h.reading r (List.mem_of_mem_eraseIdx hr), h.period, h.covered⟩
  | listExpiredCb hnow hne hfree => exact listExpiredCb_timely h hsteady hnow
  | @getNextTimer now =>
      obtain ⟨hreading, hperiod⟩ := h.later hsteady
      exact ⟨hinv, hreading, hperiod, TimerManager.Covers.getNextTimer h.inv.held.sorted now⟩
  | onTimerInsertedAtFront hpos => exact ⟨hinv, h.reading, h.period, h.covered⟩

theorem notify_balance (s : System κ) (manager : TimerManager κ) (id : Nat) :
    s.notices + (!manager.tickled && (manager.isaddTimer id).1.tickled).toNat =
      s.notices + (manager.isaddTimer id).2.toNat := by
  dsimp only [TimerManager.isaddTimer]
  cases manager.tickled <;> simp

/-- The calls that are due and the calls made are the times the flag has gone up. -/
theorem step_balance {a : Action κ} (h : Inv s) (hs : s.step a = some s') :
    s'.notices + calls s a s' = s.notices + rises s a s' := by
  cases h.rule hs with
  | addTimer hid => exact (s.notify_balance s.manager _).symm
  | resetLive hret hid hcb hm =>
      subst hm
      exact (s.notify_balance _ _).symm
  | @listExpiredCb i addr now hnow hne hfree =>
      obtain ⟨ids, rest, hfires⟩ := TimerManager.listExpiredCb_fires h.held now addr
      simp [calls, rises, hfires.tickled]
  | getNextTimer => simp [calls, rises, TimerManager.getNextTimer]
  | onTimerInsertedAtFront hpos =>
      simp only [calls, rises]
      simp
      omega
  | _ => simp [calls, rises]

/-- No earlier deadline is hidden while the flag is down, and each time it goes up one call follows. -/
theorem tickled_hides_nothing (now : Nat) (as : List (Action κ))
    (h : Each step Steady (new now) as) :
    Always step Covered (new now) as ∧
      ∀ t, exec step (new now) as = some t →
        t.notices + tally step calls (new now) as = tally step rises (new now) as := by
  refine ⟨?_, ?_⟩
  · exact always_of_each (fun _ _ _ hs hstep hsteady => step_timely hs hstep hsteady)
      (fun _ hs => hs.covered) (new_timely now) h
  · intro t ht
    have hbalance := exec_balance (fun _ _ _ hs hstep => step_inv hs hstep) notices
      (fun _ _ _ hs hstep => step_balance hs hstep) (new_inv now) ht
    rw [hbalance]
    exact Nat.zero_add _

/-- Two timers, a `reset` that moves the second in front of the first, and its expiry. -/
theorem tickled_hides_nothing_run :
    let as : List (Action Unit) := [.construct 10 () false 1 0, .addTimer 0, .onTimerInsertedAtFront,
      .getNextTimer 1, .construct 20 () true 2 2, .addTimer 1, .reset 1 3 false 4,
      .onTimerInsertedAtFront, .readClock 6, .listExpiredCb 0 3, .getNextTimer 7, .refresh 0 8]
    Always step Covered (new 0) as ∧
      ∀ t, exec step (new 0) as = some t →
        t.notices + tally step calls (new 0) as = tally step rises (new 0) as :=
  tickled_hides_nothing 0 _ (by decide)

example : tally step rises (new 0) [.construct 10 () false 1 0, .addTimer 0, .getNextTimer 1,
    .construct 20 () true 2 2, .addTimer 1, .reset 1 3 false 4] = 2 := by decide

end System
end HCServer.Timers
