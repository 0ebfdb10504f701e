import HCServer.Lib.Transition
import HCServer.Timer.Manager
import Mathlib.Data.List.Count

/-! What becomes of a timer: it is in the set as long as its callback is there, and the callback goes
when it is collected or when the timer is cancelled, whichever comes first. -/
namespace HCServer.Timers
open Lib
variable {κ : Type}

namespace TimerManager
variable {m : TimerManager κ} {out : List Nat} {id : Nat}

theorem cancel_live (h : Held m out) (hid : id ∈ m.timers) (hcb : (m.heap id).cb.isSome) :
    m.cancel id = some ((m.setTimer id { m.heap id with cb := none }).erase id, true) := by
  have hmark : Held (m.setTimer id { m.heap id with cb := none }) out := h.mark rfl rfl
  simp only [cancel, hcb, if_true, hmark.find hid, Option.map_some]

theorem cancel_dead (hcb : (m.heap id).cb = none) : m.cancel id = some (m, false) := by
  simp [cancel, hcb]

theorem refresh_live (h : Held m out) (hid : id ∈ m.timers) (hcb : (m.heap id).cb.isSome) (now : Nat) :
    m.refresh id now =
      (((m.erase id).setTimer id { m.heap id with
        next := add64 now (m.heap id).ms }).insert id, true) := by
  have hnone : (m.heap id).cb.isNone = false := by simpa using hcb
  simp [refresh, hnone, h.find hid]

theorem refresh_dead (hcb : (m.heap id).cb = none) (now : Nat) : m.refresh id now = (m, false) := by
  simp [refresh, hcb]

/-- The deadline that `reset` computes. -/
def resetNext (m : TimerManager κ) (id ms : Nat) (from_now : Bool) (now : Nat) : Nat :=
  add64 (if from_now then now else sub64 (m.heap id).next (m.heap id).ms) ms

theorem reset_live (h : Held m out) (hid : id ∈ m.timers) (hcb : (m.heap id).cb.isSome)
    (ms : Nat) (from_now : Bool) (now : Nat) : m.reset id ms from_now now =
      let r := ((m.erase id).setTimer id
        { m.heap id with ms, next := m.resetNext id ms from_now now }).isaddTimer id
      (r.1, true, r.2) := by
  have hnone : (m.heap id).cb.isNone = false := by simpa using hcb
  simp [reset, hnone, h.find hid, resetNext]

theorem reset_dead (hcb : (m.heap id).cb = none) (ms : Nat) (from_now : Bool) (now : Nat) :
    m.reset id ms from_now now = (m, false, false) := by
  simp [reset, hcb]

end TimerManager

namespace System
variable {s s' : System κ} {id : Nat}

/-- How often the callback has been given away for good. -/
def gone (s : System κ) (id : Nat) : Nat :=
  s.log.count (.cancelled id) +
    if (s.manager.heap id).recurring then 0 else s.log.count (.collected id)

structure Inv (s : System κ) : Prop where
  held : Held s.manager s.adding
  live : ∀ id, id ∈ s.manager.timers ↔ s.Returned id ∧ (s.manager.heap id).cb.isSome
  adding : ∀ id ∈ s.adding, id < s.size ∧ (s.manager.heap id).cb.isSome
  fresh : ∀ id, ¬ s.Returned id → .collected id ∉ s.log ∧ .cancelled id ∉ s.log
  fate : ∀ id, s.Returned id → s.gone id = if (s.manager.heap id).cb.isSome then 0 else 1
  silent : s.log.Pairwise fun e f => ∀ id, e = .cancelled id → f ≠ .collected id

/-- Each timer fires or is cancelled. -/
structure FiresOrCancelled (s : System κ) : Prop where
  ordered : s.manager.timers.Pairwise s.manager.before
  returned : ∀ id ∈ s.manager.timers, s.Returned id
  member : ∀ id, s.Returned id →
    s.manager.timers.count id = if (s.manager.heap id).cb.isSome then 1 else 0
  cancels : ∀ id, s.Returned id → s.manager.cancel id ≠ none
  cancelled : ∀ id, s.log.count (.cancelled id) ≤ 1
  collected : ∀ id, (s.manager.heap id).recurring = false → s.log.count (.collected id) ≤ 1
  either : ∀ id, s.Returned id → (s.manager.heap id).recurring = false →
    s.log.count (.collected id) + s.log.count (.cancelled id) =
      if (s.manager.heap id).cb.isSome then 0 else 1
  silent : s.log.Pairwise fun e f => ∀ id, e = .cancelled id → f ≠ .collected id

theorem new_inv (now : Nat) : Inv (new now : System κ) where
  held := ⟨List.Pairwise.nil, List.nodup_nil, by simp [new]⟩
  live := by simp [new, Returned]
  adding := by simp [new]
  fresh := by simp [new]
  fate := by simp [new, Returned]
  silent := List.Pairwise.nil

theorem Inv.count_zero (h : Inv s) (hid : ¬ s.Returned id) :
    s.log.count (.collected id) = 0 ∧ s.log.count (.cancelled id) = 0 :=
  ⟨List.count_eq_zero.mpr (h.fresh id hid).1, List.count_eq_zero.mpr (h.fresh id hid).2⟩

theorem Inv.gone_le (h : Inv s) (id : Nat) : s.gone id ≤ 1 := by
  by_cases hid : s.Returned id
  · rw [h.fate id hid]
    split <;> decide
  · obtain ⟨hcollected, hcancelled⟩ := h.count_zero hid
    rw [gone, hcollected, hcancelled]
    split <;> decide

theorem Inv.settled (h : Inv s) : FiresOrCancelled s where
  ordered := h.held.sorted
  returned id hid := ((h.live id).mp hid).1
  member id hid := by
    rw [h.held.nodup.count]
    have hlive := h.live id
    simp only [hid, true_and] at hlive
    simp only [hlive]
  cancels id hid := by
    cases hcb : (s.manager.heap id).cb with
    | none => simp [TimerManager.cancel_dead hcb]
    | some cb =>
        have hsome : (s.manager.heap id).cb.isSome := by simp [hcb]
        simp [TimerManager.cancel_live h.held ((h.live id).mpr ⟨hid, hsome⟩) hsome]
  cancelled id := by
    have hgone := h.gone_le id
    rw [gone] at hgone
    exact le_trans (Nat.le_add_right _ _) hgone
  collected id hrecurring := by
    have hgone := h.gone_le id
    simp only [gone, hrecurring, Bool.false_eq_true, if_false] at hgone
    exact le_trans (Nat.le_add_left _ _) hgone
  either id hid hrecurring := by
    have hfate := h.fate id hid
    simp only [gone, hrecurring, Bool.false_eq_true, if_false] at hfate
    rw [Nat.add_comm, hfate]
  silent := h.silent

/-- A step that leaves every callback and every membership as it is. -/
theorem Inv.keep (h : Inv s) (hheld : Held s'.manager s.adding) (hsize : s'.size = s.size)
    (hadding : s'.adding = s.adding) (hlog : s'.log = s.log)
    (hcb : ∀ id, (s'.manager.heap id).cb = (s.manager.heap id).cb)
    (hrecurring : ∀ id, (s'.manager.heap id).recurring = (s.manager.heap id).recurring)
    (htimers : ∀ id, id ∈ s'.manager.timers ↔ id ∈ s.manager.timers) : Inv s' := by
  have hreturned : ∀ id, s'.Returned id ↔ s.Returned id := by
    intro id
    rw [Returned, Returned, hsize, hadding]
  refine ⟨hadding ▸ hheld, ?_, ?_, ?_, ?_, hlog ▸ h.silent⟩
  · intro id
    rw [htimers, hreturned, hcb]
    exact h.live id
  · intro id hid
    rw [hsize, hcb]
    exact h.adding id (hadding ▸ hid)
  · intro id hid
    rw [hlog]
    exact h.fresh id fun hret => hid ((hreturned id).mpr hret)
  · intro id hid
    rw [gone, hlog, hrecurring, hcb]
    exact h.fate id ((hreturned id).mp hid)

/-- `refresh` and `reset`: one timer has another deadline. -/
theorem Inv.rekeyed (h : Inv s) {t : Timer κ} (hheld : Held s'.manager s.adding)
    (hheap : s'.manager.heap = Function.update s.manager.heap id t)
    (htimers : ∀ y, y ∈ s'.manager.timers ↔ y ∈ s.manager.timers)
    (hcb : t.cb = (s.manager.heap id).cb) (hrecurring : t.recurring = (s.manager.heap id).recurring)
    (hsize : s'.size = s.size) (hadding : s'.adding = s.adding) (hlog : s'.log = s.log) : Inv s' := by
  refine h.keep hheld hsize hadding hlog ?_ ?_ htimers
  · intro y
    rw [hheap]
    by_cases hy : y = id
    · subst hy
      simp [hcb]
    · rw [Function.update_of_ne hy]
  · intro y
    rw [hheap]
    by_cases hy : y = id
    · subst hy
      simp [hrecurring]
    · rw [Function.update_of_ne hy]

/-- What each step does, and what has let it happen, in a system where the set holds the timers that
have a callback. -/
inductive Rule (s : System κ) : Action κ → System κ → Prop
  | construct {ms cb recurring addr now} (hfree : s.Free addr) :
      Rule s (.construct ms cb recurring addr now) { s with
        manager := s.manager.setTimer s.size ⟨recurring, ms, add64 now ms, some cb, addr⟩
        size := s.size + 1
        adding := s.size :: s.adding
        clock := now }
  | addTimer {id : Nat} (hid : id ∈ s.adding) :
      Rule s (.addTimer id) ({ s with
        manager := (s.manager.isaddTimer id).1
        adding := s.adding.erase id }.notify (s.manager.isaddTimer id).2)
  | cancelLive {id : Nat} (hret : s.Returned id) (hid : id ∈ s.manager.timers)
      (hcb : (s.manager.heap id).cb.isSome) :
      Rule s (.cancel id) { s with
        manager := (s.manager.setTimer id { s.manager.heap id with cb := none }).erase id
        log := s.log ++ [.cancelled id] }
  | cancelDead {id : Nat} (hret : s.Returned id) : Rule s (.cancel id) s
  | refreshLive {id now : Nat} (hret : s.Returned id) (hid : id ∈ s.manager.timers)
      (hcb : (s.manager.heap id).cb.isSome) :
      Rule s (.refresh id now) { s with
        manager := ((s.manager.erase id).setTimer id { s.manager.heap id with
          next := add64 now (s.manager.heap id).ms }).insert id
        clock := now }
  | refreshDead {id now : Nat} (hret : s.Returned id) :
      Rule s (.refresh id now) { s with clock := now }
  | resetLive {id ms : Nat} {from_now : Bool} {now : Nat} {m : TimerManager κ}
      (hret : s.Returned id) (hid : id ∈ s.manager.timers) (hcb : (s.manager.heap id).cb.isSome)
      (hm : m = (s.manager.erase id).setTimer id { s.manager.heap id with
        ms, next := s.manager.resetNext id ms from_now now }) :
      Rule s (.reset id ms from_now now) ({ s with
        manager := (m.isaddTimer id).1
        clock := now }.notify (m.isaddTimer id).2)
  | resetDead {id ms : Nat} {from_now : Bool} {now : Nat} (hret : s.Returned id) :
      Rule s (.reset id ms from_now now) { s with clock := now }
  | readClock {now} : Rule s (.readClock now) { s with reading := now :: s.reading, clock := now }
  | leave {i} (hempty : s.manager.timers = []) :
      Rule s (.leave i) { s with reading := s.reading.eraseIdx i }
  | listExpiredCb {i addr now} (hnow : s.reading[i]? = some now) (hne : s.manager.timers ≠ [])
      (hfree : s.Free addr) :
      Rule s (.listExpiredCb i addr) { s with
        manager := (s.manager.listExpiredCb now addr).1
        reading := s.reading.eraseIdx i
        log := s.log ++ (s.manager.listExpiredCb now addr).2.map fun c => .collected c.1 }
  | getNextTimer {now} :
      Rule s (.getNextTimer now) { s with
        manager := (s.manager.getNextTimer now).1
        seen := s.manager.timers.head?.map fun id => (s.manager.heap id).next
        clock := now }
  | onTimerInsertedAtFront (hpos : 0 < s.notices) :
      Rule s .onTimerInsertedAtFront { s with notices := s.notices - 1 }

theorem Inv.rule {a : Action κ} (h : Inv s) (hs : s.step a = some s') : Rule s a s' := by
  cases a with
  | construct ms cb recurring addr now =>
      simp only [step, Option.ite_none_right_eq_some, Option.some.injEq] at hs
      obtain ⟨hfree, rfl⟩ := hs
      exact .construct hfree
  | addTimer id =>
      simp only [step, Option.ite_none_right_eq_some, Option.some.injEq] at hs
      obtain ⟨hid, rfl⟩ := hs
      exact .addTimer hid
  | cancel id =>
      simp only [step, Option.ite_none_right_eq_some] at hs
      obtain ⟨hret, hs⟩ := hs
      cases hcb : (s.manager.heap id).cb with
      | none =>
          simp only [TimerManager.cancel_dead hcb, Option.map_some, Option.some.injEq,
            Bool.false_eq_true, if_false, List.append_nil] at hs
          subst hs
          exact .cancelDead hret
      | some cb =>
          have hsome : (s.manager.heap id).cb.isSome := by simp [hcb]
          have hid := (h.live id).mpr ⟨hret, hsome⟩
          rw [TimerManager.cancel_live h.held hid hsome] at hs
          cases hs
          exact .cancelLive hret hid hsome
  | refresh id now =>
      simp only [step, Option.ite_none_right_eq_some, Option.some.injEq] at hs
      obtain ⟨hret, rfl⟩ := hs
      cases hcb : (s.manager.heap id).cb with
      | none =>
          rw [TimerManager.refresh_dead hcb]
          exact .refreshDead hret
      | some cb =>
          have hsome : (s.manager.heap id).cb.isSome := by simp [hcb]
          have hid := (h.live id).mpr ⟨hret, hsome⟩
          rw [TimerManager.refresh_live h.held hid hsome]
          exact .refreshLive hret hid hsome
  | reset id ms from_now now =>
      simp only [step, Option.ite_none_right_eq_some, Option.some.injEq] at hs
      obtain ⟨hret, rfl⟩ := hs
      cases hcb : (s.manager.heap id).cb with
      | none =>
          rw [TimerManager.reset_dead hcb]
          exact .resetDead hret
      | some cb =>
          have hsome : (s.manager.heap id).cb.isSome := by simp [hcb]
          have hid := (h.live id).mpr ⟨hret, hsome⟩
          rw [TimerManager.reset_live h.held hid hsome]
          exact .resetLive hret hid hsome rfl
  | readClock now =>
      cases hs
      exact .readClock
  | leave i =>
      simp only [step, Option.ite_none_right_eq_some, Option.some.injEq] at hs
      obtain ⟨hempty, rfl⟩ := hs
      exact .leave hempty
  | listExpiredCb i addr =>
      simp only [step, Option.bind_eq_bind, Option.bind_eq_some_iff, Option.ite_none_right_eq_some,
        Option.some.injEq] at hs
      obtain ⟨now, hnow, ⟨hne, hfree⟩, rfl⟩ := hs
      exact .listExpiredCb hnow hne hfree
  | getNextTimer now =>
      cases hs
      exact .getNextTimer
  | onTimerInsertedAtFront =>
      simp only [step, Option.ite_none_right_eq_some, Option.some.injEq] at hs
      obtain ⟨hpos, rfl⟩ := hs
      exact .onTimerInsertedAtFront hpos

theorem construct_inv (h : Inv s) {ms addr now : Nat} {cb : κ} {recurring : Bool} (hfree : s.Free addr) :
    Inv { s with
      manager := s.manager.setTimer s.size ⟨recurring, ms, add64 now ms, some cb, addr⟩
      size := s.size + 1
      adding := s.size :: s.adding
      clock := now } := by
  have hlt : ∀ y, y ∈ s.manager.timers ++ s.adding → y < s.size := by
    intro y hy
    rcases List.mem_append.mp hy with hy | hy
    · exact ((h.live y).mp hy).1.1
    · exact (h.adding y hy).1
  have hnew : s.size ∉ s.manager.timers ++ s.adding := fun hin => absurd (hlt _ hin) (Nat.lt_irrefl _)
  have hreturned : ∀ y, (y < s.size + 1 ∧ y ∉ s.size :: s.adding) ↔ s.Returned y := by
    intro y
    constructor
    · rintro ⟨hy, hout⟩
      obtain ⟨hne, hout⟩ := not_or.mp (mt List.mem_cons.mpr hout)
      exact ⟨by omega, hout⟩
    · rintro ⟨hy, hout⟩
      exact ⟨by omega, by simpa [hout] using hy.ne⟩
  have hkeep : ∀ y, y ≠ s.size → ∀ t : Timer κ,
      Function.update s.manager.heap s.size t y = s.manager.heap y := by
    intro y hy t
    rw [Function.update_of_ne hy]
  have hne : ∀ y, s.Returned y → y ≠ s.size := fun y hy => hy.1.ne
  refine ⟨h.held.build hnew hfree, ?_, ?_, ?_, ?_, h.silent⟩
  · intro y
    rw [Returned, hreturned]
    simp only [TimerManager.setTimer_timers, TimerManager.setTimer_heap]
    by_cases hy : y = s.size
    · subst hy
      constructor
      · intro hin
        exact absurd (List.mem_append_left _ hin) hnew
      · rintro ⟨hret, -⟩
        exact absurd rfl (hne _ hret)
    · rw [hkeep y hy]
      exact h.live y
  · intro y hy
    simp only [TimerManager.setTimer_heap]
    rcases List.mem_cons.mp hy with rfl | hy
    · simp
    · have hlive := h.adding y hy
      rw [hkeep y hlive.1.ne]
      exact ⟨Nat.lt_succ_of_lt hlive.1, hlive.2⟩
  · intro y hy
    rw [Returned, hreturned] at hy
    exact h.fresh y hy
  · intro y hy
    rw [Returned, hreturned] at hy
    simp only [gone, TimerManager.setTimer_heap, hkeep y (hne y hy)]
    exact h.fate y hy

theorem addTimer_inv (h : Inv s) (hid : id ∈ s.adding) :
    Inv ({ s with
      manager := (s.manager.isaddTimer id).1
      adding := s.adding.erase id }.notify (s.manager.isaddTimer id).2) := by
  have hperm : s.adding.Perm (id :: s.adding.erase id) := List.perm_cons_erase hid
  have hout : Held s.manager (id :: s.adding.erase id) := h.held.perm hperm
  have hnodup := hout.apart
  have hadding : (s.adding.erase id).Nodup ∧ id ∉ s.adding.erase id := by
    have hcons := (List.nodup_append.mp hout.apart).2.1
    exact ⟨(List.nodup_cons.mp hcons).2, (List.nodup_cons.mp hcons).1⟩
  have hreturned : ∀ y, (y < s.size ∧ y ∉ s.adding.erase id) ↔ y = id ∨ s.Returned y := by
    intro y
    rw [Returned, hperm.mem_iff, List.mem_cons, not_or]
    by_cases hy : y = id
    · subst hy
      simp [hadding.2, (h.adding y hid).1]
    · simp [hy]
  have hpending : ¬ s.Returned id := fun hret => hret.2 hid
  refine ⟨?_, ?_, ?_, ?_, ?_, h.silent⟩
  · exact ⟨hout.put.sorted, hout.put.apart, hout.put.address⟩
  · intro y
    have hmem := hout.mem_put y
    simp only [notify, Returned, TimerManager.isaddTimer_timers, TimerManager.isaddTimer_heap, hmem,
      hreturned, h.live y]
    constructor
    · rintro (rfl | ⟨hret, hcb⟩)
      · exact ⟨Or.inl rfl, (h.adding y hid).2⟩
      · exact ⟨Or.inr hret, hcb⟩
    · rintro ⟨rfl | hret, hcb⟩
      · exact Or.inl rfl
      · exact Or.inr ⟨hret, hcb⟩
  · intro y hy
    exact h.adding y (List.mem_of_mem_erase hy)
  · intro y hy
    simp only [notify, Returned, hreturned, not_or] at hy
    exact h.fresh y hy.2
  · intro y hy
    simp only [notify, Returned, hreturned] at hy
    simp only [notify, gone, TimerManager.isaddTimer_heap]
    rcases hy with rfl | hret
    · obtain ⟨hcollected, hcancelled⟩ := h.count_zero hpending
      simp [hcollected, hcancelled, (h.adding y hid).2]
    · exact h.fate y hret

theorem cancel_inv (h : Inv s) (hret : s.Returned id) (hid : id ∈ s.manager.timers)
    (hsome : (s.manager.heap id).cb.isSome) :
    Inv { s with
      manager := (s.manager.setTimer id { s.manager.heap id with cb := none }).erase id
      log := s.log ++ [.cancelled id] } := by
  have hmark : Held (s.manager.setTimer id { s.manager.heap id with cb := none }) s.adding :=
    h.held.mark rfl rfl
  have hzero := h.fate id hret
  rw [gone, if_pos hsome, Nat.add_eq_zero_iff] at hzero
  refine ⟨(hmark.take hid).drop, ?_, ?_, ?_, ?_, ?_⟩
  · intro y
    have hlive := h.live y
    simp only [TimerManager.erase_timers, TimerManager.setTimer_timers, TimerManager.erase_heap,
      TimerManager.setTimer_heap, h.held.nodup.mem_erase_iff, Returned]
    by_cases hy : y = id
    · subst hy
      simp
    · rw [Function.update_of_ne hy]
      simpa [hy, Returned] using hlive
  · intro y hy
    have hne : y ≠ id := by
      rintro rfl
      exact hret.2 hy
    simpa [Function.update_of_ne hne] using h.adding y hy
  · intro y hy
    have hne : y ≠ id := by
      rintro rfl
      exact hy hret
    simpa [hne] using h.fresh y hy
  · intro y hy
    have hfate := h.fate y hy
    simp only [gone, TimerManager.erase_heap, TimerManager.setTimer_heap, List.count_append] at hfate ⊢
    by_cases hyid : y = id
    · subst hyid
      simp [hzero.1, hzero.2]
    · have hnot : id ≠ y := fun he => hyid he.symm
      simpa [Function.update_of_ne hyid, hnot] using hfate
  · refine List.pairwise_append.mpr ⟨h.silent, by simp, ?_⟩
    intro e _ f hf y _
    simp only [List.mem_singleton] at hf
    simp [hf]

theorem listExpiredCb_inv (h : Inv s) (i now addr : Nat) :
    Inv { s with
      manager := (s.manager.listExpiredCb now addr).1
      reading := s.reading.eraseIdx i
      log := s.log ++ (s.manager.listExpiredCb now addr).2.map fun c => .collected c.1 } := by
  obtain ⟨ids, rest, hfires⟩ := TimerManager.listExpiredCb_fires h.held now addr
  have hlog : (s.manager.listExpiredCb now addr).2.map (fun c => Event.collected c.1) =
      ids.map Event.collected := by
    rw [hfires.callbacks, List.map_map]
    rfl
  have hids : ∀ y ∈ ids, s.Returned y ∧ (s.manager.heap y).cb.isSome := fun y hy =>
    (h.live y).mp (by simp [hfires.parts, hy])
  have hnodup : ids.Nodup ∧ ∀ y ∈ ids, y ∉ rest := by
    have hall := h.held.nodup
    rw [hfires.parts, List.nodup_append] at hall
    exact ⟨hall.1, fun y hy hin => hall.2.2 y hy y hin rfl⟩
  have hcb : ∀ y, ((s.manager.listExpiredCb now addr).1.heap y).cb =
      if y ∈ ids ∧ (s.manager.heap y).recurring = false then none else (s.manager.heap y).cb := by
    intro y
    rw [hfires.heap y]
    by_cases hy : y ∈ ids
    · rw [if_pos hy, Timer.expired_cb]
      cases (s.manager.heap y).recurring <;> simp [hy]
    · simp [hy]
  have hrecurring : ∀ y, ((s.manager.listExpiredCb now addr).1.heap y).recurring =
      (s.manager.heap y).recurring := by
    intro y
    rw [hfires.heap y]
    split
    · exact Timer.expired_recurring now _
    · rfl
  refine ⟨hfires.held, ?_, ?_, ?_, ?_, ?_⟩
  · intro y
    have hlive := h.live y
    rw [hfires.parts, List.mem_append] at hlive
    simp only [hfires.timers y, hcb y, Returned] at hlive ⊢
    by_cases hy : y ∈ ids
    · have hlive' := hids y hy
      have hrest := hnodup.2 y hy
      cases hrec : (s.manager.heap y).recurring with
      | true => simpa [hy, Returned] using hlive'
      | false => simp [hy, hrest]
    · simpa [hy] using hlive
  · intro y hy
    have hne : y ∉ ids := fun hin => (hids y hin).1.2 hy
    simpa [hcb y, hne] using h.adding y hy
  · intro y hy
    have hne : y ∉ ids := fun hin => hy (hids y hin).1
    simpa [hlog, hne] using h.fresh y hy
  · intro y hy
    have hfate := h.fate y hy
    simp only [gone, hlog, hrecurring y, hcb y, List.count_append] at hfate ⊢
    have hcancelled : (ids.map Event.collected).count (.cancelled y) = 0 :=
      List.count_eq_zero.mpr (by simp)
    have hcollected : (ids.map Event.collected).count (.collected y) = if y ∈ ids then 1 else 0 := by
      rw [List.count_map_of_injective ids Event.collected (fun _ _ he => Event.collected.inj he) y]
      exact hnodup.1.count
    rw [hcancelled, hcollected]
    cases hrec : (s.manager.heap y).recurring with
    | true => simpa [hrec] using hfate
    | false =>
        by_cases hin : y ∈ ids
        · have hzero : (s.log.count (.cancelled y)) + s.log.count (.collected y) = 0 := by
            simpa [hrec, (hids y hin).2] using hfate
          simp only [hin, true_and, if_true, Bool.false_eq_true, if_false, Option.isSome_none]
          omega
        · simpa [hrec, hin] using hfate
  · refine List.pairwise_append.mpr ⟨h.silent, ?_, ?_⟩
    · rw [hlog]
      refine List.pairwise_map.mpr (List.pairwise_of_forall ?_)
      intro x y z he
      cases he
    · intro e he f hf y hey hfy
      subst hey hfy
      rw [hlog] at hf
      have hin : y ∈ ids := by simpa using hf
      have hzero := h.fate y (hids y hin).1
      rw [gone, if_pos (hids y hin).2, Nat.add_eq_zero_iff] at hzero
      exact List.count_eq_zero.mp hzero.1 he

theorem step_inv {a : Action κ} (h : Inv s) (hs : s.step a = some s') : Inv s' := by
  cases h.rule hs with
  | construct hfree => exact construct_inv h hfree
  | addTimer hid => exact addTimer_inv h hid
  | cancelLive hret hid hcb => exact cancel_inv h hret hid hcb
  | cancelDead hret => exact h
  | @refreshLive id now hret hid hcb =>
      obtain ⟨hheld, hmem⟩ := h.held.rekey hid (t := { s.manager.heap id with
        next := add64 now (s.manager.heap id).ms }) rfl
      exact h.rekeyed hheld rfl hmem rfl rfl rfl rfl rfl
  | @resetLive id ms from_now now m hret hid hcb hm =>
      subst hm
      obtain ⟨hheld, hmem⟩ := h.held.rekey hid (t := { s.manager.heap id with
        ms, next := s.manager.resetNext id ms from_now now }) rfl
      exact h.rekeyed ⟨hheld.sorted, hheld.apart, hheld.address⟩ rfl hmem rfl rfl rfl rfl rfl
  | listExpiredCb hnow hne hfree => exact listExpiredCb_inv h _ _ _
  | @getNextTimer now =>
      have hheld : Held (s.manager.getNextTimer now).1 s.adding :=
        ⟨h.held.sorted, h.held.apart, h.held.address⟩
      exact h.keep hheld rfl rfl rfl (fun _ => rfl) (fun _ => rfl) fun _ => Iff.rfl
  | _ => exact h.keep h.held rfl rfl rfl (fun _ => rfl) (fun _ => rfl) fun _ => Iff.rfl

theorem fires_or_cancelled (now : Nat) (as : List (Action κ)) :
    Always step FiresOrCancelled (new now) as :=
  always_of_invariant (fun _ _ _ h hs => step_inv h hs) (fun _ h => h.settled)
    (new_inv now) as

end System
end HCServer.Timers
