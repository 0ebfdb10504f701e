import HCServer.Timer.Deadline
import HCServer.Timer.Expiry

/-! When callbacks run. A timer's period begins when it is built, when it is refreshed or reset from now,
and each time it has fired. -/
namespace HCServer.Timers
open Lib
variable {κ : Type}

/-- A callback handed over by a call of `listExpiredCb` that had read the clock at `now`. -/
structure Firing where
  id : Nat
  since : Nat
  ms : Nat
  now : Nat
  deriving DecidableEq, Repr

/-- The system, with the beginning of each timer's period and the firings so far. -/
structure Watch (κ : Type) where
  system : System κ
  since : Nat → Nat
  fired : List Firing

def Event.collectedId : Event → Option Nat
  | .collected id => some id
  | .cancelled _ => none

namespace Watch

def new (now : Nat) : Watch κ := ⟨.new now, fun _ => 0, []⟩

/-- What the action `a`, which leads to `t`, adds to the books. -/
def record (s : Watch κ) (a : Action κ) (t : System κ) : Watch κ :=
  match a with
  | .construct _ _ _ _ now => { s with
      system := t
      since := Function.update s.since s.system.size now }
  | .refresh id now => { s with system := t, since := Function.update s.since id now }
  | .reset id _ from_now now => { s with
      system := t
      since := if from_now then Function.update s.since id now else s.since }
  | .listExpiredCb i addr =>
      match s.system.reading[i]? with
      | none => { s with system := t }
      | some now =>
          let cbs := (s.system.manager.listExpiredCb now addr).2
          { system := t
            since := fun id => if id ∈ cbs.map Prod.fst then now else s.since id
            fired := s.fired ++ cbs.map fun c =>
              ⟨c.1, s.since c.1, (s.system.manager.heap c.1).ms, now⟩ }
  | _ => { s with system := t }

def step (s : Watch κ) (a : Action κ) : Option (Watch κ) := (s.system.step a).map (s.record a)

def Steady (s : Watch κ) (a : Action κ) : Prop := s.system.Steady a

instance (s : Watch κ) (a : Action κ) : Decidable (s.Steady a) :=
  inferInstanceAs (Decidable (s.system.Steady a))

/-- No callback before its time, and those of a periodic timer at least a period apart. -/
structure OnTime (s : Watch κ) : Prop where
  early : ∀ f ∈ s.fired, f.since + f.ms ≤ f.now
  apart : s.fired.Pairwise fun f g => f.id = g.id → f.now + g.ms ≤ g.now
  log : s.fired.map Firing.id = s.system.log.filterMap Event.collectedId

/-- The invariant. -/
structure Kept (s : Watch κ) : Prop where
  timely : s.system.Timely
  deadline : ∀ id < s.system.size, (s.system.manager.heap id).cb.isSome →
    (s.system.manager.heap id).next = s.since id + (s.system.manager.heap id).ms
  past : ∀ f ∈ s.fired, f.id < s.system.size ∧ f.now ≤ s.since f.id ∧ f.now ≤ s.system.clock
  onTime : OnTime s

variable {s s' : Watch κ} {a : Action κ} {t : System κ}

theorem new_kept (now : Nat) : Kept (new now : Watch κ) := by
  refine ⟨System.new_timely now, ?_, ?_, ?_, List.Pairwise.nil, rfl⟩
  · intro id hid
    exact absurd hid (Nat.not_lt_zero _)
  · intro f hf
    exact absurd hf List.not_mem_nil
  · intro f hf
    exact absurd hf List.not_mem_nil

/-- A step at which nothing fires. -/
theorem Kept.quiet (h : Kept s) (htimely : t.Timely) {since : Nat → Nat}
    (hdeadline : ∀ id < t.size, (t.manager.heap id).cb.isSome →
      (t.manager.heap id).next = since id + (t.manager.heap id).ms)
    (hsize : s.system.size ≤ t.size) (hclock : s.system.clock ≤ t.clock)
    (hsince : ∀ id < s.system.size, s.since id ≤ since id ∨ s.system.clock ≤ since id)
    (hlog : t.log.filterMap Event.collectedId = s.system.log.filterMap Event.collectedId) :
    Kept { s with system := t, since } := by
  refine ⟨htimely, hdeadline, ?_, h.onTime.early, h.onTime.apart, h.onTime.log.trans hlog.symm⟩
  intro f hf
  obtain ⟨hid, hnow, hnow'⟩ := h.past f hf
  refine ⟨hid.trans_le hsize, ?_, hnow'.trans hclock⟩
  rcases hsince f.id hid with hle | hle
  · exact hnow.trans hle
  · exact hnow'.trans hle

/-- The timers are as they were, but for some that have lost their callbacks. -/
theorem Kept.same (h : Kept s) (htimely : t.Timely) (hsize : t.size = s.system.size)
    (hclock : s.system.clock ≤ t.clock)
    (hheap : ∀ id, (t.manager.heap id).cb.isSome → t.manager.heap id = s.system.manager.heap id)
    (hlog : t.log.filterMap Event.collectedId = s.system.log.filterMap Event.collectedId) :
    Kept { s with system := t } := by
  refine h.quiet htimely ?_ hsize.ge hclock (fun _ _ => Or.inl le_rfl) hlog
  intro id hid hcb
  have hsame := hheap id hcb
  rw [hsame] at hcb ⊢
  exact h.deadline id (hsize ▸ hid) hcb

/-- One timer gets a new period. -/
theorem Kept.rekey (h : Kept s) (htimely : t.Timely) {id start : Nat} {u : Timer κ} {since : Nat → Nat}
    (hheap : t.manager.heap = Function.update s.system.manager.heap id u)
    (hnext : u.next = start + u.ms) (hsince : since = Function.update s.since id start)
    (hstart : s.since id ≤ start ∨ s.system.clock ≤ start) (hsize : t.size = s.system.size)
    (hclock : s.system.clock ≤ t.clock) (hlog : t.log = s.system.log) :
    Kept { s with system := t, since } := by
  subst hsince
  refine h.quiet htimely ?_ hsize.ge hclock ?_ (by rw [hlog])
  · intro y hy hcb
    rw [hheap] at hcb ⊢
    by_cases hyid : y = id
    · subst hyid
      simpa using hnext
    · rw [Function.update_of_ne hyid] at hcb ⊢
      rw [Function.update_of_ne hyid]
      exact h.deadline y (hsize ▸ hy) hcb
  · intro y _
    by_cases hyid : y = id
    · subst hyid
      simpa using hstart
    · rw [Function.update_of_ne hyid]
      exact Or.inl le_rfl

/-- The call finds no callback. -/
theorem Kept.dead (h : Kept s) {id now : Nat} (hcb : (s.system.manager.heap id).cb = none)
    (htimely : System.Timely { s.system with clock := now }) (hclock : s.system.clock ≤ now) :
    Kept { s with
      system := { s.system with clock := now }
      since := Function.update s.since id now } := by
  refine h.quiet htimely ?_ le_rfl hclock ?_ rfl
  · intro y hy hsome
    have hne : y ≠ id := by
      rintro rfl
      rw [hcb] at hsome
      cases hsome
    rw [Function.update_of_ne hne]
    exact h.deadline y hy hsome
  · intro y _
    by_cases hyid : y = id
    · subst hyid
      rw [Function.update_self]
      exact Or.inr hclock
    · rw [Function.update_of_ne hyid]
      exact Or.inl le_rfl

theorem Kept.refresh (h : Kept s) {id now : Nat} (hs : s.system.step (.refresh id now) = some t)
    (htimely : t.Timely) (hsteady : s.system.Steady (.refresh id now)) :
    Kept (s.record (.refresh id now) t) := by
  obtain ⟨hclock, hwrap⟩ := hsteady
  simp only [System.step, Option.ite_none_right_eq_some, Option.some.injEq] at hs
  obtain ⟨hret, rfl⟩ := hs
  cases hcb : (s.system.manager.heap id).cb with
  | none =>
      rw [TimerManager.refresh_dead hcb] at htimely ⊢
      exact h.dead hcb htimely hclock
  | some cb =>
      have hsome : (s.system.manager.heap id).cb.isSome := by simp [hcb]
      have hid := (h.timely.inv.live id).mpr ⟨hret, hsome⟩
      rw [TimerManager.refresh_live h.timely.inv.held hid hsome] at htimely ⊢
      exact h.rekey htimely rfl (add64_of_lt (hwrap hsome)) rfl (Or.inr hclock) rfl hclock rfl

theorem Kept.reset (h : Kept s) {id ms now : Nat} {from_now : Bool}
    (hs : s.system.step (.reset id ms from_now now) = some t) (htimely : t.Timely)
    (hsteady : s.system.Steady (.reset id ms from_now now)) :
    Kept (s.record (.reset id ms from_now now) t) := by
  obtain ⟨hclock, hwrap⟩ := hsteady
  simp only [System.step, Option.ite_none_right_eq_some, Option.some.injEq] at hs
  obtain ⟨hret, rfl⟩ := hs
  cases hcb : (s.system.manager.heap id).cb with
  | none =>
      rw [TimerManager.reset_dead hcb] at htimely ⊢
      simp only [record]
      cases from_now with
      | true => exact h.dead hcb htimely hclock
      | false => exact h.same htimely rfl hclock (fun _ _ => rfl) rfl
  | some cb =>
      have hsome : (s.system.manager.heap id).cb.isSome := by simp [hcb]
      have hid := (h.timely.inv.live id).mpr ⟨hret, hsome⟩
      have hms := (h.timely.period id hret.1).1
      have hnext := System.resetNext_eq hms (hwrap hsome)
      have hsince : (s.system.manager.heap id).next - (s.system.manager.heap id).ms = s.since id := by
        rw [h.deadline id hret.1 hsome, Nat.add_sub_cancel]
      rw [TimerManager.reset_live h.timely.inv.held hid hsome] at htimely ⊢
      simp only [record]
      cases from_now with
      | true => exact h.rekey htimely rfl hnext rfl (Or.inr hclock) rfl hclock rfl
      | false =>
          -- the period keeps its beginning
          have hstart : s.system.manager.resetNext id ms false now = s.since id + ms := by
            rw [hnext, ← hsince]
            rfl
          exact h.rekey htimely rfl hstart (Function.update_eq_self id s.since).symm (Or.inl le_rfl) rfl
            hclock rfl

theorem Kept.listExpiredCb (h : Kept s) {i addr now : Nat} (hnow : s.system.reading[i]? = some now)
    (hrollover : s.system.manager.detectClockRollover now = false)
    (hwrap : ∀ id ∈ s.system.manager.timers, (s.system.manager.heap id).next ≤ now →
      (s.system.manager.heap id).recurring → now + (s.system.manager.heap id).ms < 2 ^ 64)
    (hsystem : t = { s.system with
      manager := (s.system.manager.listExpiredCb now addr).1
      reading := s.system.reading.eraseIdx i
      log := s.system.log ++
        (s.system.manager.listExpiredCb now addr).2.map fun c => .collected c.1 })
    (htimely : t.Timely) : Kept (s.record (.listExpiredCb i addr) t) := by
  have htakes := TimerManager.body_takes_due h.timely.inv.held now addr
  have hclock : now ≤ s.system.clock := h.timely.reading now (List.mem_of_getElem? hnow)
  simp only [record, hnow]
  subst hsystem
  generalize hcall : s.system.manager.listExpiredCb now addr = r at htakes htimely ⊢
  obtain ⟨m, cbs⟩ := r
  dsimp only at htakes htimely ⊢
  -- what fires is in the set and due
  have hdue : ∀ id ∈ cbs.map Prod.fst, id ∈ s.system.manager.timers ∧
      s.system.manager.due now id = true ∧ (s.system.manager.heap id).next ≤ now := by
    intro id hid
    rw [htakes.callbacks, List.map_map, List.mem_map] at hid
    obtain ⟨y, hy, rfl⟩ := hid
    obtain ⟨hy, hyd⟩ := List.mem_filter.mp hy
    refine ⟨hy, hyd, ?_⟩
    simpa [TimerManager.due, hrollover] using hyd
  have hstart : ∀ id ∈ cbs.map Prod.fst,
      id < s.system.size ∧ s.since id + (s.system.manager.heap id).ms ≤ now := by
    intro id hid
    obtain ⟨hin, -, hle⟩ := hdue id hid
    obtain ⟨hret, hcb⟩ := (h.timely.inv.live id).mp hin
    exact ⟨hret.1, h.deadline id hret.1 hcb ▸ hle⟩
  refine ⟨htimely, ?_, ?_, ?_, ?_, ?_⟩
  · intro id hid hcb
    dsimp only at hid hcb ⊢
    by_cases hin : id ∈ s.system.manager.timers ∧ s.system.manager.due now id = true
    · have hfires : id ∈ cbs.map Prod.fst := by
        rw [htakes.callbacks, List.map_map, List.mem_map]
        exact ⟨id, List.mem_filter.mpr hin, rfl⟩
      cases hrecurring : (s.system.manager.heap id).recurring with
      | true =>
          rw [htakes.rekeyed id hin.1 hin.2 hrecurring, if_pos hfires]
          exact add64_of_lt (hwrap id hin.1 (hdue id hfires).2.2 hrecurring)
      | false =>
          rw [htakes.dropped id hin.1 hin.2 hrecurring] at hcb
          cases hcb
    · have hquiet : id ∉ cbs.map Prod.fst := fun hfires =>
        hin ⟨(hdue id hfires).1, (hdue id hfires).2.1⟩
      rw [htakes.unchanged id hin] at hcb ⊢
      rw [if_neg hquiet]
      exact h.deadline id hid hcb
  · intro f hf
    rcases List.mem_append.mp hf with hold | hnew
    · obtain ⟨hid, hpast, hpast'⟩ := h.past f hold
      refine ⟨hid, ?_, hpast'⟩
      dsimp only
      split
      · case isTrue hin => exact hpast.trans ((Nat.le_add_right _ _).trans (hstart f.id hin).2)
      · exact hpast
    · obtain ⟨c, hc, rfl⟩ := List.mem_map.mp hnew
      have hin : c.1 ∈ cbs.map Prod.fst := List.mem_map_of_mem hc
      refine ⟨(hstart c.1 hin).1, ?_, hclock⟩
      dsimp only
      rw [if_pos hin]
  · intro f hf
    rcases List.mem_append.mp hf with hold | hnew
    · exact h.onTime.early f hold
    · obtain ⟨c, hc, rfl⟩ := List.mem_map.mp hnew
      exact (hstart c.1 (List.mem_map_of_mem hc)).2
  · refine List.pairwise_append.mpr ⟨h.onTime.apart, ?_, ?_⟩
    · have hnodup := htakes.once
      rw [List.nodup_iff_pairwise_ne, List.pairwise_map] at hnodup
      refine List.pairwise_map.mpr (hnodup.imp ?_)
      intro x y hne he
      exact absurd he hne
    · intro f hf g hg hfg
      obtain ⟨c, hc, rfl⟩ := List.mem_map.mp hg
      have hlate := (hstart c.1 (List.mem_map_of_mem hc)).2
      have hpast := (h.past f hf).2.1
      rw [hfg] at hpast
      exact (Nat.add_le_add_right hpast _).trans hlate
  · rw [List.map_append, List.filterMap_append, h.onTime.log, List.map_map, List.filterMap_map]
    exact congrArg _ (congrFun (List.filterMap_eq_map (f := Prod.fst)) cbs).symm

theorem Kept.step (h : Kept s) (hs : s.step a = some s') (hsteady : s.Steady a) : Kept s' := by
  obtain ⟨t, ht, rfl⟩ := Option.map_eq_some_iff.mp hs
  have htimely := System.step_timely h.timely ht hsteady
  have hrule := h.timely.inv.rule ht
  cases a with
  | refresh id now => exact h.refresh ht htimely hsteady
  | reset id ms from_now now => exact h.reset ht htimely hsteady
  | construct ms cb recurring addr now =>
      cases hrule with
      | construct hfree =>
          refine h.quiet htimely ?_ (Nat.le_succ _) hsteady.1 ?_ rfl
          · intro id hid hsome
            by_cases hnew : id = s.system.size
            · subst hnew
              simpa using add64_of_lt hsteady.2
            · simp only [TimerManager.setTimer_heap] at hsome ⊢
              rw [Function.update_of_ne hnew] at hsome ⊢
              rw [Function.update_of_ne hnew]
              exact h.deadline id (Nat.lt_of_le_of_ne (Nat.le_of_lt_succ hid) hnew) hsome
          · intro id hid
            rw [Function.update_of_ne hid.ne]
            exact Or.inl le_rfl
  | cancel id =>
      cases hrule with
      | cancelDead hret => exact h.same htimely rfl le_rfl (fun _ _ => rfl) rfl
      | cancelLive hret hid hcb =>
          refine h.same htimely rfl le_rfl ?_ ?_
          · intro y hy
            by_cases hyid : y = id
            · subst hyid
              simp at hy
            · simp [Function.update_of_ne hyid]
          · simp [Event.collectedId]
  | listExpiredCb i addr =>
      cases hrule with
      | listExpiredCb hnow hne hfree =>
          obtain ⟨hrollover, hwrap⟩ := hsteady _ hnow
          exact h.listExpiredCb hnow hrollover hwrap rfl htimely
  | addTimer id =>
      cases hrule with
      | addTimer hid => exact h.same htimely rfl le_rfl (fun _ _ => rfl) rfl
  | readClock now =>
      cases hrule with
      | readClock => exact h.same htimely rfl hsteady (fun _ _ => rfl) rfl
  | getNextTimer now =>
      cases hrule with
      | getNextTimer => exact h.same htimely rfl hsteady (fun _ _ => rfl) rfl
  | leave i =>
      cases hrule with
      | leave hempty => exact h.same htimely rfl le_rfl (fun _ _ => rfl) rfl
  | onTimerInsertedAtFront =>
      cases hrule with
      | onTimerInsertedAtFront hpos => exact h.same htimely rfl le_rfl (fun _ _ => rfl) rfl

end Watch
end HCServer.Timers
