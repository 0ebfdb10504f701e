import HCServer.Hook.Sleep
import HCServer.Timer.Punctual

/-! Fibers that sleep by the hooked functions, beside other users of the timers. What `addTimer` returns
to such a function goes nowhere, so nobody refreshes, resets or cancels the timer of a sleep. -/
namespace HCServer.Hook
open Lib Timers

/-- A call with its fiber, and the clock that the timer was built by. -/
structure Slept (φ : Type) where
  call : Sleep
  fiber : φ
  start : Nat

/-- A call of `listExpiredCb` that has gone over the set: the timers that were in it then, and the
callbacks that it hands over. One is `schedule` of a fiber, or belongs to another user. -/
structure Pass (φ κ : Type) where
  now : Nat
  waiting : List Nat
  callbacks : List (Nat × Option (φ ⊕ κ))

/-- The sleep of timer `id` ends. -/
def Pass.Wakes {φ κ : Type} (p : Pass φ κ) (id : Nat) (fiber : φ) : Prop :=
  (id, some (.inl fiber)) ∈ p.callbacks

structure Sleepers (φ κ : Type) where
  system : System (φ ⊕ κ)
  calls : Nat → Option (Slept φ)
  passes : List (Pass φ κ)

namespace Sleepers
variable {φ κ : Type}

/-- `sleep` is a call up to the timer's constructor. -/
inductive Action (φ κ : Type)
  | sleep (call : Sleep) (fiber : φ) (addr now : Nat)
  | other (a : Timers.Action (φ ⊕ κ))

def new (now : Nat) : Sleepers φ κ := ⟨.new now, fun _ => none, []⟩

/-- The timer whose pointer an action needs. -/
def pointer : Timers.Action (φ ⊕ κ) → Option Nat
  | .cancel id | .refresh id _ | .reset id _ _ _ => some id
  | _ => none

def passesOf (s : Sleepers φ κ) : Timers.Action (φ ⊕ κ) → List (Pass φ κ)
  | .listExpiredCb i addr => s.system.reading[i]?.toList.map fun now =>
      ⟨now, s.system.manager.timers, (s.system.manager.listExpiredCb now addr).2⟩
  | _ => []

def step (s : Sleepers φ κ) : Action φ κ → Option (Sleepers φ κ)
  | .sleep call fiber addr now => do
      let ms ← call.ms
      let t ← s.system.step (.construct ms (.inl fiber) false addr now)
      some { s with
        system := t
        calls := Function.update s.calls s.system.size (some ⟨call, fiber, now⟩) }
  | .other a =>
      if (pointer a).any fun id => (s.calls id).isSome then none
      else (s.system.step a).map fun t => { s with system := t, passes := s.passes ++ s.passesOf a }

def Steady (s : Sleepers φ κ) : Action φ κ → Prop
  | .sleep call fiber addr now =>
      ∀ ms ∈ call.ms, s.system.Steady (.construct ms (.inl fiber) false addr now)
  | .other a => s.system.Steady a

instance (s : Sleepers φ κ) (a : Action φ κ) : Decidable (s.Steady a) := by
  cases a <;> unfold Steady <;> infer_instance

/-- A sleep is in the set until a pass whose clock has come to its end, which wakes its fiber; this
happens once. -/
structure InTime (s : Sleepers φ κ) : Prop where
  kept : ∀ id c, s.calls id = some c → s.system.Returned id →
    id ∈ s.system.manager.timers ∨ ∃ p ∈ s.passes, p.Wakes id c.fiber
  woken : ∀ p ∈ s.passes, ∀ id ∈ p.waiting, ∀ c, s.calls id = some c → c.call.Fits →
    (p.Wakes id c.fiber ↔ c.start * 1000000 + c.call.requested ≤ p.now * 1000000)
  waited : ∀ p ∈ s.passes, ∀ x ∈ p.callbacks, x.1 ∈ p.waiting
  once : ∀ id c, s.calls id = some c →
    (s.passes.flatMap fun p => p.callbacks.map Prod.fst).count id ≤ 1

/-- The timer of a sleep, before it is collected. -/
structure Armed (t : Timers.Timer (φ ⊕ κ)) (c : Slept φ) : Prop where
  cb : t.cb = some (.inl c.fiber)
  next : ∃ ms, c.call.ms = some ms ∧ t.next = c.start + ms

/-- The invariant. -/
structure Kept (s : Sleepers φ κ) : Prop where
  inv : s.system.Inv
  built : ∀ id c, s.calls id = some c →
    id < s.system.size ∧ (s.system.manager.heap id).recurring = false
  armed : ∀ id c, s.calls id = some c → (s.system.manager.heap id).cb.isSome →
    Armed (s.system.manager.heap id) c
  gone : ∀ id c, s.calls id = some c → (s.system.manager.heap id).cb = none →
    ∃ p ∈ s.passes, p.Wakes id c.fiber
  log : (s.passes.flatMap fun p => p.callbacks.map Prod.fst) =
    s.system.log.filterMap Event.collectedId
  past : ∀ p ∈ s.passes, ∀ id ∈ p.waiting, id < s.system.size
  woken : ∀ p ∈ s.passes, ∀ id ∈ p.waiting, ∀ c, s.calls id = some c → c.call.Fits →
    (p.Wakes id c.fiber ↔ c.start * 1000000 + c.call.requested ≤ p.now * 1000000)
  waited : ∀ p ∈ s.passes, ∀ x ∈ p.callbacks, x.1 ∈ p.waiting

variable {s s' : Sleepers φ κ} {t : System (φ ⊕ κ)}

/-- A whole number of milliseconds is over when the clock has gone on by so many. -/
theorem over_iff {c : Slept φ} (hfits : c.call.Fits) {ms now : Nat} (hms : c.call.ms = some ms) :
    c.start + ms ≤ now ↔ c.start * 1000000 + c.call.requested ≤ now * 1000000 := by
  obtain ⟨ms', hms', hlo, hhi⟩ := (Sleep.onTime_iff c.call).mpr hfits
  rw [hms] at hms'
  cases hms'
  omega

theorem new_kept (now : Nat) : Kept (new now : Sleepers φ κ) where
  inv := System.new_inv now
  built := nofun
  armed := nofun
  gone := nofun
  log := rfl
  past := nofun
  woken := nofun
  waited := nofun

/-- A step without a pass that leaves the timers of the sleeps alone. -/
theorem Kept.quiet (h : Kept s) (hinv : t.Inv) (hsize : s.system.size ≤ t.size)
    (hheap : ∀ id c, s.calls id = some c → t.manager.heap id = s.system.manager.heap id)
    (hlog : t.log.filterMap Event.collectedId = s.system.log.filterMap Event.collectedId) :
    Kept { s with system := t } := by
  refine ⟨hinv, ?_, ?_, ?_, h.log.trans hlog.symm, ?_, h.woken, h.waited⟩
  · intro id c hc
    obtain ⟨hid, hrecurring⟩ := h.built id c hc
    exact ⟨hid.trans_le hsize, by rw [hheap id c hc]; exact hrecurring⟩
  · intro id c hc hcb
    rw [hheap id c hc] at hcb ⊢
    exact h.armed id c hc hcb
  · intro id c hc hcb
    rw [hheap id c hc] at hcb
    exact h.gone id c hc hcb
  · intro p hp id hid
    exact (h.past p hp id hid).trans_le hsize

/-- A call arms a timer that no pass has met. -/
theorem Kept.sleep (h : Kept s) {call : Sleep} {fiber : φ} {addr now ms : Nat}
    (hms : call.ms = some ms) (hwrap : now + ms < 2 ^ 64) (hinv : t.Inv)
    (ht : t = { s.system with
      manager := s.system.manager.setTimer s.system.size
        ⟨false, ms, add64 now ms, some (.inl fiber), addr⟩
      size := s.system.size + 1
      adding := s.system.size :: s.system.adding
      clock := now }) :
    Kept { s with
      system := t
      calls := Function.update s.calls s.system.size (some ⟨call, fiber, now⟩) } := by
  subst ht
  have hold : ∀ {id c}, Function.update s.calls s.system.size (some ⟨call, fiber, now⟩) id = some c →
      id ≠ s.system.size → s.calls id = some c := by
    intro id c hc hne
    rwa [Function.update_of_ne hne] at hc
  refine ⟨hinv, ?_, ?_, ?_, h.log, ?_, ?_, h.waited⟩
  · intro id c hc
    by_cases hid : id = s.system.size
    · subst hid
      exact ⟨Nat.lt_succ_self _, by simp⟩
    · obtain ⟨hlt, hrecurring⟩ := h.built id c (hold hc hid)
      refine ⟨hlt.trans (Nat.lt_succ_self _), ?_⟩
      simpa [Function.update_of_ne hid] using hrecurring
  · intro id c hc hcb
    by_cases hid : id = s.system.size
    · subst hid
      dsimp only at hc
      rw [Function.update_self] at hc
      cases hc
      exact ⟨by simp, ms, hms, by simpa using add64_of_lt hwrap⟩
    · simp only [TimerManager.setTimer_heap, Function.update_of_ne hid] at hcb ⊢
      exact h.armed id c (hold hc hid) hcb
  · intro id c hc hcb
    by_cases hid : id = s.system.size
    · subst hid
      simp at hcb
    · simp only [TimerManager.setTimer_heap, Function.update_of_ne hid] at hcb
      exact h.gone id c (hold hc hid) hcb
  · intro p hp id hid
    exact (h.past p hp id hid).trans (Nat.lt_succ_self _)
  · intro p hp id hid c hc
    exact h.woken p hp id hid c (hold hc (h.past p hp id hid).ne)

/-- A pass takes the sleeps that are over, and no others. -/
theorem Kept.pass (h : Kept s) {i addr now : Nat}
    (hrollover : s.system.manager.detectClockRollover now = false) (hinv : t.Inv)
    (ht : t = { s.system with
      manager := (s.system.manager.listExpiredCb now addr).1
      reading := s.system.reading.eraseIdx i
      log := s.system.log ++
        (s.system.manager.listExpiredCb now addr).2.map fun c => .collected c.1 }) :
    Kept { s with
      system := t
      passes := s.passes ++
        [⟨now, s.system.manager.timers, (s.system.manager.listExpiredCb now addr).2⟩] } := by
  subst ht
  have htakes := TimerManager.body_takes_due h.inv.held now addr
  generalize hcall : s.system.manager.listExpiredCb now addr = r at htakes hinv ⊢
  obtain ⟨m, cbs⟩ := r
  dsimp only at htakes hinv ⊢
  have hdue : ∀ id, s.system.manager.due now id = true ↔ (s.system.manager.heap id).next ≤ now := by
    intro id
    rw [TimerManager.due, hrollover, Bool.false_or, decide_eq_true_eq]
  have hmem : ∀ x, x ∈ cbs ↔ (x.1 ∈ s.system.manager.timers ∧
      (s.system.manager.heap x.1).next ≤ now) ∧ x.2 = (s.system.manager.heap x.1).cb := by
    rintro ⟨id, cb⟩
    rw [htakes.callbacks, List.mem_map]
    constructor
    · rintro ⟨y, hy, heq⟩
      obtain ⟨rfl, rfl⟩ := Prod.mk.inj heq
      obtain ⟨hin, hd⟩ := List.mem_filter.mp hy
      exact ⟨⟨hin, (hdue _).mp hd⟩, rfl⟩
    · rintro ⟨⟨hin, hd⟩, hcb⟩
      exact ⟨id, List.mem_filter.mpr ⟨hin, (hdue id).mpr hd⟩, Prod.ext rfl hcb.symm⟩
  have hlive : ∀ id ∈ s.system.manager.timers, id < s.system.size ∧
      (s.system.manager.heap id).cb.isSome := fun id hid =>
    ⟨((h.inv.live id).mp hid).1.1, ((h.inv.live id).mp hid).2⟩
  -- the timer of a sleep that is over loses its callback, and no other one changes
  have hheap : ∀ id c, s.calls id = some c → m.heap id = s.system.manager.heap id ∨
      (id, some (.inl c.fiber)) ∈ cbs ∧ m.heap id = { s.system.manager.heap id with cb := none } := by
    intro id c hc
    by_cases hin : id ∈ s.system.manager.timers ∧ s.system.manager.due now id = true
    · refine Or.inr ⟨(hmem _).mpr ⟨⟨hin.1, (hdue id).mp hin.2⟩, ?_⟩, ?_⟩
      · exact (h.armed id c hc (hlive id hin.1).2).cb.symm
      · exact htakes.dropped id hin.1 hin.2 (h.built id c hc).2
    · exact Or.inl (htakes.unchanged id hin)
  refine ⟨hinv, ?_, ?_, ?_, ?_, ?_, ?_, ?_⟩
  · intro id c hc
    obtain ⟨hid, hrecurring⟩ := h.built id c hc
    refine ⟨hid, ?_⟩
    obtain hsame | ⟨-, hdropped⟩ := hheap id c hc
    · rw [hsame]
      exact hrecurring
    · rw [hdropped]
      exact hrecurring
  · intro id c hc hcb
    obtain hsame | ⟨-, hdropped⟩ := hheap id c hc
    · rw [hsame] at hcb ⊢
      exact h.armed id c hc hcb
    · rw [hdropped] at hcb
      cases hcb
  · intro id c hc hcb
    obtain hsame | ⟨hwakes, -⟩ := hheap id c hc
    · rw [hsame] at hcb
      obtain ⟨p, hp, hwakes⟩ := h.gone id c hc hcb
      exact ⟨p, List.mem_append_left _ hp, hwakes⟩
    · exact ⟨_, List.mem_append_right _ List.mem_cons_self, hwakes⟩
  · rw [List.flatMap_append, List.filterMap_append, h.log, List.flatMap_singleton,
      List.filterMap_map]
    exact congrArg _ (congrFun (List.filterMap_eq_map (f := Prod.fst)) cbs).symm
  · intro p hp id hid
    obtain hp | hp := List.mem_append.mp hp
    · exact h.past p hp id hid
    · rw [List.mem_singleton.mp hp] at hid
      exact (hlive id hid).1
  · intro p hp id hid c hc hfits
    obtain hp | hp := List.mem_append.mp hp
    · exact h.woken p hp id hid c hc hfits
    · rw [List.mem_singleton.mp hp] at hid ⊢
      have harmed := h.armed id c hc (hlive id hid).2
      obtain ⟨ms, hms, hnext⟩ := harmed.next
      rw [← over_iff hfits hms, ← hnext, Pass.Wakes, hmem]
      exact ⟨fun hw => hw.1.2, fun hle => ⟨⟨hid, hle⟩, harmed.cb.symm⟩⟩
  · intro p hp x hx
    obtain hp | hp := List.mem_append.mp hp
    · exact h.waited p hp x hx
    · rw [List.mem_singleton.mp hp] at hx ⊢
      exact ((hmem x).mp hx).1.1

theorem Kept.other (h : Kept s) {a : Timers.Action (φ ⊕ κ)} (hs : s.step (.other a) = some s')
    (hsteady : s.system.Steady a) : Kept s' := by
  simp only [step, Option.ite_none_left_eq_some, Option.map_eq_some_iff] at hs
  obtain ⟨hfree, t, ht, rfl⟩ := hs
  have hinv := System.step_inv h.inv ht
  have hne : ∀ {x}, pointer a = some x → ∀ id c, s.calls id = some c → id ≠ x := by
    rintro x hx id c hc rfl
    exact hfree (by rw [hx, Option.any_some, hc]; rfl)
  have hrule := h.inv.rule ht
  have hquiet (hnil : s.passesOf a = []) (hkept : Kept { s with system := t }) :
      Kept { s with system := t, passes := s.passes ++ s.passesOf a } := by
    rw [hnil, List.append_nil]
    exact hkept
  cases a with
  | listExpiredCb i addr =>
      cases hrule with
      | listExpiredCb hnow hset haddr =>
          have hpass := h.pass (hsteady _ hnow).1 hinv rfl
          simpa only [passesOf, hnow, Option.toList_some, List.map_cons, List.map_nil] using hpass
  | construct ms cb recurring addr now =>
      refine hquiet rfl ?_
      cases hrule with
      | construct haddr =>
          refine h.quiet hinv (Nat.le_succ _) ?_ rfl
          intro id c hc
          exact Function.update_of_ne (h.built id c hc).1.ne _ _
  | cancel x =>
      refine hquiet rfl ?_
      cases hrule with
      | cancelDead hret => exact h
      | cancelLive hret hx hcb =>
          refine h.quiet hinv le_rfl (fun id c hc => Function.update_of_ne (hne rfl id c hc) _ _) ?_
          simp [Event.collectedId]
  | refresh x now =>
      refine hquiet rfl ?_
      cases hrule with
      | refreshDead hret => exact h.quiet hinv le_rfl (fun _ _ _ => rfl) rfl
      | refreshLive hret hx hcb =>
          exact h.quiet hinv le_rfl (fun id c hc => Function.update_of_ne (hne rfl id c hc) _ _) rfl
  | reset x ms from_now now =>
      refine hquiet rfl ?_
      cases hrule with
      | resetDead hret => exact h.quiet hinv le_rfl (fun _ _ _ => rfl) rfl
      | resetLive hret hx hcb hm =>
          subst hm
          exact h.quiet hinv le_rfl (fun id c hc => Function.update_of_ne (hne rfl id c hc) _ _) rfl
  | addTimer x =>
      refine hquiet rfl ?_
      cases hrule with
      | addTimer hx => exact h.quiet hinv le_rfl (fun _ _ _ => rfl) rfl
  | readClock now =>
      refine hquiet rfl ?_
      cases hrule with
      | readClock => exact h.quiet hinv le_rfl (fun _ _ _ => rfl) rfl
  | leave i =>
      refine hquiet rfl ?_
      cases hrule with
      | leave hempty => exact h.quiet hinv le_rfl (fun _ _ _ => rfl) rfl
  | getNextTimer now =>
      refine hquiet rfl ?_
      cases hrule with
      | getNextTimer => exact h.quiet hinv le_rfl (fun _ _ _ => rfl) rfl
  | onTimerInsertedAtFront =>
      refine hquiet rfl ?_
      cases hrule with
      | onTimerInsertedAtFront hpos => exact h.quiet hinv le_rfl (fun _ _ _ => rfl) rfl

theorem Kept.step {a : Action φ κ} (h : Kept s) (hs : s.step a = some s') (hsteady : s.Steady a) :
    Kept s' := by
  cases a with
  | sleep call fiber addr now =>
      simp only [Sleepers.step, Option.bind_eq_bind, Option.bind_eq_some_iff, Option.some.injEq] at hs
      obtain ⟨ms, hms, t, ht, rfl⟩ := hs
      have hinv := System.step_inv h.inv ht
      cases h.inv.rule ht with
      | construct haddr => exact h.sleep hms (hsteady ms hms).2 hinv rfl
  | other a => exact h.other hs hsteady

end Sleepers
end HCServer.Hook
