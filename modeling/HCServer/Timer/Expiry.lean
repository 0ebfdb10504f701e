import HCServer.Timer.Lifecycle

/-! What one call of `listExpiredCb` takes and leaves, and what becomes of it when other threads run
between its test for an empty set and its body. -/
namespace HCServer.Timers
open Lib
variable {κ : Type}

/-- What a condition that holds of an initial part of an order fails for, once it has failed. -/
theorem not_of_mem_dropWhile {α : Type*} {p : α → Bool} {l : List α}
    (h : l.Pairwise fun x y => p y = true → p x = true) : ∀ y ∈ l.dropWhile p, p y = false := by
  induction l with
  | nil => simp
  | cons x l ih =>
      obtain ⟨hx, hl⟩ := List.pairwise_cons.mp h
      cases hp : p x with
      | true =>
          rw [List.dropWhile_cons_of_pos hp]
          exact ih hl
      | false =>
          rw [List.dropWhile_cons_of_neg (by simp [hp])]
          intro y hy
          rcases List.mem_cons.mp hy with rfl | hy
          · exact hp
          · cases hpy : p y with
            | false => rfl
            | true => exact absurd (hx y hy hpy) (by simp [hp])

namespace TimerManager

/-- The timers that a call at `now_ms` takes: all of them once the clock has been set back. -/
def due (m : TimerManager κ) (now_ms id : Nat) : Bool :=
  m.detectClockRollover now_ms || decide ((m.heap id).next ≤ now_ms)

/-- What is left in the set lies after `now_ms`, wherever the probe lies in memory. -/
theorem splitExpired_later {m : TimerManager κ} (hsorted : m.timers.Pairwise m.before)
    (now_ms addr : Nat) : ∀ y ∈ (m.splitExpired now_ms addr).2, now_ms < (m.heap y).next := by
  have hlower : ∀ y ∈ m.timers.dropWhile fun id =>
      decide ((m.heap id).before ⟨false, 0, now_ms, none, addr⟩), now_ms ≤ (m.heap y).next := by
    intro y hy
    have hnot : decide ((m.heap y).before ⟨false, 0, now_ms, none, addr⟩) = false := by
      refine not_of_mem_dropWhile (hsorted.imp ?_) y hy
      intro a b hab hb
      rw [decide_eq_true_eq] at hb ⊢
      simp only [before, Timer.before] at hab hb ⊢
      omega
    rw [decide_eq_false_iff_not, Timer.before] at hnot
    dsimp only at hnot
    omega
  intro y hy
  have hle := hlower y (List.dropWhile_subset _ hy)
  have hnot : decide ((m.heap y).next = now_ms) = false := by
    refine not_of_mem_dropWhile ((hsorted.sublist (List.dropWhile_sublist _)).imp_of_mem ?_) y hy
    intro a b ha _ hab hb
    have hale := hlower a ha
    rw [decide_eq_true_eq] at hb ⊢
    simp only [before, Timer.before] at hab
    omega
  rw [decide_eq_false_iff_not] at hnot
  omega

/-- A cut between what satisfies a condition and what does not is the one that filtering makes. -/
theorem filter_of_parts {α : Type*} {p : α → Bool} {l a b : List α} (h : l = a ++ b)
    (ha : ∀ x ∈ a, p x = true) (hb : ∀ x ∈ b, p x = false) :
    l.filter p = a ∧ (l.filter fun x => !p x) = b := by
  have hnil : b.filter p = [] := List.filter_eq_nil_iff.mpr fun x hx => by simp [hb x hx]
  have hnil' : (a.filter fun x => !p x) = [] := List.filter_eq_nil_iff.mpr fun x hx => by simp [ha x hx]
  have hall : (b.filter fun x => !p x) = b := List.filter_eq_self.mpr fun x hx => by simp [hb x hx]
  rw [h, List.filter_append, List.filter_append, List.filter_eq_self.mpr ha, hnil, hnil', hall,
    List.append_nil, List.nil_append]
  exact ⟨rfl, rfl⟩

/-- The body of `listExpiredCb`: the due timers are cut off, and the last loop goes over them. -/
theorem listExpiredCb_eq {m : TimerManager κ} (hsorted : m.timers.Pairwise m.before)
    (now_ms addr : Nat) :
    m.listExpiredCb now_ms addr = expireLoop now_ms (m.timers.filter (m.due now_ms))
      { m with
        previousTime := now_ms
        timers := m.timers.filter fun id => !m.due now_ms id } := by
  unfold listExpiredCb
  cases hrollover : m.detectClockRollover now_ms with
  | true =>
      obtain ⟨hdue, hkept⟩ := filter_of_parts (p := m.due now_ms) (List.append_nil m.timers).symm
        (fun x _ => by rw [due, hrollover, Bool.true_or]) (by simp)
      rw [hdue, hkept]
      rfl
  | false =>
      have hiff : ∀ x, m.due now_ms x = decide ((m.heap x).next ≤ now_ms) := fun x => by
        rw [due, hrollover, Bool.false_or]
      dsimp only
      rw [Bool.not_false, Bool.true_and]
      split
      · case isTrue hfront =>
          -- the first timer is not due, so none is
          have hnone : ∀ x ∈ m.timers, m.due now_ms x = false := by
            intro x hx
            rw [hiff, decide_eq_false_iff_not]
            cases htimers : m.timers with
            | nil =>
                rw [htimers] at hx
                cases hx
            | cons y rest =>
                rw [htimers] at hx hsorted hfront
                simp only [List.head?_cons, Option.any_some, decide_eq_true_eq] at hfront
                rcases List.mem_cons.mp hx with rfl | hx
                · omega
                · have hbefore := (List.pairwise_cons.mp hsorted).1 x hx
                  simp only [before, Timer.before] at hbefore
                  omega
          obtain ⟨hdue, hkept⟩ := filter_of_parts (p := m.due now_ms)
            (List.nil_append m.timers).symm (by simp) hnone
          rw [hdue, hkept]
          rfl
      · obtain ⟨hdue, hkept⟩ := filter_of_parts (p := m.due now_ms)
          (m.splitExpired_append now_ms addr).symm
          (fun x hx => by rw [hiff, decide_eq_true_eq]; exact m.splitExpired_due now_ms addr x hx)
          (fun x hx => by
            rw [hiff, decide_eq_false_iff_not]
            exact Nat.not_le.mpr (splitExpired_later hsorted now_ms addr x hx))
        rw [hdue, hkept]
        rfl

/-- What a call on a set in order hands over and what it leaves behind. -/
structure TakesDue (m : TimerManager κ) (now_ms : Nat) (m' : TimerManager κ)
    (cbs : List (Nat × Option κ)) : Prop where
  callbacks : cbs = (m.timers.filter (m.due now_ms)).map fun id => (id, (m.heap id).cb)
  once : (cbs.map Prod.fst).Nodup
  ordered : cbs.Pairwise fun x y => (m.heap x.1).next ≤ (m.heap y.1).next
  members : ∀ id, id ∈ m'.timers ↔
    id ∈ m.timers ∧ (m.due now_ms id = true → (m.heap id).recurring = true)
  unchanged : ∀ id, ¬ (id ∈ m.timers ∧ m.due now_ms id = true) → m'.heap id = m.heap id
  rekeyed : ∀ id ∈ m.timers, m.due now_ms id = true → (m.heap id).recurring = true →
    m'.heap id = { m.heap id with next := add64 now_ms (m.heap id).ms }
  dropped : ∀ id ∈ m.timers, m.due now_ms id = true → (m.heap id).recurring = false →
    m'.heap id = { m.heap id with cb := none }
  sorted : m'.timers.Pairwise m'.before

/-- The body of the call, whatever ties there are with the probe and among the timers. `out` are
timers that other calls have in their hands. -/
theorem body_takes_due {m : TimerManager κ} {out : List Nat} (h : Held m out)
    (now_ms addr : Nat) :
    TakesDue m now_ms (m.listExpiredCb now_ms addr).1 (m.listExpiredCb now_ms addr).2 := by
  have hperm : (m.timers.filter (m.due now_ms) ++ m.timers.filter fun id => !m.due now_ms id).Perm
      m.timers := List.filter_append_perm (m.due now_ms) m.timers
  have hsplit : Held { m with
      previousTime := now_ms
      timers := m.timers.filter fun id => !m.due now_ms id }
      (m.timers.filter (m.due now_ms) ++ out) := by
    refine h.regroup rfl ?_ (h.sorted.sublist List.filter_sublist)
    have hswap : ((m.timers.filter fun id => !m.due now_ms id) ++
        (m.timers.filter (m.due now_ms) ++ out)).Perm (m.timers ++ out) := by
      rw [← List.append_assoc]
      exact (List.perm_append_comm.trans hperm).append_right out
    exact hswap.subperm
  obtain ⟨hheld, hheap, hmem, hcallbacks⟩ := Held.expireLoop now_ms _ hsplit
  rw [listExpiredCb_eq h.sorted]
  have hdue : ∀ id, id ∈ m.timers.filter (m.due now_ms) ↔ id ∈ m.timers ∧ m.due now_ms id = true :=
    fun id => List.mem_filter
  refine ⟨hcallbacks, ?_, ?_, ?_, ?_, ?_, ?_, hheld.sorted⟩
  · rw [hcallbacks, List.map_map]
    exact (h.nodup.filter _).map_on fun x _ y _ hxy => hxy
  · rw [hcallbacks, List.pairwise_map]
    refine (h.sorted.sublist List.filter_sublist).imp ?_
    intro x y hxy
    simp only [before, Timer.before] at hxy
    dsimp only
    omega
  · intro id
    rw [hmem, hdue, List.mem_filter, Bool.not_eq_true']
    cases m.due now_ms id <;> simp
  · intro id hid
    rw [hheap, if_neg (by rw [hdue]; exact hid)]
  · intro id hid hd hrec
    rw [hheap, if_pos ((hdue id).mpr ⟨hid, hd⟩)]
    exact if_pos hrec
  · intro id hid hd hrec
    rw [hheap, if_pos ((hdue id).mpr ⟨hid, hd⟩)]
    exact if_neg (by simp [hrec])

/-- The whole call where no other thread comes between its test and its body. -/
def listExpired (m : TimerManager κ) (now_ms addr : Nat) (cbs : List (Option κ)) :
    TimerManager κ × List (Option κ) :=
  if m.timers = [] then (m, cbs)
  else
    let r := m.listExpiredCb now_ms addr
    (r.1, cbs ++ r.2.map Prod.snd)

/-- Exactly the due timers fire: their callbacks are appended in the order of the set, the periodic
ones come back and the others are done. -/
theorem listExpired_takes_due {m : TimerManager κ} (h : Held m []) (hne : m.timers ≠ [])
    (now_ms addr : Nat) (cbs : List (Option κ)) :
    ∃ taken, (m.listExpired now_ms addr cbs).2 = cbs ++ taken.map Prod.snd ∧
      TakesDue m now_ms (m.listExpired now_ms addr cbs).1 taken := by
  rw [listExpired, if_neg hne]
  exact ⟨_, rfl, body_takes_due h now_ms addr⟩

/-- A periodic timer of period zero and a one-shot timer due at the same time, and a later one. -/
def tiedTimers : TimerManager Nat where
  heap := fun id => ([⟨true, 0, 5, some 7, 30⟩, ⟨false, 5, 5, some 8, 10⟩] : List (Timer Nat)).getD id
    ⟨false, 9, 9, some 9, 20 + id⟩
  timers := [1, 0, 2]
  tickled := false
  previousTime := 0

theorem listExpired_takes_due_run :
    Held tiedTimers [] ∧ tiedTimers.timers ≠ [] ∧
      ∃ taken, (tiedTimers.listExpired 5 20 [none]).2 = [none] ++ taken.map Prod.snd ∧
        TakesDue tiedTimers 5 (tiedTimers.listExpired 5 20 [none]).1 taken := by
  have hheld : Held tiedTimers [] := ⟨by decide, by decide, by decide⟩
  exact ⟨hheld, by decide, listExpired_takes_due hheld (by decide) 5 20 [none]⟩

/-- Something stays in the set when a timer is not due or comes back. -/
theorem listExpiredCb_ne_nil {m : TimerManager κ} {out : List Nat} (h : Held m out)
    {now_ms id : Nat} (addr : Nat) (hid : id ∈ m.timers)
    (hstays : m.due now_ms id = true → (m.heap id).recurring = true) :
    (m.listExpiredCb now_ms addr).1.timers ≠ [] :=
  List.ne_nil_of_mem (((body_takes_due h now_ms addr).members id).mpr ⟨hid, hstays⟩)

end TimerManager

/-- The system with the two critical sections of `listExpiredCb` apart: `passed` are the clock values
of the calls that have seen a timer and have yet to take the write lock. -/
structure Overlap (κ : Type) where
  system : System κ
  passed : List Nat
  crashed : Bool

/-- `other` is a step of any other kind than `listExpiredCb`. -/
inductive OverlapAction (κ : Type)
  | other (a : Action κ)
  | test (i : Nat)
  | body (i addr : Nat)

namespace Overlap

def new (now : Nat) : Overlap κ := ⟨.new now, [], false⟩

/-- A call whose body finds the set empty reads its front, unless the clock has been set back. -/
def step (s : Overlap κ) : OverlapAction κ → Option (Overlap κ)
  | .other (.listExpiredCb _ _) => none
  | .other a => (s.system.step a).map fun system => { s with system }
  | .test i => do
      let now ← s.system.reading[i]?
      if s.system.manager.timers ≠ [] then
        some { s with
          system := { s.system with reading := s.system.reading.eraseIdx i }
          passed := now :: s.passed }
      else none
  | .body i addr => do
      let now ← s.passed[i]?
      if s.system.Free addr then
        if s.system.manager.timers = [] ∧ s.system.manager.detectClockRollover now = false then
          some { s with crashed := true }
        else
          let r := s.system.manager.listExpiredCb now addr
          some { s with
            system := { s.system with
              manager := r.1
              log := s.system.log ++ r.2.map fun c => .collected c.1 }
            passed := s.passed.eraseIdx i }
      else none

/-- While some call is between its two sections, the step leaves a timer: another than the one that
it cancels, or one that the other call does not take for good. -/
def LeavesTimer (s : Overlap κ) : OverlapAction κ → Prop
  | .other (.cancel id) => s.passed = [] ∨ (s.system.manager.heap id).cb = none ∨
      ∃ y ∈ s.system.manager.timers, y ≠ id
  | .body i _ => ∀ now ∈ s.passed[i]?, s.passed.eraseIdx i = [] ∨
      ∃ y ∈ s.system.manager.timers,
        s.system.manager.due now y = true → (s.system.manager.heap y).recurring = true
  | _ => True

instance (s : Overlap κ) : (a : OverlapAction κ) → Decidable (s.LeavesTimer a)
  | .test _ => isTrue trivial
  | .body i _ => inferInstanceAs (Decidable (∀ now ∈ s.passed[i]?, _))
  | .other a => match a with
    | .cancel _ => inferInstanceAs (Decidable (_ ∨ _ ∨ _))
    | .construct _ _ _ _ _ => isTrue trivial
    | .addTimer _ => isTrue trivial
    | .refresh _ _ => isTrue trivial
    | .reset _ _ _ _ => isTrue trivial
    | .readClock _ => isTrue trivial
    | .leave _ => isTrue trivial
    | .listExpiredCb _ _ => isTrue trivial
    | .getNextTimer _ => isTrue trivial
    | .onTimerInsertedAtFront => isTrue trivial

structure Good (s : Overlap κ) : Prop where
  system : s.system.Inv
  running : s.crashed = false
  ready : s.passed ≠ [] → s.system.manager.timers ≠ []

theorem new_good (now : Nat) : (new now : Overlap κ).Good :=
  ⟨System.new_inv now, rfl, fun h => absurd rfl h⟩

theorem insert_ne_nil (m : TimerManager κ) (id : Nat) : (m.insert id).timers ≠ [] := by
  dsimp only [TimerManager.insert, OrderedSet.insert]
  split
  · simp
  · case _ y hfind =>
      intro hnil
      rw [hnil] at hfind
      cases hfind

/-- Only a cancellation can take the last timer, apart from `listExpiredCb`. -/
theorem rule_keeps_front {s s' : System κ} {a : Action κ} (hrule : System.Rule s a s')
    (hne : s.manager.timers ≠ [])
    (hcancel : ∀ id, a = .cancel id →
      (s.manager.heap id).cb = none ∨ ∃ y ∈ s.manager.timers, y ≠ id)
    (hother : ∀ i addr, a ≠ .listExpiredCb i addr) : s'.manager.timers ≠ [] := by
  cases hrule with
  | construct => exact hne
  | addTimer => exact insert_ne_nil _ _
  | @cancelLive id hret hid hcb =>
      obtain ⟨y, hy, hyid⟩ := (hcancel id rfl).resolve_left (by
        intro hnone
        rw [hnone] at hcb
        cases hcb)
      have hmem : y ∈ s.manager.timers.erase id := (List.mem_erase_of_ne hyid).mpr hy
      exact List.ne_nil_of_mem hmem
  | cancelDead => exact hne
  | refreshLive => exact insert_ne_nil _ _
  | refreshDead => exact hne
  | resetLive => exact insert_ne_nil _ _
  | resetDead => exact hne
  | readClock => exact hne
  | leave hempty => exact absurd hempty hne
  | @listExpiredCb i addr => exact absurd rfl (hother i addr)
  | getNextTimer => exact hne
  | onTimerInsertedAtFront => exact hne

theorem Good.step {s s' : Overlap κ} {a : OverlapAction κ} (h : s.Good) (hs : s.step a = some s')
    (hleaves : s.LeavesTimer a) : s'.Good := by
  cases a with
  | other a =>
      have hkeep : (∀ i addr, a ≠ .listExpiredCb i addr) → (s.system.step a).map (fun system =>
          { s with system }) = some s' → s'.Good := by
        intro hother hmap
        obtain ⟨system, hsys, rfl⟩ := Option.map_eq_some_iff.mp hmap
        refine ⟨System.step_inv h.system hsys, h.running, ?_⟩
        intro hpassed
        apply rule_keeps_front (h.system.rule hsys) (h.ready hpassed) _ hother
        rintro id rfl
        exact hleaves.resolve_left hpassed
      cases a with
      | listExpiredCb i addr => cases hs
      | construct => exact hkeep (by simp) hs
      | addTimer => exact hkeep (by simp) hs
      | cancel => exact hkeep (by simp) hs
      | refresh => exact hkeep (by simp) hs
      | reset => exact hkeep (by simp) hs
      | readClock => exact hkeep (by simp) hs
      | leave => exact hkeep (by simp) hs
      | getNextTimer => exact hkeep (by simp) hs
      | onTimerInsertedAtFront => exact hkeep (by simp) hs
  | test i =>
      simp only [Overlap.step, Option.bind_eq_bind, Option.bind_eq_some_iff,
        Option.ite_none_right_eq_some, Option.some.injEq] at hs
      obtain ⟨now, hnow, hne, rfl⟩ := hs
      refine ⟨?_, h.running, fun _ => hne⟩
      exact h.system.keep h.system.held rfl rfl rfl (fun _ => rfl) (fun _ => rfl) fun _ => Iff.rfl
  | body i addr =>
      simp only [Overlap.step, Option.bind_eq_bind, Option.bind_eq_some_iff,
        Option.ite_none_right_eq_some] at hs
      obtain ⟨now, hnow, hfree, hs⟩ := hs
      have hpassed : s.passed ≠ [] := by
        intro hnil
        rw [hnil] at hnow
        cases hnow
      rw [if_neg fun hempty => h.ready hpassed hempty.1, Option.some.injEq] at hs
      subst hs
      refine ⟨?_, h.running, ?_⟩
      · have hinv := System.listExpiredCb_inv h.system 0 now addr
        exact hinv.keep hinv.held rfl rfl rfl (fun _ => rfl) (fun _ => rfl) fun _ => Iff.rfl
      · intro hrest
        obtain ⟨y, hy, hstays⟩ := (hleaves now hnow).resolve_left hrest
        exact TimerManager.listExpiredCb_ne_nil h.system.held addr hy hstays

/-- No call reads the front of an empty set in a run where no cancellation and no other call takes
the last timer between the two sections of a call. -/
theorem front_never_empty (now : Nat) (as : List (OverlapAction κ))
    (h : Each step LeavesTimer (new now : Overlap κ) as) :
    Always step (fun s => s.crashed = false) (new now : Overlap κ) as :=
  always_of_each (fun _ _ _ h hs hleaves => h.step hs hleaves) (fun _ h => h.running) (new_good now) h

/-- One timer, and two workers that find it due at the same time. -/
def twoWorkers (recurring : Bool) : List (OverlapAction Nat) :=
  [.other (.construct 0 7 recurring 10 5), .other (.addTimer 0), .other (.readClock 5),
    .other (.readClock 5), .test 0, .test 0, .body 0 20, .body 0 20]

theorem front_never_empty_run :
    Each step LeavesTimer (new 5) (twoWorkers true) ∧
      Always step (fun s => s.crashed = false) (new 5) (twoWorkers true) := by
  have hrun : Each step LeavesTimer (new 5) (twoWorkers true) := by decide
  exact ⟨hrun, front_never_empty 5 _ hrun⟩

/-- The second worker reads the front of the set that the first one has emptied. -/
theorem front_read_when_empty : ¬ ∀ (now : Nat) (as : List (OverlapAction Nat)),
    Always step (fun s => s.crashed = false) (new now) as := by
  intro h
  obtain ⟨s, hs, hcrashed⟩ := Option.map_eq_some_iff.mp (show (exec step (new 5 : Overlap Nat)
    (twoWorkers false)).map Overlap.crashed = some true by decide)
  rw [always_end (h 5 (twoWorkers false)) hs] at hcrashed
  cases hcrashed

end Overlap
end HCServer.Timers
