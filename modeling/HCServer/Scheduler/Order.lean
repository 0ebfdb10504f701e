import HCServer.Lib.Queue
import HCServer.Lib.Transition
import HCServer.Scheduler.Model

/-! What becomes of a job between `schedule` and its fiber. Each push on `m_fibers` gets a number, which a
worker has in its hand from the scan until `swapIn`. -/
namespace HCServer.Scheduler
open Lib
variable {θ : Type}

/-- A callback that has been taken and whose fiber has not been entered. -/
def Pc.callback : Pc → Bool
  | .popped .cb => true
  | .chosen _ own => own
  | _ => false

/-- The thread that a callback is scheduled for. -/
def Action.scheduled : Action θ → Option (Option θ)
  | .schedule threadid => some threadid
  | _ => none

def FiberAndThread.isCb (ft : FiberAndThread θ) : Bool := ft.job == .cb

/-- A callback that the thread may run. The state of the workers does not matter here, unlike with a
fiber. -/
def FiberAndThread.Open (ft : FiberAndThread θ) (t : θ) : Prop :=
  ft.job = .cb ∧ (ft.threadid = none ∨ ft.threadid = some t)

/-- The workers, the jobs by number, the number that each worker has taken last, and the callbacks that
have been entered. -/
structure Journal (θ : Type) where
  workers : Workers θ
  jobs : Tickets (FiberAndThread θ) θ
  hand : θ → Option Nat
  started : List Nat

namespace Journal
variable [DecidableEq θ]

def new : Journal θ := ⟨.new, .empty, fun _ => none, []⟩

/-- What the action `a`, which leads to `w`, adds to the books. -/
def record (s : Journal θ) (a : Action θ) (w : Workers θ) : Journal θ :=
  match a with
  | .pop t => { s with
      workers := w
      jobs := s.jobs.take (s.workers.takes t) t
      hand := Function.update s.hand t (s.jobs.first (s.workers.takes t)) }
  | .swapIn t => { s with
      workers := w
      started := if (s.workers.pc t).callback then s.started ++ (s.hand t).toList else s.started }
  | _ => { s with workers := w, jobs := s.jobs.pushAll (w.fibers.drop s.workers.fibers.length) }

def step (s : Journal θ) (a : Action θ) : Option (Journal θ) := (s.workers.step a).map (s.record a)

omit [DecidableEq θ] in
/-- The job of that number is a callback. -/
def IsCb (s : Journal θ) (n : Nat) : Prop := ∃ ft, s.jobs.pushed[n]? = some ft ∧ ft.job = .cb

/-- The worker has the callback of that number in its hand. -/
def Holds (s : Journal θ) (t : θ) (n : Nat) : Prop :=
  s.hand t = some n ∧ (s.workers.pc t).callback = true

/-- The invariant. -/
structure Kept (s : Journal θ) : Prop where
  items : s.jobs.items = s.workers.fibers
  fair : s.jobs.Fair FiberAndThread.Open
  admitted : ∀ n t, (n, t) ∈ s.jobs.taken → ∀ ft, s.jobs.pushed[n]? = some ft →
    ft.threadid = none ∨ ft.threadid = some t
  hands : ∀ t, (s.workers.pc t).callback = true →
    ∃ n, s.hand t = some n ∧ (n, t) ∈ s.jobs.taken ∧ s.IsCb n ∧ n ∉ s.started
  started : ∀ n ∈ s.started, (∃ t, (n, t) ∈ s.jobs.taken) ∧ s.IsCb n
  once : s.started.Nodup
  all : ∀ n t, (n, t) ∈ s.jobs.taken → s.IsCb n → n ∈ s.started ∨ s.Holds t n

end Journal

namespace Workers
variable [DecidableEq θ] {s w : Workers θ} {a : Action θ} {t : θ}

theorem goto_pc (s : Workers θ) (t : θ) (p : Pc) (u : θ) :
    (s.goto t p).pc u = if u = t then p else s.pc u := Function.update_apply _ _ _ _

omit [DecidableEq θ] in
@[simp] theorem push_fibers (s : Workers θ) (job : Job) (threadid : Option θ) :
    (s.push job threadid).fibers = s.fibers ++ [⟨job, threadid⟩] := rfl

omit [DecidableEq θ] in
@[simp] theorem create_fibers (s : Workers θ) : s.create.fibers = s.fibers := rfl

omit [DecidableEq θ] in
@[simp] theorem setFiber_fibers (s : Workers θ) (f : Nat) (r : Fiber) :
    (s.setFiber f r).fibers = s.fibers := rfl

@[simp] theorem goto_fibers (s : Workers θ) (t : θ) (p : Pc) : (s.goto t p).fibers = s.fibers := rfl

@[simp] theorem release_fibers (s : Workers θ) (t : θ) (own : Bool) :
    (s.release t own).fibers = s.fibers := by
  cases own <;> rfl

@[simp] theorem release_pc (s : Workers θ) (t : θ) (own : Bool) : (s.release t own).pc = s.pc := by
  cases own <;> rfl

theorem takes_of_open {ft : FiberAndThread θ} (h : ft.Open t) : s.takes t ft = true := by
  obtain ⟨hjob, hthread⟩ := h
  rcases hthread with hthread | hthread <;> simp [takes, hjob, hthread]

theorem threadid_of_takes {ft : FiberAndThread θ} (h : s.takes t ft = true) :
    ft.threadid = none ∨ ft.threadid = some t := by
  simp only [takes, Bool.and_eq_true, Bool.or_eq_true, beq_iff_eq] at h
  exact h.1.imp_left Option.isNone_iff_eq_none.mp

/-- But for the scan, a step only adds to the end of `m_fibers`; callbacks are added by `schedule`. -/
theorem Rule.pushes (h : Rule s a w) (hpop : ∀ t, a ≠ .pop t) : ∃ more, w.fibers = s.fibers ++ more ∧
    more.filter FiberAndThread.isCb = a.scheduled.toList.map (⟨.cb, ·⟩) := by
  cases h with
  | @schedule threadid => exact ⟨[⟨.cb, threadid⟩], rfl, rfl⟩
  | @scheduleFiber threadid => exact ⟨[⟨.fiber s.pool.length, threadid⟩], rfl, rfl⟩
  | pop hpc hfind => exact absurd rfl (hpop _)
  | @trigger f r hget hw => exact ⟨[⟨.fiber f, none⟩], rfl, rfl⟩
  | @requeue t f own r hpc hget hr => exact ⟨[⟨.fiber f, none⟩], by simp, rfl⟩
  | @ended t f own r hpc hget hr =>
      refine ⟨[], ?_, rfl⟩
      cases own <;> simp
  | held hpc hget hr hends => exact ⟨[], by simp, rfl⟩
  | _ => exact ⟨[], (List.append_nil _).symm, rfl⟩

/-- Between the scan and `swapIn` the callback stays in the worker's hand. -/
theorem Rule.callback (h : Rule s a w) (hpop : ∀ t, a ≠ .pop t) (hswap : ∀ t, a ≠ .swapIn t) (u : θ) :
    (w.pc u).callback = (s.pc u).callback := by
  have hmove : ∀ (s' : Workers θ) (t : θ) (p : Pc), s'.pc = s.pc → p.callback = (s.pc t).callback →
      ((s'.goto t p).pc u).callback = (s.pc u).callback := by
    intro s' t p hpc hp
    rw [goto_pc, hpc]
    by_cases hut : u = t
    · rw [if_pos hut, hut, hp]
    · rw [if_neg hut]
  cases h with
  | pop hpc hfind => exact absurd rfl (hpop _)
  | swapIn hpc hget he => exact absurd rfl (hswap _)
  | schedule => rfl
  | scheduleFiber => rfl
  | arm hpc hget hw => rfl
  | trigger hget hw => rfl
  | dead hpc hget hr => exact hmove _ _ _ rfl (by rw [hpc]; rfl)
  | alive hpc hget hr => exact hmove _ _ _ rfl (by rw [hpc]; rfl)
  | reset hpc hown hget hr => exact hmove _ _ _ rfl (by rw [hpc]; rfl)
  | fresh hpc hown => exact hmove _ _ _ rfl (by rw [hpc]; rfl)
  | yieldToHold hpc hget => exact hmove _ _ _ rfl (by rw [hpc]; rfl)
  | yieldToReady hpc hget hw => exact hmove _ _ _ rfl (by rw [hpc]; rfl)
  | finish hpc hget hw => exact hmove _ _ _ rfl (by rw [hpc]; rfl)
  | switchOut hpc hget => exact hmove _ _ _ rfl (by rw [hpc]; rfl)
  | requeue hpc hget hr => exact hmove _ _ _ (release_pc _ _ _) (by rw [hpc]; rfl)
  | @ended t f own r hpc hget hr =>
      refine hmove _ _ _ ?_ (by rw [hpc]; rfl)
      cases own <;> rfl
  | held hpc hget hr hends => exact hmove _ _ _ (release_pc _ _ _) (by rw [hpc]; rfl)

end Workers

namespace Journal
variable [DecidableEq θ] {s s' : Journal θ} {a : Action θ} {t : θ} {w : Workers θ}

omit [DecidableEq θ] in
theorem new_kept : Kept (new : Journal θ) := by
  refine ⟨rfl, Tickets.fair_empty, ?_, ?_, ?_, List.nodup_nil, ?_⟩
  · intro n t hn
    exact absurd hn List.not_mem_nil
  · intro t ht
    cases ht
  · intro n hn
    exact absurd hn List.not_mem_nil
  · intro n t hn
    exact absurd hn List.not_mem_nil

theorem record_more (hpop : ∀ t, a ≠ .pop t) (hswap : ∀ t, a ≠ .swapIn t)
    {more : List (FiberAndThread θ)} (hfibers : w.fibers = s.workers.fibers ++ more) :
    s.record a w = { s with workers := w, jobs := s.jobs.pushAll more } := by
  have hdrop : w.fibers.drop s.workers.fibers.length = more := by
    rw [hfibers, List.drop_left]
  cases a with
  | pop t => exact absurd rfl (hpop t)
  | swapIn t => exact absurd rfl (hswap t)
  | _ => simp only [record, hdrop]

omit [DecidableEq θ] in
/-- New jobs, and no callback in another place. -/
theorem Kept.more (h : Kept s) {more : List (FiberAndThread θ)}
    (hfibers : w.fibers = s.workers.fibers ++ more)
    (hcallback : ∀ u, (w.pc u).callback = (s.workers.pc u).callback) :
    Kept { s with workers := w, jobs := s.jobs.pushAll more } := by
  have hold : ∀ n, (∃ t, (n, t) ∈ s.jobs.taken) →
      (s.jobs.pushAll more).pushed[n]? = s.jobs.pushed[n]? := by
    rintro n ⟨t, ht⟩
    rw [Tickets.pushed_pushAll]
    exact List.getElem?_append_left (h.fair.taken_lt ht)
  have hcb : ∀ n, (∃ t, (n, t) ∈ s.jobs.taken) →
      (IsCb { s with workers := w, jobs := s.jobs.pushAll more } n ↔ s.IsCb n) := by
    intro n hn
    simp only [IsCb, hold n hn]
  refine ⟨?_, h.fair.pushAll more, ?_, ?_, ?_, h.once, ?_⟩
  · rw [Tickets.items_pushAll h.fair, h.items, hfibers]
  · intro n t hn ft hft
    rw [Tickets.taken_pushAll] at hn
    rw [hold n ⟨t, hn⟩] at hft
    exact h.admitted n t hn ft hft
  · intro t ht
    rw [hcallback] at ht
    obtain ⟨n, hhand, hn, hisCb, hnew⟩ := h.hands t ht
    refine ⟨n, hhand, ?_, (hcb n ⟨t, hn⟩).mpr hisCb, hnew⟩
    rw [Tickets.taken_pushAll]
    exact hn
  · intro n hn
    obtain ⟨htaken, hisCb⟩ := h.started n hn
    refine ⟨?_, (hcb n htaken).mpr hisCb⟩
    simp only [Tickets.taken_pushAll]
    exact htaken
  · intro n t hn hisCb
    rw [Tickets.taken_pushAll] at hn
    refine (h.all n t hn ((hcb n ⟨t, hn⟩).mp hisCb)).imp_right ?_
    rintro ⟨hhand, hheld⟩
    exact ⟨hhand, (hcallback t).trans hheld⟩

theorem Kept.pop (h : Kept s) {ft : FiberAndThread θ} (hpc : s.workers.pc t = .loop)
    (hfind : s.workers.fibers.find? (s.workers.takes t) = some ft) :
    Kept (s.record (.pop t)
      ({ s.workers with fibers := s.workers.fibers.eraseP (s.workers.takes t) }.goto t
        (.popped ft.job))) := by
  obtain ⟨n, hfirst⟩ := Tickets.first_isSome (q := s.jobs) (by rw [h.items, hfind]; rfl)
  obtain ⟨front, back, x, -, -, hx, htakes, htake⟩ := Tickets.first_split (r := t) hfirst
  obtain ⟨hitems, hitem⟩ := Tickets.items_take (r := t) hfirst
  have hft : x = ft := by
    rw [h.items, hfind, hx] at hitem
    exact (Option.some.inj hitem).symm
  have hfair := h.fair.take (p := s.workers.takes t) (r := t) fun _ => Workers.takes_of_open
  have htaken : (s.jobs.take (s.workers.takes t) t).taken = s.jobs.taken ++ [(n, t)] := by rw [htake]
  have hpushed : (s.jobs.take (s.workers.takes t) t).pushed = s.jobs.pushed := by rw [htake]
  have hnew : ∀ u, (n, u) ∉ s.jobs.taken := by
    intro u hu
    have hnodup := hfair.nodup
    rw [htaken, List.map_append] at hnodup
    exact (List.nodup_append.mp hnodup).2.2 n (List.mem_map_of_mem (f := Prod.fst) hu) n (by simp) rfl
  have hisCb : ∀ m, IsCb (s.record (.pop t)
      ({ s.workers with fibers := s.workers.fibers.eraseP (s.workers.takes t) }.goto t
        (.popped ft.job))) m ↔ s.IsCb m := by
    intro m
    simp only [IsCb, record, hpushed]
  refine ⟨?_, hfair, ?_, ?_, ?_, h.once, ?_⟩
  · exact hitems.trans (by rw [h.items]; rfl)
  · intro m u hm y hy
    simp only [record, htaken, hpushed, List.mem_append, List.mem_singleton] at hm hy
    rcases hm with hm | hm
    · exact h.admitted m u hm y hy
    · cases hm
      cases hx.symm.trans hy
      exact Workers.threadid_of_takes htakes
  · intro u hu
    simp only [hisCb]
    simp only [record, htaken, hfirst, Workers.goto_pc, Function.update_apply] at hu ⊢
    by_cases hut : u = t
    · subst hut
      rw [if_pos rfl] at hu ⊢
      refine ⟨n, rfl, by simp, ⟨x, hx, ?_⟩, ?_⟩
      · rw [hft]
        cases hjob : ft.job with
        | cb => rfl
        | fiber f =>
            rw [hjob] at hu
            cases hu
      · intro hn
        obtain ⟨⟨v, hv⟩, -⟩ := h.started n hn
        exact hnew v hv
    · rw [if_neg hut] at hu ⊢
      obtain ⟨m, hhand, hm, hcb, hfresh⟩ := h.hands u hu
      exact ⟨m, hhand, List.mem_append_left _ hm, hcb, hfresh⟩
  · intro m hm
    obtain ⟨⟨u, hu⟩, hcb⟩ := h.started m hm
    refine ⟨⟨u, ?_⟩, (hisCb m).mpr hcb⟩
    simp only [record, htaken]
    exact List.mem_append_left _ hu
  · intro m u hm hcb
    rw [hisCb] at hcb
    simp only [Holds, record, htaken, hfirst, Workers.goto_pc, Function.update_apply] at hm ⊢
    rcases List.mem_append.mp hm with hold | hlast
    · refine (h.all m u hold hcb).imp_right ?_
      rintro ⟨hhand, hheld⟩
      have hut : u ≠ t := by
        rintro rfl
        rw [hpc] at hheld
        cases hheld
      rw [if_neg hut, if_neg hut]
      exact ⟨hhand, hheld⟩
    · cases List.mem_singleton.mp hlast
      right
      obtain ⟨y, hy, hjob⟩ := hcb
      cases hx.symm.trans hy
      rw [if_pos rfl, if_pos rfl, ← hft, hjob]
      exact ⟨rfl, rfl⟩

/-- The worker lets go of the callback as its fiber is entered. -/
theorem Kept.swapIn (h : Kept s) (hfibers : w.fibers = s.workers.fibers)
    (hgone : (w.pc t).callback = false) (hother : ∀ u, u ≠ t → w.pc u = s.workers.pc u) :
    Kept (s.record (.swapIn t) w) := by
  cases hheld : (s.workers.pc t).callback with
  | false =>
      have hcallback : ∀ u, (w.pc u).callback = (s.workers.pc u).callback := by
        intro u
        by_cases hut : u = t
        · rw [hut, hgone, hheld]
        · rw [hother u hut]
      simp only [record, hheld]
      have hmore : w.fibers = s.workers.fibers ++ [] := by rw [hfibers, List.append_nil]
      exact h.more hmore hcallback
  | true =>
      obtain ⟨n, hhand, hn, hisCb, hnew⟩ := h.hands t hheld
      have honly : ∀ u, s.Holds u n → u = t := by
        rintro u ⟨hhand', hheld'⟩
        obtain ⟨m, hm, hmem, -, -⟩ := h.hands u hheld'
        cases hhand'.symm.trans hm
        exact h.fair.taken_unique hmem hn
      simp only [record, hheld, hhand, if_true, Option.toList_some]
      refine ⟨h.items.trans hfibers.symm, h.fair, h.admitted, ?_, ?_, ?_, ?_⟩
      · intro u hu
        have hut : u ≠ t := by
          rintro rfl
          rw [hgone] at hu
          cases hu
        simp only [hother u hut] at hu
        obtain ⟨m, hhand', hm, hcb, hfresh⟩ := h.hands u hu
        refine ⟨m, hhand', hm, hcb, ?_⟩
        rw [List.mem_append, List.mem_singleton, not_or]
        refine ⟨hfresh, ?_⟩
        rintro rfl
        exact hut (honly u ⟨hhand', hu⟩)
      · intro m hm
        rcases List.mem_append.mp hm with hold | hlast
        · exact h.started m hold
        · rw [List.mem_singleton.mp hlast]
          exact ⟨⟨t, hn⟩, hisCb⟩
      · refine List.nodup_append.mpr ⟨h.once, List.nodup_singleton n, ?_⟩
        intro m hm k hk hmk
        rw [List.mem_singleton.mp hk] at hmk
        exact hnew (hmk ▸ hm)
      · intro m u hm hcb
        rcases h.all m u hm hcb with hstarted | ⟨hhand', hheld'⟩
        · exact Or.inl (List.mem_append_left _ hstarted)
        · by_cases hut : u = t
          · rw [hut] at hhand'
            cases hhand.symm.trans hhand'
            exact Or.inl (List.mem_append_right _ (List.mem_singleton_self _))
          · refine Or.inr ⟨hhand', ?_⟩
            rw [hother u hut]
            exact hheld'

theorem Kept.step (h : Kept s) (hs : s.step a = some s') : Kept s' := by
  obtain ⟨w, hw, rfl⟩ := Option.map_eq_some_iff.mp hs
  have hrule := Workers.step_rule hw
  by_cases hpop : ∃ t, a = .pop t
  · obtain ⟨t, rfl⟩ := hpop
    cases hrule with
    | pop hpc hfind => exact h.pop hpc hfind
  by_cases hswap : ∃ t, a = .swapIn t
  · obtain ⟨t, rfl⟩ := hswap
    cases hrule with
    | @swapIn t f own r hpc hget he =>
        refine h.swapIn rfl ?_ fun u hut => ?_
        · exact congrArg Pc.callback (Function.update_self t (.running f own) s.workers.pc)
        · exact Function.update_of_ne hut _ _
  have hnopop : ∀ t, a ≠ .pop t := fun t hat => hpop ⟨t, hat⟩
  have hnoswap : ∀ t, a ≠ .swapIn t := fun t hat => hswap ⟨t, hat⟩
  obtain ⟨more, hfibers, -⟩ := hrule.pushes hnopop
  rw [record_more hnopop hnoswap hfibers]
  exact h.more hfibers (hrule.callback hnopop hnoswap)

/-- The callbacks among the jobs are those that `schedule` was called with. -/
theorem pushed_step (hs : s.step a = some s') :
    s'.jobs.pushed.filter FiberAndThread.isCb =
      s.jobs.pushed.filter FiberAndThread.isCb ++ a.scheduled.toList.map (⟨.cb, ·⟩) := by
  obtain ⟨w, hw, rfl⟩ := Option.map_eq_some_iff.mp hs
  have hrule := Workers.step_rule hw
  by_cases hpop : ∃ t, a = .pop t
  · obtain ⟨t, rfl⟩ := hpop
    have hpushed : (s.jobs.take (s.workers.takes t) t).pushed = s.jobs.pushed := by
      unfold Tickets.take
      split <;> rfl
    simp [record, hpushed, Action.scheduled]
  by_cases hswap : ∃ t, a = .swapIn t
  · obtain ⟨t, rfl⟩ := hswap
    simp [record, Action.scheduled]
  have hnopop : ∀ t, a ≠ .pop t := fun t hat => hpop ⟨t, hat⟩
  obtain ⟨more, hfibers, hmore⟩ := hrule.pushes hnopop
  rw [record_more hnopop (fun t hat => hswap ⟨t, hat⟩) hfibers, ← hmore, ← List.filter_append]
  exact congrArg (List.filter FiberAndThread.isCb) (Tickets.pushed_pushAll more)

theorem pushed_run {as : List (Action θ)} (hs : exec step s as = some s') :
    s'.jobs.pushed.filter FiberAndThread.isCb =
      s.jobs.pushed.filter FiberAndThread.isCb ++ (as.filterMap Action.scheduled).map (⟨.cb, ·⟩) := by
  induction as generalizing s with
  | nil =>
      cases hs
      exact (List.append_nil _).symm
  | cons a as ih =>
      obtain ⟨t, ht, hrest⟩ := exec_cons hs
      rw [ih hrest, pushed_step ht, List.append_assoc, ← List.map_append]
      congr 2
      cases hsched : a.scheduled <;> simp [hsched]

theorem run_kept {as : List (Action θ)} (h : exec step (new : Journal θ) as = some s) : Kept s :=
  exec_invariant (fun _ _ _ hs hstep => hs.step hstep) new_kept h

/-- Every job is in the queue or was taken once, by a thread it is for, and no callback is passed over by
a thread that it is open to. -/
theorem jobs_taken_in_order (as : List (Action θ)) (s : Journal θ)
    (h : exec step (new : Journal θ) as = some s) :
    s.jobs.items = s.workers.fibers ∧
      s.jobs.pushed.filter FiberAndThread.isCb = (as.filterMap Action.scheduled).map (⟨.cb, ·⟩) ∧
      (s.jobs.taken.map Prod.fst ++ s.jobs.waiting).Perm (List.range s.jobs.pushed.length) ∧
      (∀ n t, (n, t) ∈ s.jobs.taken → ∀ ft, s.jobs.pushed[n]? = some ft →
        ft.threadid = none ∨ ft.threadid = some t) ∧
      s.jobs.InOrder FiberAndThread.Open := by
  have hkept := run_kept h
  exact ⟨hkept.items, pushed_run h, hkept.fair.once, hkept.admitted, hkept.fair.inOrder⟩

omit [DecidableEq θ] in
theorem Kept.not_waiting (h : Kept s) {n : Nat} (hn : (n, t) ∈ s.jobs.taken) : n ∉ s.jobs.waiting := by
  intro hwaiting
  have hnodup := h.fair.once.nodup_iff.mpr List.nodup_range
  exact (List.nodup_append.mp hnodup).2.2 n (List.mem_map_of_mem (f := Prod.fst) hn) n hwaiting rfl

omit [DecidableEq θ] in
theorem Kept.holds_taken (h : Kept s) {n : Nat} (hn : s.Holds t n) :
    (n, t) ∈ s.jobs.taken ∧ n ∉ s.started := by
  obtain ⟨m, hm, hmem, -, hnew⟩ := h.hands t hn.2
  cases hn.1.symm.trans hm
  exact ⟨hmem, hnew⟩

omit [DecidableEq θ] in
/-- Where a callback is. -/
theorem Kept.place (h : Kept s) {n : Nat} (hn : s.IsCb n) :
    n ∈ s.jobs.waiting ∨ (∃ t, s.Holds t n) ∨ n ∈ s.started := by
  have hcb := hn
  obtain ⟨ft, hft, -⟩ := hn
  have hlt : n < s.jobs.pushed.length := (List.getElem?_eq_some_iff.mp hft).1
  rcases List.mem_append.mp (h.fair.once.mem_iff.mpr (List.mem_range.mpr hlt)) with htaken | hwaiting
  · obtain ⟨⟨m, t⟩, hm, rfl⟩ := List.mem_map.mp htaken
    rcases h.all m t hm hcb with hstarted | hheld
    · exact Or.inr (Or.inr hstarted)
    · exact Or.inr (Or.inl ⟨t, hheld⟩)
  · exact Or.inl hwaiting

omit [DecidableEq θ] in
/-- With no callback in the queue and in the workers' hands, all have been started. -/
theorem Kept.all_started (h : Kept s) (hhands : ∀ t, (s.workers.pc t).callback = false)
    (hqueue : ∀ ft ∈ s.workers.fibers, ft.isCb = false) :
    s.started.length = (s.jobs.pushed.filter FiberAndThread.isCb).length := by
  rw [← Tickets.length_filter_range]
  apply List.Perm.length_eq
  rw [List.perm_ext_iff_of_nodup h.once (List.nodup_range.filter _)]
  intro n
  rw [List.mem_filter, List.mem_range, Option.any_eq_true]
  constructor
  · intro hn
    obtain ⟨ft, hft, hjob⟩ := (h.started n hn).2
    exact ⟨(List.getElem?_eq_some_iff.mp hft).1, ft, hft, by rw [FiberAndThread.isCb, hjob]; rfl⟩
  · rintro ⟨-, ft, hft, hcb⟩
    have hisCb : s.IsCb n := ⟨ft, hft, by simpa [FiberAndThread.isCb] using hcb⟩
    rcases h.place hisCb with hwaiting | ⟨t, hheld⟩ | hstarted
    · have hitem : ft ∈ s.workers.fibers := by
        rw [← h.items]
        exact List.mem_filterMap.mpr ⟨n, hwaiting, hft⟩
      rw [hqueue ft hitem] at hcb
      cases hcb
    · rw [Holds, hhands t] at hheld
      exact absurd hheld.2 Bool.false_ne_true
    · exact hstarted

/-- Each callback is in the queue, in one worker's hand or started, and is started once. -/
theorem callbacks_started_once (as : List (Action θ)) (s : Journal θ)
    (h : exec step (new : Journal θ) as = some s) :
    (∀ n, s.IsCb n → n ∈ s.jobs.waiting ∨ (∃ t, s.Holds t n) ∨ n ∈ s.started) ∧
      (∀ n t, s.Holds t n →
        n ∉ s.jobs.waiting ∧ n ∉ s.started ∧ ∀ u, s.Holds u n → u = t) ∧
      (∀ n ∈ s.started, n ∉ s.jobs.waiting ∧ s.IsCb n) ∧ s.started.Nodup ∧
      ((∀ t, (s.workers.pc t).callback = false) → (∀ ft ∈ s.workers.fibers, ft.isCb = false) →
        s.started.length = (as.filterMap Action.scheduled).length) := by
  have hkept := run_kept h
  refine ⟨fun n => hkept.place, ?_, ?_, hkept.once, ?_⟩
  · intro n t hheld
    obtain ⟨hn, hnew⟩ := hkept.holds_taken hheld
    exact ⟨hkept.not_waiting hn, hnew, fun u hu => hkept.fair.taken_unique (hkept.holds_taken hu).1 hn⟩
  · intro n hn
    obtain ⟨⟨t, ht⟩, hisCb⟩ := hkept.started n hn
    exact ⟨hkept.not_waiting ht, hisCb⟩
  · intro hhands hqueue
    rw [hkept.all_started hhands hqueue, pushed_run h]
    simp [new, Tickets.empty]

/-- Two workers: one callback is for `true`, and the other worker takes the one behind it. -/
def twoWorkers : List (Action Bool) :=
  [.schedule (some true), .schedule none, .pop false, .pop true, .choose true, .swapIn true,
    .choose false, .swapIn false]

theorem jobs_taken_in_order_two : ∃ s, exec step (new : Journal Bool) twoWorkers = some s ∧
    s.jobs.taken = [(1, false), (0, true)] ∧ s.jobs.InOrder FiberAndThread.Open := by
  refine ⟨_, rfl, rfl, ?_⟩
  exact (jobs_taken_in_order twoWorkers _ rfl).2.2.2.2

theorem callbacks_started_once_two : ∃ s, exec step (new : Journal Bool) twoWorkers = some s ∧
    s.started = [0, 1] ∧ s.started.Nodup := by
  refine ⟨_, rfl, rfl, ?_⟩
  exact (callbacks_started_once twoWorkers _ rfl).2.2.2.1

end Journal
end HCServer.Scheduler
