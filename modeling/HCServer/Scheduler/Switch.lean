import HCServer.Lib.Transition
import HCServer.Scheduler.Model

/-! The saved contexts behind `swapIn`, `swapOut`, `call` and `back`. A context is the place in the code
where its owner goes on. A fiber keeps its context when it moves between threads; the main fiber of
a thread and, with `use_caller`, `m_rootFiber` stay where they are. -/
namespace HCServer.Switch
open Lib Scheduler

inductive FiberId (θ φ : Type)
  | main (t : θ)
  | root
  | task (f : φ)
  deriving DecidableEq, Repr

/-- Where a thread executes, or a context goes on. `returned t n f` is the statement after the `n`-th
`swapIn` that `run` makes on `t`, the one that entered `f`; `backing` and `swappingOut` are in front
of the switch in `back` and in `swapOut`; `ended` is the assertion that is never reached. -/
inductive Location (θ φ : Type)
  | outside
  | constructed
  | rootMain
  | afterCall
  | ended
  | loop (t : θ)
  | returned (t : θ) (n : Nat) (f : φ)
  | body (f : φ)
  | backing (f : φ)
  | swappingOut (f : φ)
  deriving DecidableEq, Repr

/-- `current` is the `t_fiber` of fiber.cc, `mainFiber` the one of scheduler.cc. `resumed` has, for each
time a fiber gave up control, the thread, the number of the `swapIn` and where the thread went on. -/
structure Threads (θ φ : Type) where
  ctx : FiberId θ φ → Location θ φ
  state : FiberId θ φ → FiberState
  current : θ → Option (FiberId θ φ)
  mainFiber : θ → Option (FiberId θ φ)
  location : θ → Location θ φ
  swapIns : θ → Nat
  resumed : List (θ × Nat × Location θ φ)

inductive Action (θ φ : Type)
  | startWorker (t : θ)
  | call (t : θ)
  | enterRun (t : θ)
  | swapIn (t : θ) (f : φ)
  | yieldToHold (t : θ)
  | yieldToReady (t : θ)
  | finish (t : θ) (thrown : Bool)
  | idleSwapOut (t : θ)
  | switchOut (t : θ)
  | update (t : θ)
  | reset (f : φ)
  | endRun (t : θ)
  | leaveStop (t : θ)
  deriving DecidableEq, Repr

namespace Threads
variable {θ φ : Type} [DecidableEq θ] [DecidableEq φ]

/-- After the constructor, on `caller` with `use_caller`. The `t_threadFiber` of `t` is always
`main t`. -/
def new (caller : Option θ) : Threads θ φ where
  ctx
    | .main _ => .constructed
    | .root => .rootMain
    | .task f => .body f
  state
    | .main _ => .EXEC
    | _ => .INIT
  current t := if caller = some t then some (.main t) else none
  mainFiber t := if caller = some t then some .root else none
  location _ := .outside
  swapIns _ := 0
  resumed := []

def goto (s : Threads θ φ) (t : θ) (l : Location θ φ) : Threads θ φ :=
  { s with location := Function.update s.location t l }

def setthis (s : Threads θ φ) (t : θ) (f : FiberId θ φ) : Threads θ φ :=
  { s with current := Function.update s.current t (some f) }

def setState (s : Threads θ φ) (f : FiberId θ φ) (state : FiberState) : Threads θ φ :=
  { s with state := Function.update s.state f state }

/-- `swapcontext(&save->m_ctx, &load->m_ctx)` with `here` behind it. -/
def swapcontext (s : Threads θ φ) (t : θ) (save load : FiberId θ φ) (here : Location θ φ) :
    Threads θ φ :=
  let ctx := Function.update s.ctx save here
  { s with ctx, location := Function.update s.location t (ctx load) }

def swapIn (s : Threads θ φ) (t : θ) (f : φ) : Option (Threads θ φ) := do
  let m ← s.mainFiber t
  -- `m_state != EXEC`
  if s.state (.task f) = .EXEC then none
  else
    let n := s.swapIns t + 1
    let s := (s.setthis t (.task f)).setState (.task f) .EXEC
    some ({ s with swapIns := Function.update s.swapIns t n }.swapcontext t m (.task f)
      (.returned t n f))

def swapOut (s : Threads θ φ) (t : θ) (this : FiberId θ φ) (here : Location θ φ) :
    Option (Threads θ φ) := do
  let m ← s.mainFiber t
  some ((s.setthis t m).swapcontext t this m here)

def call (s : Threads θ φ) (t : θ) (this : FiberId θ φ) : Threads θ φ :=
  ((s.setthis t this).setState this .EXEC).swapcontext t (.main t) this .afterCall

def back (s : Threads θ φ) (t : θ) (this : FiberId θ φ) (here : Location θ φ) : Threads θ φ :=
  (s.setthis t (.main t)).swapcontext t this (.main t) here

/-- The store of the current fiber's state, in front of the switch. -/
def store (s : Threads θ φ) (t : θ) (state : FiberState) (next : φ → Location θ φ) :
    Option (Threads θ φ) :=
  match s.location t with
  | .body f => do
      let cur ← s.current t
      some ((s.setState cur state).goto t (next f))
  | _ => none

/-- `s` has become `s'` when a fiber gave up control of `t`. -/
def gaveUp (s : Threads θ φ) (t : θ) (s' : Threads θ φ) : Threads θ φ :=
  { s' with resumed := (t, s.swapIns t, s'.location t) :: s'.resumed }

/-- One step; a failing assertion ends the run. -/
def step (caller : Option θ) (s : Threads θ φ) : Action θ φ → Option (Threads θ φ)
  | .startWorker t =>
      if caller ≠ some t ∧ s.location t = .outside ∧ s.current t = none then
        let s := (s.setthis t (.main t)).setState (.main t) .EXEC
        some ({ s with
          ctx := Function.update s.ctx (.main t) .constructed
          mainFiber := Function.update s.mainFiber t (some (.main t)) }.goto t (.loop t))
      else none
  | .call t => if caller = some t ∧ s.location t = .outside then some (s.call t .root) else none
  | .enterRun t => if s.location t = .rootMain then some (s.goto t (.loop t)) else none
  | .swapIn t f =>
      if s.location t = .loop t ∧ s.state (.task f) ≠ .TERM ∧ s.state (.task f) ≠ .EXCEPT then
        s.swapIn t f
      else none
  | .yieldToHold t => s.store t .HOLD .backing
  | .yieldToReady t => s.store t .READY .backing
  | .finish t thrown => s.store t (if thrown then .EXCEPT else .TERM) .swappingOut
  | .idleSwapOut t =>
      match s.location t with
      | .body f => some (s.goto t (.swappingOut f))
      | _ => none
  | .switchOut t =>
      match s.location t with
      | .backing f => do
          let cur ← s.current t
          some (s.gaveUp t (s.back t cur (.body f)))
      | .swappingOut f => do
          let cur ← s.current t
          let dead := s.state cur = .TERM ∨ s.state cur = .EXCEPT
          let s' ← s.swapOut t cur (if dead then .ended else .body f)
          some (s.gaveUp t s')
      | _ => none
  | .update t =>
      match s.location t with
      | .returned _ _ f =>
          let state := s.state (.task f)
          let s := if state = .READY ∨ state = .TERM ∨ state = .EXCEPT then s
            else s.setState (.task f) .HOLD
          some (s.goto t (.loop t))
      | _ => none
  | .reset f =>
      let state := s.state (.task f)
      if state = .TERM ∨ state = .INIT ∨ state = .EXCEPT then
        some { s.setState (.task f) .INIT with ctx := Function.update s.ctx (.task f) (.body f) }
      else none
  | .endRun t =>
      if s.location t = .loop t then
        if caller = some t then some ((s.setState .root .TERM).back t .root .ended)
        else some (s.goto t .outside)
      else none
  | .leaveStop t => if s.location t = .afterCall then some (s.goto t .outside) else none

/-- Each time a fiber has given up control, `run` went on behind the `swapIn`. -/
def Returns (s : Threads θ φ) : Prop :=
  ∀ r ∈ s.resumed, ∃ f, r.2.2 = .returned r.1 r.2.1 f

/-- The caller's thread does not switch by `back`, as `YieldToHold` and `YieldToReady` do. -/
def Apart (caller : Option θ) (s : Threads θ φ) : Action θ φ → Prop
  | .switchOut t => ∀ f, s.location t = .backing f → caller ≠ some t
  | _ => True

variable (caller : Option θ)

/-- The fiber that `GetmainFiber` gives on a thread that runs `run`. -/
def sched (t : θ) : FiberId θ φ := if caller = some t then .root else .main t

/-- The thread is between the start and the end of `run`. -/
structure Inside (s : Threads θ φ) (t : θ) : Prop where
  main : s.mainFiber t = some (sched caller t)
  stop : caller = some t → s.ctx (.main t) = .afterCall

/-- A fiber runs on the thread. -/
structure Entered (s : Threads θ φ) (t : θ) : Prop extends Inside caller s t where
  saved : ∃ f, s.ctx (sched caller t) = .returned t (s.swapIns t) f
  current : ∃ f, s.current t = some (.task f)

/-- What holds of a thread at a place of the code. -/
def Settled (s : Threads θ φ) (t : θ) : Location θ φ → Prop
  | .outside | .afterCall => caller = some t → s.ctx .root = .rootMain ∨ s.ctx .root = .ended
  | .rootMain => caller = some t ∧ Inside caller s t
  | .loop u => u = t ∧ Inside caller s t
  | .returned u _ _ => u = t ∧ Inside caller s t
  | .body _ | .backing _ | .swappingOut _ => Entered caller s t
  | .constructed => False
  | .ended => True

structure Kept (s : Threads θ φ) : Prop where
  root : ∀ t, caller = some t → s.mainFiber t = some .root
  tasks : ∀ f, s.ctx (.task f) = .ended ∨ ∃ g, s.ctx (.task f) = .body g
  places : ∀ t, Settled caller s t (s.location t)
  returns : Returns s

variable {caller} {s s' : Threads θ φ} {t : θ} {a : Action θ φ}

omit [DecidableEq φ] in
theorem sched_caller (h : caller = some t) : (sched caller t : FiberId θ φ) = .root := if_pos h

omit [DecidableEq φ] in
theorem sched_worker (h : caller ≠ some t) : (sched caller t : FiberId θ φ) = .main t := if_neg h

omit [DecidableEq φ] in
theorem sched_ne_task (f : φ) : sched caller t ≠ .task f := by
  unfold sched
  split <;> simp

omit [DecidableEq φ] in
/-- What a thread rests on is its own. -/
theorem Settled.frame {l : Location θ φ} (h : Settled caller s t l)
    (hmain : s'.mainFiber t = s.mainFiber t) (hcurrent : s'.current t = s.current t)
    (hswapIns : s'.swapIns t = s.swapIns t) (hctx : s'.ctx (.main t) = s.ctx (.main t))
    (hroot : caller = some t → s'.ctx .root = s.ctx .root) : Settled caller s' t l := by
  have hinside : Inside caller s t → Inside caller s' t := fun hin =>
    ⟨hmain.trans hin.main, fun hc => hctx.trans (hin.stop hc)⟩
  have hsched : s'.ctx (sched caller t) = s.ctx (sched caller t) := by
    by_cases hc : caller = some t
    · rw [sched_caller hc]
      exact hroot hc
    · rw [sched_worker hc]
      exact hctx
  have hentered : Entered caller s t → Entered caller s' t := fun hin =>
    ⟨hinside hin.toInside, by rw [hsched, hswapIns]; exact hin.saved, by
      rw [hcurrent]; exact hin.current⟩
  cases l with
  | outside => exact fun hc => by rw [hroot hc]; exact h hc
  | afterCall => exact fun hc => by rw [hroot hc]; exact h hc
  | rootMain => exact ⟨h.1, hinside h.2⟩
  | loop u => exact ⟨h.1, hinside h.2⟩
  | returned u n f => exact ⟨h.1, hinside h.2⟩
  | body f => exact hentered h
  | backing f => exact hentered h
  | swappingOut f => exact hentered h
  | constructed => exact h
  | ended => trivial

/-- Nothing that another thread rests on has changed. -/
structure Elsewhere (caller : Option θ) (t : θ) (s s' : Threads θ φ) : Prop where
  location : ∀ u, u ≠ t → s'.location u = s.location u
  mainFiber : ∀ u, u ≠ t → s'.mainFiber u = s.mainFiber u
  current : ∀ u, u ≠ t → s'.current u = s.current u
  swapIns : ∀ u, u ≠ t → s'.swapIns u = s.swapIns u
  main : ∀ u, u ≠ t → s'.ctx (.main u) = s.ctx (.main u)
  root : caller ≠ some t → s'.ctx .root = s.ctx .root

omit [DecidableEq φ] in
theorem elsewhere_goto (s : Threads θ φ) (t : θ) (l : Location θ φ) :
    Elsewhere caller t s (s.goto t l) where
  location _ hu := Function.update_of_ne hu _ _
  mainFiber _ _ := rfl
  current _ _ := rfl
  swapIns _ _ := rfl
  main _ _ := rfl
  root _ := rfl

/-- A switch on `t` from `save` to `load`, after which `load` is the current fiber. -/
structure Switched (t : θ) (save load : FiberId θ φ) (here : Location θ φ) (n : Nat)
    (s s' : Threads θ φ) : Prop where
  ctx : s'.ctx = Function.update s.ctx save here
  location : s'.location = Function.update s.location t (s'.ctx load)
  current : s'.current = Function.update s.current t (some load)
  mainFiber : s'.mainFiber = s.mainFiber
  swapIns : s'.swapIns = Function.update s.swapIns t n

variable {save load : FiberId θ φ} {here : Location θ φ} {n : Nat}

theorem switched_swapIn {f : φ} {m : FiberId θ φ} (hm : s.mainFiber t = some m)
    (hs : s.swapIn t f = some s') : Switched t m (.task f) (.returned t (s.swapIns t + 1) f)
      (s.swapIns t + 1) s s' ∧ s'.resumed = s.resumed := by
  simp only [swapIn, hm, Option.bind_eq_bind, Option.bind_some] at hs
  split at hs
  · cases hs
  · cases hs
    exact ⟨⟨rfl, rfl, rfl, rfl, rfl⟩, rfl⟩

theorem switched_swapOut {m : FiberId θ φ} (hm : s.mainFiber t = some m)
    (hs : s.swapOut t save here = some s') :
    Switched t save m here (s.swapIns t) s s' ∧ s'.resumed = s.resumed := by
  simp only [swapOut, hm, Option.bind_eq_bind, Option.bind_some] at hs
  cases hs
  exact ⟨⟨rfl, rfl, rfl, rfl, (Function.update_eq_self _ _).symm⟩, rfl⟩

theorem switched_back (s : Threads θ φ) (t : θ) (save : FiberId θ φ) (here : Location θ φ) :
    Switched t save (.main t) here (s.swapIns t) s (s.back t save here) :=
  ⟨rfl, rfl, rfl, rfl, (Function.update_eq_self _ _).symm⟩

theorem switched_call (s : Threads θ φ) (t : θ) (load : FiberId θ φ) :
    Switched t (.main t) load .afterCall (s.swapIns t) s (s.call t load) :=
  ⟨rfl, rfl, rfl, rfl, (Function.update_eq_self _ _).symm⟩

namespace Switched

theorem here_eq (h : Switched t save load here n s s') :
    s'.location t = if load = save then here else s.ctx load := by
  rw [h.location, Function.update_self, h.ctx, Function.update_apply]

theorem elsewhere (h : Switched t save load here n s s') (hmain : ∀ u, u ≠ t → save ≠ .main u)
    (hroot : caller ≠ some t → save ≠ .root) : Elsewhere caller t s s' where
  location u hu := by rw [h.location, Function.update_of_ne hu]
  mainFiber u _ := by rw [h.mainFiber]
  current u hu := by rw [h.current, Function.update_of_ne hu]
  swapIns u hu := by rw [h.swapIns, Function.update_of_ne hu]
  main u hu := by rw [h.ctx, Function.update_of_ne (hmain u hu).symm]
  root hc := by rw [h.ctx, Function.update_of_ne (hroot hc).symm]

end Switched

omit [DecidableEq φ] in
/-- A step of thread `t`. -/
theorem Kept.act (h : Kept caller s) (helse : Elsewhere caller t s s')
    (hroot : caller = some t → s'.mainFiber t = s.mainFiber t)
    (htasks : ∀ f, s'.ctx (.task f) = s.ctx (.task f) ∨ s'.ctx (.task f) = .ended ∨
      ∃ g, s'.ctx (.task f) = .body g)
    (hplace : Settled caller s' t (s'.location t)) (hreturns : Returns s') : Kept caller s' where
  root u hu := by
    by_cases hut : u = t
    · subst hut
      rw [hroot hu]
      exact h.root u hu
    · rw [helse.mainFiber u hut]
      exact h.root u hu
  tasks f := by
    rcases htasks f with hsame | hok
    · rw [hsame]
      exact h.tasks f
    · exact hok
  places u := by
    by_cases hut : u = t
    · subst hut
      exact hplace
    · rw [helse.location u hut]
      refine (h.places u).frame (helse.mainFiber u hut) (helse.current u hut) (helse.swapIns u hut)
        (helse.main u hut) ?_
      intro hu
      refine helse.root ?_
      intro ht
      exact hut (Option.some.inj (hu.symm.trans ht))
  returns := hreturns

theorem swapIn_kept (h : Kept caller s) {f : φ} (hs : s.step caller (.swapIn t f) = some s') :
    Kept caller s' := by
  simp only [step] at hs
  split at hs
  case isFalse => cases hs
  case isTrue hloop =>
    have hplace := h.places t
    rw [hloop.1] at hplace
    have hinside : Inside caller s t := hplace.2
    obtain ⟨hsw, hresumed⟩ := switched_swapIn hinside.main hs
    have hne : (.task f : FiberId θ φ) ≠ sched caller t := (sched_ne_task f).symm
    refine h.act (hsw.elsewhere ?_ ?_) (fun _ => by rw [hsw.mainFiber]) ?_ ?_ ?_
    · intro u hu
      unfold sched
      split
      · simp
      · simpa using hu.symm
    · intro hc
      rw [sched_worker hc]
      simp
    · intro g
      rw [hsw.ctx]
      exact Or.inl (Function.update_of_ne (sched_ne_task g).symm _ _)
    · rw [hsw.here_eq, if_neg hne]
      rcases h.tasks f with hended | ⟨g, hbody⟩
      · rw [hended]
        trivial
      · rw [hbody]
        refine ⟨⟨by rw [hsw.mainFiber]; exact hinside.main, ?_⟩, ⟨f, ?_⟩, f, ?_⟩
        · intro hc
          have hmain : (.main t : FiberId θ φ) ≠ sched caller t := by
            rw [sched_caller hc]
            simp
          rw [hsw.ctx, Function.update_of_ne hmain]
          exact hinside.stop hc
        · rw [hsw.ctx, hsw.swapIns, Function.update_self, Function.update_self]
        · rw [hsw.current, Function.update_self]
    · rw [Returns, hresumed]
      exact h.returns

/-- A fiber gives up control in favour of the scheduler. -/
theorem giveUp_kept (h : Kept caller s) (hentered : Entered caller s t) {f : φ} {here : Location θ φ}
    (hhere : here = .ended ∨ ∃ g, here = .body g)
    (hsw : Switched t (.task f) (sched caller t) here (s.swapIns t) s s')
    (hresumed : s'.resumed = s.resumed) : Kept caller (s.gaveUp t s') := by
  obtain ⟨g, hsaved⟩ := hentered.saved
  have hlocation : s'.location t = .returned t (s.swapIns t) g := by
    rw [hsw.here_eq, if_neg (sched_ne_task f), hsaved]
  have hother : ∀ l : FiberId θ φ, l ≠ .task f → s'.ctx l = s.ctx l := fun l hl => by
    rw [hsw.ctx, Function.update_of_ne hl]
  refine h.act (t := t) ?_ (fun _ => congrFun hsw.mainFiber t) ?_ ?_ ?_
  · have helse : Elsewhere caller t s s' := hsw.elsewhere (fun _ _ => by simp) (fun _ => by simp)
    exact ⟨helse.location, helse.mainFiber, helse.current, helse.swapIns, helse.main, helse.root⟩
  · intro k
    by_cases hk : k = f
    · subst hk
      refine Or.inr ?_
      have hctx : (s.gaveUp t s').ctx (.task k) = here := by
        simp [gaveUp, hsw.ctx]
      rw [hctx]
      exact hhere
    · exact Or.inl (hother _ (by simpa using hk))
  · have hplace : (s.gaveUp t s').location t = .returned t (s.swapIns t) g := hlocation
    rw [hplace]
    refine ⟨rfl, ?_, ?_⟩
    · exact (congrFun hsw.mainFiber t).trans hentered.main
    · intro hc
      exact (hother _ (by simp)).trans (hentered.stop hc)
  · intro r hr
    rcases List.mem_cons.mp hr with rfl | hr
    · exact ⟨g, hlocation⟩
    · rw [hresumed] at hr
      exact h.returns r hr

theorem switchOut_kept (h : Kept caller s) (hs : s.step caller (.switchOut t) = some s')
    (hapart : s.Apart caller (.switchOut t)) : Kept caller s' := by
  have hplace := h.places t
  simp only [step] at hs
  split at hs
  case h_1 f hloc =>
    rw [hloc] at hplace
    have hentered : Entered caller s t := hplace
    obtain ⟨g, hcurrent⟩ := hentered.current
    rw [hcurrent] at hs
    cases hs
    have hsw := switched_back s t (.task g) (.body f)
    rw [← sched_worker (hapart f hloc)] at hsw
    exact giveUp_kept h hentered (Or.inr ⟨f, rfl⟩) hsw rfl
  case h_2 f hloc =>
    rw [hloc] at hplace
    have hentered : Entered caller s t := hplace
    obtain ⟨g, hcurrent⟩ := hentered.current
    simp only [hcurrent, Option.bind_eq_bind, Option.bind_some] at hs
    obtain ⟨s'', hout, hs⟩ := Option.bind_eq_some_iff.mp hs
    cases hs
    obtain ⟨hsw, hresumed⟩ := switched_swapOut hentered.main hout
    refine giveUp_kept h hentered ?_ hsw hresumed
    split
    · exact Or.inl rfl
    · exact Or.inr ⟨f, rfl⟩
  case h_3 => cases hs

theorem store_kept (next : φ → Location θ φ) (h : Kept caller s) {state : FiberState}
    (hnext : ∀ f, Settled caller s t (.body f) → Settled caller s t (next f))
    (hs : s.store t state next = some s') : Kept caller s' := by
  have hplace := h.places t
  unfold store at hs
  split at hs
  case h_1 f hloc =>
    rw [hloc] at hplace
    obtain ⟨cur, -, hs⟩ := Option.bind_eq_some_iff.mp hs
    cases hs
    refine h.act (t := t) ?_ (fun _ => rfl) (fun _ => Or.inl rfl) ?_ h.returns
    · have helse : Elsewhere caller t s (s.goto t (next f)) := elsewhere_goto s t (next f)
      exact ⟨helse.location, helse.mainFiber, helse.current, helse.swapIns, helse.main, helse.root⟩
    · have hnow : ((s.setState cur state).goto t (next f)).location t = next f :=
        Function.update_self _ _ _
      rw [hnow]
      exact (hnext f hplace).frame rfl rfl rfl rfl fun _ => rfl
  case h_2 => cases hs

omit [DecidableEq φ] in
/-- A step to another place of the code, with every context as it is. -/
theorem goto_kept (h : Kept caller s) (l : Location θ φ) (states : FiberId θ φ → FiberState)
    (hplace : Settled caller s t l) : Kept caller ({ s with state := states }.goto t l) := by
  have helse : Elsewhere caller t s (s.goto t l) := elsewhere_goto s t l
  refine h.act (t := t) ⟨helse.location, helse.mainFiber, helse.current, helse.swapIns, helse.main,
    helse.root⟩ (fun _ => rfl) (fun _ => Or.inl rfl) ?_ h.returns
  have hnow : ({ s with state := states }.goto t l).location t = l := Function.update_self _ _ _
  rw [hnow]
  exact hplace.frame rfl rfl rfl rfl fun _ => rfl

theorem startWorker_kept (h : Kept caller s) (hs : s.step caller (.startWorker t) = some s') :
    Kept caller s' := by
  simp only [step] at hs
  split at hs
  case isFalse => cases hs
  case isTrue hstart =>
    cases hs
    have hroot : (.root : FiberId θ φ) ≠ .main t := by simp
    have htask : ∀ f, (.task f : FiberId θ φ) ≠ .main t := by simp
    refine h.act (t := t) ?_ (fun hc => absurd hc hstart.1) ?_ ?_ h.returns
    · exact ⟨fun _ hu => Function.update_of_ne hu _ _, fun _ hu => Function.update_of_ne hu _ _,
        fun _ hu => Function.update_of_ne hu _ _, fun _ _ => rfl,
        fun _ hu => Function.update_of_ne (by simpa using hu) _ _,
        fun _ => Function.update_of_ne hroot .constructed s.ctx⟩
    · intro f
      exact Or.inl (Function.update_of_ne (htask f) .constructed s.ctx)
    · simp only [goto, Function.update_self]
      refine ⟨rfl, ?_, fun hc => absurd hc hstart.1⟩
      rw [sched_worker hstart.1]
      exact Function.update_self _ _ _

theorem call_kept (h : Kept caller s) (hs : s.step caller (.call t) = some s') : Kept caller s' := by
  have hplace := h.places t
  simp only [step] at hs
  split at hs
  case isFalse => cases hs
  case isTrue hcall =>
    cases hs
    obtain ⟨hc, hloc⟩ := hcall
    rw [hloc] at hplace
    have hsw := switched_call s t .root
    refine h.act (hsw.elsewhere ?_ (fun hne => absurd hc hne)) (fun _ => by rw [hsw.mainFiber]) ?_ ?_
      h.returns
    · intro u hu
      simpa using hu.symm
    · intro f
      rw [hsw.ctx]
      exact Or.inl (Function.update_of_ne (by simp) _ _)
    · rw [hsw.here_eq, if_neg (by simp)]
      rcases hplace hc with hroot | hended
      · rw [hroot]
        refine ⟨hc, ?_, ?_⟩
        · rw [hsw.mainFiber, sched_caller hc]
          exact h.root t hc
        · intro _
          rw [hsw.ctx, Function.update_self]
      · rw [hended]
        trivial

theorem endRun_kept (h : Kept caller s) (hs : s.step caller (.endRun t) = some s') :
    Kept caller s' := by
  have hplace := h.places t
  simp only [step] at hs
  split at hs
  case isFalse => cases hs
  case isTrue hloc =>
    rw [hloc] at hplace
    have hinside : Inside caller s t := hplace.2
    split at hs
    case isTrue hc =>
      cases hs
      have hsw := switched_back (s.setState .root .TERM) t .root .ended
      have helse : Elsewhere caller t (s.setState .root .TERM) _ :=
        hsw.elsewhere (fun _ _ => by simp) (fun hne => absurd hc hne)
      refine h.act (t := t) ⟨helse.location, helse.mainFiber, helse.current, helse.swapIns, helse.main,
        helse.root⟩ (fun _ => by rw [hsw.mainFiber]; rfl) ?_ ?_ h.returns
      · intro f
        rw [hsw.ctx]
        exact Or.inl (Function.update_of_ne (by simp) _ _)
      · have hstop : (s.setState .root .TERM).ctx (.main t) = .afterCall := hinside.stop hc
        rw [hsw.here_eq, if_neg (by simp), hstop]
        intro _
        rw [hsw.ctx, Function.update_self]
        exact Or.inr rfl
    case isFalse hc =>
      cases hs
      exact goto_kept h _ s.state fun hc' => absurd hc' hc

theorem reset_kept (h : Kept caller s) {f : φ} (hs : s.step caller (.reset f) = some s') :
    Kept caller s' := by
  simp only [step] at hs
  split at hs
  case isFalse => cases hs
  case isTrue =>
    cases hs
    refine ⟨h.root, ?_, ?_, h.returns⟩
    · intro g
      by_cases hg : g = f
      · subst hg
        exact Or.inr ⟨g, Function.update_self _ _ _⟩
      · have hne : (.task g : FiberId θ φ) ≠ .task f := by simpa using hg
        have hsame := h.tasks g
        rwa [← Function.update_of_ne hne (.body f) s.ctx] at hsame
    · intro u
      have hmain : (.main u : FiberId θ φ) ≠ .task f := by simp
      have hroot : (.root : FiberId θ φ) ≠ .task f := by simp
      exact (h.places u).frame rfl rfl rfl (Function.update_of_ne hmain (.body f) s.ctx)
        fun _ => Function.update_of_ne hroot (.body f) s.ctx

theorem Kept.step (h : Kept caller s) (hs : s.step caller a = some s') (hapart : s.Apart caller a) :
    Kept caller s' := by
  cases a with
  | startWorker t => exact startWorker_kept h hs
  | call t => exact call_kept h hs
  | enterRun t =>
      have hplace := h.places t
      simp only [Threads.step] at hs
      split at hs
      case isFalse => cases hs
      case isTrue hloc =>
        cases hs
        rw [hloc] at hplace
        exact goto_kept h _ s.state ⟨rfl, hplace.2⟩
  | swapIn t f => exact swapIn_kept h hs
  | yieldToHold t => exact store_kept .backing h (fun _ hp => hp) hs
  | yieldToReady t => exact store_kept .backing h (fun _ hp => hp) hs
  | finish t thrown => exact store_kept .swappingOut h (fun _ hp => hp) hs
  | idleSwapOut t =>
      have hplace := h.places t
      simp only [Threads.step] at hs
      split at hs
      case h_1 f hloc =>
        cases hs
        rw [hloc] at hplace
        exact goto_kept h (.swappingOut f) s.state hplace
      case h_2 => cases hs
  | switchOut t => exact switchOut_kept h hs hapart
  | update t =>
      have hplace := h.places t
      simp only [Threads.step] at hs
      split at hs
      case h_1 u n f hloc =>
        rw [hloc] at hplace
        have hloop : Settled caller s t (.loop t) := ⟨rfl, hplace.2⟩
        cases hs
        split
        · exact goto_kept h _ s.state hloop
        · exact goto_kept h _ _ hloop
      case h_2 => cases hs
  | reset f => exact reset_kept h hs
  | endRun t => exact endRun_kept h hs
  | leaveStop t =>
      have hplace := h.places t
      simp only [Threads.step] at hs
      split at hs
      case isFalse => cases hs
      case isTrue hloc =>
        cases hs
        rw [hloc] at hplace
        exact goto_kept h .outside s.state hplace

/-- On the caller's thread `back` goes to the statement behind `call` in `stop`. -/
theorem Kept.broken (h : Kept caller s) (hs : s.step caller a = some s')
    (hapart : ¬ s.Apart caller a) : ¬ Returns s' := by
  cases a with
  | switchOut t =>
      have hplace := h.places t
      simp only [Apart, not_forall, not_not] at hapart
      obtain ⟨f, hloc, hc⟩ := hapart
      rw [hloc] at hplace
      have hentered : Entered caller s t := hplace
      obtain ⟨g, hcurrent⟩ := hentered.current
      simp only [Threads.step, hloc, hcurrent, Option.bind_eq_bind, Option.bind_some] at hs
      cases hs
      intro hreturns
      obtain ⟨k, hk⟩ := hreturns _ List.mem_cons_self
      have hstop := (switched_back s t (.task g) (.body f)).here_eq
      rw [if_neg (by simp), hentered.stop hc] at hstop
      exact absurd (hstop.symm.trans hk) (by simp)
  | startWorker t => exact absurd trivial hapart
  | call t => exact absurd trivial hapart
  | enterRun t => exact absurd trivial hapart
  | swapIn t f => exact absurd trivial hapart
  | yieldToHold t => exact absurd trivial hapart
  | yieldToReady t => exact absurd trivial hapart
  | finish t thrown => exact absurd trivial hapart
  | idleSwapOut t => exact absurd trivial hapart
  | update t => exact absurd trivial hapart
  | reset f => exact absurd trivial hapart
  | endRun t => exact absurd trivial hapart
  | leaveStop t => exact absurd trivial hapart

omit [DecidableEq φ] in
theorem new_kept (caller : Option θ) : Kept caller (new caller : Threads θ φ) where
  root t ht := if_pos ht
  tasks f := Or.inr ⟨f, rfl⟩
  places t := fun _ => Or.inl rfl
  returns := by
    intro r hr
    cases hr

/-- A fiber that gives up control returns to `run`, on every thread where it does not yield by `back`
to another fiber than the scheduler's. -/
theorem yield_returns_to_run (caller : Option θ) (as : List (Action θ φ)) :
    Always (step caller) Returns (new caller) as ↔ Each (step caller) (Apart caller) (new caller) as :=
  always_iff_each (fun _ _ _ h hs hapart => h.step hs hapart)
    (fun _ _ _ h hs hapart => h.broken hs hapart) (fun _ h => h.returns) (new_kept caller) as

/-- The caller's thread enters `run` from `stop`, and its first task yields. -/
theorem yield_on_caller_leaves_run :
    ¬ ∀ (caller : Option Unit) (as : List (Action Unit Unit)),
      Always (step caller) Returns (new caller) as := by
  intro h
  have hreturns := always_end (h (some ()) [.call (), .enterRun (), .swapIn () (), .yieldToHold (),
    .switchOut ()]) rfl
  obtain ⟨f, hf⟩ := hreturns ((), 1, .afterCall) (by decide)
  cases hf

end Threads
end HCServer.Switch
