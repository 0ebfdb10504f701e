import HCServer.Hook.Model

/-! The timeout of a hooked call. The manager's steps only ever remove waiters, except for the
`addEvent` of the fiber that is to wait, so a suspended and registered call is followed through
the steps of its own timer and its own `YieldToHold`. -/
namespace HCServer.Hook
open IOManager Lib

section Waiters
variable {φ : Type} {m m' : IOManager Unit φ Unit} {fd x : Nat} {e event : Event} {f : φ}

/-- The fiber that waits for an event. -/
def fiberAt (m : IOManager Unit φ Unit) (x : Nat) (e : Event) : Option φ :=
  ((m.context x).getcontext e).fiber

theorem fiberAt_armed (hm : m.Consistent) (h : fiberAt m x e = some f) :
    (m.context x).armed e = true := by
  by_contra hoff
  rw [fiberAt, (hm.context x).empty e (eq_false_of_ne_true hoff)] at h
  cases h

theorem fiberAt_grow (hm : m.Consistent) (fd : Nat) : fiberAt (m.grow fd) x e = fiberAt m x e := by
  unfold fiberAt
  rw [grow_context hm]

theorem fiberAt_disarm (hfd : fd < m.fdContexts.length) {q : List (Unit × Task φ Unit)}
    (h : fiberAt (m.install fd ((m.context fd).disarm event) q) x e = some f) :
    fiberAt m x e = some f := by
  rw [fiberAt, install_context hfd] at h
  split at h
  case isTrue same =>
    subst same
    rw [FdContext.getcontext_disarm] at h
    split at h
    case isTrue => cases h
    case isFalse => exact h
  case isFalse => exact h

theorem fiberAt_arm (hm : m.Consistent) {current : φ} {cb : Option Unit}
    (h : fiberAt ((m.grow fd).install fd ((m.context fd).arm event (waiter () current cb)) []) x e =
      some f) : fiberAt m x e = some f ∨ f = current := by
  rw [fiberAt, install_context (grow_length hm fd), grow_context hm] at h
  split at h
  case isTrue same =>
    subst same
    rw [FdContext.getcontext_arm] at h
    split at h
    case isTrue =>
      cases cb with
      | none =>
          cases h
          exact Or.inr rfl
      | some k => cases h
    case isFalse => exact Or.inl h
  case isFalse => exact Or.inl h

theorem fiberAt_removal {ctl : Bool} {q : List (Unit × Task φ Unit)}
    (h : fiberAt (m.removal fd event ctl q).state x e = some f) :
    fiberAt m x e = some f := by
  unfold removal at h
  split at h
  case isTrue => exact h
  case isFalse hon =>
    split at h
    case isTrue => exact fiberAt_disarm (armed_lt (Bool.eq_true_of_not_eq_false hon)) h
    case isFalse => exact h

/-- A granted cancellation of a registered event leaves nobody waiting for it. -/
theorem fiberAt_cancelled {q : List (Unit × Task φ Unit)}
    (hon : (m.context fd).armed event = true) :
    fiberAt (m.removal fd event true q).state fd event = none := by
  unfold removal
  rw [if_neg (by rw [hon]; exact Bool.noConfusion), if_pos rfl, fiberAt,
    install_context (armed_lt hon), if_pos rfl, FdContext.getcontext_disarm, if_pos rfl]
  rfl

theorem fiberAt_dispatch (hm : m.Consistent) (hfd : fd < m.fdContexts.length) {r : Mask}
    {ctl : Bool} (hok : m.dispatch fd r ctl = .ok m') (h : fiberAt m' x e = some f) :
    fiberAt m x e = some f := by
  rcases dispatch_ok (hm.context fd) hfd hok with rfl | rfl
  · exact h
  · rw [fiberAt, install_context hfd] at h
    split at h
    case isTrue same =>
      subst same
      rw [dueContext_getcontext] at h
      split at h
      case isTrue => cases h
      case isFalse => exact h
    case isFalse => exact h

/-- Only the caller of `addEvent` can be a new waiter. -/
def newcomer : Call Unit φ Unit → Option φ
  | .addEvent _ current _ _ _ _ => some current
  | _ => none

theorem addEvent_state (hm : m.Consistent) {current : φ} {cb : Option Unit} {ctl : Bool}
    {o : Outcome Unit φ Unit Int} (hok : m.addEvent () current fd event cb ctl = .ok o) :
    o.state.Consistent ∧ ∀ x e f, fiberAt o.state x e = some f →
      fiberAt m x e = some f ∨ f = current := by
  have hoff := addEvent_ok hm hok
  obtain ⟨o', ho', hcons, _⟩ :=
    (Call.addEvent () current fd event cb ctl : Call Unit φ Unit).perform_consistent hm hoff
  rw [Call.perform, hok] at ho'
  cases ho'
  refine ⟨hcons, ?_⟩
  intro x e f h
  rw [addEvent_spec hm hoff] at hok
  cases hok
  cases ctl with
  | false =>
      left
      rw [← fiberAt_grow hm fd]
      exact h
  | true => exact fiberAt_arm hm h

theorem perform_state (hm : m.Consistent) {c : Call Unit φ Unit} {o : Outcome Unit φ Unit Bool}
    (hc : c.Admissible m) (hok : c.perform m = .ok o) :
    o.state.Consistent ∧ ∀ x e f, fiberAt o.state x e = some f →
      fiberAt m x e = some f ∨ newcomer c = some f := by
  obtain ⟨o', ho', hcons, _⟩ := c.perform_consistent hm hc
  rw [hok] at ho'
  cases ho'
  refine ⟨hcons, ?_⟩
  intro x e f h
  cases c with
  | addEvent _ current fd event cb ctl =>
      cases hadd : m.addEvent () current fd event cb ctl with
      | error a =>
          rw [Call.perform, hadd] at hok
          cases hok
      | ok o' =>
          rw [Call.perform, hadd] at hok
          cases hok
          rcases (addEvent_state hm hadd).2 x e f h with hold | hnew
          · exact Or.inl hold
          · exact Or.inr (congrArg some hnew.symm)
  | delEvent fd event ctl =>
      rw [Call.perform, delEvent_spec hm] at hok
      cases hok
      exact Or.inl (fiberAt_removal h)
  | cancelEvent fd event ctl =>
      rw [Call.perform, cancelEvent_spec hm] at hok
      cases hok
      exact Or.inl (fiberAt_removal h)

end Waiters

/-- The current round's timer is in `m_timers`, or its callback has still to call `cancelEvent`. -/
def Alive : List Timer → Prop
  | tm :: _ => tm ≠ .gone
  | [] => False

namespace Hooks
variable {φ : Type} [DecidableEq φ] {s s' : Hooks φ} {f : φ} {c : HookCall}

/-- A suspended call with a finite timeout can still be woken by that timeout. -/
def CanExpire (s : Hooks φ) : Prop :=
  ∀ f c, s.call f = some c → c.finite = true → c.stage = .suspended → s.Registered f c →
    Alive c.timers

/-- A call does not suspend after its timer's callback has run; while it is suspended, that
callback finds `cancelled` unset, and the kernel grants its cancellation. -/
def InTime (s : Hooks φ) : Action φ → Prop
  | .yieldToHold f => ∀ c, s.call f = some c → c.finite = true → s.Registered f c →
      c.timers.head? ≠ some .gone
  | .setCancelled f 0 => ∀ c, s.call f = some c → c.finite = true → c.stage = .suspended →
      s.Registered f c → c.cancelled = false
  | .cancelEvent f 0 ctl => ∀ c, s.call f = some c → c.finite = true → c.stage = .suspended →
      s.Registered f c → ctl = true
  | _ => True

structure Inv (s : Hooks φ) : Prop where
  consistent : s.io.Consistent
  timed : ∀ f c, s.call f = some c → c.finite = true → c.stage ≠ .trying → c.timers ≠ []
  expires : CanExpire s

/-- What a step has to keep for the call that it changes. -/
structure Kept (m : IOManager Unit φ Unit) (f : φ) (c : HookCall) : Prop where
  timed : c.finite = true → c.stage ≠ .trying → c.timers ≠ []
  expires : c.finite = true → c.stage = .suspended → fiberAt m c.fd c.event = some f →
    Alive c.timers

omit [DecidableEq φ] in
theorem Inv.kept (h : Inv s) (hc : s.call f = some c) : Kept s.io f c :=
  ⟨h.timed f c hc, h.expires f c hc⟩

theorem Inv.setCall (h : Inv s) {m : IOManager Unit φ Unit} (hm : m.Consistent)
    (hfew : ∀ x e g, fiberAt m x e = some g → fiberAt s.io x e = some g ∨ g = f)
    {next : Option HookCall} (hnext : ∀ c, next = some c → Kept m f c) :
    Inv ({ s with io := m }.setCall f next) := by
  have hcall (g : φ) (c : HookCall) (hg : Function.update s.call f next g = some c) :
      Kept m g c := by
    by_cases same : g = f
    · rw [same, Function.update_self] at hg
      rw [same]
      exact hnext c hg
    · rw [Function.update_of_ne same] at hg
      refine ⟨h.timed g c hg, ?_⟩
      intro hfin hstage hreg
      rcases hfew _ _ g hreg with hold | hnew
      · exact h.expires g c hg hfin hstage hold
      · exact absurd hnew same
  exact ⟨hm, fun g c hg => (hcall g c hg).timed, fun g c hg => (hcall g c hg).expires⟩

/-- A step of the call of `f` that leaves the manager alone. -/
theorem Inv.setCall_only (h : Inv s) {next : Option HookCall}
    (hnext : ∀ c, next = some c → Kept s.io f c) : Inv (s.setCall f next) :=
  h.setCall h.consistent (fun _ _ _ hg => Or.inl hg) hnext

omit [DecidableEq φ] in
/-- A step of others, whose new waiters are in no hooked call. -/
theorem Inv.setIo (h : Inv s) {m : IOManager Unit φ Unit} (hm : m.Consistent)
    (hfew : ∀ x e g, fiberAt m x e = some g → fiberAt s.io x e = some g ∨ s.call g = none) :
    Inv { s with io := m } := by
  refine ⟨hm, h.timed, ?_⟩
  intro g c hg hfin hstage hreg
  rcases hfew _ _ g hreg with hold | hnone
  · exact h.expires g c hg hfin hstage hold
  · cases hg.symm.trans hnone

omit [DecidableEq φ] in
theorem Inv.new : Inv (new : Hooks φ) := by
  refine ⟨new_consistent, ?_, ?_⟩
  · rintro f c ⟨⟩
  · rintro f c ⟨⟩

omit [DecidableEq φ] in
/-- Only the timer `i` changes: the current one if `i` is `0`. -/
theorem kept_setTimer {m : IOManager Unit φ Unit} {i : Nat} {tm : Timer} (h : Kept s.io f c)
    (hi : i < c.timers.length)
    (hsub : fiberAt m c.fd c.event = some f → fiberAt s.io c.fd c.event = some f)
    (hcur : i = 0 → c.finite = true → c.stage = .suspended →
      fiberAt m c.fd c.event = some f → tm ≠ .gone) : Kept m f (c.setTimer i tm) := by
  cases ht : c.timers with
  | nil =>
      rw [ht] at hi
      cases hi
  | cons first older =>
      constructor
      case timed =>
        intro _ _
        simp only [HookCall.setTimer, ht]
        cases i <;> exact List.cons_ne_nil _ _
      case expires =>
        intro hfin hstage hreg
        have halive := h.expires hfin hstage (hsub hreg)
        rw [ht] at halive
        simp only [HookCall.setTimer, ht]
        cases i with
        | zero => exact hcur rfl hfin hstage hreg
        | succ i => exact halive

theorem Inv.step {a : Action φ} (h : Inv s) (hstep : s.step a = some s') (htime : s.InTime a) :
    Inv s' := by
  cases a with
  | enter f kind fd event finite =>
      simp only [Hooks.step] at hstep
      split at hstep
      case h_1 =>
        cases hstep
        apply h.setCall_only
        rintro c ⟨⟩
        exact ⟨fun _ hne => absurd rfl hne, fun _ hs => nomatch hs⟩
      case h_2 => cases hstep
  | leave f =>
      obtain ⟨c, hc, hstep⟩ := Option.bind_eq_some_iff.mp hstep
      split at hstep
      case isTrue =>
        cases hstep
        apply h.setCall_only
        rintro c ⟨⟩
      case isFalse => cases hstep
  | addConditionTimer f =>
      obtain ⟨c, hc, hstep⟩ := Option.bind_eq_some_iff.mp hstep
      split at hstep
      case isTrue =>
        cases hstep
        apply h.setCall_only
        rintro c' ⟨⟩
        refine ⟨?_, fun _ hs => nomatch hs⟩
        intro hfin _
        simp only at hfin
        simp only [hfin, if_true]
        exact List.cons_ne_nil _ _
      case isFalse => cases hstep
  | addEvent f ctl =>
      obtain ⟨c, hc, hstep⟩ := Option.bind_eq_some_iff.mp hstep
      split at hstep
      case isTrue hstage =>
        split at hstep
        case h_1 o hok =>
          cases hstep
          obtain ⟨hcons, hfew⟩ := addEvent_state h.consistent hok
          apply h.setCall hcons hfew
          intro c' hc'
          split at hc'
          case isTrue =>
            cases hc'
            refine ⟨?_, fun _ hs => nomatch hs⟩
            intro hfin _
            apply h.timed f c hc hfin
            rw [hstage]
            decide
          case isFalse => cases hc'
        case h_2 => cases hstep
      case isFalse => cases hstep
  | yieldToHold f =>
      obtain ⟨c, hc, hstep⟩ := Option.bind_eq_some_iff.mp hstep
      split at hstep
      case isTrue hstage =>
        cases hstep
        have hne (hfin : c.finite = true) : c.timers ≠ [] := by
          apply h.timed f c hc hfin
          rw [hstage]
          decide
        apply h.setCall_only
        rintro c' ⟨⟩
        refine ⟨fun hfin _ => hne hfin, ?_⟩
        intro hfin _ hreg
        have halive := htime c hc hfin hreg
        cases ht : c.timers with
        | nil => exact absurd ht (hne hfin)
        | cons tm older =>
            intro hgone
            rw [ht, hgone] at halive
            exact halive rfl
      case isFalse => cases hstep
  | resume f =>
      obtain ⟨c, hc, hstep⟩ := Option.bind_eq_some_iff.mp hstep
      split at hstep
      case isTrue =>
        cases hstep
        apply h.setCall_only
        intro c' hc'
        unfold resumed at hc'
        split at hc'
        case isTrue => cases hc'
        case isFalse =>
          split at hc'
          case h_1 =>
            cases hc'
            exact ⟨fun _ hne => absurd rfl hne, fun _ hs => nomatch hs⟩
          case h_2 => cases hc'
      case isFalse => cases hstep
  | collect f i =>
      obtain ⟨c, hc, hstep⟩ := Option.bind_eq_some_iff.mp hstep
      split at hstep
      case isTrue htm =>
        cases hstep
        obtain ⟨hi, _⟩ := List.getElem?_eq_some_iff.mp htm
        apply h.setCall_only
        rintro c' ⟨⟩
        apply kept_setTimer (h.kept hc) hi id
        intro _ _ _ _
        decide
      case isFalse => cases hstep
  | setCancelled f i =>
      obtain ⟨c, hc, hstep⟩ := Option.bind_eq_some_iff.mp hstep
      split at hstep
      case isTrue htm =>
        cases hstep
        obtain ⟨hi, _⟩ := List.getElem?_eq_some_iff.mp htm
        apply h.setCall_only
        rintro c' ⟨⟩
        split
        case isTrue hcan =>
          apply kept_setTimer (h.kept hc) hi id
          rintro rfl hfin hstage hreg
          have hunset := htime c hc hfin hstage hreg
          rw [hcan] at hunset
          cases hunset
        case isFalse =>
          have hkept : Kept s.io f (c.setTimer i .flagged) := by
            apply kept_setTimer (h.kept hc) hi id
            intro _ _ _ _
            decide
          exact ⟨hkept.timed, hkept.expires⟩
      case isFalse => cases hstep
  | cancelEvent f i ctl =>
      obtain ⟨c, hc, hstep⟩ := Option.bind_eq_some_iff.mp hstep
      split at hstep
      case isTrue htm =>
        obtain ⟨hi, _⟩ := List.getElem?_eq_some_iff.mp htm
        split at hstep
        case h_1 o hok =>
          cases hstep
          rw [cancelEvent_spec h.consistent] at hok
          cases hok
          apply h.setCall (removal_consistent h.consistent _ _ _ _).1
          · intro x e g hg
            exact Or.inl (fiberAt_removal hg)
          · rintro c' ⟨⟩
            apply kept_setTimer (h.kept hc) hi fiberAt_removal
            rintro rfl hfin hstage hreg
            have hold := fiberAt_removal hreg
            have hctl := htime c hc hfin hstage hold
            rw [hctl, fiberAt_cancelled (fiberAt_armed h.consistent hold)] at hreg
            cases hreg
        case h_2 => cases hstep
      case isFalse => cases hstep
  | other c =>
      simp only [Hooks.step] at hstep
      split at hstep
      case isTrue hc =>
        split at hstep
        case h_1 o hok =>
          cases hstep
          obtain ⟨hcons, hfew⟩ := perform_state h.consistent hc.1 hok
          apply h.setIo hcons
          intro x e g hg
          rcases hfew x e g hg with hold | hnew
          · exact Or.inl hold
          · right
            cases c with
            | addEvent _ current _ _ _ _ =>
                cases hnew
                exact hc.2
            | delEvent _ _ _ => cases hnew
            | cancelEvent _ _ _ => cases hnew
        case h_2 => cases hstep
      case isFalse => cases hstep
  | ready fd reported ctl =>
      simp only [Hooks.step] at hstep
      split at hstep
      case isTrue hfd =>
        split at hstep
        case h_1 m hok =>
          cases hstep
          apply h.setIo (dispatch_consistent h.consistent hfd hok).1
          intro x e g hg
          exact Or.inl (fiberAt_dispatch h.consistent hfd hok hg)
        case h_2 => cases hstep
      case isFalse => cases hstep

omit [DecidableEq φ] in
theorem not_alive_set (timers : List Timer) : ¬ Alive (timers.set 0 .gone) := by
  cases timers with
  | nil => exact id
  | cons tm older => exact fun h => h rfl

/-- A step out of time loses the timeout at once. -/
theorem Inv.broken {a : Action φ} (h : Inv s) (hstep : s.step a = some s')
    (htime : ¬ s.InTime a) : ¬ CanExpire s' := by
  intro hexp
  apply htime
  cases a with
  | yieldToHold f =>
      intro c hc hfin hreg hgone
      simp only [Hooks.step, hc] at hstep
      obtain ⟨hstage, hstep⟩ := Option.ite_none_right_eq_some.mp hstep
      cases hstep
      have halive := hexp f { c with stage := .suspended } (Function.update_self _ _ _) hfin rfl hreg
      cases ht : c.timers with
      | nil =>
          rw [ht] at hgone
          cases hgone
      | cons tm older =>
          rw [ht] at hgone halive
          exact halive (Option.some.inj hgone)
  | setCancelled f i =>
      cases i with
      | succ i => trivial
      | zero =>
          intro c hc hfin hstage hreg
          by_contra hset
          simp only [Hooks.step, hc] at hstep
          obtain ⟨htm, hstep⟩ := Option.ite_none_right_eq_some.mp hstep
          cases hstep
          rw [if_pos (Bool.eq_true_of_not_eq_false hset)] at hexp
          exact not_alive_set c.timers
            (hexp f (c.setTimer 0 .gone) (Function.update_self _ _ _) hfin hstage hreg)
  | cancelEvent f i ctl =>
      cases i with
      | succ i => trivial
      | zero =>
          intro c hc hfin hstage hreg
          by_contra hctl
          have hon := fiberAt_armed h.consistent hreg
          have hrefused : ∃ r, s.io.cancelEvent c.fd c.event ctl = .ok ⟨s.io, false, r⟩ := by
            rw [cancelEvent_spec h.consistent, eq_false_of_ne_true hctl, removal, hon]
            exact ⟨_, rfl⟩
          obtain ⟨r, hrefused⟩ := hrefused
          simp only [Hooks.step, hc] at hstep
          obtain ⟨htm, hstep⟩ := Option.ite_none_right_eq_some.mp hstep
          rw [hrefused] at hstep
          cases hstep
          exact not_alive_set c.timers
            (hexp f (c.setTimer 0 .gone) (Function.update_self _ _ _) hfin hstage hreg)
  | _ => trivial

/-- In a run no suspended call has lost its timeout exactly when its steps are in time. -/
theorem timeout_not_lost (as : List (Action φ)) :
    Always Hooks.step CanExpire (Hooks.new : Hooks φ) as ↔
      Each Hooks.step InTime (Hooks.new : Hooks φ) as :=
  always_iff_each (fun _ _ _ h hstep htime => h.step hstep htime)
    (fun _ _ _ h hstep htime => h.broken hstep htime) (fun _ h => h.expires) Inv.new as

/-- The timer expires and its callback runs before `addEvent`: the call then suspends for good. -/
theorem timeout_before_addEvent : ¬ ∀ as : List (Action Nat),
    Always Hooks.step CanExpire Hooks.new as := by
  intro h
  obtain ⟨s, hs, hfacts⟩ := Option.map_eq_some_iff.mp (show (exec Hooks.step (Hooks.new : Hooks Nat)
      [.enter 7 .doIo 5 .READ true, .addConditionTimer 7, .collect 7 0, .setCancelled 7 0,
        .cancelEvent 7 0 true, .addEvent 7 true, .yieldToHold 7]).map
        (fun s => (s.call 7, fiberAt s.io 5 .READ)) =
          some (some ⟨.doIo, 5, .READ, true, .suspended, true, [.gone]⟩, some 7) by
    decide)
  obtain ⟨hcall, hreg⟩ := Prod.mk.inj hfacts
  exact (always_end (h _) hs) 7 _ hcall rfl rfl hreg rfl

end Hooks
end HCServer.Hook
