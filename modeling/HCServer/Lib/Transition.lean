import Mathlib.Logic.Basic
import Mathlib.Tactic.ByContra

/-! Labelled transition systems whose label settles the step: `step s a` is the state after
action `a`, `none` where `a` is not enabled. -/
namespace HCServer.Lib
variable {σ α : Type*} (step : σ → α → Option σ)

def exec : σ → List α → Option σ
  | s, [] => some s
  | s, a :: as => (step s a).bind fun s' => exec s' as

/-- Every state on the run, the first one included, satisfies `P`. -/
def Always (P : σ → Prop) : σ → List α → Prop
  | s, [] => P s
  | s, a :: as => P s ∧ ∀ s', step s a = some s' → Always P s' as

/-- Every step taken on the run satisfies `Q`, a condition on the state before it. -/
def Each (Q : σ → α → Prop) : σ → List α → Prop
  | _, [] => True
  | s, a :: as => ∀ s', step s a = some s' → Q s a ∧ Each Q s' as

/-- `R` relates each state of the run to the later ones. -/
def Throughout (R : σ → σ → Prop) (s : σ) (as : List α) : Prop :=
  ∀ bs cs ds t u, as = bs ++ cs ++ ds → exec step s bs = some t → exec step t cs = some u → R t u

/-- The sum of a weight over the steps of a run. -/
def tally (w : σ → α → σ → Nat) : σ → List α → Nat
  | _, [] => 0
  | s, a :: as =>
      match step s a with
      | none => 0
      | some s' => w s a s' + tally w s' as

variable {step}

instance decidableEach {Q : σ → α → Prop} [∀ s a, Decidable (Q s a)] (s : σ) (as : List α) :
    Decidable (Each step Q s as) :=
  match as with
  | [] => isTrue trivial
  | a :: as =>
    match h : step s a with
    | none => isTrue fun s' hs => absurd (h.symm.trans hs) (by simp)
    | some t =>
      have rest : Decidable (Each step Q t as) := decidableEach t as
      decidable_of_iff (Q s a ∧ Each step Q t as)
        ⟨fun hQ _ hs => Option.some.inj (h.symm.trans hs) ▸ hQ, fun hall => hall t h⟩

theorem exec_cons {s s' : σ} {a : α} {as : List α} (h : exec step s (a :: as) = some s') :
    ∃ t, step s a = some t ∧ exec step t as = some s' :=
  Option.bind_eq_some_iff.mp h

theorem exec_append (s : σ) (as bs : List α) :
    exec step s (as ++ bs) = (exec step s as).bind fun t => exec step t bs := by
  induction as generalizing s with
  | nil => rfl
  | cons a as ih =>
      simp only [List.cons_append, exec, Option.bind_assoc]
      exact congrArg (step s a).bind (funext fun t => ih t)

/-- The induction over a run: what every step preserves holds at its end. -/
theorem exec_invariant {I : σ → Prop} (hstep : ∀ s a s', I s → step s a = some s' → I s')
    {s s' : σ} {as : List α} (hs : I s) (h : exec step s as = some s') : I s' := by
  induction as generalizing s with
  | nil =>
      cases h
      exact hs
  | cons a as ih =>
      obtain ⟨t, ht, hrest⟩ := exec_cons h
      exact ih (hstep s a t hs ht) hrest

theorem always_of_invariant {I P : σ → Prop} (hstep : ∀ s a s', I s → step s a = some s' → I s')
    (hP : ∀ s, I s → P s) {s : σ} (hs : I s) (as : List α) : Always step P s as := by
  induction as generalizing s with
  | nil => exact hP s hs
  | cons a as ih => exact ⟨hP s hs, fun t ht => ih (hstep s a t hs ht)⟩

theorem always_end {P : σ → Prop} {s t : σ} {as : List α} (h : Always step P s as)
    (ht : exec step s as = some t) : P t := by
  induction as generalizing s with
  | nil =>
      cases ht
      exact h
  | cons a as ih =>
      obtain ⟨s', hs', hrest⟩ := exec_cons ht
      exact ih (h.2 s' hs') hrest

/-- What every good step preserves holds throughout a run of good steps. -/
theorem always_of_each {I P : σ → Prop} {Q : σ → α → Prop}
    (hkeep : ∀ s a s', I s → step s a = some s' → Q s a → I s') (hP : ∀ s, I s → P s)
    {s : σ} {as : List α} (hs : I s) (h : Each step Q s as) : Always step P s as := by
  induction as generalizing s with
  | nil => exact hP s hs
  | cons a as ih =>
      refine ⟨hP s hs, ?_⟩
      intro t ht
      obtain ⟨hQ, hrest⟩ := h t ht
      exact ih (hkeep s a t hs ht hQ) hrest

/-- Where each step balances a level against what it puts in and takes out, so does a run. -/
theorem exec_balance {I : σ → Prop} (hkeep : ∀ s a s', I s → step s a = some s' → I s')
    (level : σ → Nat) {put get : σ → α → σ → Nat}
    (hstep : ∀ s a s', I s → step s a = some s' → level s' + get s a s' = level s + put s a s')
    {s t : σ} {as : List α} (hs : I s) (h : exec step s as = some t) :
    level t + tally step get s as = level s + tally step put s as := by
  induction as generalizing s with
  | nil =>
      cases h
      rfl
  | cons a as ih =>
      obtain ⟨s', hs', hrest⟩ := exec_cons h
      have hone := hstep s a s' hs hs'
      have hmany := ih (hkeep s a s' hs hs') hrest
      simp only [tally, hs']
      omega

/-- A property that the good steps keep and every other step breaks at once holds throughout a
run exactly when the run has good steps only. -/
theorem always_iff_each {I P : σ → Prop} {Q : σ → α → Prop}
    (hkeep : ∀ s a s', I s → step s a = some s' → Q s a → I s')
    (hbreak : ∀ s a s', I s → step s a = some s' → ¬ Q s a → ¬ P s')
    (hP : ∀ s, I s → P s) {s : σ} (hs : I s) (as : List α) :
    Always step P s as ↔ Each step Q s as := by
  induction as generalizing s with
  | nil => exact ⟨fun _ => trivial, fun _ => hP s hs⟩
  | cons a as ih =>
      constructor
      · intro h t ht
        have hQ : Q s a := by
          by_contra hQ
          have hPt : P t := by
            cases as with
            | nil => exact h.2 t ht
            | cons b bs => exact (h.2 t ht).1
          exact hbreak s a t hs ht hQ hPt
        exact ⟨hQ, (ih (hkeep s a t hs ht hQ)).mp (h.2 t ht)⟩
      · intro h
        refine ⟨hP s hs, ?_⟩
        intro t ht
        obtain ⟨hQ, hrest⟩ := h t ht
        exact (ih (hkeep s a t hs ht hQ)).mpr hrest

theorem each_append {Q : σ → α → Prop} {s t : σ} {as bs : List α} (h : Each step Q s (as ++ bs))
    (ht : exec step s as = some t) : Each step Q s as ∧ Each step Q t bs := by
  induction as generalizing s with
  | nil =>
      cases ht
      exact ⟨trivial, h⟩
  | cons a as ih =>
      obtain ⟨s', hs', hrest⟩ := exec_cons ht
      obtain ⟨hQ, hall⟩ := h s' hs'
      obtain ⟨hfirst, hlast⟩ := ih hall hrest
      refine ⟨?_, hlast⟩
      intro u hu
      rw [hs'] at hu
      cases hu
      exact ⟨hQ, hfirst⟩

theorem each_invariant {I : σ → Prop} {Q : σ → α → Prop}
    (hkeep : ∀ s a s', I s → step s a = some s' → Q s a → I s') {s t : σ} {as : List α} (hs : I s)
    (h : Each step Q s as) (ht : exec step s as = some t) : I t := by
  induction as generalizing s with
  | nil =>
      cases ht
      exact hs
  | cons a as ih =>
      obtain ⟨s', hs', hrest⟩ := exec_cons ht
      obtain ⟨hQ, hall⟩ := h s' hs'
      exact ih (hkeep s a s' hs hs' hQ) hall hrest

theorem each_related {I : σ → Prop} {R : σ → σ → Prop} {Q : σ → α → Prop}
    (hkeep : ∀ s a s', I s → step s a = some s' → Q s a → I s') (hrefl : ∀ s, R s s)
    (htrans : ∀ s t u, R s t → R t u → R s u)
    (hstep : ∀ s a s', I s → step s a = some s' → Q s a → R s s') {s t : σ} {as : List α} (hs : I s)
    (h : Each step Q s as) (ht : exec step s as = some t) : R s t := by
  induction as generalizing s with
  | nil =>
      cases ht
      exact hrefl _
  | cons a as ih =>
      obtain ⟨s', hs', hrest⟩ := exec_cons ht
      obtain ⟨hQ, hall⟩ := h s' hs'
      exact htrans s s' t (hstep s a s' hs hs' hQ) (ih (hkeep s a s' hs hs' hQ) hall hrest)

/-- A preorder that a step respects exactly when it is good holds throughout a run exactly when the
run has good steps only. -/
theorem throughout_iff_each {I : σ → Prop} {R : σ → σ → Prop} {Q : σ → α → Prop}
    (hkeep : ∀ s a s', I s → step s a = some s' → Q s a → I s') (hrefl : ∀ s, R s s)
    (htrans : ∀ s t u, R s t → R t u → R s u)
    (hstep : ∀ s a s', I s → step s a = some s' → (R s s' ↔ Q s a)) {s : σ} (hs : I s)
    (as : List α) : Throughout step R s as ↔ Each step Q s as := by
  constructor
  · intro h
    induction as generalizing s with
    | nil => trivial
    | cons a as ih =>
        intro s' hs'
        have hfirst : exec step s [a] = some s' := by
          rw [exec, hs']
          rfl
        have hQ : Q s a := (hstep s a s' hs hs').mp (h [] [a] as s s' rfl rfl hfirst)
        refine ⟨hQ, ih (hkeep s a s' hs hs' hQ) ?_⟩
        intro bs cs ds t u has ht hu
        have hrun : exec step s (a :: bs) = some t := by
          rw [exec, hs']
          exact ht
        exact h (a :: bs) cs ds t u (by rw [has]; rfl) hrun hu
  · rintro h bs cs ds t u rfl ht hu
    rw [List.append_assoc] at h
    obtain ⟨hfirst, hrest⟩ := each_append h ht
    have hI : I t := each_invariant hkeep hs hfirst ht
    obtain ⟨hmiddle, -⟩ := each_append hrest hu
    exact each_related hkeep hrefl htrans (fun s a s' hi ht hq => (hstep s a s' hi ht).mpr hq) hI
      hmiddle hu

/-- The condition holds of a run's last step. -/
theorem each_last {Q : σ → α → Prop} {s t u : σ} {as : List α} {a : α}
    (h : Each step Q s (as ++ [a])) (ht : exec step s as = some t) (hu : step t a = some u) :
    Q t a := by
  induction as generalizing s with
  | nil =>
      cases ht
      exact (h u hu).1
  | cons b as ih =>
      obtain ⟨t', ht', hrest⟩ := exec_cons ht
      exact ih (h t' ht').2 hrest

/-- A condition that follows from another along the runs that meet that one. -/
theorem each_imp {I : σ → Prop} {Q R : σ → α → Prop}
    (hkeep : ∀ s a s', I s → step s a = some s' → R s a → I s')
    (himp : ∀ s a s', I s → step s a = some s' → R s a → Q s a) {s : σ} (hs : I s) {as : List α}
    (h : Each step R s as) : Each step Q s as := by
  induction as generalizing s with
  | nil => trivial
  | cons a as ih =>
      intro t ht
      obtain ⟨hR, hrest⟩ := h t ht
      exact ⟨himp s a t hs ht hR, ih (hkeep s a t hs ht hR) hrest⟩

/-- Two conditions that agree on every step from an invariant state agree on every run. -/
theorem each_congr {I : σ → Prop} {Q R : σ → α → Prop}
    (hkeep : ∀ s a s', I s → step s a = some s' → R s a → I s')
    (hiff : ∀ s a s', I s → step s a = some s' → (Q s a ↔ R s a))
    {s : σ} (hs : I s) (as : List α) : Each step Q s as ↔ Each step R s as := by
  induction as generalizing s with
  | nil => exact Iff.rfl
  | cons a as ih =>
      constructor
      · intro h t ht
        obtain ⟨hQ, hrest⟩ := h t ht
        have hR := (hiff s a t hs ht).mp hQ
        exact ⟨hR, (ih (hkeep s a t hs ht hR)).mp hrest⟩
      · intro h t ht
        obtain ⟨hR, hrest⟩ := h t ht
        exact ⟨(hiff s a t hs ht).mpr hR, (ih (hkeep s a t hs ht hR)).mpr hrest⟩

end HCServer.Lib
