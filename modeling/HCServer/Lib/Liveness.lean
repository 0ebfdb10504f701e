import HCServer.Lib.Transition

/-! Liveness of registers over a straight-line list of operations: two stores that agree on the
registers which are still to be read go through the list side by side, whatever the others hold. -/
namespace HCServer.Lib
variable {O R S T : Type*}

/-- Some operation of the list reads `r` before any writes it. -/
def live (uses defs : O → R → Bool) : List O → R → Bool
  | [], _ => false
  | o :: os, r => uses o r || !defs o r && live uses defs os r

/-- Operation by operation, stores that agree on what it reads are left the `same` to the
observer, agreeing on what it writes besides all they agreed on. -/
def Tracks (uses defs : O → R → Bool) (agree : R → S → T → Prop) (same : S → T → Prop)
    (f : S → O → Option S) (g : T → O → Option T) : Prop :=
  ∀ s t o, same s t → (∀ r, uses o r = true → agree r s t) →
    Option.Rel (fun s' t' => same s' t' ∧ ∀ r, defs o r = true ∨ agree r s t → agree r s' t')
      (f s o) (g t o)

variable {uses defs : O → R → Bool} {agree : R → S → T → Prop} {same : S → T → Prop}
  {f : S → O → Option S} {g : T → O → Option T}

theorem Tracks.rel_exec (htracks : Tracks uses defs agree same f g) (os : List O) {s : S} {t : T}
    (hsame : same s t) (hlive : ∀ r, live uses defs os r = true → agree r s t) :
    Option.Rel same (exec f s os) (exec g t os) := by
  induction os generalizing s t with
  | nil => exact Option.Rel.some hsame
  | cons o os ih =>
      have huse (r : R) (hr : uses o r = true) : agree r s t := hlive r (by simp [live, hr])
      have hstep := htracks s t o hsame huse
      simp only [exec]
      generalize f s o = a at hstep ⊢
      generalize g t o = b at hstep ⊢
      cases hstep with
      | none => exact Option.Rel.none
      | some h =>
          refine ih h.1 ?_
          intro r hr
          cases hdef : defs o r with
          | true => exact h.2 r (Or.inl hdef)
          | false => exact h.2 r (Or.inr (hlive r (by simp [live, hdef, hr])))

theorem Tracks.of_exec (htracks : Tracks uses defs agree same f g) {os : List O} {s s' : S}
    {t : T} (hsame : same s t) (hlive : ∀ r, live uses defs os r = true → agree r s t)
    (h : exec f s os = some s') : ∃ t', exec g t os = some t' ∧ same s' t' := by
  have hrel := htracks.rel_exec os hsame hlive
  rw [h] at hrel
  generalize exec g t os = u at hrel ⊢
  cases hrel with
  | some hsame' => exact ⟨_, rfl, hsame'⟩

theorem live_append_left {os : List O} {r : R} (h : live uses defs os r = true) (ps : List O) :
    live uses defs (os ++ ps) r = true := by
  induction os with
  | nil => cases h
  | cons o os ih =>
      simp only [List.cons_append, live, Bool.or_eq_true, Bool.and_eq_true] at h ⊢
      exact h.imp_right fun hr => ⟨hr.1, ih hr.2⟩

end HCServer.Lib
