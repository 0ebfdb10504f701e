import HCServer.Lib.Transducer

/-! Two transducers over one kind of store that have the same edges but for symbols that are guarded.
A run that meets none of these is followed by the other one, from a store that it need not equal. -/
namespace HCServer.Lib

namespace Transducer
variable {Q B A σ : Type*} (M N : Transducer Q B A) (perform : σ → A → Option σ) (feed : σ → B → σ)
  (G : Q → B → Prop)

/-- No symbol of the run is guarded in the state that meets it. -/
def Avoids : Q → σ → List B → Prop
  | _, _, [] => True
  | q, s, b :: bs =>
    ¬ G q b ∧ ∀ acts q' s', M.next q b = some (acts, q') → exec perform s acts = some s' →
      acts.any M.halts = false → Avoids q' (feed s' b) bs

/-- Edge by edge, stores that `R` relates in a state stay related. -/
structure Lockstep (R : Q → σ → σ → Prop) : Prop where
  next : ∀ q b, ¬ G q b → N.next q b = M.next q b
  halts : N.halts = M.halts
  edge : ∀ q b acts q' s t, M.next q b = some (acts, q') → R q s t →
    Option.Rel (fun s' t' => R q' (feed s' b) (feed t' b)) (exec perform s acts) (exec perform t acts)

variable {M N perform feed G} {R : Q → σ → σ → Prop}

/-- How the stores are related at the end of a run that ends in the status. -/
inductive Related (R : Q → σ → σ → Prop) : Status Q → σ → σ → Prop
  | running {q : Q} {s t : σ} : R q s t → Related R (.running q) s t
  | halted {q : Q} {s t : σ} : R q s t → Related R (.halted q) s t
  | stuck {q : Q} {s t : σ} : R q s t → Related R .stuck s t

theorem Lockstep.run (h : Lockstep M N perform feed G R) {q : Q} {s t : σ} {bs : List B}
    (hR : R q s t) (havoids : M.Avoids perform feed G q s bs) :
    Option.Rel (fun x y => x.1 = y.1 ∧ Related R x.1 x.2 y.2) (M.run perform feed q s bs)
      (N.run perform feed q t bs) := by
  induction bs generalizing q s t with
  | nil => exact Option.Rel.some ⟨rfl, .running hR⟩
  | cons b bs ih =>
      obtain ⟨hguard, hlater⟩ := havoids
      simp only [Transducer.run, h.next q b hguard]
      cases hnext : M.next q b with
      | none => exact Option.Rel.some ⟨rfl, .stuck hR⟩
      | some e =>
          obtain ⟨acts, q'⟩ := e
          have hedge := h.edge q b acts q' s t hnext hR
          dsimp only
          generalize hs' : exec perform s acts = x at hedge
          generalize exec perform t acts = y at hedge
          cases hedge with
          | none => exact Option.Rel.none
          | some hR' =>
              simp only [Option.bind_some, h.halts]
              cases halts : acts.any M.halts
              · exact ih hR' (hlater acts q' _ hnext hs' halts)
              · exact Option.Rel.some ⟨rfl, .halted hR'⟩

theorem run_append {q q' : Q} {s s' : σ} {xs : List B}
    (h : M.run perform feed q s xs = some (.running q', s')) (ys : List B) :
    M.run perform feed q s (xs ++ ys) = M.run perform feed q' s' ys := by
  induction xs generalizing q s with
  | nil =>
      cases h
      rfl
  | cons x xs ih =>
      simp only [List.cons_append, run] at h ⊢
      cases hnext : M.next q x with
      | none => simp [hnext] at h
      | some e =>
          obtain ⟨acts, q₁⟩ := e
          simp only [hnext] at h ⊢
          obtain ⟨s₁, hs₁, hrest⟩ := Option.bind_eq_some_iff.mp h
          rw [hs₁, Option.bind_some]
          cases halts : acts.any M.halts
          · simp only [halts] at hrest
            exact ih hrest
          · simp [halts] at hrest

theorem avoids_of_unguarded {bs : List B} (h : ∀ b ∈ bs, ∀ q, ¬ G q b) (q : Q) (s : σ) :
    M.Avoids perform feed G q s bs := by
  induction bs generalizing q s with
  | nil => trivial
  | cons b bs ih =>
      have hrest : ∀ c ∈ bs, ∀ q, ¬ G q c := fun c hc => h c (List.mem_cons_of_mem b hc)
      exact ⟨h b List.mem_cons_self q, fun _ _ _ _ _ _ => ih hrest _ _⟩

/-- A part of the store that the actions and symbols treat on its own. -/
theorem run_map {τ : Type*} {f : σ → τ} {perform' : τ → A → Option τ} {feed' : τ → B → τ}
    (hact : ∀ s a, (perform s a).map f = perform' (f s) a) (hfeed : ∀ s b, f (feed s b) = feed' (f s) b)
    (q : Q) (s : σ) (bs : List B) : (M.run perform feed q s bs).map (Prod.map id f) =
      M.run perform' feed' q (f s) bs := by
  have hexec (s : σ) (acts : List A) : (exec perform s acts).map f = exec perform' (f s) acts := by
    induction acts generalizing s with
    | nil => rfl
    | cons a acts ih =>
        rw [exec, exec, ← hact]
        cases perform s a with
        | none => rfl
        | some s' => exact ih s'
  induction bs generalizing q s with
  | nil => rfl
  | cons b bs ih =>
      simp only [run]
      cases M.next q b with
      | none => rfl
      | some e =>
          obtain ⟨acts, q'⟩ := e
          simp only [← hexec]
          cases exec perform s acts with
          | none => rfl
          | some s' =>
              simp only [Option.bind_some, Option.map_some, ← hfeed]
              cases acts.any M.halts
              · exact ih q' (feed s' b)
              · rfl

/-- The first guarded symbol. -/
theorem split_of_not_avoids {q : Q} {s : σ} {bs : List B} (h : ¬ M.Avoids perform feed G q s bs) :
    ∃ xs b ys q' s', bs = xs ++ b :: ys ∧ M.Avoids perform feed G q s xs ∧
      M.run perform feed q s xs = some (.running q', s') ∧ G q' b := by
  induction bs generalizing q s with
  | nil => exact absurd trivial h
  | cons b bs ih =>
      by_cases hguard : G q b
      · exact ⟨[], b, bs, q, s, rfl, trivial, rfl, hguard⟩
      · rw [Avoids, and_iff_right hguard] at h
        push Not at h
        obtain ⟨acts, q₁, s₁, hnext, hs₁, halts, hlater⟩ := h
        obtain ⟨xs, c, ys, q', s', rfl, havoids, hrun, hmet⟩ := ih hlater
        refine ⟨b :: xs, c, ys, q', s', rfl, ⟨hguard, ?_⟩, ?_, hmet⟩
        · intro acts' q₂ s₂ hnext' hs₂ _
          cases hnext.symm.trans hnext'
          cases hs₁.symm.trans hs₂
          exact havoids
        · simp only [run, hnext, hs₁, Option.bind_some, halts]
          exact hrun

end Transducer

end HCServer.Lib
