import HCServer.Lib.Transition

/-! Deterministic transducers that perform a list of actions on each symbol they read. `run` is
the reading loop over a store; `ops` lists what it does, so that facts about straight-line lists
of operations apply to it. -/
namespace HCServer.Lib

/-- `next q b` is the edge of state `q` on `b`, if it has one. A symbol with an action that
`halts` is the last one read. -/
structure Transducer (Q B A : Type*) where
  next : Q → B → Option (List A × Q)
  halts : A → Bool

/-- Where a run ends: `stuck` in front of a symbol that the state has no edge for. -/
inductive Status (Q : Type*)
  | running (q : Q)
  | halted (q : Q)
  | stuck
  deriving DecidableEq, Repr

inductive Move (B A : Type*)
  | act (a : A)
  | feed (b : B)
  deriving DecidableEq, Repr

namespace Transducer
variable {Q B A σ : Type*} (M : Transducer Q B A) (perform : σ → A → Option σ) (feed : σ → B → σ)

/-- `none` when an action fails. -/
def run : Q → σ → List B → Option (Status Q × σ)
  | q, s, [] => some (.running q, s)
  | q, s, b :: bs =>
    match M.next q b with
    | none => some (.stuck, s)
    | some (acts, q') =>
      (exec perform s acts).bind fun s' =>
        if acts.any M.halts then some (.halted q', feed s' b) else run q' (feed s' b) bs

def status : Q → List B → Status Q
  | q, [] => .running q
  | q, b :: bs =>
    match M.next q b with
    | none => .stuck
    | some (acts, q') => if acts.any M.halts then .halted q' else status q' bs

def ops : Q → List B → List (Move B A)
  | _, [] => []
  | q, b :: bs =>
    match M.next q b with
    | none => []
    | some (acts, q') =>
      acts.map .act ++ .feed b :: if acts.any M.halts then [] else ops q' bs

/-- The symbols that a list of operations feeds. -/
def fed : List (Move B A) → List B
  | [] => []
  | .act _ :: os => fed os
  | .feed b :: os => b :: fed os

/-- The run halts in `f`, with the last symbol. -/
inductive Ends : Q → List B → Q → Prop
  | last {q f : Q} {b : B} {acts : List A} :
      M.next q b = some (acts, f) → acts.any M.halts = true → Ends q [b] f
  | more {q q' f : Q} {b : B} {bs : List B} {acts : List A} :
      M.next q b = some (acts, q') → acts.any M.halts = false → Ends q' bs f → Ends q (b :: bs) f

def step (s : σ) : Move B A → Option σ
  | .act a => perform s a
  | .feed b => some (feed s b)

variable {M perform feed}

theorem exec_acts (s : σ) (acts : List A) :
    exec (step perform feed) s (acts.map Move.act) = exec perform s acts := by
  induction acts generalizing s with
  | nil => rfl
  | cons a acts ih => exact congrArg (perform s a).bind (funext fun s' => ih s')

/-- The loop performs the operations in order. -/
theorem run_eq_ops (q : Q) (s : σ) (bs : List B) :
    M.run perform feed q s bs =
      (exec (step perform feed) s (M.ops q bs)).map fun s' => (M.status q bs, s') := by
  induction bs generalizing q s with
  | nil => rfl
  | cons b bs ih =>
      simp only [run, ops, status]
      cases M.next q b with
      | none => rfl
      | some e =>
          obtain ⟨acts, q'⟩ := e
          simp only [exec_append, exec_acts]
          cases exec perform s acts with
          | none => rfl
          | some s' =>
              cases acts.any M.halts
              · exact ih q' (feed s' b)
              · rfl

theorem ops_append {q q' : Q} {xs : List B} (h : M.status q xs = .running q') (ys : List B) :
    M.ops q (xs ++ ys) = M.ops q xs ++ M.ops q' ys := by
  induction xs generalizing q with
  | nil =>
      cases h
      rfl
  | cons x xs ih =>
      simp only [List.cons_append, ops, status] at h ⊢
      cases hedge : M.next q x with
      | none => simp [hedge] at h
      | some e =>
          obtain ⟨acts, q₁⟩ := e
          simp only [hedge] at h
          cases halts : acts.any M.halts
          · simp only [halts] at h ⊢
            simp only [ih h, List.append_assoc, List.cons_append]
            rfl
          · simp [halts] at h

theorem fed_acts (acts : List A) (os : List (Move B A)) :
    fed (acts.map Move.act ++ os) = fed os := by
  induction acts with
  | nil => rfl
  | cons a acts ih => exact ih

/-- What every action and every symbol keeps, a list of operations keeps. -/
theorem exec_kept {K : σ → Prop} {os : List (Move B A)} {s t : σ}
    (h : exec (step perform feed) s os = some t)
    (hact : ∀ s a t, K s → perform s a = some t → K t) (hfeed : ∀ s b, K s → K (feed s b))
    (hs : K s) : K t := by
  have hstep : ∀ s o t, K s → step perform feed s o = some t → K t := by
    intro s o t hs ht
    cases o with
    | act a => exact hact s a t hs ht
    | feed b =>
        cases ht
        exact hfeed s b hs
  exact exec_invariant hstep hs h

/-- The same, where only the actions of the list keep it. -/
theorem exec_kept_mem {K : σ → Prop} {os : List (Move B A)} {s t : σ}
    (h : exec (step perform feed) s os = some t)
    (hact : ∀ a, Move.act a ∈ os → ∀ s t, K s → perform s a = some t → K t)
    (hfeed : ∀ s b, K s → K (feed s b)) (hs : K s) : K t := by
  induction os generalizing s with
  | nil =>
      cases h
      exact hs
  | cons o os ih =>
      obtain ⟨s', hs', hrest⟩ := exec_cons h
      have hlater := fun a ha => hact a (List.mem_cons_of_mem o ha)
      cases o with
      | act a => exact ih hrest hlater (hact a List.mem_cons_self s s' hs hs')
      | feed b =>
          cases hs'
          exact ih hrest hlater (hfeed s b hs)

/-- A record of what has been read grows by what the operations feed. -/
theorem exec_seen {seen : σ → List B} {os : List (Move B A)} {s t : σ}
    (h : exec (step perform feed) s os = some t)
    (hact : ∀ s a t, perform s a = some t → seen t = seen s)
    (hfeed : ∀ s b, seen (feed s b) = seen s ++ [b]) : seen t = seen s ++ fed os := by
  induction os generalizing s with
  | nil =>
      cases h
      exact (List.append_nil _).symm
  | cons o os ih =>
      obtain ⟨s', hs', hrest⟩ := exec_cons h
      cases o with
      | act a => rw [ih hrest, hact s a s' hs', fed]
      | feed b =>
          cases hs'
          rw [ih hrest, hfeed, fed, List.append_assoc, List.singleton_append]

/-- A run that halts with its last symbol is still running before it. -/
theorem Ends.split {q f : Q} {xs ys : List B} (h : M.Ends q (xs ++ ys) f) (hys : ys ≠ []) :
    ∃ q', M.status q xs = .running q' ∧ M.Ends q' ys f := by
  induction xs generalizing q with
  | nil => exact ⟨q, rfl, h⟩
  | cons x xs ih =>
      generalize hbs : x :: xs ++ ys = bs at h
      cases h with
      | last _ _ =>
          obtain ⟨_, hnil⟩ := List.cons.inj hbs
          exact absurd (List.append_eq_nil_iff.mp hnil).2 hys
      | more hnext halts hrest =>
          obtain ⟨rfl, rfl⟩ := List.cons.inj hbs
          obtain ⟨q', hrun, hends⟩ := ih hrest
          refine ⟨q', ?_, hends⟩
          simp [status, hnext, halts, hrun]

theorem Ends.status_append {q f : Q} {bs : List B} (h : M.Ends q bs f) (ys : List B) :
    M.status q (bs ++ ys) = .halted f := by
  induction h with
  | last hnext halts => simp [status, hnext, halts]
  | more hnext halts _ ih => simpa [status, hnext, halts] using ih

theorem Ends.ops_append {q f : Q} {bs : List B} (h : M.Ends q bs f) (ys : List B) :
    M.ops q (bs ++ ys) = M.ops q bs := by
  induction h with
  | last hnext halts => simp [ops, hnext, halts]
  | more hnext halts _ ih => simpa [ops, hnext, halts] using ih

theorem Ends.fed_ops {q f : Q} {bs : List B} (h : M.Ends q bs f) : fed (M.ops q bs) = bs := by
  induction h with
  | last hnext halts => simp [ops, hnext, halts, fed_acts, fed]
  | more hnext halts _ ih => simp [ops, hnext, halts, fed_acts, fed, ih]

theorem ends_of_status {q f : Q} {bs : List B} (hstatus : M.status q bs = .halted f)
    (hfed : bs.length ≤ (fed (M.ops q bs)).length) : M.Ends q bs f := by
  induction bs generalizing q with
  | nil => cases hstatus
  | cons b bs ih =>
      simp only [status, ops] at hstatus hfed
      cases hedge : M.next q b with
      | none => simp [hedge] at hstatus
      | some e =>
          obtain ⟨acts, q'⟩ := e
          simp only [hedge, fed_acts, fed, List.length_cons] at hstatus hfed
          cases halts : acts.any M.halts
          · simp only [halts] at hstatus hfed
            exact Ends.more hedge halts (ih hstatus (Nat.le_of_succ_le_succ hfed))
          · simp only [halts, if_true] at hstatus hfed
            cases hstatus
            have hnil : bs = [] :=
              List.length_eq_zero_iff.mp (Nat.le_zero.mp (Nat.le_of_succ_le_succ hfed))
            subst hnil
            exact Ends.last hedge halts

theorem fed_ops_of_running {q q' : Q} {bs : List B} (h : M.status q bs = .running q') :
    fed (M.ops q bs) = bs := by
  induction bs generalizing q with
  | nil => rfl
  | cons b bs ih =>
      simp only [status, ops] at h ⊢
      cases hedge : M.next q b with
      | none => simp [hedge] at h
      | some e =>
          obtain ⟨acts, q₁⟩ := e
          simp only [hedge] at h
          cases halts : acts.any M.halts
          · simp only [halts] at h
            simpa [fed_acts, fed, halts] using ih h
          · simp [halts] at h

/-- A property that the edges without a halting action lead to holds while the run goes on. -/
theorem running_invariant {P : Q → Prop}
    (hnext : ∀ q b acts q', M.next q b = some (acts, q') → acts.any M.halts = false → P q')
    {q q' : Q} {bs : List B} (hq : P q) (h : M.status q bs = .running q') : P q' := by
  induction bs generalizing q with
  | nil =>
      cases h
      exact hq
  | cons b bs ih =>
      simp only [status] at h
      cases hedge : M.next q b with
      | none => simp [hedge] at h
      | some e =>
          obtain ⟨acts, q₁⟩ := e
          simp only [hedge] at h
          cases halts : acts.any M.halts
          · simp only [halts] at h
            exact ih (hnext q b acts q₁ hedge halts) h
          · simp [halts] at h

/-- From states that `P` holds of, only actions that `K` holds of are performed. -/
theorem forall_ops {P : Q → Prop} {K : A → Prop}
    (hnext : ∀ q b acts q', P q → M.next q b = some (acts, q') → P q' ∧ ∀ a ∈ acts, K a)
    {q : Q} {bs : List B} (hq : P q) : ∀ a, Move.act a ∈ M.ops q bs → K a := by
  induction bs generalizing q with
  | nil =>
      intro a ha
      cases ha
  | cons b bs ih =>
      intro a ha
      simp only [ops] at ha
      cases hedge : M.next q b with
      | none => simp [hedge] at ha
      | some e =>
          obtain ⟨acts, q'⟩ := e
          obtain ⟨hq', hacts⟩ := hnext q b acts q' hq hedge
          simp only [hedge] at ha
          obtain hact | hrest := List.mem_append.mp ha
          · obtain ⟨c, hc, heq⟩ := List.mem_map.mp hact
            cases heq
            exact hacts a hc
          · split at hrest
            · simp at hrest
            · simp only [List.mem_cons, reduceCtorEq, false_or] at hrest
              exact ih hq' a hrest

theorem status_append {q q' : Q} {xs : List B} (h : M.status q xs = .running q') (ys : List B) :
    M.status q (xs ++ ys) = M.status q' ys := by
  induction xs generalizing q with
  | nil =>
      cases h
      rfl
  | cons x xs ih =>
      simp only [List.cons_append, status] at h ⊢
      cases hedge : M.next q x with
      | none => simp [hedge] at h
      | some e =>
          obtain ⟨acts, q₁⟩ := e
          simp only [hedge] at h
          cases halts : acts.any M.halts
          · simp only [halts] at h
            simpa [halts] using ih h
          · simp [halts] at h

/-- A run that goes on after `xs` halts where it does from there. -/
theorem Ends.after {q q₁ f : Q} {xs ys : List B} (h : M.status q xs = .running q₁)
    (hends : M.Ends q₁ ys f) : M.Ends q (xs ++ ys) f := by
  induction xs generalizing q with
  | nil =>
      cases h
      exact hends
  | cons x xs ih =>
      simp only [status] at h
      cases hedge : M.next q x with
      | none => simp [hedge] at h
      | some e =>
          obtain ⟨acts, q₂⟩ := e
          simp only [hedge] at h
          cases halts : acts.any M.halts
          · simp only [halts] at h
            exact Ends.more hedge halts (ih h)
          · simp [halts] at h

variable (M) in
/-- From `q` the run reads `xs` with the operations `os`, and goes on in `q'`. -/
structure Reads (q : Q) (xs : List B) (os : List (Move B A)) (q' : Q) : Prop where
  status : M.status q xs = .running q'
  ops : M.ops q xs = os

namespace Reads
variable {q q₁ q' : Q} {xs ys : List B} {os os' : List (Move B A)}

theorem nil (q : Q) : M.Reads q [] [] q := ⟨rfl, rfl⟩

theorem trans (h : M.Reads q xs os q₁) (h' : M.Reads q₁ ys os' q') :
    M.Reads q (xs ++ ys) (os ++ os') q' := by
  constructor
  · rw [status_append h.status, h'.status]
  · rw [ops_append h.status, h.ops, h'.ops]

theorem cons {b : B} {acts : List A} (hnext : M.next q b = some (acts, q₁))
    (halts : acts.any M.halts = false) (h : M.Reads q₁ xs os q') :
    M.Reads q (b :: xs) (acts.map Move.act ++ .feed b :: os) q' := by
  constructor
  · simp [Transducer.status, hnext, halts, h.status]
  · simp [Transducer.ops, hnext, halts, h.ops]

theorem single {b : B} {acts : List A} (hnext : M.next q b = some (acts, q'))
    (halts : acts.any M.halts = false) : M.Reads q [b] (acts.map Move.act ++ [.feed b]) q' :=
  cons hnext halts (nil q')

end Reads

variable (M) in
/-- The same without an action. -/
abbrev Passes (q : Q) (xs : List B) (q' : Q) : Prop := M.Reads q xs (xs.map Move.feed) q'

namespace Passes
variable {q q₁ q' : Q} {xs ys : List B}

theorem trans (h : M.Passes q xs q₁) (h' : M.Passes q₁ ys q') : M.Passes q (xs ++ ys) q' := by
  have hboth := Reads.trans h h'
  rwa [← List.map_append] at hboth

theorem cons {b : B} (hnext : M.next q b = some ([], q₁)) (h : M.Passes q₁ xs q') :
    M.Passes q (b :: xs) q' :=
  Reads.cons hnext rfl h

/-- A state that each of these words leads back to reads them all. -/
theorem flatten {xss : List (List B)} (h : ∀ xs ∈ xss, M.Passes q xs q) :
    M.Passes q xss.flatten q := by
  induction xss with
  | nil => exact Reads.nil q
  | cons xs xss ih =>
      have hfirst := h xs List.mem_cons_self
      exact trans hfirst (ih fun ys hys => h ys (List.mem_cons_of_mem xs hys))

theorem loop (h : ∀ b ∈ xs, M.next q b = some ([], q)) : M.Passes q xs q := by
  induction xs with
  | nil => exact Reads.nil q
  | cons b xs ih =>
      exact cons (h b List.mem_cons_self) (ih fun c hc => h c (List.mem_cons_of_mem b hc))

end Passes

end Transducer

/-- An edge for the bytes in some of `ranges`, bounds included. -/
structure Edge (A : Type*) where
  ranges : List (Nat × Nat)
  acts : List A
  target : Nat
  deriving DecidableEq, Repr

def Edge.fires {A : Type*} (e : Edge A) (b : UInt8) : Bool :=
  e.ranges.any fun r => decide (r.1 ≤ b.toNat) && decide (b.toNat ≤ r.2)

/-- Numbered states with their edges, tried in order. -/
abbrev Table (A : Type*) := List (Nat × List (Edge A))

namespace Table
variable {A : Type*}

def next (t : Table A) (q : Nat) (b : UInt8) : Option (List A × Nat) :=
  ((t.lookup q).bind fun edges => edges.find? fun e => e.fires b).map fun e => (e.acts, e.target)

/-- What holds of every edge of the table holds of every transition. -/
theorem next_mem {t : Table A} {q q' : Nat} {b : UInt8} {acts : List A}
    (h : t.next q b = some (acts, q')) :
    ∃ edges, (q, edges) ∈ t ∧ ∃ e ∈ edges, e.acts = acts ∧ e.target = q' := by
  obtain ⟨e, he, heq⟩ := Option.map_eq_some_iff.mp h
  obtain ⟨edges, hlookup, hfind⟩ := Option.bind_eq_some_iff.mp he
  obtain ⟨before, after, rfl, _⟩ := List.lookup_eq_some_iff.mp hlookup
  exact ⟨edges, List.mem_append_right before List.mem_cons_self, e,
    List.mem_of_find?_eq_some hfind, congrArg Prod.fst heq, congrArg Prod.snd heq⟩

/-- A state with an edge that fires has a transition, by one that does. -/
theorem exists_next {t : Table A} {q : Nat} {b : UInt8} {edges : List (Edge A)}
    (hrow : t.lookup q = some edges) {e : Edge A} (he : e ∈ edges) (hfires : e.fires b = true) :
    ∃ e' ∈ edges, e'.fires b = true ∧ t.next q b = some (e'.acts, e'.target) := by
  have hany : (edges.find? fun e => e.fires b).isSome = true :=
    List.find?_isSome.mpr ⟨e, he, hfires⟩
  obtain ⟨e', hfind⟩ := Option.isSome_iff_exists.mp hany
  have hfound : e'.fires b = true := List.find?_some (p := fun e => Edge.fires e b) hfind
  refine ⟨e', List.mem_of_find?_eq_some hfind, hfound, ?_⟩
  rw [next, hrow, Option.bind_some, hfind]
  rfl

/-- The first edge that has all bytes of `cs`, where those before it have none. -/
def chosen (cs : List (Nat × Nat)) : List (Edge A) → Option (List A × Nat)
  | [] => none
  | e :: es =>
    if cs.all fun c => e.ranges.any fun r => decide (r.1 ≤ c.1) && decide (c.2 ≤ r.2) then
      some (e.acts, e.target)
    else if cs.all fun c => e.ranges.all fun r => decide (c.2 < r.1) || decide (r.2 < c.1) then
      chosen cs es
    else none

/-- The transition that all bytes of `cs` have in common. -/
def leads (t : Table A) (q : Nat) (cs : List (Nat × Nat)) : Option (List A × Nat) :=
  (t.lookup q).bind (chosen cs)

theorem find_of_chosen {cs : List (Nat × Nat)} {es : List (Edge A)} {x : List A × Nat}
    (h : chosen cs es = some x) {b : UInt8} {c : Nat × Nat} (hc : c ∈ cs) (hlo : c.1 ≤ b.toNat)
    (hhi : b.toNat ≤ c.2) :
    (es.find? fun e => e.fires b).map (fun e => (e.acts, e.target)) = some x := by
  induction es with
  | nil => cases h
  | cons e es ih =>
      rw [chosen] at h
      split at h
      · case isTrue hall =>
          obtain ⟨r, hr, hin⟩ := List.any_eq_true.mp (List.all_eq_true.mp hall c hc)
          simp only [Bool.and_eq_true, decide_eq_true_eq] at hin
          have hfires : e.fires b = true := by
            refine List.any_eq_true.mpr ⟨r, hr, ?_⟩
            simp only [Bool.and_eq_true, decide_eq_true_eq]
            omega
          simpa only [List.find?_cons, hfires, Option.map_some] using h
      · split at h
        · case isTrue hnone =>
            have hout := List.all_eq_true.mp hnone c hc
            have hfires : e.fires b = false := by
              by_contra hfires
              obtain ⟨r, hr, hin⟩ := List.any_eq_true.mp ((Bool.not_eq_false _).mp hfires)
              have hapart := List.all_eq_true.mp hout r hr
              simp only [Bool.and_eq_true, Bool.or_eq_true, decide_eq_true_eq] at hin hapart
              omega
            simpa only [List.find?_cons, hfires] using ih h
        · cases h

theorem next_of_leads {t : Table A} {q : Nat} {cs : List (Nat × Nat)} {x : List A × Nat}
    (h : t.leads q cs = some x) {b : UInt8} {c : Nat × Nat} (hc : c ∈ cs) (hlo : c.1 ≤ b.toNat)
    (hhi : b.toNat ≤ c.2) : t.next q b = some x := by
  obtain ⟨es, hrow, hchosen⟩ := Option.bind_eq_some_iff.mp h
  rw [next, hrow, Option.bind_some]
  exact find_of_chosen hchosen hc hlo hhi

end Table
end HCServer.Lib
