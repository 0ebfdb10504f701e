import HCServer.Lib.Regex
import Mathlib.Data.Nat.Bitwise

/-! Graphs whose edges carry sets of symbol kinds, written as the bits of a number. `explore`
goes through a graph against sets of states of another one and decides whether both read the same
words. What it stores is made of numerals (`force`), so that the kernel can run it. -/
namespace HCServer.Lib

/-- An edge is the kinds that it takes and the states that it leads to. -/
structure Graph where
  edges : Nat → List (Nat × List Nat)
  final : Nat → Bool

namespace Graph
variable {X : Type*} (G H : Graph) (kind : X → Nat)

def Accepts : Nat → List X → Prop
  | q, [] => G.final q = true
  | q, x :: w =>
    ∃ e ∈ G.edges q, e.1.testBit (kind x) = true ∧ ∃ t ∈ e.2, Accepts t w

def AcceptsAny (S : List Nat) (w : List X) : Prop := ∃ q ∈ S, G.Accepts kind q w

/-! ### Sorted sets of numbers -/

def add (n : Nat) : List Nat → List Nat
  | [] => [n]
  | m :: ms => bif n.ble m then bif n.beq m then m :: ms else n :: m :: ms else m :: add n ms

def addAll : List Nat → List Nat → List Nat
  | [], S => S
  | n :: ns, S => addAll ns (add n S)

/-- The numbers of both sets, where `rest` merges those after `n`. -/
def mergeFrom (n : Nat) (rest : List Nat → List Nat) (ns : List Nat) : List Nat → List Nat
  | [] => n :: ns
  | m :: ms =>
    bif n.blt m then n :: rest (m :: ms)
    else bif n.beq m then n :: rest ms else m :: mergeFrom n rest ns ms

def merge : List Nat → List Nat → List Nat
  | [], ms => ms
  | n :: ns, ms => mergeFrom n (merge ns) ns ms

theorem mem_add {n m : Nat} {S : List Nat} : m ∈ add n S ↔ m = n ∨ m ∈ S := by
  induction S with
  | nil => exact List.mem_singleton.trans (or_iff_left List.not_mem_nil).symm
  | cons k ks ih =>
      rw [add]
      cases hle : n.ble k
      · simp only [cond_false, List.mem_cons, ih]
        exact or_left_comm
      · cases heq : n.beq k
        · simp
        · rw [Nat.eq_of_beq_eq_true heq]
          simp

theorem mem_addAll {ns S : List Nat} {m : Nat} : m ∈ addAll ns S ↔ m ∈ ns ∨ m ∈ S := by
  induction ns generalizing S with
  | nil => simp [addAll]
  | cons n ns ih =>
      rw [addAll, ih, mem_add, List.mem_cons]
      exact or_left_comm.trans or_assoc.symm

theorem mem_merge {ns ms : List Nat} {k : Nat} : k ∈ merge ns ms ↔ k ∈ ns ∨ k ∈ ms := by
  induction ns generalizing ms with
  | nil => simp [merge]
  | cons n ns ih =>
      rw [merge]
      induction ms with
      | nil => simp [mergeFrom]
      | cons m ms ihms =>
          rw [mergeFrom]
          cases n.blt m
          · cases hbeq : n.beq m
            · simp only [cond_false, List.mem_cons, ihms]
              exact or_left_comm
            · rw [Nat.eq_of_beq_eq_true hbeq]
              simp only [cond_false, cond_true, List.mem_cons, ih]
              rw [or_assoc, or_left_comm (a := k ∈ ns), or_self_left]
          · simp only [cond_true, List.mem_cons, ih, or_assoc]

def same : List Nat → List Nat → Bool
  | [], [] => true
  | n :: ns, m :: ms => bif n.beq m then same ns ms else false
  | _, _ => false

theorem eq_of_same {ns ms : List Nat} (h : same ns ms = true) : ns = ms := by
  induction ns generalizing ms with
  | nil =>
      cases ms with
      | nil => rfl
      | cons m ms => cases h
  | cons n ns ih =>
      cases ms with
      | nil => cases h
      | cons m ms =>
          rw [same] at h
          cases heq : n.beq m with
          | false => simp [heq] at h
          | true =>
              rw [heq] at h
              rw [Nat.eq_of_beq_eq_true heq, ih h]

/-! ### Numerals -/

/-- `k n`, with `n` evaluated first. -/
def force {α : Type} (n : Nat) (k : Nat → α) : α :=
  match n with
  | 0 => k 0
  | m + 1 => k (m + 1)

@[simp] theorem force_eq {α : Type} (n : Nat) (k : Nat → α) : force n k = k n := by
  cases n <;> rfl

def forceAll {α : Type} : List Nat → (List Nat → α) → α
  | [], k => k []
  | n :: ns, k => force n fun n => forceAll ns fun ns => k (n :: ns)

@[simp] theorem forceAll_eq {α : Type} (ns : List Nat) (k : List Nat → α) :
    forceAll ns k = k ns := by
  induction ns generalizing k with
  | nil => rfl
  | cons n ns ih => simp only [forceAll, force_eq, ih]

def forceGroups {α : Type} :
    List (Nat × List Nat) → (List (Nat × List Nat) → α) → α
  | [], k => k []
  | (m, ns) :: gs, k =>
    force m fun m => forceAll ns fun ns => forceGroups gs fun gs => k ((m, ns) :: gs)

@[simp] theorem forceGroups_eq {α : Type} (gs : List (Nat × List Nat))
    (k : List (Nat × List Nat) → α) : forceGroups gs k = k gs := by
  induction gs generalizing k with
  | nil => rfl
  | cons g gs ih => simp only [forceGroups, force_eq, forceAll_eq, ih]

/-! ### Trees of numbered entries -/

/-- Numbers from `i` on are on the right. -/
inductive Tree (α : Type)
  | leaf (a : α)
  | node (i : Nat) (l r : Tree α)

namespace Tree
variable {α : Type}

def get : Tree α → Nat → α
  | leaf a, _ => a
  | node i l r, n => bif i.ble n then r.get n else l.get n

def set : Tree α → Nat → α → Tree α
  | leaf _, _, a => leaf a
  | node i l r, n, a => bif i.ble n then node i l (r.set n a) else node i (l.set n a) r

/-- The entries of a list, at the numbers from `o` on. -/
def build (a : α) : Nat → Nat → List α → Tree α
  | 0, _, l => leaf (l.headD a)
  | d + 1, o, l =>
    node (o + Nat.pow 2 d) (build a d o l) (build a d (o + Nat.pow 2 d) (l.drop (Nat.pow 2 d)))

theorem get_build (a : α) {d o n : Nat} {l : List α} (hle : o ≤ n) (hlt : n < o + 2 ^ d) :
    (build a d o l).get n = l.getD (n - o) a := by
  induction d generalizing o l with
  | zero =>
      have hn : n - o = 0 := by omega
      rw [hn]
      cases l <;> rfl
  | succ d ih =>
      have hpow : Nat.pow 2 d = 2 ^ d := rfl
      rw [Nat.pow_succ] at hlt
      simp only [build, get, hpow]
      cases hside : (o + 2 ^ d).ble n
      · have hn : n < o + 2 ^ d := by
          apply Nat.lt_of_not_le
          intro h
          simp [Nat.ble_eq_true_of_le h] at hside
        rw [cond_false, ih hle hn]
      · have hn := Nat.le_of_ble_eq_true hside
        rw [cond_true, ih hn (by omega), List.getD_eq_getElem?_getD, List.getD_eq_getElem?_getD,
          List.getElem?_drop]
        congr 3
        omega

variable {β : Type}

/-- `k` of the tree that `build` makes, which is built first, and of the entries left over. -/
def built (a : α) : Nat → Nat → List α → (Tree α → List α → β) → β
  | 0, _, [], k => k (leaf a) []
  | 0, _, b :: l, k => k (leaf b) l
  | d + 1, o, l, k =>
    force (o + Nat.pow 2 d) fun i =>
      built a d o l fun t l => built a d i l fun u l => k (node i t u) l

theorem built_eq (a : α) (d o : Nat) (l : List α) (k : Tree α → List α → β) :
    built a d o l k = k (build a d o l) (l.drop (2 ^ d)) := by
  induction d generalizing o l k with
  | zero => cases l <;> rfl
  | succ d ih =>
      have hpow : 2 ^ d + 2 ^ d = 2 ^ (d + 1) := by omega
      rw [built, force_eq, ih, ih, List.drop_drop, hpow]
      rfl

/-- `k` of an entry, and of a tree with another one, which are found first. -/
def fetch : Tree α → Nat → (α → β) → β
  | leaf a, _, k => k a
  | node i l r, n, k => bif i.ble n then r.fetch n k else l.fetch n k

def store : Tree α → Nat → α → (Tree α → β) → β
  | leaf _, _, a, k => k (leaf a)
  | node i l r, n, a, k =>
    bif i.ble n then r.store n a fun r => k (node i l r) else l.store n a fun l => k (node i l r)

theorem fetch_eq (t : Tree α) (n : Nat) (k : α → β) : t.fetch n k = k (t.get n) := by
  induction t with
  | leaf a => rfl
  | node i l r ihl ihr =>
      rw [fetch, get, ihl, ihr]
      cases i.ble n <;> rfl

theorem store_eq (t : Tree α) (n : Nat) (a : α) (k : Tree α → β) :
    t.store n a k = k (t.set n a) := by
  induction t generalizing k with
  | leaf b => rfl
  | node i l r ihl ihr =>
      rw [store, set, ihl, ihr]
      cases i.ble n <;> rfl

/-- A tree of lists holds the members of its lists. -/
def Holds (b : β) : Tree (List β) → Prop
  | leaf bs => b ∈ bs
  | node _ l r => l.Holds b ∨ r.Holds b

theorem holds_of_mem_get {b : β} {t : Tree (List β)} {n : Nat} (h : b ∈ t.get n) : t.Holds b := by
  induction t with
  | leaf bs => exact h
  | node i l r ihl ihr =>
      rw [get] at h
      cases hside : i.ble n <;> rw [hside] at h
      · exact Or.inl (ihl h)
      · exact Or.inr (ihr h)

theorem holds_set {b c : β} {t : Tree (List β)} {n : Nat} :
    (t.set n (c :: t.get n)).Holds b ↔ b = c ∨ t.Holds b := by
  induction t with
  | leaf bs => exact List.mem_cons
  | node i l r ihl ihr =>
      simp only [set, get]
      cases i.ble n
      · simp only [cond_false, Holds, ihl, or_assoc]
      · simp only [cond_true, Holds, ihr]
        exact or_left_comm

/-- A tree of pairs, each at its first part. -/
def holding (d : Nat) : List (Nat × β) → Tree (List (Nat × β))
  | [] => build [] d 0 []
  | p :: ps => (holding d ps).set p.1 (p :: (holding d ps).get p.1)

theorem not_holds_build {b : β} {d o : Nat} : ¬ (build [] d o []).Holds b := by
  induction d generalizing o with
  | zero => exact List.not_mem_nil
  | succ d ih =>
      intro h
      rw [build, List.drop_nil] at h
      exact h.elim ih ih

theorem holds_holding {d : Nat} {ps : List (Nat × β)} {p : Nat × β} :
    (holding d ps).Holds p ↔ p ∈ ps := by
  induction ps with
  | nil => exact iff_of_false not_holds_build List.not_mem_nil
  | cons q ps ih => rw [holding, holds_set, ih, List.mem_cons]

end Tree

/-! ### Exploration -/

def union : List (Nat × List Nat) → Nat
  | [] => 0
  | e :: es => e.1 ||| union es

theorem testBit_union {es : List (Nat × List Nat)} {k : Nat} :
    (union es).testBit k = true ↔ ∃ e ∈ es, e.1.testBit k = true := by
  induction es with
  | nil => simp [union]
  | cons e es ih => simp [union, Nat.testBit_or, ih]

/-- The targets of the edges that take `k`, added to `S`. -/
def targets (k : Nat) : List (Nat × List Nat) → List Nat → List Nat
  | [], S => S
  | (m, ts) :: es, S => bif m.testBit k then merge ts (targets k es S) else targets k es S

/-- Where the states of `S` lead on `k`. -/
def after (k : Nat) : List Nat → List Nat
  | [] => []
  | q :: qs => targets k (G.edges q) (after k qs)

theorem mem_targets {k t : Nat} {es : List (Nat × List Nat)} {S : List Nat} :
    t ∈ targets k es S ↔ (∃ e ∈ es, e.1.testBit k = true ∧ t ∈ e.2) ∨ t ∈ S := by
  induction es with
  | nil => simp [targets]
  | cons e es ih =>
      obtain ⟨m, ts⟩ := e
      rw [targets]
      cases hm : m.testBit k
      · simp [ih, hm]
      · simp [mem_merge, ih, hm, or_assoc]

theorem mem_after {k t : Nat} {S : List Nat} :
    t ∈ G.after k S ↔ ∃ q ∈ S, ∃ e ∈ G.edges q, e.1.testBit k = true ∧ t ∈ e.2 := by
  induction S with
  | nil => simp [after]
  | cons q qs ih => simp only [after, mem_targets, ih, List.exists_mem_cons_iff]

theorem acceptsAny_cons {S : List Nat} {x : X} {w : List X} :
    G.AcceptsAny kind S (x :: w) ↔ G.AcceptsAny kind (G.after (kind x) S) w := by
  constructor
  · rintro ⟨q, hq, e, he, hx, t, ht, hw⟩
    exact ⟨t, (G.mem_after).mpr ⟨q, hq, e, he, hx, ht⟩, hw⟩
  · rintro ⟨t, ht, hw⟩
    obtain ⟨q, hq, e, he, hx, ht⟩ := (G.mem_after).mp ht
    exact ⟨q, hq, e, he, hx, t, ht, hw⟩

/-- A state and a set accept the empty word together, and the set goes on with no other kinds
than the state. -/
def alike (q : Nat) (S : List Nat) : Bool :=
  (G.final q == S.any H.final) &&
    force (union (G.edges q)) fun kinds =>
      S.all fun i => (H.edges i).all fun e => (kinds ||| e.1).beq kinds

/-- Cuts the groups in two by the kinds of `m`, whose part gets `ts` as well. -/
def refine (m : Nat) (ts : List Nat) : List (Nat × List Nat) → List (Nat × List Nat)
  | [] => []
  | (g, T) :: gs =>
    force (g &&& m) fun y => force (g ^^^ y) fun n =>
      bif y.beq 0 then (n, T) :: refine m ts gs
      else bif n.beq 0 then (y, merge ts T) :: refine m ts gs
      else (y, merge ts T) :: (n, T) :: refine m ts gs

def refineAll : List (Nat × List Nat) → List (Nat × List Nat) → List (Nat × List Nat)
  | [], gs => gs
  | (m, ts) :: es, gs => refine m ts (refineAll es gs)

/-- The kinds of `m` in groups, each with where the states of `S` lead on its kinds. -/
def groups (m : Nat) : List Nat → List (Nat × List Nat)
  | [] => [(m, [])]
  | q :: qs => refineAll (G.edges q) (groups m qs)

/-- The targets `ts` with `T`, in front of `todo`. -/
def pairs (T : List Nat) (todo : List (Nat × List Nat)) : List Nat → List (Nat × List Nat)
  | [] => todo
  | t :: ts => (t, T) :: pairs T todo ts

/-- The targets `ts` with each group that shares a kind with `m`, in front of `todo`. -/
def meetings (m : Nat) (ts : List Nat) (todo : List (Nat × List Nat)) :
    List (Nat × List Nat) → List (Nat × List Nat)
  | [] => todo
  | (g, T) :: gs =>
    bif (g &&& m).beq 0 then meetings m ts todo gs
    else pairs T (meetings m ts todo gs) ts

/-- Where a state's edges lead, in front of `todo`. -/
def nexts (gs todo : List (Nat × List Nat)) : List (Nat × List Nat) → List (Nat × List Nat)
  | [] => todo
  | (m, ts) :: es => meetings m ts (nexts gs todo es) gs

def visited (q : Nat) (S : List Nat) : List (Nat × List Nat) → Bool
  | [] => false
  | (p, T) :: rest => bif p.beq q && same T S then true else visited q S rest

/-- Visits the pairs that `todo` leads to on the kinds `all`, `fuel` of them at most. -/
def explore (all : Nat) : Nat → List (Nat × List Nat) → Tree (List (Nat × List Nat)) → Bool
  | 0, _, _ => false
  | _ + 1, [], _ => true
  | fuel + 1, (q, S) :: todo, seen =>
    force q fun q => seen.fetch q fun met =>
      bif visited q S met then explore all fuel todo seen
      else bif alike G H q S then
        forceGroups (H.groups all S) fun gs => seen.store q ((q, S) :: met) fun seen =>
          explore all fuel (nexts gs todo (G.edges q)) seen
      else false

theorem holds_of_visited {q : Nat} {S : List Nat} {t : Tree (List (Nat × List Nat))}
    (h : visited q S (t.get q) = true) : t.Holds (q, S) := by
  apply Tree.holds_of_mem_get (n := q)
  generalize t.get q = pairs at h
  induction pairs with
  | nil => cases h
  | cons p pairs ih =>
      obtain ⟨p, T⟩ := p
      rw [visited] at h
      cases hsame : p.beq q && same T S with
      | false =>
          rw [hsame] at h
          exact List.mem_cons_of_mem _ (ih h)
      | true =>
          obtain ⟨hp, hT⟩ := Bool.and_eq_true_iff.mp hsame
          rw [Nat.eq_of_beq_eq_true hp, eq_of_same hT]
          exact List.mem_cons_self

variable {G H}

theorem mem_pairs {T ts : List Nat} {todo : List (Nat × List Nat)} {p : Nat × List Nat} :
    p ∈ pairs T todo ts ↔ p ∈ todo ∨ ∃ t ∈ ts, p = (t, T) := by
  induction ts with
  | nil => simp [pairs]
  | cons t ts ih =>
      rw [pairs, List.mem_cons, ih, List.exists_mem_cons_iff]
      exact or_left_comm

theorem mem_meetings {m : Nat} {ts : List Nat} {todo gs : List (Nat × List Nat)} {p : Nat × List Nat} :
    p ∈ meetings m ts todo gs ↔
      p ∈ todo ∨ ∃ g ∈ gs, (g.1 &&& m).beq 0 = false ∧ ∃ t ∈ ts, p = (t, g.2) := by
  induction gs with
  | nil => simp [meetings]
  | cons g gs ih =>
      obtain ⟨g, T⟩ := g
      rw [meetings, List.exists_mem_cons_iff]
      dsimp only
      cases (g &&& m).beq 0
      · rw [cond_false, mem_pairs, ih, eq_self, true_and, or_assoc]
        exact or_congr_right or_comm
      · rw [cond_true, ih, Bool.true_eq_false, false_and, false_or]

theorem mem_nexts {gs todo es : List (Nat × List Nat)} {p : Nat × List Nat} :
    p ∈ nexts gs todo es ↔ p ∈ todo ∨ ∃ e ∈ es, ∃ g ∈ gs, (g.1 &&& e.1).beq 0 = false ∧
      ∃ t ∈ e.2, p = (t, g.2) := by
  induction es with
  | nil => simp [nexts]
  | cons e es ih =>
      obtain ⟨m, ts⟩ := e
      rw [nexts, mem_meetings, ih, List.exists_mem_cons_iff, or_assoc]
      exact or_congr_right or_comm

/-- What follows a pair is in `R`. -/
def Closed (G H : Graph) (all : Nat) (R : Nat × List Nat → Prop) (p : Nat × List Nat) : Prop :=
  ∀ e ∈ G.edges p.1, ∀ g ∈ H.groups all p.2, (g.1 &&& e.1).beq 0 = false → ∀ t ∈ e.2, R (t, g.2)

/-- A finished exploration has a set of pairs around it that is closed, apart from what had been
seen before. -/
theorem closed_of_explore {all fuel : Nat} {todo : List (Nat × List Nat)}
    {seen : Tree (List (Nat × List Nat))} (h : explore G H all fuel todo seen = true) :
    ∃ R : Nat × List Nat → Prop, (∀ p ∈ todo, R p) ∧ (∀ p, seen.Holds p → R p) ∧
      ∀ p, R p → seen.Holds p ∨ alike G H p.1 p.2 = true ∧ Closed G H all R p := by
  induction fuel generalizing todo seen with
  | zero => cases h
  | succ fuel ih =>
      cases todo with
      | nil => exact ⟨seen.Holds, by simp, fun _ hp => hp, fun _ hp => .inl hp⟩
      | cons p todo =>
          obtain ⟨q, S⟩ := p
          rw [explore, force_eq, Tree.fetch_eq] at h
          cases hvisited : visited q S (seen.get q) with
          | true =>
              rw [hvisited, cond_true] at h
              obtain ⟨R, htodo, hseen, hclosed⟩ := ih h
              refine ⟨R, ?_, hseen, hclosed⟩
              intro p hp
              rcases List.mem_cons.mp hp with rfl | hp
              · exact hseen _ (holds_of_visited hvisited)
              · exact htodo p hp
          | false =>
              rw [hvisited, cond_false] at h
              cases halike : alike G H q S with
              | false =>
                  rw [halike] at h
                  cases h
              | true =>
                  rw [halike, cond_true, forceGroups_eq, Tree.store_eq] at h
                  obtain ⟨R, htodo, hseen, hclosed⟩ := ih h
                  have hself : R (q, S) := hseen _ (Tree.holds_set.mpr (.inl rfl))
                  have hnext : Closed G H all R (q, S) := fun e he g hg hmeet t ht =>
                    htodo _ (mem_nexts.mpr (.inr ⟨e, he, g, hg, hmeet, t, ht, rfl⟩))
                  refine ⟨R, ?_, fun p hp => hseen p (Tree.holds_set.mpr (.inr hp)), ?_⟩
                  · intro p hp
                    rcases List.mem_cons.mp hp with rfl | hp
                    · exact hself
                    · exact htodo p (mem_nexts.mpr (.inl hp))
                  · intro p hp
                    rcases hclosed p hp with hholds | hrest
                    · rcases Tree.holds_set.mp hholds with rfl | hholds
                      · exact .inr ⟨halike, hnext⟩
                      · exact .inl hholds
                    · exact .inr hrest

theorem ne_zero_of_testBit {n k : Nat} (h : n.testBit k = true) : n.beq 0 = false := by
  apply Bool.eq_false_iff.mpr
  intro hbeq
  rw [Nat.eq_of_beq_eq_true hbeq, Nat.zero_testBit] at h
  cases h

theorem mem_refine {m k : Nat} {ts T : List Nat} {gs : List (Nat × List Nat)}
    (h : ∃ g ∈ gs, g.1.testBit k = true ∧ g.2 = T) :
    ∃ g ∈ refine m ts gs, g.1.testBit k = true ∧
      g.2 = bif m.testBit k then merge ts T else T := by
  induction gs with
  | nil =>
      obtain ⟨g, hg, -⟩ := h
      cases hg
  | cons g gs ih =>
      obtain ⟨g, U⟩ := g
      rw [refine, force_eq, force_eq]
      obtain ⟨g', hg', hbit, hT⟩ := h
      rcases List.mem_cons.mp hg' with rfl | hg'
      · dsimp only at hbit hT
        subst hT
        cases hm : m.testBit k with
        | true =>
            have hy : (g &&& m).testBit k = true := by rw [Nat.testBit_and, hbit, hm, Bool.and_true]
            rw [ne_zero_of_testBit hy, cond_false]
            refine ⟨(g &&& m, merge ts U), ?_, hy, rfl⟩
            cases (g ^^^ (g &&& m)).beq 0 <;> exact List.mem_cons_self
        | false =>
            have hn : (g ^^^ (g &&& m)).testBit k = true := by
              rw [Nat.testBit_xor, Nat.testBit_and, hbit, hm]
              rfl
            rw [ne_zero_of_testBit hn]
            refine ⟨(g ^^^ (g &&& m), U), ?_, hn, rfl⟩
            cases (g &&& m).beq 0
            · exact List.mem_cons_of_mem _ List.mem_cons_self
            · exact List.mem_cons_self
      · obtain ⟨g', hg', hbit', hT'⟩ := ih ⟨g', hg', hbit, hT⟩
        refine ⟨g', ?_, hbit', hT'⟩
        cases (g &&& m).beq 0
        · cases (g ^^^ (g &&& m)).beq 0
          · exact List.mem_cons_of_mem _ (List.mem_cons_of_mem _ hg')
          · exact List.mem_cons_of_mem _ hg'
        · exact List.mem_cons_of_mem _ hg'

theorem mem_refineAll {k : Nat} {T : List Nat} {es gs : List (Nat × List Nat)}
    (h : ∃ g ∈ gs, g.1.testBit k = true ∧ g.2 = T) :
    ∃ g ∈ refineAll es gs, g.1.testBit k = true ∧ g.2 = targets k es T := by
  induction es with
  | nil => exact h
  | cons e es ih =>
      obtain ⟨m, ts⟩ := e
      obtain ⟨g, hg, hbit, hT⟩ := mem_refine (m := m) ih
      refine ⟨g, hg, hbit, ?_⟩
      rw [hT, targets]

theorem mem_groups {m k : Nat} {S : List Nat} (hm : m.testBit k = true) :
    ∃ g ∈ H.groups m S, g.1.testBit k = true ∧ g.2 = H.after k S := by
  induction S with
  | nil => exact ⟨(m, []), List.mem_singleton_self _, hm, rfl⟩
  | cons q qs ih => exact mem_refineAll ih

theorem Closed.next {all q : Nat} {S : List Nat} {R : Nat × List Nat → Prop}
    (h : Closed G H all R (q, S)) {e : Nat × List Nat} {k t : Nat} (he : e ∈ G.edges q)
    (hall : all.testBit k = true) (hbit : e.1.testBit k = true) (ht : t ∈ e.2) :
    R (t, H.after k S) := by
  obtain ⟨g, hg, hgbit, hT⟩ := mem_groups (H := H) (S := S) hall
  have hmeet : (g.1 &&& e.1).testBit k = true := by rw [Nat.testBit_and, hgbit, hbit, Bool.and_true]
  rw [← hT]
  exact h e he g hg (ne_zero_of_testBit hmeet) t ht

theorem testBit_of_absorbed {kinds m k : Nat} (h : (kinds ||| m).beq kinds = true)
    (hk : m.testBit k = true) : kinds.testBit k = true := by
  rw [← Nat.eq_of_beq_eq_true h, Nat.testBit_or, hk, Bool.or_true]

/-- An exploration of a state against a set that has come to its end, where the pairs `known`
count as visited. -/
structure Exploration (G H : Graph) (all : Nat) (known : List (Nat × List Nat)) (q : Nat)
    (S : List Nat) where
  fuel : Nat
  depth : Nat
  complete : explore G H all fuel [(q, S)] (Tree.holding depth known) = true

/-- The state and the set of a pair read the same words. -/
def Agree (G H : Graph) (kind : X → Nat) (p : Nat × List Nat) : Prop :=
  ∀ w, G.Accepts kind p.1 w ↔ H.AcceptsAny kind p.2 w

/-- States that an exploration has paired read the same words, where the known pairs do. -/
theorem Exploration.agree {all q : Nat} {known : List (Nat × List Nat)} {S : List Nat}
    {kind : X → Nat} (E : Exploration G H all known q S) (hall : ∀ x, all.testBit (kind x) = true)
    (hlive : ∀ q, ∀ e ∈ G.edges q, e.2 ≠ []) (hknown : ∀ p ∈ known, Agree G H kind p) :
    Agree G H kind (q, S) := by
  obtain ⟨R, htodo, -, hclosed⟩ := closed_of_explore E.complete
  simp only [Tree.holds_holding] at hclosed
  have hpair : ∀ w q S, R (q, S) → (G.Accepts kind q w ↔ H.AcceptsAny kind S w) := by
    intro w
    induction w with
    | nil =>
        intro q S hR
        rcases hclosed _ hR with hmem | ⟨halike, -⟩
        · exact hknown _ hmem []
        · have hfinal := (Bool.and_eq_true_iff.mp halike).1
          rw [beq_iff_eq] at hfinal
          dsimp only at hfinal
          rw [Accepts, hfinal, List.any_eq_true]
          rfl
    | cons x w ih =>
        intro q S hR
        rcases hclosed _ hR with hmem | ⟨halike, hnext⟩
        · exact hknown _ hmem (x :: w)
        · rw [acceptsAny_cons]
          constructor
          · rintro ⟨e, he, hbit, t, ht, hw⟩
            exact (ih _ _ (hnext.next he (hall x) hbit ht)).mp hw
          · intro hw
            -- the set goes on, so the state does
            obtain ⟨j, hj, hjw⟩ := hw
            obtain ⟨i, hi, e', he', hbit', hje⟩ := (H.mem_after).mp hj
            have habsorb := (Bool.and_eq_true_iff.mp halike).2
            rw [force_eq, List.all_eq_true] at habsorb
            have hkinds := List.all_eq_true.mp (habsorb i hi) e' he'
            obtain ⟨e, he, hbit⟩ := testBit_union.mp (testBit_of_absorbed hkinds hbit')
            obtain ⟨t, ht⟩ := List.exists_mem_of_ne_nil _ (hlive q e he)
            refine ⟨e, he, hbit, t, ht, ?_⟩
            exact (ih _ _ (hnext.next he (hall x) hbit ht)).mpr ⟨j, hj, hjw⟩
  exact fun w => hpair w q S (htodo _ List.mem_cons_self)

/-! ### Where the words of an expression lead -/

section Image
variable (G)

/-- A way from `q` to `t`. -/
def Leads : Nat → List X → Nat → Prop
  | q, [], t => q = t
  | q, x :: w, t =>
    ∃ e ∈ G.edges q, e.1.testBit (kind x) = true ∧ ∃ p ∈ e.2, Leads p w t

variable {kind}

theorem accepts_iff_leads {q : Nat} {w : List X} :
    G.Accepts kind q w ↔ ∃ t, G.Leads kind q w t ∧ G.final t = true := by
  induction w generalizing q with
  | nil => simp [Accepts, Leads]
  | cons x w ih =>
      simp only [Accepts, Leads, ih]
      constructor
      · rintro ⟨e, he, hbit, p, hp, t, hw, ht⟩
        exact ⟨t, ⟨e, he, hbit, p, hp, hw⟩, ht⟩
      · rintro ⟨t, ⟨e, he, hbit, p, hp, hw⟩, ht⟩
        exact ⟨e, he, hbit, p, hp, t, hw, ht⟩

variable {G} in
theorem leads_append {q t : Nat} {u v : List X} :
    G.Leads kind q (u ++ v) t ↔ ∃ p, G.Leads kind q u p ∧ G.Leads kind p v t := by
  induction u generalizing q with
  | nil => simp [Leads]
  | cons x u ih =>
      simp only [List.cons_append, Leads, ih]
      constructor
      · rintro ⟨e, he, hbit, r, hr, p, hu, hv⟩
        exact ⟨p, ⟨e, he, hbit, r, hr, hu⟩, hv⟩
      · rintro ⟨p, ⟨e, he, hbit, r, hr, hu⟩, hv⟩
        exact ⟨e, he, hbit, r, hr, p, hu, hv⟩

/-- The targets of the edges that take a kind of `m`, added to `T`. -/
def meeting (m : Nat) : List (Nat × List Nat) → List Nat → List Nat
  | [], T => T
  | (n, ts) :: es, T =>
    bif (n &&& m).beq 0 then meeting m es T else addAll ts (meeting m es T)

def along (m : Nat) : List Nat → List Nat
  | [] => []
  | q :: qs => meeting m (G.edges q) (along m qs)

/-- Adds what `f` makes of `S` until nothing is new. -/
def close (f : List Nat → Option (List Nat)) : Nat → List Nat → Option (List Nat)
  | 0, _ => none
  | fuel + 1, S =>
    (f S).bind fun T =>
      forceAll (addAll T S) fun U => bif same U S then some S else close f fuel U

/-- The states that the words of an expression lead to from those of `S`, where `bits` are the
kinds of a class. -/
def image {C : Type} (bits : C → Nat) (fuel : Nat) : Regex C → List Nat → Option (List Nat)
  | .one, S => some S
  | .sym c, S => force (bits c) fun m => forceAll (G.along m S) some
  | .alt a b, S =>
    (image bits fuel a S).bind fun A => (image bits fuel b S).map fun B => addAll A B
  | .cat a b, S => (image bits fuel a S).bind (image bits fuel b)
  | .star a, S => close (image bits fuel a) fuel S

variable {G}

theorem mem_meeting {m k t : Nat} {es : List (Nat × List Nat)} {T : List Nat} {e : Nat × List Nat}
    (he : e ∈ es) (hbit : e.1.testBit k = true) (hm : m.testBit k = true) (ht : t ∈ e.2) :
    t ∈ meeting m es T := by
  induction es with
  | nil => cases he
  | cons e' es ih =>
      obtain ⟨n, ts⟩ := e'
      rw [meeting]
      rcases List.mem_cons.mp he with rfl | he
      · have hmeet : (n &&& m).beq 0 = false := by
          rw [← Bool.not_eq_true, Nat.beq_eq]
          intro hzero
          have hand : (n &&& m).testBit k = true := by
            rw [Nat.testBit_and, hbit, hm]
            rfl
          rw [hzero, Nat.zero_testBit] at hand
          cases hand
        rw [hmeet, cond_false]
        exact mem_addAll.mpr (.inl ht)
      · cases (n &&& m).beq 0 with
        | true => exact ih he
        | false => exact mem_addAll.mpr (.inr (ih he))

theorem meeting_subset {m : Nat} {es : List (Nat × List Nat)} {T : List Nat} :
    T ⊆ meeting m es T := by
  intro t ht
  induction es with
  | nil => exact ht
  | cons e es ih =>
      obtain ⟨n, ts⟩ := e
      rw [meeting]
      cases (n &&& m).beq 0 with
      | true => exact ih
      | false => exact mem_addAll.mpr (.inr ih)

theorem mem_along {m k q t : Nat} {S : List Nat} {e : Nat × List Nat} (hq : q ∈ S)
    (he : e ∈ G.edges q) (hbit : e.1.testBit k = true) (hm : m.testBit k = true) (ht : t ∈ e.2) :
    t ∈ G.along m S := by
  induction S with
  | nil => cases hq
  | cons p S ih =>
      rw [along]
      rcases List.mem_cons.mp hq with rfl | hq
      · exact mem_meeting he hbit hm ht
      · exact meeting_subset (ih hq)

theorem close_spec {f : List Nat → Option (List Nat)} {fuel : Nat} {S U : List Nat}
    (h : close f fuel S = some U) : S ⊆ U ∧ ∃ T, f U = some T ∧ T ⊆ U := by
  induction fuel generalizing S with
  | zero => cases h
  | succ fuel ih =>
      rw [close] at h
      obtain ⟨T, hT, h⟩ := Option.bind_eq_some_iff.mp h
      rw [forceAll_eq] at h
      cases hsame : same (addAll T S) S with
      | true =>
          rw [hsame] at h
          cases h
          refine ⟨List.Subset.refl _, T, hT, fun t ht => ?_⟩
          rw [← eq_of_same hsame]
          exact mem_addAll.mpr (.inl ht)
      | false =>
          rw [hsame] at h
          obtain ⟨hsub, hclosed⟩ := ih h
          exact ⟨fun t ht => hsub (mem_addAll.mpr (.inr ht)), hclosed⟩

theorem mem_image {C : Type} {mem : C → X → Bool} {bits : C → Nat} {good : C → Bool}
    (hbits : ∀ c x, good c = true → mem c x = true → (bits c).testBit (kind x) = true)
    {fuel : Nat} {r : Regex C} (hgood : r.every good = true) {S T : List Nat}
    (h : G.image bits fuel r S = some T) {q t : Nat} (hq : q ∈ S) {w : List X}
    (hw : w ∈ r.lang mem) (hlead : G.Leads kind q w t) : t ∈ T := by
  induction r generalizing S T q t w with
  | one =>
      cases h
      rw [(Language.mem_one w).mp hw] at hlead
      cases hlead
      exact hq
  | sym c =>
      rw [image, force_eq, forceAll_eq] at h
      cases h
      obtain ⟨x, hx, rfl⟩ := hw
      obtain ⟨e, he, hbit, p, hp, rfl⟩ := hlead
      exact mem_along hq he hbit (hbits c x hgood hx) hp
  | alt a b iha ihb =>
      obtain ⟨ha, hb⟩ := Bool.and_eq_true_iff.mp hgood
      obtain ⟨A, hA, h⟩ := Option.bind_eq_some_iff.mp h
      obtain ⟨B, hB, rfl⟩ := Option.map_eq_some_iff.mp h
      rcases (Language.mem_add _ _ _).mp hw with hw | hw
      · exact mem_addAll.mpr (.inl (iha ha hA hq hw hlead))
      · exact mem_addAll.mpr (.inr (ihb hb hB hq hw hlead))
  | cat a b iha ihb =>
      obtain ⟨ha, hb⟩ := Bool.and_eq_true_iff.mp hgood
      obtain ⟨A, hA, hB⟩ := Option.bind_eq_some_iff.mp h
      obtain ⟨u, hu, v, hv, rfl⟩ := Language.mem_mul.mp hw
      obtain ⟨p, hu', hv'⟩ := leads_append.mp hlead
      exact ihb hb hB (iha ha hA hq hu hu') hv hv'
  | star a ih =>
      obtain ⟨hsub, U, hU, hclosed⟩ := close_spec h
      obtain ⟨ws, rfl, hws⟩ := Language.mem_kstar.mp hw
      have hpath : ∀ q ∈ T, G.Leads kind q ws.flatten t → t ∈ T := by
        clear hlead hw
        induction ws with
        | nil =>
            rintro q hq rfl
            exact hq
        | cons w ws ihws =>
            intro q hq hlead
            obtain ⟨p, hp, hrest⟩ := leads_append.mp hlead
            have hpT := hclosed (ih hgood hU hq (hws w List.mem_cons_self) hp)
            exact ihws (fun w hw => hws w (List.mem_cons_of_mem _ hw)) p hpT hrest
      exact hpath q (hsub hq) hlead

/-- No word of `r` is read where its image is not final. -/
theorem not_accepts_of_image {C : Type} {mem : C → X → Bool} {bits : C → Nat} {good : C → Bool}
    (hbits : ∀ c x, good c = true → mem c x = true → (bits c).testBit (kind x) = true)
    {fuel q : Nat} {r : Regex C} (hgood : r.every good = true)
    (h : (G.image bits fuel r [q]).any (fun T => T.all fun t => !G.final t) = true) {w : List X}
    (hw : w ∈ r.lang mem) : ¬ G.Accepts kind q w := by
  rw [accepts_iff_leads]
  rintro ⟨t, hlead, hfinal⟩
  cases hT : G.image bits fuel r [q] with
  | none =>
      rw [hT] at h
      cases h
  | some T =>
      rw [hT, Option.any_some, List.all_eq_true] at h
      have ht := h t (mem_image hbits hgood hT (List.mem_singleton_self q) hw hlead)
      rw [hfinal] at ht
      cases ht

end Image
end Graph
end HCServer.Lib
