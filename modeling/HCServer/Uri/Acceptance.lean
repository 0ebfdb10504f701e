import HCServer.Lib.Graph
import HCServer.Uri.Grammar
import HCServer.Uri.Model

/-! The texts that `Create` takes are those of the grammar of uri.rl, as the machine reads it. The
table and the positions of the grammar are two graphs over kinds of bytes, and the machine's graph
carries along whether `mark` is set. -/
namespace HCServer.Uris
open Lib
open Grammar (passed)

/-! ### Kinds of bytes -/

/-- Intervals of bytes that no rule tells apart, each with the kind of its bytes. -/
def intervals : List (Nat × Nat × Nat) :=
  [(0, 1, 0), (2, 2, 1), (3, 32, 0), (33, 33, 2), (34, 34, 0), (35, 35, 3), (36, 36, 2), (37, 37, 4),
    (38, 42, 2), (43, 43, 5), (44, 44, 2), (45, 45, 5), (46, 46, 6), (47, 47, 7), (48, 48, 8),
    (49, 49, 9), (50, 50, 10), (51, 52, 11), (53, 53, 12), (54, 57, 13), (58, 58, 14), (59, 59, 2),
    (60, 60, 0), (61, 61, 2), (62, 62, 0), (63, 63, 15), (64, 64, 16), (65, 70, 17), (71, 85, 18),
    (86, 86, 23), (87, 90, 18), (91, 91, 19), (92, 92, 0), (93, 93, 20), (94, 94, 0), (95, 95, 2),
    (96, 96, 0), (97, 102, 17), (103, 117, 18), (118, 118, 21), (119, 122, 18), (123, 125, 0),
    (126, 126, 2), (127, 127, 0), (128, 255, 22)]

/-- A byte of each kind. -/
def samples : List Nat :=
  [0, 2, 33, 35, 37, 43, 46, 47, 48, 49, 50, 51, 53, 54, 58, 63, 64, 65, 71, 91, 93, 118, 128, 86]

def inRanges (cs : Chars) (n : Nat) : Bool := cs.any fun r => r.1.ble n && n.ble r.2

/-- No range of `cs` cuts an interval, and bytes of one kind are in `cs` together. -/
def respects (cs : Chars) : Bool :=
  intervals.all fun i => (cs.all fun r => r.1.ble i.1 && i.2.1.ble r.2 || i.2.1.blt r.1 || r.2.blt i.1) &&
    inRanges cs i.1 == inRanges cs (samples.getD i.2.2 0)

def kind (b : UInt8) : Nat :=
  ((intervals.find? fun i => i.1.ble b.toNat && b.toNat.ble i.2.1).map fun i => i.2.2).getD 0

def kindsIn (cs : Chars) : List Nat → Nat
  | [] => 0
  | n :: ns => Nat.bit (inRanges cs n) (kindsIn cs ns)

/-- The kinds of the bytes in `cs`, as bits. -/
def kindsOf (cs : Chars) : Nat := kindsIn cs samples

theorem exists_interval (b : UInt8) : ∃ i ∈ intervals, i.1 ≤ b.toNat ∧ b.toNat ≤ i.2.1 ∧
    kind b = i.2.2 ∧ i.2.2 < samples.length := by
  have hall : ∀ n < 256, (intervals.find? fun i => i.1.ble n && n.ble i.2.1).isSome = true := by
    decide +kernel
  have hkinds : ∀ i ∈ intervals, i.2.2 < samples.length := by decide
  obtain ⟨i, hi⟩ := Option.isSome_iff_exists.mp (hall b.toNat b.toNat_lt)
  have hmem := List.mem_of_find?_eq_some hi
  have hin : (i.1.ble b.toNat && b.toNat.ble i.2.1) = true :=
    List.find?_some (p := fun i : Nat × Nat × Nat => i.1.ble b.toNat && b.toNat.ble i.2.1) hi
  obtain ⟨hlo, hhi⟩ := Bool.and_eq_true_iff.mp hin
  refine ⟨i, hmem, Nat.le_of_ble_eq_true hlo, Nat.le_of_ble_eq_true hhi, ?_, hkinds i hmem⟩
  rw [kind, hi]
  rfl

theorem kind_lt (b : UInt8) : kind b < 24 := by
  obtain ⟨i, -, -, -, hkind, hlt⟩ := exists_interval b
  rw [hkind]
  exact hlt

/-- 16777215 is the bits of all kinds. -/
theorem testBit_all (b : UInt8) : (16777215 : Nat).testBit (kind b) = true := by
  have hpow : (16777215 : Nat) = 2 ^ 24 - 1 := by decide
  rw [hpow, Nat.testBit_two_pow_sub_one]
  exact decide_eq_true (kind_lt b)

theorem has_eq_inRanges (cs : Chars) (b : UInt8) : cs.has b = inRanges cs b.toNat := by
  rw [Chars.has, inRanges]
  congr 1
  funext r
  rw [Bool.eq_iff_iff]
  simp [Nat.ble_eq]

theorem has_of_respects {cs : Chars} (h : respects cs = true) (b : UInt8) :
    cs.has b = inRanges cs (samples.getD (kind b) 0) := by
  obtain ⟨i, hi, hlo, hhi, hkind, -⟩ := exists_interval b
  obtain ⟨hcut, hsample⟩ := Bool.and_eq_true_iff.mp (List.all_eq_true.mp h i hi)
  rw [beq_iff_eq] at hsample
  rw [hkind, ← hsample, has_eq_inRanges, inRanges, inRanges]
  apply Bool.eq_iff_iff.mpr
  simp only [List.any_eq_true, Bool.and_eq_true, Nat.ble_eq]
  refine exists_congr fun r => and_congr_right fun hr => ?_
  have hr' := List.all_eq_true.mp hcut r hr
  simp only [Bool.or_eq_true, Bool.and_eq_true, Nat.ble_eq, Nat.blt_eq] at hr'
  omega

theorem testBit_kindsIn (cs : Chars) (ns : List Nat) (k : Nat) (hk : k < ns.length) :
    (kindsIn cs ns).testBit k = inRanges cs (ns.getD k 0) := by
  induction ns generalizing k with
  | nil => cases hk
  | cons n ns ih =>
      rw [kindsIn]
      cases k with
      | zero =>
          rw [Nat.testBit_bit_zero]
          rfl
      | succ k =>
          rw [Nat.testBit_bit_succ, ih k (Nat.lt_of_succ_lt_succ hk)]
          rfl

theorem testBit_kindsOf {cs : Chars} (h : respects cs = true) (b : UInt8) :
    (kindsOf cs).testBit (kind b) = cs.has b := by
  rw [kindsOf, testBit_kindsIn _ _ _ (kind_lt b), has_of_respects h]

/-! ### The machine -/

def rowsTree : Graph.Tree (List (Edge Action)) :=
  Graph.Tree.built [] 10 0 ([] :: uriParserTable.map Prod.snd) fun t _ => t

/-- A state together with whether `mark` is set. -/
def key (q : Nat) (m : Bool) : Nat := bif m then 2 * q + 1 else 2 * q

/-- The edges of a state, cut so that each kind is on the first that takes it, without those that
raise. -/
def split (m : Bool) : Nat → List (Edge Action) → List (Nat × List Nat)
  | _, [] => []
  | rest, ⟨rs, acts, t⟩ :: es =>
    Graph.force (rest &&& kindsOf rs) fun g =>
      match exec marks m acts with
      | none => split m (rest ^^^ g) es
      | some m' => Graph.force (key t m') fun k => (g, [k]) :: split m (rest ^^^ g) es

def shadow : Graph where
  edges k := bif (2048).ble k then [] else
    split ((k % 2).beq 1) 16777215 (rowsTree.get (k / 2))
  final k := (uriParserFirstFinal).ble (k / 2) &&
    (exec marks ((k % 2).beq 1) (eofActions (k / 2))).isSome

theorem key_div (q : Nat) (m : Bool) : key q m / 2 = q := by
  cases m <;> simp only [key, cond_true, cond_false] <;> omega

theorem key_mod (q : Nat) (m : Bool) : (key q m % 2).beq 1 = m := by
  have htwo : ∀ n, n % 2 = 0 ∨ n % 2 = 1 := fun n => by omega
  cases m
  · have hmod : key q false % 2 = 0 := by
      simp only [key, cond_false]
      omega
    rw [hmod]
    rfl
  · have hmod : key q true % 2 = 1 := by
      simp only [key, cond_true]
      omega
    rw [hmod]
    rfl

theorem exists_split {m : Bool} {rest k : Nat} {es : List (Edge Action)} {P : Nat → Prop} :
    (∃ e ∈ split m rest es, e.1.testBit k = true ∧ ∃ t ∈ e.2, P t) ↔
      rest.testBit k = true ∧ ∃ e m', (es.find? fun e => (kindsOf e.ranges).testBit k) = some e ∧
        exec marks m e.acts = some m' ∧ P (key e.target m') := by
  induction es generalizing rest with
  | nil => simp [split]
  | cons e es ih =>
      obtain ⟨rs, acts, t⟩ := e
      rw [split, Graph.force_eq]
      have hrest : (rest ^^^ (rest &&& kindsOf rs)).testBit k =
          (rest.testBit k && !(kindsOf rs).testBit k) := by
        rw [Nat.testBit_xor, Nat.testBit_and]
        cases rest.testBit k <;> cases (kindsOf rs).testBit k <;> rfl
      cases hk : (kindsOf rs).testBit k with
      | false =>
          rw [List.find?_cons_of_neg (by simp [hk])]
          rw [hk, Bool.not_false, Bool.and_true] at hrest
          cases exec marks m acts with
          | none =>
              dsimp only
              rw [ih, hrest]
          | some m' =>
              dsimp only
              rw [Graph.force_eq, List.exists_mem_cons_iff, ih, hrest, Nat.testBit_and, hk,
                Bool.and_false]
              simp
      | true =>
          rw [List.find?_cons_of_pos (by simp [hk])]
          rw [hk, Bool.not_true, Bool.and_false] at hrest
          cases hexec : exec marks m acts with
          | none =>
              dsimp only
              rw [ih, hrest]
              simp [hexec]
          | some m' =>
              dsimp only
              rw [Graph.force_eq, List.exists_mem_cons_iff, ih, hrest, Nat.testBit_and, hk,
                Bool.and_true]
              constructor
              · rintro (⟨hbit, t', ht', hP⟩ | ⟨hfalse, _⟩)
                · rw [List.mem_singleton.mp ht'] at hP
                  exact ⟨hbit, _, m', rfl, hexec, hP⟩
                · cases hfalse
              · rintro ⟨hbit, _, m'', ⟨rfl⟩, hm'', hP⟩
                rw [hexec] at hm''
                cases hm''
                exact Or.inl ⟨hbit, _, List.mem_singleton_self _, hP⟩

theorem split_live {m : Bool} {rest : Nat} {es : List (Edge Action)} :
    ∀ e ∈ split m rest es, e.2 ≠ [] := by
  induction es generalizing rest with
  | nil => simp [split]
  | cons e es ih =>
      obtain ⟨rs, acts, t⟩ := e
      rw [split, Graph.force_eq]
      cases exec marks m acts with
      | none => exact ih
      | some m' =>
          dsimp only
          rw [Graph.force_eq]
          intro e he
          rcases List.mem_cons.mp he with rfl | he
          · exact List.cons_ne_nil _ _
          · exact ih e he

theorem lookup_of_numbered {α : Type} {l : List (Nat × α)} {o : Nat}
    (h : l.map Prod.fst = List.range' o l.length) (q : Nat) :
    l.lookup q = if o ≤ q then (l.map Prod.snd)[q - o]? else none := by
  induction l generalizing o with
  | nil => simp
  | cons p l ih =>
      obtain ⟨n, a⟩ := p
      rw [List.map_cons, List.length_cons, List.range'_succ] at h
      obtain ⟨hn, hrest⟩ := List.cons.inj h
      dsimp only at hn
      rw [List.lookup_cons, hn]
      by_cases hq : q = o
      · simp [hq]
      · have hbeq : (q == o) = false := by simp [hq]
        rw [hbeq]
        dsimp only
        rw [ih hrest]
        by_cases hle : o ≤ q
        · obtain ⟨d, hd⟩ : ∃ d, q - o = d + 1 := ⟨q - o - 1, by omega⟩
          rw [if_pos (by omega), if_pos hle, List.map_cons, hd, List.getElem?_cons_succ,
            show q - (o + 1) = d by omega]
        · rw [if_neg (by omega), if_neg hle]

theorem table_next (q : Nat) (b : UInt8) :
    uriParser.next q b = ((([] :: uriParserTable.map Prod.snd).getD q []).find? fun e => e.fires b).map
      fun e => (e.acts, e.target) := by
  have hnumbers : uriParserTable.map Prod.fst = List.range' 1 uriParserTable.length := by
    decide +kernel
  change uriParserTable.next q b = _
  rw [Table.next, lookup_of_numbered hnumbers]
  cases q with
  | zero => rfl
  | succ q =>
      rw [if_pos (Nat.le_add_left 1 q), Nat.add_sub_cancel, List.getD_cons_succ,
        List.getD_eq_getElem?_getD]
      cases (uriParserTable.map Prod.snd)[q]? <;> rfl

theorem find?_congr {α : Type*} {p r : α → Bool} {l : List α} (h : ∀ x ∈ l, p x = r x) :
    l.find? p = l.find? r := by
  induction l with
  | nil => rfl
  | cons x l ih =>
      rw [List.find?_cons, List.find?_cons, h x List.mem_cons_self,
        ih fun y hy => h y (List.mem_cons_of_mem x hy)]

theorem rows_respect : ∀ row ∈ uriParserTable.map Prod.snd, ∀ e ∈ row, respects e.ranges = true := by
  have hall : ((uriParserTable.map Prod.snd).all fun row => row.all fun
      | ⟨rs, _, _⟩ => respects rs) = true := by
    decide +kernel
  intro row hrow e he
  exact List.all_eq_true.mp (List.all_eq_true.mp hall row hrow) e he

theorem shadow_edges {q : Nat} (hq : q < 1024) (m : Bool) : shadow.edges (key q m) =
    split m 16777215 (([] :: uriParserTable.map Prod.snd).getD q []) := by
  have hlt : key q m < 2048 := by
    cases m <;> simp only [key, cond_true, cond_false] <;> omega
  have hble : (2048).ble (key q m) = false := by
    rw [← Bool.not_eq_true, Nat.ble_eq]
    omega
  change (bif (2048).ble (key q m) then _ else _) = _
  rw [hble, cond_false, key_mod, key_div, rowsTree, Graph.Tree.built_eq,
    Graph.Tree.get_build [] (Nat.zero_le q) (by omega), Nat.sub_zero]

theorem target_lt {q q' : Nat} {b : UInt8} {acts : List Action}
    (h : uriParser.next q b = some (acts, q')) : q' < 561 := by
  have hall : (uriParserTable.all fun row => row.2.all fun
      | ⟨_, _, t⟩ => t.blt 561) = true := by
    decide +kernel
  obtain ⟨edges, hedges, e, he, -, rfl⟩ := Table.next_mem h
  have ht := List.all_eq_true.mp (List.all_eq_true.mp hall (q, edges) hedges) e he
  exact Nat.blt_eq.mp ht

/-- The shadow graph reads what the machine passes. -/
theorem accepts_shadow {q : Nat} (hq : q < 561) (m : Bool) (w : Http.Bytes) :
    shadow.Accepts kind (key q m) w ↔ Passes q m w := by
  induction w generalizing q m with
  | nil =>
      rw [Graph.Accepts, Passes]
      change (uriParserFirstFinal.ble (key q m / 2) && _) = true ↔ _
      rw [key_mod, key_div, Bool.and_eq_true, Nat.ble_eq]
  | cons b w ih =>
      have hrow : ∀ e ∈ ([] :: uriParserTable.map Prod.snd).getD q [],
          (kindsOf e.ranges).testBit (kind b) = e.fires b := by
        intro e he
        have hrespects : respects e.ranges = true := by
          cases q with
          | zero => cases he
          | succ q =>
              rw [List.getD_cons_succ, List.getD_eq_getElem?_getD] at he
              cases hget : (uriParserTable.map Prod.snd)[q]? with
              | none =>
                  rw [hget] at he
                  cases he
              | some row =>
                  rw [hget] at he
                  exact rows_respect row (List.mem_of_getElem? hget) e he
        exact testBit_kindsOf hrespects b
      rw [Graph.Accepts, shadow_edges (by omega), exists_split, find?_congr hrow, Passes, table_next]
      constructor
      · rintro ⟨-, e, m', hfind, hexec, hw⟩
        have hnext : uriParser.next q b = some (e.acts, e.target) := by
          rw [table_next, hfind]
          rfl
        exact ⟨e.acts, e.target, m', by rw [hfind]; rfl, hexec, (ih (target_lt hnext) m').mp hw⟩
      · rintro ⟨acts, q', m', hnext, hexec, hw⟩
        obtain ⟨e, hfind, heq⟩ := Option.map_eq_some_iff.mp hnext
        cases heq
        have hlt : e.target < 561 := target_lt (by rw [table_next, hfind]; rfl)
        exact ⟨testBit_all b, e, m', hfind, hexec, (ih hlt m').mpr hw⟩

/-! ### The grammar -/

def leaves (r : Grammar) : Graph.Tree (List (Nat × List Nat)) :=
  Graph.Tree.built [] 11 0 ((r.links 0 [r.size]).map fun (c, after) => [(kindsOf c, after)])
    fun t _ => t

def positions (r : Grammar) : Graph where
  edges i := bif (r.size).ble i then [] else (leaves r).get i
  final i := i.beq r.size

theorem positions_edges {r : Grammar} (hsize : r.size ≤ 2048) (i : Nat) :
    (positions r).edges i =
      (((r.links 0 [r.size])[i]?).map fun p => [(kindsOf p.1, p.2)]).getD [] := by
  have hlen := Regex.length_links r 0 [r.size]
  change (bif (r.size).ble i then [] else (leaves r).get i) = _
  cases hble : r.size.ble i with
  | true =>
      have hle := Nat.le_of_ble_eq_true hble
      rw [cond_true, List.getElem?_eq_none (by omega)]
      rfl
  | false =>
      have hlt : i < r.size := by
        rw [← Bool.not_eq_true, Nat.ble_eq] at hble
        omega
      rw [cond_false, leaves, Graph.Tree.built_eq, Graph.Tree.get_build [] (Nat.zero_le i) (by omega), Nat.sub_zero,
        List.getD_eq_getElem?_getD, List.getElem?_map]

theorem accepts_positions {r : Grammar} (hsize : r.size ≤ 2048)
    (hrespects : ∀ p ∈ r.links 0 [r.size], respects p.1 = true) (i : Nat) (w : Http.Bytes) :
    (positions r).Accepts kind i w ↔
      Regex.Reads Chars.has (fun i => (r.links 0 [r.size])[i]?) r.size i w := by
  induction w generalizing i with
  | nil =>
      rw [Graph.Accepts, Regex.Reads]
      exact Iff.of_eq Nat.beq_eq
  | cons b w ih =>
      rw [Graph.Accepts, Regex.Reads, positions_edges hsize]
      cases hget : (r.links 0 [r.size])[i]? with
      | none => simp
      | some p =>
          obtain ⟨c, after⟩ := p
          have hc := testBit_kindsOf (hrespects _ (List.mem_of_getElem? hget)) b
          dsimp only at hc
          simp only [Option.map_some, Option.getD_some, List.mem_singleton, exists_eq_left, hc,
            Option.some.injEq, Prod.mk.injEq, ih]
          constructor
          · rintro ⟨hb, j, hj, hw⟩
            exact ⟨c, after, ⟨rfl, rfl⟩, hb, j, hj, hw⟩
          · rintro ⟨_, _, ⟨rfl, rfl⟩, hb, j, hj, hw⟩
            exact ⟨hb, j, hj, hw⟩

theorem accepts_start {r : Grammar} (hsize : r.size ≤ 2048)
    (hrespects : ∀ p ∈ r.links 0 [r.size], respects p.1 = true) (w : Http.Bytes) :
    (positions r).AcceptsAny kind r.start w ↔ w ∈ r.lang := by
  have hlen := Regex.length_links r 0 [r.size]
  have hstart : Regex.ReadsAny Chars.has (fun i => (r.links 0 [r.size])[i]?) r.size r.start w ↔
      w ∈ Regex.lang Chars.has r :=
    Regex.readsAny_start (fun i _ => rfl) (List.getElem?_eq_none (by omega)) w
  rw [Grammar.lang, ← hstart]
  exact exists_congr fun i => and_congr_right fun _ => accepts_positions hsize hrespects i w

/-- Where the machine is after `[`, and the positions where an address in brackets starts. -/
def literalState (saved : Bool) : Nat × List Nat :=
  bif saved then
    (521, [11, 101, 188, 192, 274, 283, 360, 374, 446, 465, 532, 556, 618, 647, 653, 687, 689])
  else
    (77, [804, 894, 981, 985, 1067, 1076, 1153, 1167, 1239, 1258, 1325, 1349, 1411, 1440, 1446,
      1480, 1482])

/-- The machine from there on, against the grammar. -/
def literalExploration : Graph.Exploration shadow (positions passed) 16777215 []
    (literalState false).1 (literalState false).2 where
  fuel := 10000
  depth := 11
  complete := by decide +kernel

def literalExploration' : Graph.Exploration shadow (positions passed) 16777215 []
    (literalState true).1 (literalState true).2 where
  fuel := 10000
  depth := 11
  complete := by decide +kernel

/-- The machine from its start, against the grammar from its first positions. -/
def exploration : Graph.Exploration shadow (positions passed) 16777215
    [literalState false, literalState true] (key uriParserStart false) passed.start where
  fuel := 10000
  depth := 11
  complete := by decide +kernel

theorem shadow_live (k : Nat) : ∀ e ∈ shadow.edges k, e.2 ≠ [] := by
  intro e he
  change e ∈ (bif (2048).ble k then [] else split _ _ _) at he
  cases hble : (2048).ble k with
  | true =>
      rw [hble] at he
      cases he
  | false =>
      rw [hble, cond_false] at he
      exact split_live e he

/-- `Create` comes back with a `Uri` for the texts of the grammar `passed`, and no others. -/
theorem create_uri_iff_passed (s : Http.Bytes) : (∃ u, Uri.create s = .uri u) ↔ s ∈ passed.lang := by
  have hsize : passed.size ≤ 2048 := by decide +kernel
  have hrespects : ∀ p ∈ passed.links 0 [passed.size], respects p.1 = true := by
    have hall : ((passed.links 0 [passed.size]).all fun | (c, _) => respects c) = true := by
      decide +kernel
    exact fun p hp => List.all_eq_true.mp hall p hp
  rw [create_uri_iff, ← accepts_shadow (by decide : uriParserStart < 561), ← accepts_start hsize hrespects]
  have hknown : ∀ p ∈ [literalState false, literalState true],
      Graph.Agree shadow (positions passed) kind p := by
    intro p hp
    rcases List.mem_pair.mp hp with rfl | rfl
    · exact literalExploration.agree testBit_all shadow_live (List.forall_mem_nil _)
    · exact literalExploration'.agree testBit_all shadow_live (List.forall_mem_nil _)
  exact exploration.agree testBit_all shadow_live hknown s

end HCServer.Uris
