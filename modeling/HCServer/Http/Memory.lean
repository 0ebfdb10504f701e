import HCServer.Http.Request
import HCServer.Lib.Lockstep

/-! `HttpRequestParser` in the memory that it is constructed in. `http_parser_init` sets neither
`query_start` nor `uri_relaxed`. -/
namespace HCServer.Http
open Lib

/-- `http_parser` as it lies in memory, but for its pointers. -/
structure HttpParserMemory where
  cs : Nat
  bodyStart : Nat
  contentLen : Nat
  nread : Nat
  mark : Nat
  fieldStart : Nat
  fieldLen : Nat
  queryStart : Nat
  xmlSent : Nat
  jsonSent : Nat
  uriRelaxed : Nat

/-- `http_parser_init` -/
def HttpParserMemory.init (m : HttpParserMemory) : HttpParserMemory :=
  { m with
    cs := httpParserStart
    bodyStart := 0
    contentLen := 0
    mark := 0
    nread := 0
    fieldLen := 0
    fieldStart := 0
    xmlSent := 0
    jsonSent := 0 }

/-- An `HttpRequestParser` with what `done` reads and writes of its `http_parser` besides. Of
`content_len` and `nread` no call reads what is there before it. -/
structure PlacedParser where
  parser : HttpRequestParser
  bodyStart : Nat
  xmlSent : Bool
  jsonSent : Bool

/-- `HttpRequestParser::HttpRequestParser` -/
def HttpParserMemory.construct (m : HttpParserMemory) : PlacedParser :=
  let parser := m.init
  { parser :=
      { cs := parser.cs
        mark := parser.mark
        fieldStart := parser.fieldStart
        fieldLen := parser.fieldLen
        queryStart := parser.queryStart
        uriRelaxed := parser.uriRelaxed != 0
        data := {}
        error := 0 }
    bodyStart := parser.bodyStart
    xmlSent := parser.xmlSent != 0
    jsonSent := parser.jsonSent != 0 }

structure PlacedScan where
  scan : Scan
  bodyStart : Nat
  xmlSent : Bool
  jsonSent : Bool

namespace PlacedScan

def feed (s : PlacedScan) (b : UInt8) : PlacedScan := { s with scan := s.scan.feed b }

def perform (s : PlacedScan) : Action → Option PlacedScan
  | .xml => some { s with xmlSent := true }
  | .json => some { s with jsonSent := true }
  | .done =>
    some { s with
      bodyStart := if s.xmlSent || s.jsonSent then s.scan.parser.mark else s.scan.seen.length + 1 }
  | a => (s.scan.perform a).map fun scan => { s with scan }

end PlacedScan

/-- The parser behind the loop, with the state that is stored. -/
def PlacedScan.stop (s : PlacedScan) (cs : Nat) : PlacedParser :=
  { parser := { s.scan.parser with cs }
    bodyStart := s.bodyStart
    xmlSent := s.xmlSent
    jsonSent := s.jsonSent }

namespace PlacedParser
variable (p : PlacedParser)

/-- The parser before the loop. -/
def start : PlacedScan := ⟨⟨p.parser.rewind, []⟩, p.bodyStart, p.xmlSent, p.jsonSent⟩

/-- The assertion on `body_start` fails where an earlier call has set it and this buffer is shorter. -/
def httpParserExecute (buffer : Bytes) : Option (PlacedParser × Nat) :=
  if buffer.length = 0 then some (p, 0)
  else
    ((httpParser p.parser.uriRelaxed).run PlacedScan.perform PlacedScan.feed p.parser.cs p.start
        buffer).bind fun r =>
      if r.2.bodyStart ≤ buffer.length then
        some (r.2.stop (if p.parser.cs = httpParserError then p.parser.cs else Status.cs r.1),
          r.2.scan.seen.length)
      else none

/-- What the caller has of one call. -/
structure Outcome where
  consumed : Nat
  hasError : Bool
  isFinished : Bool
  data : HttpRequest
  deriving DecidableEq

def outcome (consumed : Nat) : Outcome :=
  ⟨consumed, p.parser.hasError, p.parser.isFinished, p.parser.data⟩

/-- Up to a call that does not return. -/
def calls (p : PlacedParser) : List Bytes → List (Option Outcome)
  | [] => []
  | buffer :: buffers =>
    match p.httpParserExecute buffer with
    | none => [none]
    | some (p', consumed) => some (p'.outcome consumed) :: p'.calls buffers

end PlacedParser

/-! ### The table -/

/-- The edge on `b` is another one where `uri_relaxed` is `r₁` than where it is `r₀`. -/
def Differ (r₀ r₁ : Bool) (q : Nat) (b : UInt8) : Prop :=
  (httpParser r₀).next q b ≠ (httpParser r₁).next q b

/-- States inside a query. -/
def inQuery (q : Nat) : Bool := [30, 31, 32].contains q

/-- States behind the request line, and the error state. -/
def headed (q : Nat) : Bool := [0, 13, 14, 15, 16, 17, 18, 348, 349].contains q

/-- Whether `query_start` is set behind the actions, when it is `known` before them whether it is;
`none` where it is read unset. -/
def knows : Bool → List Action → Option Bool
  | known, [] => some known
  | _, .startQuery :: acts => knows true acts
  | known, .queryString :: acts => if known then knows known acts else none
  | known, _ :: acts => knows known acts

/-- An edge of the table without `more_delims` as the table with them has it. -/
def relax (e : Edge Action) : Edge Action :=
  if e.ranges.isEmpty then { e with ranges := RequestTable.moreDelims true } else e

/-- An edge reads `query_start` only where it is set, into a query only sets it, and leads behind the
request line from there and with `done`; `more_delims` are not there. -/
def okEdge (q : Nat) (e : Edge Action) : Bool :=
  (match knows (inQuery q) e.acts with
    | some known => !inQuery e.target || known
    | none => false) &&
  (!headed q && !e.acts.contains .done || headed e.target) &&
  (!headed q || !e.ranges.isEmpty)

/-- Where `more_delims` are, no other edge has any of them. -/
def okRow (row : Nat × List (Edge Action)) : Bool :=
  row.2.all (okEdge row.1) && (!row.2.any (·.ranges.isEmpty) ||
    row.2.all fun e => !e.fires 94 && !e.fires 123 && !e.fires 125)

theorem httpParserTable_ok : ∀ row ∈ httpParserTable false, okRow row = true := by decide +kernel

theorem httpParserTable_relaxed :
    httpParserTable true = (httpParserTable false).map fun row => (row.1, row.2.map relax) := by
  decide +kernel

theorem relax_acts (e : Edge Action) : (relax e).acts = e.acts := by
  unfold relax
  split <;> rfl

theorem relax_target (e : Edge Action) : (relax e).target = e.target := by
  unfold relax
  split <;> rfl

theorem lookup_relaxed (q : Nat) :
    (httpParserTable true).lookup q = ((httpParserTable false).lookup q).map (·.map relax) := by
  rw [httpParserTable_relaxed]
  induction httpParserTable false with
  | nil => rfl
  | cons row rows ih =>
      rw [List.map_cons, List.lookup_cons, List.lookup_cons]
      cases q == row.1
      · exact ih
      · rfl

theorem lookup_ok {q : Nat} {es : List (Edge Action)} (h : (httpParserTable false).lookup q = some es) :
    okRow (q, es) = true := by
  obtain ⟨before, after, hrows, _⟩ := List.lookup_eq_some_iff.mp h
  exact httpParserTable_ok _ (hrows ▸ List.mem_append_right before List.mem_cons_self)

/-- Either table's transitions are those of edges of the table without `more_delims`. -/
theorem next_edge {r : Bool} {q q' : Nat} {b : UInt8} {acts : List Action}
    (h : (httpParser r).next q b = some (acts, q')) :
    ∃ e, okEdge q e = true ∧ e.acts = acts ∧ e.target = q' := by
  obtain ⟨es, hrow, e, he, hacts, htarget⟩ := Table.next_mem h
  cases r with
  | false =>
      have hok := httpParserTable_ok _ hrow
      rw [okRow, Bool.and_eq_true] at hok
      exact ⟨e, List.all_eq_true.mp hok.1 e he, hacts, htarget⟩
  | true =>
      rw [httpParserTable_relaxed] at hrow
      obtain ⟨row, hmem, heq⟩ := List.mem_map.mp hrow
      cases heq
      obtain ⟨e, hedge, rfl⟩ := List.mem_map.mp he
      have hok := httpParserTable_ok _ hmem
      rw [okRow, Bool.and_eq_true] at hok
      exact ⟨e, List.all_eq_true.mp hok.1 e hedge, (relax_acts e).symm.trans hacts,
        (relax_target e).symm.trans htarget⟩

theorem next_query {r : Bool} {q q' : Nat} {b : UInt8} {acts : List Action}
    (h : (httpParser r).next q b = some (acts, q')) :
    ∃ known, knows (inQuery q) acts = some known ∧ (inQuery q' = true → known = true) := by
  obtain ⟨e, hok, rfl, rfl⟩ := next_edge h
  rw [okEdge, Bool.and_eq_true, Bool.and_eq_true] at hok
  cases hknows : knows (inQuery q) e.acts with
  | none => simp [hknows] at hok
  | some known =>
      refine ⟨known, rfl, fun hquery => ?_⟩
      simpa [hknows, hquery] using hok.1.1

theorem next_headed {r : Bool} {q q' : Nat} {b : UInt8} {acts : List Action}
    (h : (httpParser r).next q b = some (acts, q')) (hq : headed q = true ∨ .done ∈ acts) :
    headed q' = true := by
  obtain ⟨e, hok, rfl, rfl⟩ := next_edge h
  rw [okEdge, Bool.and_eq_true, Bool.and_eq_true, Bool.or_eq_true] at hok
  refine hok.1.2.resolve_left fun hnone => ?_
  simp only [Bool.and_eq_true, Bool.not_eq_true'] at hnone
  obtain hq | hq := hq
  · rw [hq] at hnone
    cases hnone.1
  · rw [List.contains_iff_mem.mpr hq] at hnone
    cases hnone.2

theorem next_eq_find (r : Bool) (q : Nat) (b : UInt8) : (httpParser r).next q b =
    (((httpParserTable r).lookup q).bind fun es => es.find? fun e => e.fires b).map
      fun e => (e.acts, e.target) := rfl

/-- The bytes of `more_delims`. -/
def delims : List UInt8 := [94, 123, 125]

theorem relax_fires {b : UInt8} (h : b ∉ delims) (e : Edge Action) :
    (relax e).fires b = e.fires b := by
  unfold relax
  split
  · rename_i hempty
    simp only [delims, List.mem_cons, List.not_mem_nil, or_false, not_or, ← UInt8.toNat_inj] at h
    obtain ⟨hcaret, hopen, hclose⟩ := h
    have hnone (n : Nat) (hn : b.toNat ≠ n) : (decide (n ≤ b.toNat) && decide (b.toNat ≤ n)) = false := by
      simp only [Bool.and_eq_false_iff, decide_eq_false_iff_not]
      omega
    rw [Edge.fires, Edge.fires, List.isEmpty_iff.mp hempty]
    simp only [RequestTable.moreDelims, if_true, List.any_cons, List.any_nil, hnone 94 hcaret,
      hnone 123 hopen, hnone 125 hclose, Bool.or_self]
  · rfl

theorem find_relaxed {b : UInt8} (h : b ∉ delims) (es : List (Edge Action)) :
    (es.map relax).find? (fun e => e.fires b) = (es.find? fun e => e.fires b).map relax := by
  induction es with
  | nil => rfl
  | cons e es ih =>
      rw [List.map_cons, List.find?_cons, List.find?_cons, relax_fires h]
      cases e.fires b
      · exact ih
      · rfl

theorem find_delims {b : UInt8} (h : b ∈ delims) {es : List (Edge Action)}
    (hes : (es.all fun e => !e.fires 94 && !e.fires 123 && !e.fires 125) = true) :
    es.find? (fun e => e.fires b) = none := by
  rw [List.find?_eq_none]
  intro e he
  have hfires := List.all_eq_true.mp hes e he
  simp only [Bool.and_eq_true, Bool.not_eq_true'] at hfires
  simp only [delims, List.mem_cons, List.not_mem_nil, or_false] at h
  obtain rfl | rfl | rfl := h
  · rw [hfires.1.1]
    exact Bool.false_ne_true
  · rw [hfires.1.2]
    exact Bool.false_ne_true
  · rw [hfires.2]
    exact Bool.false_ne_true

theorem map_relax_plain {es : List (Edge Action)} (h : (es.any fun e => e.ranges.isEmpty) = false) :
    es.map relax = es := by
  rw [List.any_eq_false] at h
  calc es.map relax
      _ = es.map id := List.map_congr_left fun e he => if_neg (h e he)
      _ = es := List.map_id es

/-- They are the edges on `{`, `}` and `^` in the request line, which only the table with `more_delims`
has. -/
theorem Differ.cases {q : Nat} {b : UInt8} (h : Differ false true q b) :
    b ∈ delims ∧ (httpParser false).next q b = none ∧ headed q = false := by
  rw [Differ, next_eq_find, next_eq_find, lookup_relaxed] at h
  rw [next_eq_find]
  cases hlookup : (httpParserTable false).lookup q with
  | none =>
      rw [hlookup] at h
      exact absurd rfl h
  | some es =>
      have hok := lookup_ok hlookup
      simp only [hlookup, Option.map_some, Option.bind_some] at h ⊢
      rw [okRow, Bool.and_eq_true, Bool.or_eq_true, Bool.not_eq_true'] at hok
      obtain hplain | hdelims := hok.2
      · rw [map_relax_plain hplain] at h
        exact absurd rfl h
      · by_cases hb : b ∈ delims
        · refine ⟨hb, by rw [find_delims hb hdelims, Option.map_none], ?_⟩
          by_contra hq
          have hranges : (es.any fun e => e.ranges.isEmpty) = false := by
            rw [List.any_eq_false]
            intro e he
            have hedge := List.all_eq_true.mp hok.1 e he
            rw [okEdge, Bool.and_eq_true] at hedge
            simpa [Bool.eq_true_of_not_eq_false hq] using hedge.2
          rw [map_relax_plain hranges] at h
          exact absurd rfl h
        · rw [find_relaxed hb, Option.map_map] at h
          refine absurd (congrArg (Option.map · _) (funext fun e => ?_)) h
          simp [relax_acts, relax_target]

/-! ### Two memories -/

/-- With other contents of the two fields that the constructor does not set. -/
def HttpRequestParser.patch (p : HttpRequestParser) (queryStart : Nat) (uriRelaxed : Bool) :
    HttpRequestParser := { p with queryStart, uriRelaxed }

namespace PlacedScan
variable {s t u : PlacedScan} {n : Nat} {r r₀ r₁ : Bool}

def patch (s : PlacedScan) (queryStart : Nat) (uriRelaxed : Bool) : PlacedScan :=
  { s with scan := { s.scan with parser := s.scan.parser.patch queryStart uriRelaxed } }

/-- The same scan but for those fields; `query_start` is in both what it is, when it is `known`. -/
def Alike (r : Bool) (known : Bool) (s t : PlacedScan) : Prop :=
  ∃ n, t = s.patch n r ∧ (known = true → n = s.scan.parser.queryStart)

theorem perform_query (s : PlacedScan) :
    s.perform .queryString = (s.scan.perform .queryString).map fun scan => { s with scan } := rfl

theorem perform_patch {a : Action} (hset : a ≠ .startQuery) (hread : a ≠ .queryString) :
    (s.patch n r).perform a = (s.perform a).map fun u => u.patch n r := by
  cases a
  case startQuery => exact absurd rfl hset
  case queryString => exact absurd rfl hread
  all_goals rfl

/-- The fields that only `PlacedScan` has are not looked at by the rest. -/
theorem perform_scan (s : PlacedScan) (a : Action) :
    (s.perform a).map PlacedScan.scan = s.scan.perform a := by
  cases a
  case queryString =>
    rw [perform_query, Option.map_map]
    exact congrFun Option.map_id _
  all_goals rfl

theorem perform_forget {a : Action} (h : s.perform a = some u) : s.scan.perform a = some u.scan := by
  rw [← perform_scan, h, Option.map_some]

theorem perform_queryStart {a : Action} (hset : a ≠ .startQuery) (h : s.perform a = some u) :
    u.scan.parser.queryStart = s.scan.parser.queryStart := by
  have hscan := perform_forget h
  cases a
  case startQuery => exact absurd rfl hset
  case queryString =>
    obtain ⟨_, hscan⟩ := Option.ite_none_right_eq_some.mp hscan
    exact congrArg (fun v => v.parser.queryStart) (Option.some.inj hscan).symm
  all_goals exact congrArg (fun v => v.parser.queryStart) (Option.some.inj hscan).symm

theorem alike_perform {a : Action} {known : Bool} (h : Alike r known s t) (hset : a ≠ .startQuery)
    (hread : a = .queryString → known = true) :
    Option.Rel (Alike r known) (s.perform a) (t.perform a) := by
  obtain ⟨n, rfl, hn⟩ := h
  have hpatch : (s.patch n r).perform a = (s.perform a).map fun u => u.patch n r := by
    by_cases ha : a = .queryString
    · have hn := hn (hread ha)
      subst hn
      subst ha
      by_cases hle : s.scan.parser.queryStart ≤ s.scan.seen.length
      · have hs : s.scan.perform .queryString = some _ := if_pos hle
        have ht : (s.patch s.scan.parser.queryStart r).scan.perform .queryString = some _ := if_pos hle
        rw [perform_query, perform_query, hs, ht]
        rfl
      · have hs : s.scan.perform .queryString = none := if_neg hle
        have ht : (s.patch s.scan.parser.queryStart r).scan.perform .queryString = none := if_neg hle
        rw [perform_query, perform_query, hs, ht]
        rfl
    · exact perform_patch hset ha
  rw [hpatch]
  cases hs : s.perform a with
  | none => exact Option.Rel.none
  | some u => exact Option.Rel.some ⟨n, rfl, fun hk => (hn hk).trans (perform_queryStart hset hs).symm⟩

theorem alike_exec {acts : List Action} {known known' : Bool} (h : Alike r known s t)
    (hacts : knows known acts = some known') :
    Option.Rel (Alike r known') (exec perform s acts) (exec perform t acts) := by
  induction acts generalizing known s t with
  | nil =>
      cases hacts
      exact Option.Rel.some h
  | cons a acts ih =>
      by_cases hset : a = .startQuery
      · subst hset
        obtain ⟨n, rfl, _⟩ := h
        exact ih ⟨_, rfl, fun _ => rfl⟩ hacts
      · have hread : a = .queryString → known = true := by
          rintro rfl
          rw [knows] at hacts
          by_contra hk
          rw [if_neg hk] at hacts
          cases hacts
        have hrest : knows known acts = some known' := by
          cases a
          case startQuery => exact absurd rfl hset
          case queryString => rwa [knows, if_pos (hread rfl)] at hacts
          all_goals exact hacts
        have hstep := alike_perform h hset hread
        simp only [exec]
        generalize s.perform a = x at hstep
        generalize t.perform a = y at hstep
        cases hstep with
        | none => exact Option.Rel.none
        | some h' => exact ih h' hrest

theorem exec_relaxed {acts : List Action} (h : exec perform s acts = some u) :
    u.scan.parser.uriRelaxed = s.scan.parser.uriRelaxed :=
  exec_invariant (I := fun v => v.scan.parser.uriRelaxed = s.scan.parser.uriRelaxed)
    (fun _ _ _ hv hperform => (Scan.perform_frame (perform_forget hperform)).2.trans hv) rfl h

/-- Only `done` sets `body_start`. -/
theorem perform_bodyStart {a : Action} (hdone : a ≠ .done) (h : s.perform a = some u) :
    u.bodyStart = s.bodyStart := by
  cases a
  case done => exact absurd rfl hdone
  case queryString =>
    obtain ⟨_, _, rfl⟩ := Option.map_eq_some_iff.mp h
    rfl
  all_goals
    cases h
    rfl

theorem exec_bodyStart {acts : List Action} (hdone : .done ∉ acts)
    (h : exec perform s acts = some u) : u.bodyStart = s.bodyStart := by
  induction acts generalizing s with
  | nil =>
      cases h
      rfl
  | cons a acts ih =>
      obtain ⟨v, hv, hrest⟩ := exec_cons h
      have ha : a ≠ .done := fun ha => hdone (by simp [ha])
      rw [ih (fun hmem => hdone (List.mem_cons_of_mem a hmem)) hrest, perform_bodyStart ha hv]

/-- Two scans in the state `q`, with `r₀` and `r₁` for `uri_relaxed`. `body_start` is set behind the
request line only. -/
structure Beside (r₀ r₁ : Bool) (q : Nat) (s t : PlacedScan) : Prop where
  alike : Alike r₁ (inQuery q) s t
  relaxed : s.scan.parser.uriRelaxed = r₀
  body : s.bodyStart = 0 ∨ headed q = true

theorem lockstep (r₀ r₁ : Bool) : Transducer.Lockstep (httpParser r₀) (httpParser r₁) perform feed
    (Differ r₀ r₁) (Beside r₀ r₁) where
  next q b hsame := (not_not.mp hsame).symm
  halts := rfl
  edge := by
    intro q b acts q' s t hnext hbeside
    obtain ⟨known, hknows, hquery⟩ := next_query hnext
    have hexec := alike_exec hbeside.alike hknows
    generalize hs : exec perform s acts = x at hexec
    generalize exec perform t acts = y at hexec
    cases hexec with
    | none => exact Option.Rel.none
    | some halike =>
        obtain ⟨n, rfl, hn⟩ := halike
        refine Option.Rel.some ⟨⟨n, rfl, fun hk => hn (hquery hk)⟩,
          (exec_relaxed hs).trans hbeside.relaxed, ?_⟩
        by_cases hdone : .done ∈ acts
        · exact .inr (next_headed hnext (.inr hdone))
        · obtain hzero | hheaded := hbeside.body
          · exact .inl ((exec_bodyStart hdone hs).trans hzero)
          · exact .inr (next_headed hnext (.inl hheaded))

theorem run_forget {q : Nat} {bs : Bytes} {st : Status Nat}
    (h : (httpParser r).run perform feed q s bs = some (st, u)) :
    (httpParser r).run Scan.perform Scan.feed q s.scan bs = some (st, u.scan) := by
  have hfeed (s : PlacedScan) (b : UInt8) : (s.feed b).scan = s.scan.feed b := rfl
  rw [← Transducer.run_map perform_scan hfeed, h]
  rfl

/-- The byte that an edge is found for is consumed. -/
theorem run_seen {q : Nat} {b : UInt8} {bs : Bytes} {st : Status Nat}
    (hnext : (httpParser r).next q b ≠ none)
    (h : (httpParser r).run perform feed q s (b :: bs) = some (st, u)) :
    s.scan.seen.length < u.scan.seen.length := by
  have hscan := run_forget h
  rw [Transducer.run_eq_ops] at hscan
  obtain ⟨v, hv, heq⟩ := Option.map_eq_some_iff.mp hscan
  obtain ⟨_, rfl⟩ := Prod.mk.inj heq
  obtain ⟨e, hedge⟩ := Option.ne_none_iff_exists'.mp hnext
  rw [Scan.exec_seen hv, List.length_append, Transducer.ops, hedge]
  simp [Transducer.fed_acts, Transducer.fed]

end PlacedScan

namespace PlacedParser
open PlacedScan (Beside perform feed)
variable {p p' : PlacedParser} {r₀ r₁ : Bool}

/-- The calls of this model are those of `HttpRequestParser`, as long as the assertion holds. -/
theorem execute_forget {buffer : Bytes} {consumed : Nat}
    (h : p.httpParserExecute buffer = some (p', consumed)) :
    p.parser.httpParserExecute buffer = some (p'.parser, consumed) := by
  unfold httpParserExecute at h
  unfold HttpRequestParser.httpParserExecute
  split at h
  · rename_i hlength
    cases h
    rw [if_pos hlength]
  · rename_i hlength
    obtain ⟨⟨st, u⟩, hrun, hstop⟩ := Option.bind_eq_some_iff.mp h
    obtain ⟨_, hstop⟩ := Option.ite_none_right_eq_some.mp hstop
    cases hstop
    have hscan := PlacedScan.run_forget hrun
    rw [if_neg hlength]
    exact congrArg (Option.map _) hscan

def patch (p : PlacedParser) (queryStart : Nat) (uriRelaxed : Bool) : PlacedParser :=
  { p with parser := p.parser.patch queryStart uriRelaxed }

/-- Two parsers between calls. -/
structure Alongside (r₀ r₁ : Bool) (p p' : PlacedParser) : Prop where
  patched : ∃ n, p' = p.patch n r₁ ∧ (inQuery p.parser.cs = true → n = p.parser.queryStart)
  relaxed : p.parser.uriRelaxed = r₀
  body : p.bodyStart = 0 ∨ headed p.parser.cs = true

namespace Alongside

theorem start (h : Alongside r₀ r₁ p p') : Beside r₀ r₁ p.parser.cs p.start p'.start := by
  obtain ⟨n, rfl, hn⟩ := h.patched
  exact ⟨⟨n, rfl, hn⟩, h.relaxed, h.body⟩

theorem stop {q cs : Nat} {s t : PlacedScan} (h : Beside r₀ r₁ q s t)
    (hcs : cs = httpParserError ∨ cs = q) : Alongside r₀ r₁ (s.stop cs) (t.stop cs) := by
  obtain ⟨n, rfl, hn⟩ := h.alike
  obtain rfl | rfl := hcs
  · exact ⟨⟨n, rfl, fun hquery => by cases hquery⟩, h.relaxed, .inr rfl⟩
  · exact ⟨⟨n, rfl, hn⟩, h.relaxed, h.body⟩

theorem cs_eq (h : Alongside r₀ r₁ p p') : p'.parser.cs = p.parser.cs := by
  obtain ⟨n, rfl, _⟩ := h.patched
  rfl

theorem relaxed_eq (h : Alongside r₀ r₁ p p') : p'.parser.uriRelaxed = r₁ := by
  obtain ⟨n, rfl, _⟩ := h.patched
  rfl

theorem outcome_eq (h : Alongside r₀ r₁ p p') (consumed : Nat) :
    p'.outcome consumed = p.outcome consumed := by
  obtain ⟨n, rfl, _⟩ := h.patched
  rfl

/-- The step: one call. -/
theorem execute (h : Alongside r₀ r₁ p p') {buffer : Bytes}
    (havoids : (httpParser r₀).Avoids perform feed (Differ r₀ r₁) p.parser.cs p.start buffer) :
    Option.Rel (fun x y => x.2 = y.2 ∧ Alongside r₀ r₁ x.1 y.1) (p.httpParserExecute buffer)
      (p'.httpParserExecute buffer) := by
  unfold httpParserExecute
  split
  · exact Option.Rel.some ⟨rfl, h⟩
  · have hrun := (PlacedScan.lockstep r₀ r₁).run h.start havoids
    rw [h.relaxed, h.relaxed_eq, h.cs_eq]
    generalize (httpParser r₀).run perform feed p.parser.cs p.start buffer = x at hrun ⊢
    generalize (httpParser r₁).run perform feed p.parser.cs p'.start buffer = y at hrun ⊢
    cases hrun with
    | none => exact Option.Rel.none
    | @some x y hxy =>
        obtain ⟨st, s⟩ := x
        obtain ⟨st', t⟩ := y
        obtain ⟨hst, hrelated⟩ := hxy
        obtain rfl : st = st' := hst
        obtain ⟨q, hbeside, hcs⟩ : ∃ q, Beside r₀ r₁ q s t ∧
            (Status.cs st = httpParserError ∨ Status.cs st = q) := by
          cases hrelated with
          | @running q s t h => exact ⟨q, h, .inr rfl⟩
          | @halted q s t h => exact ⟨q, h, .inr rfl⟩
          | @stuck q s t h => exact ⟨q, h, .inl rfl⟩
        have hstored : (if p.parser.cs = httpParserError then p.parser.cs else Status.cs st) =
            httpParserError ∨
            (if p.parser.cs = httpParserError then p.parser.cs else Status.cs st) = q := by
          split
          · rename_i herror
            exact .inl herror
          · exact hcs
        have hstop := stop hbeside hstored
        obtain ⟨n, rfl, _⟩ := hbeside.alike
        simp only [Option.bind_some]
        by_cases hbody : s.bodyStart ≤ buffer.length
        · rw [if_pos hbody, if_pos (show (s.patch n r₁).bodyStart ≤ buffer.length from hbody)]
          exact Option.Rel.some ⟨rfl, hstop⟩
        · rw [if_neg hbody, if_neg (show ¬ (s.patch n r₁).bodyStart ≤ buffer.length from hbody)]
          exact Option.Rel.none

end Alongside

/-- No call meets a byte that `G` holds of in the state that it is in then. -/
def Unmet (G : Nat → UInt8 → Prop) (p : PlacedParser) : List Bytes → Prop
  | [] => True
  | buffer :: buffers =>
    (httpParser p.parser.uriRelaxed).Avoids perform feed G p.parser.cs p.start buffer ∧
      ∀ p' consumed, p.httpParserExecute buffer = some (p', consumed) → Unmet G p' buffers

theorem unmet_of_absent {G : Nat → UInt8 → Prop} {buffers : List Bytes}
    (h : ∀ buffer ∈ buffers, ∀ b ∈ buffer, ∀ q, ¬ G q b) (p : PlacedParser) : Unmet G p buffers := by
  induction buffers generalizing p with
  | nil => trivial
  | cons buffer buffers ih =>
      have hrest := fun xs hxs => h xs (List.mem_cons_of_mem buffer hxs)
      exact ⟨Transducer.avoids_of_unguarded (h buffer List.mem_cons_self) _ _, fun p' _ _ => ih hrest p'⟩

/-- Without these three bytes in the buffers the parser does not depend on its memory. -/
theorem unmet_of_plain {buffers : List Bytes} (h : ∀ buffer ∈ buffers, ∀ b ∈ buffer, b ∉ delims)
    (p : PlacedParser) : Unmet (Differ false true) p buffers :=
  unmet_of_absent (fun buffer hbuffer b hb _ hdiffer => h buffer hbuffer b hb hdiffer.cases.1) p

/-- The run: any number of calls. -/
theorem Alongside.calls_eq (h : Alongside r₀ r₁ p p') {buffers : List Bytes}
    (hunmet : Unmet (Differ r₀ r₁) p buffers) : p'.calls buffers = p.calls buffers := by
  induction buffers generalizing p p' with
  | nil => rfl
  | cons buffer buffers ih =>
      obtain ⟨havoids, hlater⟩ := hunmet
      rw [← h.relaxed] at havoids
      have hexecute := h.execute (h.relaxed ▸ havoids)
      rw [calls, calls]
      generalize hp : p.httpParserExecute buffer = x at hexecute ⊢
      generalize p'.httpParserExecute buffer = y at hexecute ⊢
      cases hexecute with
      | none => rfl
      | @some x y hxy =>
          obtain ⟨p₁, consumed⟩ := x
          obtain ⟨p₁', consumed'⟩ := y
          obtain ⟨hconsumed, hstep⟩ := hxy
          obtain rfl : consumed = consumed' := hconsumed
          dsimp only
          rw [hstep.outcome_eq, ih hstep (hlater p₁ consumed hp)]

/-- A byte that the edges differ on ends the call in front of it without `uri_relaxed`, and not with it. -/
theorem Alongside.execute_met (h : Alongside false true p p') {buffer : Bytes}
    (hmet : ¬ (httpParser false).Avoids perform feed (Differ false true) p.parser.cs p.start buffer) :
    ∃ p₁ consumed, p.httpParserExecute buffer = some (p₁, consumed) ∧
      ∀ p₁', p'.httpParserExecute buffer ≠ some (p₁', consumed) := by
  obtain ⟨xs, b, ys, q, s, rfl, havoids, hrun, hdiffer⟩ := Transducer.split_of_not_avoids hmet
  obtain ⟨_, hstuck, hline⟩ := hdiffer.cases
  have hrelated := (PlacedScan.lockstep false true).run h.start havoids
  rw [hrun] at hrelated
  generalize hrun' : (httpParser true).run perform feed p.parser.cs p'.start xs = y at hrelated
  cases hrelated with
  | @some _ y hy =>
      obtain ⟨st, t⟩ := y
      obtain ⟨hst, hrelated⟩ := hy
      obtain rfl : _ = st := hst
      cases hrelated with
      | running hbeside =>
          have hzero : s.bodyStart = 0 := hbeside.body.resolve_right fun hheaded => by
            rw [hline] at hheaded
            cases hheaded
          have hnil : ¬ (xs ++ b :: ys).length = 0 := by simp
          have hstrict : p.httpParserExecute (xs ++ b :: ys) =
              some (s.stop (if p.parser.cs = httpParserError then p.parser.cs else httpParserError),
                s.scan.seen.length) := by
            rw [httpParserExecute, if_neg hnil, h.relaxed, Transducer.run_append hrun, Transducer.run,
              hstuck]
            simp only [Option.bind_some, hzero, Nat.zero_le, if_true]
            rfl
          refine ⟨_, _, hstrict, ?_⟩
          intro p₁' hp₁'
          rw [httpParserExecute, if_neg hnil, h.relaxed_eq, h.cs_eq, Transducer.run_append hrun'] at hp₁'
          obtain ⟨⟨st, u⟩, hu, hstop⟩ := Option.bind_eq_some_iff.mp hp₁'
          obtain ⟨_, hstop⟩ := Option.ite_none_right_eq_some.mp hstop
          have hnext : (httpParser true).next q b ≠ none := fun hnone => hdiffer (hstuck.trans hnone.symm)
          have hlt := PlacedScan.run_seen hnext hu
          obtain ⟨n, rfl, _⟩ := hbeside.alike
          have hlength : u.scan.seen.length = s.scan.seen.length := (Prod.mk.inj (Option.some.inj hstop)).2
          exact absurd hlength (Nat.ne_of_gt hlt)

theorem Alongside.calls_ne (h : Alongside false true p p') {buffers : List Bytes}
    (hmet : ¬ Unmet (Differ false true) p buffers) : p.calls buffers ≠ p'.calls buffers := by
  induction buffers generalizing p p' with
  | nil => exact absurd trivial hmet
  | cons buffer buffers ih =>
      rw [Unmet, h.relaxed] at hmet
      by_cases havoids : (httpParser false).Avoids perform feed (Differ false true) p.parser.cs p.start
        buffer
      · rw [and_iff_right havoids] at hmet
        push Not at hmet
        obtain ⟨p₁, consumed, hp, hlater⟩ := hmet
        have hexecute := h.execute havoids
        rw [calls, calls, hp]
        rw [hp] at hexecute
        generalize p'.httpParserExecute buffer = y at hexecute ⊢
        cases hexecute with
        | @some _ y hy =>
            obtain ⟨p₁', consumed'⟩ := y
            intro heq
            exact ih hy.2 hlater (List.cons.inj heq).2
      · obtain ⟨p₁, consumed, hp, hne⟩ := h.execute_met havoids
        rw [calls, calls, hp]
        cases hp' : p'.httpParserExecute buffer with
        | none =>
            intro heq
            cases (List.cons.inj heq).1
        | some y =>
            obtain ⟨p₁', consumed'⟩ := y
            intro heq
            have hconsumed : consumed = consumed' :=
              congrArg Outcome.consumed (Option.some.inj (List.cons.inj heq).1)
            subst hconsumed
            exact hne p₁' hp'

end PlacedParser

namespace HttpParserMemory
open PlacedParser (Alongside Unmet)

theorem construct_alongside (m m' : HttpParserMemory) :
    Alongside (m.uriRelaxed != 0) (m'.uriRelaxed != 0) m.construct m'.construct :=
  ⟨⟨m'.queryStart, rfl, fun hquery => by cases hquery⟩, rfl, .inl rfl⟩

/-- What was in `query_start`, and anywhere but in `uri_relaxed`, makes no difference. -/
theorem calls_of_relaxed_eq {m m' : HttpParserMemory}
    (h : (m.uriRelaxed != 0) = (m'.uriRelaxed != 0)) (buffers : List Bytes) :
    m'.construct.calls buffers = m.construct.calls buffers := by
  refine (construct_alongside m m').calls_eq (PlacedParser.unmet_of_absent ?_ _)
  intro _ _ b _ q hdiffer
  rw [Differ, h] at hdiffer
  exact hdiffer rfl

def zeroed : HttpParserMemory := ⟨0, 0, 0, 0, 0, 0, 0, 0, 0, 0, 0⟩

/-- What the caller has of the calls is the same in all memories where none of them meets a `{`, `}` or
`^` that `uri_relaxed` decides on. -/
theorem calls_eq_iff (buffers : List Bytes) :
    (∀ m m' : HttpParserMemory, m.construct.calls buffers = m'.construct.calls buffers) ↔
      Unmet (Differ false true) zeroed.construct buffers := by
  constructor
  · intro h
    by_contra hmet
    exact (construct_alongside zeroed { zeroed with uriRelaxed := 1 }).calls_ne hmet (h _ _)
  · intro hunmet
    have hzeroed (m : HttpParserMemory) : m.construct.calls buffers = zeroed.construct.calls buffers := by
      have halongside := construct_alongside zeroed m
      cases hm : m.uriRelaxed != 0
      · exact calls_of_relaxed_eq (m := zeroed) hm.symm buffers
      · rw [hm] at halongside
        exact halongside.calls_eq hunmet
    intro m m'
    rw [hzeroed m, hzeroed m']

/-- The request line with the path `/{` is refused at the brace, or taken, as the memory has it. -/
theorem brace_by_memory : ¬ ∀ (buffers : List Bytes) (m m' : HttpParserMemory),
    m.construct.calls buffers = m'.construct.calls buffers := by
  intro h
  have hcalls := h [bytes "GET /\x7b HTTP/1.1\r\n\r\n"] zeroed { zeroed with uriRelaxed := 1 }
  exact absurd hcalls (by decide +kernel)

end HttpParserMemory

end HCServer.Http
