import HCServer.Uri.Acceptance

/-! What the machine does with `mark`, in terms of where in the text it is. Each state stands in one
phase, and the phase before a byte and the byte determine the actions and the phase after it. -/
namespace HCServer.Uris
open Lib
open Http (Bytes Status.cs)

/-- The phases of an authority carry whether a scheme went before, since only then is the path
saved. -/
inductive Phase
  | start
  | first
  | hier
  | hslash
  | rslash
  | path (saved : Bool)
  | query0
  | query
  | frag0
  | frag
  | auth0 (saved : Bool)
  | name (saved : Bool)
  | literal (saved : Bool)
  | colon0 (saved : Bool)
  | digits (saved : Bool)
  | user (saved : Bool)
  deriving DecidableEq, Repr

namespace Phase

def isDigit (n : Nat) : Bool := (48).ble n && n.ble 57

def isAlpha (n : Nat) : Bool := (65).ble n && n.ble 90 || (97).ble n && n.ble 122

def isScheme (n : Nat) : Bool := isAlpha n || isDigit n || n.beq 43 || n.beq 45 || n.beq 46

/-- Whether a byte ends the path. -/
def endsPath (n : Nat) : Bool := n.beq 63 || n.beq 35

/-- Whether a byte ends the authority. -/
def endsAuthority (n : Nat) : Bool := n.beq 47 || endsPath n

/-- The phase of a byte of the path or after it. -/
def follow (saved : Bool) (n : Nat) : Phase :=
  bif n.beq 63 then query0 else bif n.beq 35 then frag0 else path saved

/-- The end of an authority, with the actions for it and those that set `mark` to the path. -/
def leave (saved : Bool) (acts start : List Action) (n : Nat) : List Action × Phase :=
  (bif saved then acts ++ start ++ (bif endsPath n then [.savePath] else []) else acts,
    follow saved n)

def step : Phase → Nat → List Action × Phase
  | start, n =>
    bif isAlpha n then ([.marku], first) else bif n.beq 47 then ([], rslash)
    else ([], follow false n)
  | first, n =>
    bif n.beq 58 then ([.saveScheme], hier) else bif isScheme n then ([], first)
    else ([], follow false n)
  | hier, n => bif n.beq 47 then ([], hslash) else ([], follow false n)
  | hslash, n => bif n.beq 47 then ([], auth0 true) else ([], follow false n)
  | rslash, n => bif n.beq 47 then ([], auth0 false) else ([], follow false n)
  | path saved, n => (bif saved && endsPath n then [.savePath] else [], follow saved n)
  | query0, n => bif n.beq 35 then ([.marku, .saveQuery], frag0) else ([.marku], query)
  | query, n => bif n.beq 35 then ([.saveQuery], frag0) else ([], query)
  | frag0, _ => ([.marku], frag)
  | frag, _ => ([], frag)
  | auth0 saved, n =>
    bif endsAuthority n then leave saved [.markh, .saveHost] [] n
    else bif n.beq 58 then ([.markh, .saveHost], colon0 saved)
    else bif n.beq 64 then ([.markh, .saveUserinfo], auth0 saved)
    else ([.markh], bif n.beq 91 then literal saved else name saved)
  | name saved, n =>
    bif endsAuthority n then leave saved [.saveHost] [.markh] n
    else bif n.beq 58 then ([.saveHost], colon0 saved)
    else bif n.beq 64 then ([.saveUserinfo], auth0 saved) else ([], name saved)
  | literal saved, n => ([], bif n.beq 93 then name saved else literal saved)
  | colon0 saved, n =>
    bif endsAuthority n then leave saved [.markh, .savePort] [] n
    else bif n.beq 64 then ([.saveUserinfo], auth0 saved)
    else bif isDigit n then ([.markh], digits saved) else ([], user saved)
  | digits saved, n =>
    bif endsAuthority n then leave saved [.savePort] [.markh] n
    else bif n.beq 64 then ([.saveUserinfo], auth0 saved)
    else ([], bif isDigit n then digits saved else user saved)
  | user saved, n => bif n.beq 64 then ([.saveUserinfo], auth0 saved) else ([], user saved)

/-- What is left to do at the end of the text. -/
def eof : Phase → List Action
  | path true => [.savePath]
  | query0 => [.marku, .saveQuery]
  | query => [.saveQuery]
  | frag0 => [.marku, .saveFragment]
  | frag => [.saveFragment]
  | auth0 saved => [.markh, .saveHost] ++ bif saved then [.savePath] else []
  | name saved => [.saveHost] ++ bif saved then [.markh, .savePath] else []
  | colon0 saved => [.markh, .savePort] ++ bif saved then [.savePath] else []
  | digits saved => [.savePort] ++ bif saved then [.markh, .savePath] else []
  | _ => []

end Phase

/-! ### The phase of a state -/

/-- How many states in a row are in a phase, from state 0 on. -/
def phaseRuns : List (Nat × Phase) :=
  [(1, .start), (2, .frag), (4, .path false), (2, .query), (24, .name false), (3, .user false),
    (2, .name false), (191, .literal false), (14, .name true), (2, .path true), (10, .name true),
    (3, .user true), (2, .name true), (191, .literal true), (1, .start), (1, .path false),
    (1, .frag0), (1, .frag), (1, .path false), (1, .query0), (1, .query), (1, .rslash),
    (1, .auth0 false), (1, .name false), (1, .colon0 false), (1, .digits false), (5, .name false),
    (1, .colon0 false), (1, .auth0 false), (19, .name false), (1, .digits false),
    (18, .name false), (1, .first), (1, .hier), (1, .hslash), (1, .auth0 true), (1, .name true),
    (1, .path true), (1, .colon0 true), (1, .digits true), (5, .name true), (1, .colon0 true),
    (1, .auth0 true), (19, .name true), (1, .digits true), (18, .name true)]

def phaseTree : Graph.Tree Phase :=
  Graph.Tree.built .start 10 0 (phaseRuns.flatMap fun r => List.replicate r.1 r.2) fun t _ => t

def phaseOf (q : Nat) : Phase := phaseTree.get q

def allPhases : List Phase :=
  [.start, .first, .hier, .hslash, .rslash, .query0, .query, .frag0, .frag] ++
    [false, true].flatMap fun saved =>
      [.path saved, .auth0 saved, .name saved, .literal saved, .colon0 saved, .digits saved,
        .user saved]

theorem mem_allPhases (P : Phase) : P ∈ allPhases := by
  cases P with
  | path saved => cases saved <;> decide
  | auth0 saved => cases saved <;> decide
  | name saved => cases saved <;> decide
  | literal saved => cases saved <;> decide
  | colon0 saved => cases saved <;> decide
  | digits saved => cases saved <;> decide
  | user saved => cases saved <;> decide
  | _ => decide

/-- Bytes of one kind lead to the same. -/
theorem step_sample (P : Phase) (b : UInt8) :
    P.step (samples.getD (kind b) 0) = P.step b.toNat := by
  have hall : (intervals.all fun i => (List.range' i.1 (i.2.1 + 1 - i.1)).all fun n =>
      allPhases.all fun P => P.step (samples.getD i.2.2 0) == P.step n) = true := by
    decide +kernel
  obtain ⟨i, hi, hlo, hhi, hkind, -⟩ := exists_interval b
  have hn := List.all_eq_true.mp (List.all_eq_true.mp hall i hi) b.toNat
    (List.mem_range'_1.mpr ⟨hlo, by omega⟩)
  rw [hkind]
  exact eq_of_beq (List.all_eq_true.mp hn P (mem_allPhases P))

/-- The edges of a state in phase `P` agree with `P`, each on the kinds of `rest` that it is the
first to take. -/
def agrees (P : Phase) : Nat → List (Edge Action) → Bool
  | _, [] => true
  | rest, ⟨rs, acts, t⟩ :: es =>
    Graph.force (rest &&& kindsOf rs) fun g =>
      ((List.range 24).all fun k =>
        !g.testBit k || P.step (samples.getD k 0) == (acts, phaseOf t)) &&
      Graph.force (rest ^^^ g) fun rest => agrees P rest es

theorem step_of_agrees {P : Phase} {rest k : Nat} {es : List (Edge Action)} {e : Edge Action}
    (h : agrees P rest es = true) (hk : k < 24) (hrest : rest.testBit k = true)
    (hfind : (es.find? fun e => (kindsOf e.ranges).testBit k) = some e) :
    P.step (samples.getD k 0) = (e.acts, phaseOf e.target) := by
  induction es generalizing rest with
  | nil => cases hfind
  | cons e' es ih =>
      obtain ⟨rs, acts, t⟩ := e'
      rw [agrees, Graph.force_eq, Graph.force_eq] at h
      obtain ⟨hedge, hes⟩ := Bool.and_eq_true_iff.mp h
      cases hbit : (kindsOf rs).testBit k with
      | true =>
          rw [List.find?_cons_of_pos (by simp [hbit])] at hfind
          cases hfind
          have hstep := List.all_eq_true.mp hedge k (List.mem_range.mpr hk)
          rw [Nat.testBit_and, hrest, hbit] at hstep
          exact eq_of_beq hstep
      | false =>
          rw [List.find?_cons_of_neg (by simp [hbit])] at hfind
          refine ih hes ?_ hfind
          rw [Nat.testBit_xor, Nat.testBit_and, hrest, hbit]
          rfl

theorem phaseOf_start : phaseOf uriParserStart = .start := by
  decide +kernel

theorem rows_agree : ∀ row ∈ uriParserTable, agrees (phaseOf row.1) 16777215 row.2 = true := by
  have hall : (uriParserTable.all fun | (q, row) => agrees (phaseOf q) 16777215 row) = true := by
    decide +kernel
  exact fun row hrow => List.all_eq_true.mp hall row hrow

/-- The table's edges are the steps of their phases. -/
theorem next_phase {q q' : Nat} {b : UInt8} {acts : List Action}
    (h : uriParser.next q b = some (acts, q')) :
    (phaseOf q).step b.toNat = (acts, phaseOf q') := by
  obtain ⟨e, he, heq⟩ := Option.map_eq_some_iff.mp h
  obtain ⟨edges, hlookup, hfind⟩ := Option.bind_eq_some_iff.mp he
  obtain ⟨before, after, htable, _⟩ := List.lookup_eq_some_iff.mp hlookup
  have hrow : (q, edges) ∈ uriParserTable := by
    rw [htable]
    exact List.mem_append_right before List.mem_cons_self
  have hfires : ∀ e ∈ edges, (kindsOf e.ranges).testBit (kind b) = e.fires b := fun e he =>
    testBit_kindsOf (rows_respect edges (List.mem_map.mpr ⟨_, hrow, rfl⟩) e he) b
  rw [← find?_congr hfires] at hfind
  rw [← step_sample, step_of_agrees (rows_agree _ hrow) (kind_lt b) (testBit_all b) hfind]
  cases heq
  rfl

theorem eof_phase {q : Nat} (hfinal : uriParserFirstFinal ≤ q) (hq : q < 561) :
    eofActions q = (phaseOf q).eof := by
  have hall : ((List.range' 451 110).all fun q => eofActions q == (phaseOf q).eof) = true := by
    decide +kernel
  have hfirst : (451 : Nat) ≤ q := hfinal
  exact eq_of_beq (List.all_eq_true.mp hall q (List.mem_range'_1.mpr ⟨hfirst, by omega⟩))

/-! ### The text since `mark` -/

/-- A scan with the bytes since `mark` in the place of offsets. -/
structure Held where
  uri : Uri := {}
  text : Option Bytes := none
  deriving DecidableEq, Repr

namespace Held
variable (rest : Bytes) (h : Held)

def feed (b : UInt8) : Held := { h with text := h.text.map (· ++ [b]) }

def save (set : Uri → Bytes → Uri) : Option Held :=
  h.text.map fun w => { uri := set h.uri w, text := none }

/-- An action with `rest` still to read. -/
def perform : Action → Option Held
  | .marku | .markh => some { h with text := some [] }
  | .saveScheme => h.save fun u v => { u with scheme := v }
  | .savePort =>
    h.save fun u w => if w ≠ [] then { u with port := atoi (w ++ rest) } else u
  | .saveUserinfo =>
    match h.text with
    | some w => some { uri := { h.uri with userinfo := w }, text := none }
    | none => some h
  | .saveHost =>
    match h.text with
    | some w => some { h with uri := { h.uri with host := w } }
    | none => some h
  | .savePath => h.save fun u v => { u with path := v }
  | .saveQuery => h.save fun u v => { u with query := v }
  | .saveFragment => h.save fun u v => { u with fragment := v }

end Held

/-- The `Uri` that the phases make of what is left of the text. -/
def Phase.read : Phase → Held → Bytes → Option Uri
  | P, h, [] => (exec (Held.perform []) h P.eof).map Held.uri
  | P, h, b :: bs =>
    (exec (Held.perform (b :: bs)) h (P.step b.toNat).1).bind fun h' =>
      Phase.read (P.step b.toNat).2 (h'.feed b) bs

namespace Scan
variable {uristr : Bytes} {s t : Scan}

def held (uristr : Bytes) (s : Scan) : Held := ⟨s.uri, s.mark.map (s.text uristr)⟩

/-- `mark` is behind the reading position, which is in the text. -/
structure Behind (uristr : Bytes) (s : Scan) : Prop where
  read : s.p ≤ uristr.length
  mark : ∀ m, s.mark = some m → m ≤ s.p

theorem Behind.drop_eq (h : s.Behind uristr) {m : Nat} (hm : s.mark = some m) :
    uristr.drop m = s.text uristr m ++ uristr.drop s.p := by
  have hlen : (uristr.take s.p).length = s.p := List.length_take_of_le h.read
  conv_lhs => rw [← List.take_append_drop s.p uristr]
  rw [List.drop_append_of_le_length (by rw [hlen]; exact h.mark m hm)]
  rfl

theorem Behind.text_eq_nil (h : s.Behind uristr) {m : Nat} (hm : s.mark = some m) :
    s.text uristr m = [] ↔ s.p = m := by
  have hle := h.mark m hm
  have hread := h.read
  rw [text, List.drop_eq_nil_iff, List.length_take]
  omega

theorem perform_held (h : s.Behind uristr) (a : Action) :
    (s.perform uristr a).map (held uristr) =
      (s.held uristr).perform (uristr.drop s.p) a := by
  have hempty : s.text uristr s.p = [] := by
    rw [text, List.drop_eq_nil_iff, List.length_take]
    omega
  obtain ⟨u, mark, p⟩ := s
  cases mark with
  | none =>
      cases a with
      | marku => exact congrArg (fun w => some (Held.mk u (some w))) hempty
      | markh => exact congrArg (fun w => some (Held.mk u (some w))) hempty
      | _ => rfl
  | some m =>
      cases a with
      | marku => exact congrArg (fun w => some (Held.mk u (some w))) hempty
      | markh => exact congrArg (fun w => some (Held.mk u (some w))) hempty
      | savePort =>
          have hdrop := h.drop_eq rfl
          have hnil := h.text_eq_nil rfl
          simp only [perform, held, Held.perform, Held.save, Option.map_some, hdrop, ne_eq, hnil]
          split_ifs <;> rfl
      | _ => rfl

theorem perform_behind (h : s.Behind uristr) {a : Action} (hs : s.perform uristr a = some t) :
    t.Behind uristr ∧ t.p = s.p := by
  obtain ⟨u, mark, p⟩ := s
  cases mark <;> cases a <;> cases hs <;>
    exact ⟨⟨h.read, fun m hm => by cases hm <;> first | exact le_rfl | exact h.mark _ rfl⟩, rfl⟩

theorem exec_held (h : s.Behind uristr) {acts : List Action}
    (hs : exec (perform uristr) s acts = some t) :
    exec (Held.perform (uristr.drop s.p)) (s.held uristr) acts = some (t.held uristr) ∧
      t.Behind uristr ∧ t.p = s.p := by
  induction acts generalizing s with
  | nil =>
      cases hs
      exact ⟨rfl, h, rfl⟩
  | cons a acts ih =>
      obtain ⟨s', hs', hrest⟩ := exec_cons hs
      obtain ⟨hbehind, hp⟩ := perform_behind h hs'
      obtain ⟨hexec, htbehind, htp⟩ := ih hbehind hrest
      rw [hp] at hexec htp
      refine ⟨?_, htbehind, htp⟩
      rw [exec, ← perform_held h, hs']
      exact hexec

theorem feed_held (h : s.Behind uristr) {b : UInt8} {bs : Bytes}
    (hdrop : uristr.drop s.p = b :: bs) :
    (s.feed b).held uristr = (s.held uristr).feed b ∧ (s.feed b).Behind uristr ∧
      uristr.drop (s.feed b).p = bs := by
  have hlt : s.p < uristr.length := by
    apply Nat.lt_of_not_le
    intro hle
    rw [List.drop_eq_nil_of_le hle] at hdrop
    cases hdrop
  have hget : uristr[s.p]? = some b := by
    rw [← List.head?_drop, hdrop]
    rfl
  refine ⟨?_, ⟨hlt, fun m hm => Nat.le_succ_of_le (h.mark m hm)⟩, ?_⟩
  · obtain ⟨u, mark, p⟩ := s
    cases mark with
    | none => rfl
    | some m =>
        have hm : m ≤ (uristr.take p).length := by
          rw [List.length_take_of_le h.read]
          exact h.mark m rfl
        have htext : (uristr.take (p + 1)).drop m = (uristr.take p).drop m ++ [b] := by
          rw [List.take_add_one, hget, List.drop_append_of_le_length hm]
          rfl
        exact congrArg (fun w => Held.mk u (some w)) htext
  · change uristr.drop (s.p + 1) = bs
    rw [← List.tail_drop, hdrop]
    rfl

end Scan

/-- What the machine makes of a text, its phases do. -/
theorem run_read {uristr bs : Bytes} {q : Nat} {s t v : Scan} {status : Status Nat} (hq : q < 561)
    (hs : s.Behind uristr) (hbs : uristr.drop s.p = bs)
    (hrun : uriParser.run (Scan.perform uristr) Scan.feed q s bs = some (status, t))
    (hexec : exec (Scan.perform uristr) t (eofActions (Status.cs status)) = some v)
    (hfinal : uriParserFirstFinal ≤ Status.cs status) :
    (phaseOf q).read (s.held uristr) bs = some v.uri := by
  induction bs generalizing q s with
  | nil =>
      cases hrun
      have heof := (Scan.exec_held hs hexec).1
      rw [hbs] at heof
      rw [Phase.read, ← eof_phase (q := q) hfinal hq]
      exact congrArg (Option.map Held.uri) heof
  | cons b bs ih =>
      rw [Transducer.run] at hrun
      cases hnext : uriParser.next q b with
      | none =>
          rw [hnext] at hrun
          cases hrun
          exact absurd hfinal (by decide)
      | some e =>
          obtain ⟨acts, q'⟩ := e
          have hany : acts.any uriParser.halts = false := List.any_eq_false.mpr fun a _ => by
            simp [uriParser]
          rw [hnext] at hrun
          obtain ⟨s', hs', hrun⟩ := Option.bind_eq_some_iff.mp hrun
          simp only [hany, Bool.false_eq_true, if_false] at hrun
          obtain ⟨hheld, hs'behind, hp⟩ := Scan.exec_held hs hs'
          obtain ⟨hfeed, hfed, hdrop⟩ := Scan.feed_held hs'behind (by rw [hp]; exact hbs)
          rw [Phase.read, next_phase hnext]
          rw [hbs] at hheld
          dsimp only
          rw [hheld, Option.bind_some, ← hfeed]
          exact ih (target_lt hnext) hfed hdrop hrun

theorem create_read {s : Bytes} {u : Uri} (h : Uri.create s = .uri u) :
    Phase.start.read {} s = some u := by
  unfold Uri.create at h
  split at h
  · cases h
  · rename_i status t hrun
    split at h
    · cases h
    · rename_i v hexec
      split_ifs at h with herror hfinal
      cases h
      have hstart : Scan.Behind s {} := ⟨Nat.zero_le _, fun m hm => by cases hm⟩
      rw [← phaseOf_start]
      exact run_read (by decide) hstart rfl hrun hexec hfinal

end HCServer.Uris
