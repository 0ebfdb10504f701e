import HCServer.Http.Method
import HCServer.Uri.Grammar

/-! How the machine reads the parts of a request's head that have the form the grammar gives them,
and what the callbacks make of each part. -/
namespace HCServer.Http
open Lib Lib.Regex
open Uris (Chars Grammar)

/-! ### The edges -/

def pcharChars : Chars :=
  Grammar.nonAscii ++ Grammar.unreserved ++ Grammar.subDelims ++ [(58, 58), (64, 64)]

def queryChars : Chars :=
  Grammar.nonAscii ++ Grammar.unreserved ++ Grammar.subDelims ++ [(47, 47), (58, 58), (63, 64)]

/-- A character that is no control character and no separator. -/
def tokenChars : Chars :=
  [(33, 33), (35, 39), (42, 43), (45, 46), (48, 57), (65, 90), (94, 122), (124, 124), (126, 126)]

/-- What a value may have at its start, and what may follow there. -/
def valueStart : Chars := [(33, 126), (128, 255)]

def valueChars : Chars := [(32, 126), (128, 255)]

section
variable {r : Bool} {q q' : Nat} {acts : List Action} {cs : Chars}

theorem next_of_leads {b : UInt8} (h : (httpParserTable r).leads q cs = some (acts, q'))
    (hb : Chars.has cs b = true) : (httpParser r).next q b = some (acts, q') := by
  obtain ⟨c, hc, hin⟩ := List.any_eq_true.mp hb
  obtain ⟨hlo, hhi⟩ := Bool.and_eq_true_iff.mp hin
  exact Table.next_of_leads h hc (of_decide_eq_true hlo) (of_decide_eq_true hhi)

/-- `q` has edges for the characters of `cs` and for percent escapes, which end in `q'`. -/
structure UnitEdges (r : Bool) (q : Nat) (acts : List Action) (cs : Chars) (q' : Nat) : Prop where
  plain : (httpParserTable r).leads q cs = some (acts, q')
  escape : ∃ first second, (httpParserTable r).leads q [(37, 37)] = some (acts, first) ∧
    (httpParserTable r).leads first Grammar.hexdig = some ([], second) ∧
    (httpParserTable r).leads second Grammar.hexdig = some ([], q')
  goesOn : acts.any (httpParser r).halts = false

theorem UnitEdges.reads (h : UnitEdges r q acts cs q') {w : Bytes}
    (hw : w ∈ Grammar.lang (alt (sym cs) Grammar.pctEncoded)) :
    (httpParser r).Reads q w (acts.map Move.act ++ w.map Move.feed) q' := by
  obtain ⟨b, hb, rfl⟩ | hw := Grammar.mem_alt.mp hw
  · exact Transducer.Reads.single (next_of_leads h.plain hb) h.goesOn
  · obtain ⟨first, second, hpercent, hhigh, hlow⟩ := h.escape
    obtain ⟨v, hv, rfl⟩ := (Grammar.mem_byte_cat (by decide)).mp hw
    obtain ⟨_, ⟨x, hx, rfl⟩, _, ⟨y, hy, rfl⟩, rfl⟩ := Grammar.mem_cat.mp hv
    have hdigits : (httpParser r).Passes first [x, y] q' :=
      Transducer.Passes.cons (next_of_leads hhigh hx)
        (Transducer.Passes.cons (next_of_leads hlow hy) (Transducer.Reads.nil q'))
    exact Transducer.Reads.cons (next_of_leads hpercent (by decide)) h.goesOn hdigits

theorem UnitEdges.star (h : UnitEdges r q [] cs q) {w : Bytes}
    (hw : w ∈ Grammar.lang (star (alt (sym cs) Grammar.pctEncoded))) :
    (httpParser r).Passes q w q := by
  obtain ⟨us, rfl, hus⟩ := Language.mem_kstar.mp hw
  exact Transducer.Passes.flatten fun u hu => h.reads (hus u hu)

/-- A text that is not empty, with the actions of its first character. -/
theorem UnitEdges.plus (h : UnitEdges r q acts cs q') (hrest : UnitEdges r q' [] cs q') {w : Bytes}
    (hw : w ∈ Grammar.lang (Regex.star (alt (sym cs) Grammar.pctEncoded))) (hne : w ≠ []) :
    (httpParser r).Reads q w (acts.map Move.act ++ w.map Move.feed) q' := by
  obtain ⟨u, v, rfl, _, hu, hv⟩ := exists_head_of_mem_kstar hw hne
  have hboth := (h.reads hu).trans (hrest.star hv)
  rwa [List.append_assoc, ← List.map_append] at hboth

end

section
variable (r : Bool)

theorem pathEdges : UnitEdges r 33 [] pcharChars 26 ∧ UnitEdges r 26 [] pcharChars 26 := by
  cases r
  all_goals
    exact ⟨⟨by decide, ⟨27, 28, by decide⟩, rfl⟩, ⟨by decide, ⟨27, 28, by decide⟩, rfl⟩⟩

theorem queryEdges :
    UnitEdges r 29 [.startQuery] queryChars 30 ∧ UnitEdges r 30 [] queryChars 30 := by
  cases r
  all_goals
    exact ⟨⟨by decide, ⟨31, 32, by decide⟩, rfl⟩, ⟨by decide, ⟨31, 32, by decide⟩, rfl⟩⟩

theorem fragmentEdges : UnitEdges r 20 [.mark] queryChars 21 ∧ UnitEdges r 21 [] queryChars 21 := by
  cases r
  all_goals
    exact ⟨⟨by decide, ⟨22, 23, by decide⟩, rfl⟩, ⟨by decide, ⟨22, 23, by decide⟩, rfl⟩⟩

/-- A path, from its first slash on. It may be that slash only. -/
theorem reads_path {w : Bytes} (hw : w ∈ Grammar.pathAbsolute.lang) :
    ∃ q, (q = 33 ∨ q = 26) ∧
      (httpParser r).Reads 3 w (.act .mark :: w.map Move.feed) q := by
  have hslash : ∀ r, (httpParser r).next 3 47 = some ([.mark], 33) ∧
      (httpParser r).next 26 47 = some ([], 26) := by decide
  have hfirst {v : Bytes} {q : Nat} (hv : (httpParser r).Passes 33 v q) :
      (httpParser r).Reads 3 (47 :: v) (.act .mark :: (47 :: v).map Move.feed) q :=
    Transducer.Reads.cons (hslash r).1 rfl hv
  obtain ⟨v, hv, rfl⟩ := (Grammar.mem_byte_cat (by decide)).mp hw
  obtain rfl | hv := Grammar.mem_opt.mp hv
  · exact ⟨33, Or.inl rfl, hfirst (Transducer.Reads.nil 33)⟩
  · obtain ⟨segment, hsegment, others, hothers, rfl⟩ := Grammar.mem_cat.mp hv
    obtain ⟨u, hu, us, hus, rfl⟩ := Grammar.mem_cat.mp hsegment
    have hread := (pathEdges r).1.reads hu
    have hsegments : (httpParser r).Passes 26 others 26 := by
      obtain ⟨segments, rfl, hsegments⟩ := Language.mem_kstar.mp hothers
      refine Transducer.Passes.flatten fun x hx => ?_
      obtain ⟨y, hy, rfl⟩ := (Grammar.mem_byte_cat (by decide)).mp (hsegments x hx)
      exact Transducer.Passes.cons (hslash r).2 ((pathEdges r).2.star hy)
    exact ⟨26, Or.inr rfl, hfirst
      ((Transducer.Passes.trans hread ((pathEdges r).2.star hus)).trans hsegments)⟩

theorem reads_query {w : Bytes} (hw : w ∈ Grammar.query.lang) (hne : w ≠ []) :
    (httpParser r).Reads 29 w (.act .startQuery :: w.map Move.feed) 30 :=
  (queryEdges r).1.plus (queryEdges r).2 hw hne

theorem reads_fragment {w : Bytes} (hw : w ∈ Grammar.query.lang) (hne : w ≠ []) :
    (httpParser r).Reads 20 w (.act .mark :: w.map Move.feed) 21 :=
  (fragmentEdges r).1.plus (fragmentEdges r).2 hw hne

theorem reads_name {w : Bytes} (hw : ∀ b ∈ w, Chars.has tokenChars b = true) (hne : w ≠ []) :
    (httpParser r).Reads 13 w (.act .startField :: w.map Move.feed) 14 := by
  have hleads : ∀ r, (httpParserTable r).leads 13 tokenChars = some ([.startField], 14) ∧
      (httpParserTable r).leads 14 tokenChars = some ([], 14) := by decide
  obtain ⟨b, bs, rfl⟩ := List.exists_cons_of_ne_nil hne
  have hrest : (httpParser r).Passes 14 bs 14 :=
    Transducer.Passes.loop fun c hc => next_of_leads (hleads r).2 (hw c (List.mem_cons_of_mem b hc))
  exact Transducer.Reads.cons (next_of_leads (hleads r).1 (hw b List.mem_cons_self)) rfl hrest

/-- The blank in front of a value is not part of it. -/
theorem reads_value {b : UInt8} {bs : Bytes} (hb : Chars.has valueStart b = true)
    (hbs : ∀ c ∈ bs, Chars.has valueChars c = true) :
    (httpParser r).Reads 15 (32 :: b :: bs)
      (.act .startValue :: .feed 32 :: .act .startValue :: (b :: bs).map Move.feed) 16 := by
  have hleads : ∀ r, (httpParser r).next 15 32 = some ([.startValue], 15) ∧
      (httpParserTable r).leads 15 valueStart = some ([.startValue], 16) ∧
      (httpParserTable r).leads 16 valueChars = some ([], 16) := by decide
  obtain ⟨hblank, hfirst, hloop⟩ := hleads r
  have hrest : (httpParser r).Passes 16 bs 16 :=
    Transducer.Passes.loop fun c hc => next_of_leads hloop (hbs c hc)
  exact Transducer.Reads.cons hblank rfl (Transducer.Reads.cons (next_of_leads hfirst hb) rfl hrest)

end

/-! ### What the callbacks make of them -/

/-- From `q` the machine reads `xs` and goes on in `q'`, and what is parsed becomes `f` of it. -/
structure Parses (r : Bool) (q : Nat) (xs : Bytes) (q' : Nat) (f : Parsed → Parsed) : Prop where
  status : (httpParser r).status q xs = .running q'
  parsed : ∀ s : Scan, ∃ t, exec Scan.step s ((httpParser r).ops q xs) = some t ∧
    t.parser.toParsed = f s.parser.toParsed

namespace Parses
variable {r : Bool} {q q₁ q' : Nat} {xs ys : Bytes} {f g : Parsed → Parsed}

theorem nil (r : Bool) (q : Nat) : Parses r q [] q id := ⟨rfl, fun s => ⟨s, rfl, rfl⟩⟩

theorem trans (h : Parses r q xs q₁ f) (h' : Parses r q₁ ys q' g) :
    Parses r q (xs ++ ys) q' (g ∘ f) := by
  constructor
  · rw [Transducer.status_append h.status, h'.status]
  · intro s
    obtain ⟨t, hexec, ht⟩ := h.parsed s
    obtain ⟨u, hexec', hu⟩ := h'.parsed t
    refine ⟨u, ?_, ?_⟩
    · rw [Transducer.ops_append h.status, exec_append, hexec]
      exact hexec'
    · rw [hu, ht]
      rfl

theorem of_reads {os : List (Move UInt8 Action)} (h : (httpParser r).Reads q xs os q')
    (hos : ∀ s : Scan, ∃ t, exec Scan.step s os = some t ∧
      t.parser.toParsed = f s.parser.toParsed) : Parses r q xs q' f := by
  refine ⟨h.status, ?_⟩
  rw [h.ops]
  exact hos

/-- The action `a` sets the register to where the text begins that follows. -/
def Starts (a : Action) (register : HttpRequestParser → Nat) : Prop :=
  ∀ s : Scan, ∃ t, s.perform a = some t ∧ t.seen = s.seen ∧
    register t.parser = s.seen.length ∧ t.parser.toParsed = s.parser.toParsed

theorem starts_mark : Starts .mark fun p => p.mark := fun _ => ⟨_, rfl, rfl, rfl, rfl⟩

theorem starts_query : Starts .startQuery fun p => p.queryStart := fun _ => ⟨_, rfl, rfl, rfl, rfl⟩

/-- A text and the character behind it, whose actions see the text. -/
theorem exec_token {a : Action} {register : HttpRequestParser → Nat} (ha : Starts a register)
    {acts : List Action} (hacts : ∀ s : Scan, register s.parser ≤ s.seen.length →
      s.text (register s.parser) = xs →
      ∃ t, exec Scan.perform s acts = some t ∧ t.parser.toParsed = f s.parser.toParsed)
    (s : Scan) (d : UInt8) :
    ∃ t, exec Scan.step s
        (.act a :: (xs.map Move.feed ++ (acts.map Move.act ++ [.feed d]))) = some t ∧
      t.parser.toParsed = f s.parser.toParsed := by
  obtain ⟨t, ht, hseen, hregister, hparsed⟩ := ha s
  have htext : Scan.text { t with seen := t.seen ++ xs } (register t.parser) = xs := by
    rw [Scan.text, hregister, hseen, List.drop_left]
  have hle : register t.parser ≤ (t.seen ++ xs).length := by
    rw [hregister, hseen, List.length_append]
    exact Nat.le_add_right _ _
  obtain ⟨u, hu, hresult⟩ := hacts { t with seen := t.seen ++ xs } hle htext
  refine ⟨u.feed d, ?_, hresult.trans (congrArg f hparsed)⟩
  change (s.perform a).bind (fun t => exec Scan.step t _) = _
  rw [ht, Option.bind_some, Scan.exec_feeds, exec_append]
  have hperformed : exec Scan.step { t with seen := t.seen ++ xs } (acts.map Move.act) = some u :=
    (Transducer.exec_acts _ acts).trans hu
  rw [hperformed]
  rfl

theorem token {a : Action} {register : HttpRequestParser → Nat} (ha : Starts a register)
    (h : (httpParser r).Reads q xs (.act a :: xs.map Move.feed) q₁) {d : UInt8}
    {acts : List Action} (hnext : (httpParser r).next q₁ d = some (acts, q'))
    (hgoes : acts.any (httpParser r).halts = false)
    (hacts : ∀ s : Scan, register s.parser ≤ s.seen.length → s.text (register s.parser) = xs →
      ∃ t, exec Scan.perform s acts = some t ∧ t.parser.toParsed = f s.parser.toParsed) :
    Parses r q (xs ++ [d]) q' f :=
  of_reads (h.trans (Transducer.Reads.single hnext hgoes)) fun s => exec_token ha hacts s d

end Parses

section
variable (r : Bool)

theorem parses_method {t : Bytes} (h : MethodToken t) :
    Parses r httpParserStart (t ++ [32]) 3 fun p => p.onRequestMethod t := by
  obtain ⟨hops, hstatus⟩ := h.ops r []
  refine ⟨hstatus, fun s => ?_⟩
  rw [hops]
  have hacts (s : Scan) (_ : s.parser.mark ≤ s.seen.length) (htext : s.text s.parser.mark = t) :
      ∃ u, exec Scan.perform s [.requestMethod] = some u ∧
        u.parser.toParsed = s.parser.onRequestMethod t :=
    ⟨_, rfl, congrArg s.parser.onRequestMethod htext⟩
  exact @Parses.exec_token t (fun p => p.onRequestMethod t) _ _ Parses.starts_mark _ hacts s 32

/-- Behind a path or a query the machine may have nothing else to do, or `request_uri`. -/
theorem exec_requestUri {acts : List Action} (hacts : acts = [] ∨ acts = [.requestUri]) (s : Scan) :
    exec Scan.perform s acts = some s ∧ acts.any (httpParser r).halts = false := by
  obtain rfl | rfl := hacts
  · exact ⟨rfl, rfl⟩
  · exact ⟨rfl, rfl⟩

/-- What may follow a path, with the state that it leads to. -/
def pathEnds : List (UInt8 × Nat × List Action) :=
  [(32, 4, [.requestUri]), (63, 29, []), (35, 20, [.requestUri])]

theorem parses_path {w : Bytes} (hw : w ∈ Grammar.pathAbsolute.lang)
    {x : UInt8 × Nat × List Action} (hx : x ∈ pathEnds) :
    Parses r 3 (w ++ [x.1]) x.2.1 fun p => p.onRequestPath w := by
  have hnext : ∀ r, ∀ q ∈ [33, 26], ∀ x ∈ pathEnds,
      (httpParser r).next q x.1 = some (.requestPath :: x.2.2, x.2.1) := by decide
  have hacts : ∀ x ∈ pathEnds, x.2.2 = [] ∨ x.2.2 = [.requestUri] := by decide
  obtain ⟨q, hq, hread⟩ := reads_path r hw
  have hedge := hnext r q (by simpa using hq) x hx
  refine Parses.token Parses.starts_mark hread hedge ?_ ?_
  · obtain h | h := hacts x hx
    · rw [h]
      rfl
    · rw [h]
      rfl
  · intro s _ htext
    let called := s.call (s.parser.onRequestPath (s.text s.parser.mark))
    exact ⟨called, (exec_requestUri r (hacts x hx) called).1,
      congrArg s.parser.onRequestPath htext⟩

theorem parses_query {w : Bytes} (hw : w ∈ Grammar.query.lang) (hne : w ≠ [])
    {x : UInt8 × Nat} (hx : x ∈ [((32 : UInt8), 4), (35, 20)]) :
    Parses r 29 (w ++ [x.1]) x.2 fun p => p.onRequestQuery w := by
  have hnext : ∀ r, ∀ x ∈ [((32 : UInt8), 4), (35, 20)],
      (httpParser r).next 30 x.1 = some ([.queryString, .requestUri], x.2) := by decide
  refine Parses.token Parses.starts_query (reads_query r hw hne) (hnext r x hx) rfl ?_
  intro s hle htext
  refine ⟨s.call (s.parser.onRequestQuery (s.text s.parser.queryStart)), ?_,
    congrArg s.parser.onRequestQuery htext⟩
  simp [exec, Scan.perform, hle]

theorem parses_fragment {w : Bytes} (hw : w ∈ Grammar.query.lang) (hne : w ≠ []) :
    Parses r 20 (w ++ [32]) 4 fun p => p.onRequestFragment w := by
  have hnext : ∀ r, (httpParser r).next 21 32 = some ([.fragment], 4) := by decide
  refine Parses.token Parses.starts_mark (reads_fragment r hw hne) (hnext r) rfl ?_
  intro s _ htext
  exact ⟨_, rfl, congrArg s.parser.onRequestFragment htext⟩

/-- What a query or a fragment that may be missing adds. -/
def Parsed.addQuery (w : Bytes) (p : Parsed) : Parsed := if w = [] then p else p.onRequestQuery w

def Parsed.addFragment (w : Bytes) (p : Parsed) : Parsed :=
  if w = [] then p else p.onRequestFragment w

/-- The rest of a target from `#` on, or a blank only. -/
theorem Parses.fragment {q : Nat} {xs w : Bytes} {f : Parsed → Parsed}
    (hblank : Parses r q (xs ++ [32]) 4 f) (hhash : Parses r q (xs ++ [35]) 20 f)
    (hw : w ∈ Grammar.query.lang) :
    Parses r q (xs ++ ((if w = [] then [] else bytes "#") ++ (w ++ [32]))) 4
      (Parsed.addFragment w ∘ f) := by
  by_cases hempty : w = []
  · subst hempty
    exact hblank
  · have hboth := hhash.trans (parses_fragment r hw hempty)
    have hadd : Parsed.addFragment w = fun p => p.onRequestFragment w :=
      funext fun p => if_neg hempty
    rw [if_neg hempty, hadd]
    rwa [List.append_assoc] at hboth

theorem parses_target {path query fragment : Bytes} (hpath : path ∈ Grammar.pathAbsolute.lang)
    (hquery : query ∈ Grammar.query.lang) (hfragment : fragment ∈ Grammar.query.lang) :
    Parses r 3 (path ++ ((if query = [] then [] else bytes "?") ++ (query ++
        ((if fragment = [] then [] else bytes "#") ++ (fragment ++ [32]))))) 4
      (Parsed.addFragment fragment ∘ Parsed.addQuery query ∘ fun p => p.onRequestPath path) := by
  by_cases hempty : query = []
  · subst hempty
    exact Parses.fragment r (parses_path r hpath (x := (32, 4, [.requestUri])) (by decide))
      (parses_path r hpath (x := (35, 20, [.requestUri])) (by decide)) hfragment
  · have hmark := parses_path r hpath (x := (63, 29, [])) (by decide)
    have hrest := Parses.fragment r (parses_query r hquery hempty (x := (32, 4)) (by decide))
      (parses_query r hquery hempty (x := (35, 20)) (by decide)) hfragment
    have hadd : Parsed.addQuery query = fun p => p.onRequestQuery query :=
      funext fun p => if_neg hempty
    have hboth := hmark.trans hrest
    rw [if_neg hempty, hadd]
    rwa [List.append_assoc] at hboth

theorem parses_version {w : Bytes} (hw : w ∈ [bytes "HTTP/1.1", bytes "HTTP/1.0"]) :
    Parses r 4 (w ++ bytes "\r\n") 13 fun p => p.onRequestVersion w := by
  have hread : ∀ r, ∀ w ∈ [bytes "HTTP/1.1", bytes "HTTP/1.0"],
      (httpParser r).status 4 w = .running 12 ∧
        (httpParser r).ops 4 w = .act .mark :: w.map Move.feed := by decide
  have hnext : ∀ r, (httpParser r).next 12 13 = some ([.httpVersion], 17) ∧
      (httpParser r).next 17 10 = some ([], 13) := by decide
  have htoken : Parses r 4 (w ++ [13]) 17 fun p => p.onRequestVersion w := by
    refine Parses.token Parses.starts_mark ⟨(hread r w hw).1, (hread r w hw).2⟩ (hnext r).1 rfl ?_
    intro s _ htext
    exact ⟨_, rfl, congrArg s.parser.onRequestVersion htext⟩
  have hfeed : Parses r 17 [10] 13 id :=
    Parses.of_reads (Transducer.Reads.single (hnext r).2 rfl) fun s => ⟨s.feed 10, rfl, rfl⟩
  have hboth := htoken.trans hfeed
  rwa [List.append_assoc] at hboth

/-- The operations on a line with a field: the name and the value are those between their marks. -/
theorem exec_field (s : Scan) (name value : Bytes) :
    ∃ t, exec Scan.step s (.act .startField :: (name.map Move.feed ++
        (.act .writeField :: .feed 58 :: .act .startValue :: .feed 32 :: .act .startValue ::
          (value.map Move.feed ++ [.act .writeValue, .feed 13, .feed 10])))) = some t ∧
      t.parser.toParsed = s.parser.onRequestHttpField name value := by
  let before : Scan :=
    ⟨{ s.parser with
        fieldStart := s.seen.length
        fieldLen := (s.seen ++ name).length - s.seen.length
        mark := (s.seen ++ name ++ [58] ++ [32]).length },
      s.seen ++ name ++ [58] ++ [32] ++ value⟩
  have hname : (before.text before.parser.fieldStart).take before.parser.fieldLen = name := by
    have htext : before.seen = s.seen ++ (name ++ ([58] ++ ([32] ++ value))) := by
      simp only [before, List.append_assoc]
    have hlen : before.parser.fieldLen = name.length := by
      simp only [before, List.length_append, Nat.add_sub_cancel_left]
    rw [Scan.text, htext, hlen]
    change List.take name.length (List.drop s.seen.length _) = name
    rw [List.drop_left, List.take_left]
  have hvalue : before.text before.parser.mark = value := List.drop_left
  have hexec : exec Scan.step s (.act .startField :: (name.map Move.feed ++
      (.act .writeField :: .feed 58 :: .act .startValue :: .feed 32 :: .act .startValue ::
        (value.map Move.feed ++ [.act .writeValue, .feed 13, .feed 10])))) =
      exec Scan.step before [.act .writeValue, .feed 13, .feed 10] := by
    have hstart := Scan.exec_feeds name (.act .writeField :: .feed 58 :: .act .startValue ::
      .feed 32 :: .act .startValue :: (value.map Move.feed ++ [.act .writeValue, .feed 13, .feed 10]))
        { s with parser := { s.parser with fieldStart := s.seen.length } }
    exact hstart.trans (Scan.exec_feeds value _ ⟨before.parser, s.seen ++ name ++ [58] ++ [32]⟩)
  refine ⟨_, hexec.trans rfl, ?_⟩
  exact congrArg₂ before.parser.onRequestHttpField hname hvalue

/-- A name and a value that the machine reads back as they are. -/
structure PlainField (i : Bytes × Bytes) : Prop where
  name_ne : i.1 ≠ []
  name : ∀ b ∈ i.1, Chars.has tokenChars b = true
  value_ne : i.2 ≠ []
  start : ∀ b ∈ i.2.head?, Chars.has valueStart b = true
  value : ∀ b ∈ i.2, Chars.has valueChars b = true

theorem parses_field {i : Bytes × Bytes} (h : PlainField i) :
    Parses r 13 (i.1 ++ (bytes ": " ++ (i.2 ++ bytes "\r\n"))) 13
      fun p => p.onRequestHttpField i.1 i.2 := by
  obtain ⟨name, value⟩ := i
  obtain ⟨b, bs, rfl⟩ := List.exists_cons_of_ne_nil h.value_ne
  have hnext : ∀ r, (httpParser r).next 14 58 = some ([.writeField], 15) ∧
      (httpParser r).next 16 13 = some ([.writeValue], 17) ∧
      (httpParser r).next 17 10 = some ([], 13) := by decide
  obtain ⟨hcolon, hreturn, hfeed⟩ := hnext r
  have hname := reads_name r h.name h.name_ne
  have hvalue := reads_value r (h.start b rfl) fun c hc => h.value c (List.mem_cons_of_mem b hc)
  have hline := (hname.trans (Transducer.Reads.single hcolon rfl)).trans
    (hvalue.trans (Transducer.Reads.cons hreturn rfl (Transducer.Reads.single hfeed rfl)))
  rw [List.append_assoc] at hline
  refine Parses.of_reads hline fun s => ?_
  rw [List.append_assoc]
  exact exec_field s name (b :: bs)

theorem parses_fields {is : List (Bytes × Bytes)} (h : ∀ i ∈ is, PlainField i) :
    Parses r 13 (is.flatMap fun i => i.1 ++ (bytes ": " ++ (i.2 ++ bytes "\r\n"))) 13
      fun p => is.foldl (fun p i => p.onRequestHttpField i.1 i.2) p := by
  induction is with
  | nil => exact Parses.nil r 13
  | cons i is ih =>
      have hfirst := parses_field r (h i List.mem_cons_self)
      exact hfirst.trans (ih fun j hj => h j (List.mem_cons_of_mem i hj))

/-- A head that ends with an empty line is taken whole by a new parser. -/
theorem accepts_of_parses {xs : Bytes} {f : Parsed → Parsed}
    (h : Parses r httpParserStart xs 13 f) (herror : (f {}).error = 0) :
    ∃ p, HttpRequestParser.Accepts r (xs ++ bytes "\r\n") p ∧ p.toParsed = f {} := by
  have hnext : ∀ r, (httpParser r).next 13 13 = some ([.startField], 18) ∧
      (httpParser r).next 18 10 = some ([.done], 348) ∧
      (httpParser r).ops 13 [13, 10] = [.act .startField, .feed 13, .act .done, .feed 10] := by
    decide
  obtain ⟨hreturn, hdone, hops⟩ := hnext r
  have hlast : (httpParser r).Ends 13 [13, 10] 348 := .more hreturn rfl (.last hdone rfl)
  have hends := Transducer.Ends.after h.status hlast
  obtain ⟨s, hexec, hparsed⟩ := h.parsed ⟨HttpRequestParser.rewind { uriRelaxed := r }, []⟩
  have hwhole := HttpRequestParser.execute_ends (p := { uriRelaxed := r }) hends []
  rw [List.append_nil, HttpRequestParser.ops] at hwhole
  change _ =
    (exec Scan.step _ ((httpParser r).ops httpParserStart (xs ++ [13, 10]))).map _ at hwhole
  rw [Transducer.ops_append h.status, hops, exec_append, hexec] at hwhole
  refine ⟨_, ⟨hwhole, ?_, rfl⟩, hparsed⟩
  have hsound : s.parser.error = 0 := (congrArg Parsed.error hparsed).trans herror
  change (s.parser.error != 0 || _) = false
  rw [hsound]
  rfl

end

end HCServer.Http
