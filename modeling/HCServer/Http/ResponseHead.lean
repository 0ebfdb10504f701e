import HCServer.Http.ChunkSize
import HCServer.Http.Dump
import HCServer.Http.RequestHead

/-! How `httpclient_parser` reads the parts of a response's head, and what the callbacks make of
each. The number conversions look beyond their part, so what is still ahead goes along. -/
namespace HCServer.Http
open Lib
open Uris (Chars)

/-! ### The edges -/

/-- All that does not end a line, and all that a value may start with. -/
def lineChars : Chars := [(0, 9), (11, 12), (14, 255)]

def valueFirst : Chars := [(0, 8), (14, 31), (33, 255)]

/-- The field names that the machine has states for. -/
def ownNames : List (Bytes × List Nat) :=
  [(bytes "connection", [25, 26, 27, 28, 29, 30, 31, 32, 33, 34]),
    (bytes "content-length", [25, 26, 27, 101, 102, 103, 104, 105, 106, 107, 108, 109, 110, 111]),
    (bytes "transfer-encoding",
      [44, 45, 46, 47, 48, 49, 50, 51, 52, 53, 54, 55, 56, 57, 58, 59, 60])]

/-- The states inside a field name, of which 21 has read no part of one of these. -/
def nameStates : List Nat := 21 :: ownNames.flatMap Prod.snd

/-- What has been read in such a state, in lower case. -/
def spelled (q : Nat) : Bytes :=
  match ownNames.find? fun e => e.2.contains q with
  | some e => e.1.take (e.2.idxOf q + 1)
  | none => []

/-- State `q'` stands for `read` or for no name of the machine's. -/
def Spells (read : Bytes) (q' : Nat) : Prop := q' = 21 ∨ spelled q' = read

instance (read : Bytes) (q' : Nat) : Decidable (Spells read q') :=
  inferInstanceAs (Decidable (_ ∨ _))

/-- An edge that a token character may take, where `read` has been read before. -/
def NameEdge (read : Bytes) (goesOn : Bool) (acts : List ClientAction) (e : Edge ClientAction) :
    Prop :=
  e.acts = acts ∧ e.target ∈ nameStates ∧ (e.target = 21 ∨ goesOn = true ∧
    ∀ r ∈ e.ranges, r.1 = r.2 ∧ spelled e.target = read ++ [toLower (UInt8.ofNat r.1)])

instance (read : Bytes) (goesOn : Bool) (acts : List ClientAction) (e : Edge ClientAction) :
    Decidable (NameEdge read goesOn acts e) := inferInstanceAs (Decidable (_ ∧ _ ∧ _))

/-- The row of `q` has an edge for every token character, and these are as they should be. -/
def NameRow (q : Nat) (read : Bytes) (goesOn : Bool) (acts : List ClientAction) : Prop :=
  ∃ edges ∈ httpclientParserTable.lookup q, (∃ e ∈ edges, e.ranges = ResponseTable.token) ∧
    ∀ e ∈ edges, e.ranges ∈ [[(10, 10)], [(13, 13)], [(58, 58)]] ∨ NameEdge read goesOn acts e

instance (q : Nat) (read : Bytes) (goesOn : Bool) (acts : List ClientAction) :
    Decidable (NameRow q read goesOn acts) :=
  inferInstanceAs (Decidable (∃ edges ∈ httpclientParserTable.lookup q, _))

theorem nameRows : NameRow 20 [] true [.startField] ∧
    ∀ q ∈ nameStates, NameRow q (spelled q) (q != 21) [] := by decide +kernel

theorem NameRow.next {q : Nat} {read : Bytes} {goesOn : Bool} {acts : List ClientAction}
    (h : NameRow q read goesOn acts) {b : UInt8} (hb : Chars.has tokenChars b = true) :
    ∃ q' ∈ nameStates, httpclientParser.next q b = some (acts, q') ∧
      (q' = 21 ∨ goesOn = true ∧ spelled q' = read ++ [toLower b]) := by
  obtain ⟨edges, hrow, ⟨e, he, hranges⟩, hall⟩ := h
  have hfires : e.fires b = true := by
    rw [Edge.fires, hranges]
    exact hb
  obtain ⟨e', he', hfires', hnext⟩ := Table.exists_next hrow he hfires
  obtain ⟨r, hr, hin⟩ := List.any_eq_true.mp hfires'
  simp only [Bool.and_eq_true, decide_eq_true_eq] at hin
  have hseparate : ∀ n ∈ [10, 13, 58], b.toNat ≠ n := by
    intro n hn heq
    have hnone : ∀ n ∈ [10, 13, 58], Chars.has tokenChars (UInt8.ofNat n) = false := by decide
    rw [← UInt8.ofNat_toNat (x := b), heq, hnone n hn] at hb
    cases hb
  obtain hother | ⟨hacts, htarget, hspells⟩ := hall e' he'
  · have hsingle : ∃ n ∈ [10, 13, 58], r = (n, n) := by
      simp only [List.mem_cons, List.not_mem_nil, or_false] at hother
      obtain h | h | h := hother
      all_goals
        rw [h] at hr
        exact ⟨_, by decide, List.mem_singleton.mp hr⟩
    obtain ⟨n, hn, rfl⟩ := hsingle
    exact absurd (by omega) (hseparate n hn)
  · rw [hacts] at hnext
    refine ⟨e'.target, htarget, hnext, ?_⟩
    obtain h21 | ⟨hgoes, hletters⟩ := hspells
    · exact Or.inl h21
    · obtain ⟨hsame, hletter⟩ := hletters r hr
      have hbyte : UInt8.ofNat r.1 = b := by
        have hvalue : r.1 = b.toNat := by omega
        rw [hvalue, UInt8.ofNat_toNat]
      rw [hbyte] at hletter
      exact Or.inr ⟨hgoes, hletter⟩

/-- A run over token characters keeps what has been spelled. -/
theorem passes_name {w : Bytes} (hw : ∀ b ∈ w, Chars.has tokenChars b = true) {q : Nat}
    (hq : q ∈ nameStates) : ∃ q' ∈ nameStates, httpclientParser.Passes q w q' ∧
      (q' = 21 ∨ q ≠ 21 ∧ spelled q' = spelled q ++ w.map toLower) := by
  induction w generalizing q with
  | nil =>
      refine ⟨q, hq, Transducer.Reads.nil q, ?_⟩
      by_cases h21 : q = 21
      · exact Or.inl h21
      · exact Or.inr ⟨h21, (List.append_nil _).symm⟩
  | cons b w ih =>
      obtain ⟨q₁, hq₁, hnext, hspells⟩ := (nameRows.2 q hq).next (hw b List.mem_cons_self)
      obtain ⟨q', hq', hpasses, hrest⟩ := ih (fun c hc => hw c (List.mem_cons_of_mem b hc)) hq₁
      refine ⟨q', hq', Transducer.Passes.cons hnext hpasses, ?_⟩
      obtain h21 | ⟨hne, hread⟩ := hrest
      · exact Or.inl h21
      · obtain h21 | ⟨hgoes, hfirst⟩ := hspells
        · exact absurd h21 hne
        · refine Or.inr ⟨bne_iff_ne.mp hgoes, ?_⟩
          rw [hread, hfirst, List.append_assoc]
          rfl

/-- A name with nothing about it: a token that the machine has no states of its own for. -/
structure OtherName (name : Bytes) : Prop where
  ne : name ≠ []
  token : ∀ b ∈ name, Chars.has tokenChars b = true
  other : ∀ e ∈ ownNames, name.map toLower ≠ e.1

theorem OtherName.of_all {name : Bytes} (hne : name ≠ []) (htoken : name.all (Chars.has tokenChars) = true)
    (hother : ∀ e ∈ ownNames, name.map toLower ≠ e.1) : OtherName name :=
  ⟨hne, List.all_eq_true.mp htoken, hother⟩

/-- `strcasecmp` tells it from these names, as it has no NUL. -/
theorem OtherName.apart {name : Bytes} (h : OtherName name) {n : Bytes}
    (hn : ∃ e ∈ ownNames, e.1 = n) : strcasecmpEq name n = false := by
  have hown : ∀ e ∈ ownNames, (e.1.takeWhile (· != 0)).map toLower = e.1 := by decide
  obtain ⟨e, he, rfl⟩ := hn
  have hwhole : name.takeWhile (· != 0) = name := by
    rw [List.takeWhile_eq_self_iff]
    intro b hb
    rw [bne_iff_ne]
    intro hzero
    have htoken := h.token b hb
    rw [hzero] at htoken
    exact absurd htoken (by decide)
  rw [strcasecmpEq, hwhole, hown e he]
  exact beq_eq_false_iff_ne.mpr (h.other e he)

/-- Its colon is where the field ends. -/
theorem OtherName.reads {name : Bytes} (h : OtherName name) :
    httpclientParser.Reads 20 (name ++ [58])
      (.act .startField :: name.map Move.feed ++ [.act .writeField, .feed 58]) 22 := by
  have hcolon : ∀ q ∈ nameStates, q ≠ 34 → q ≠ 60 → q ≠ 111 →
      httpclientParser.next q 58 = some ([.writeField], 22) := by decide
  have hends : spelled 34 = bytes "connection" ∧ spelled 60 = bytes "transfer-encoding" ∧
      spelled 111 = bytes "content-length" := by decide
  have hown : ∀ n ∈ [bytes "connection", bytes "transfer-encoding", bytes "content-length"],
      ∃ e ∈ ownNames, e.1 = n := by decide
  obtain ⟨b, bs, rfl⟩ := List.exists_cons_of_ne_nil h.ne
  obtain ⟨q₁, hq₁, hnext, hfirst⟩ := nameRows.1.next (h.token b List.mem_cons_self)
  obtain ⟨q', hq', hpasses, hrest⟩ :=
    passes_name (fun c hc => h.token c (List.mem_cons_of_mem b hc)) hq₁
  have hread : q' = 21 ∨ spelled q' = (b :: bs).map toLower := by
    obtain h21 | ⟨hne, hread⟩ := hrest
    · exact Or.inl h21
    · obtain h21 | ⟨_, hfirst⟩ := hfirst
      · exact absurd h21 hne
      · refine Or.inr ?_
        rw [hread, hfirst]
        rfl
  have hapart : ∀ q : Nat, (∃ e ∈ ownNames, e.1 = spelled q) → q ≠ 21 → q' ≠ q := by
    intro q hown hne heq
    subst heq
    obtain h21 | hread := hread
    · exact hne h21
    · obtain ⟨e, he, hname⟩ := hown
      exact h.other e he (hread.symm.trans hname.symm)
  have hedge := hcolon q' hq' (hapart 34 (hends.1 ▸ hown _ (by decide)) (by decide))
    (hapart 60 (hends.2.1 ▸ hown _ (by decide)) (by decide))
    (hapart 111 (hends.2.2 ▸ hown _ (by decide)) (by decide))
  exact (Transducer.Reads.cons hnext rfl hpasses).trans (Transducer.Reads.single hedge rfl)

/-! ### What the callbacks make of them -/

theorem ClientScan.perform_ahead {s t : ClientScan} {a : ClientAction}
    (h : s.perform a = some t) : t.ahead = s.ahead := by
  cases a <;> cases h <;> rfl

/-- What is ahead shrinks by what the operations feed. -/
theorem ClientScan.ahead_of_exec {os : List (Move UInt8 ClientAction)} {s t : ClientScan}
    {rest : Bytes} (h : exec step s os = some t) (hahead : s.ahead = Transducer.fed os ++ rest) :
    t.ahead = rest := by
  induction os generalizing s with
  | nil =>
      cases h
      exact hahead
  | cons o os ih =>
      obtain ⟨s', hs', hrest⟩ := exec_cons h
      cases o with
      | act a => exact ih hrest ((perform_ahead hs').trans hahead)
      | feed b =>
          cases hs'
          exact ih hrest (congrArg List.tail hahead)

/-- What is parsed becomes `f` of it, and nothing is chunked that was not. -/
structure Calls (f : ParsedResponse → ParsedResponse) (s t : ClientScan) : Prop where
  parsed : t.parser.toParsedResponse = f s.parser.toParsedResponse
  chunked : t.parser.chunked = s.parser.chunked

/-- From `q` the machine reads `xs`, whatever lies behind, and goes on in `q'`. -/
structure ResponseParses (q : Nat) (xs : Bytes) (q' : Nat) (f : ParsedResponse → ParsedResponse) :
    Prop where
  status : httpclientParser.status q xs = .running q'
  calls : ∀ (s : ClientScan) (rest : Bytes), s.ahead = xs ++ rest →
    ∃ t, exec ClientScan.step s (httpclientParser.ops q xs) = some t ∧ t.ahead = rest ∧ Calls f s t

namespace ResponseParses
variable {q q₁ q' : Nat} {xs ys : Bytes} {f g : ParsedResponse → ParsedResponse}

theorem nil (q : Nat) : ResponseParses q [] q id :=
  ⟨rfl, fun s _ hahead => ⟨s, rfl, hahead, rfl, rfl⟩⟩

theorem trans (h : ResponseParses q xs q₁ f) (h' : ResponseParses q₁ ys q' g) :
    ResponseParses q (xs ++ ys) q' (g ∘ f) := by
  constructor
  · rw [Transducer.status_append h.status, h'.status]
  · intro s rest hahead
    rw [List.append_assoc] at hahead
    obtain ⟨t, hexec, ht, hcalls⟩ := h.calls s (ys ++ rest) hahead
    obtain ⟨u, hexec', hu, hcalls'⟩ := h'.calls t rest ht
    refine ⟨u, ?_, hu, ?_, hcalls'.chunked.trans hcalls.chunked⟩
    · rw [Transducer.ops_append h.status, exec_append, hexec]
      exact hexec'
    · rw [hcalls'.parsed, hcalls.parsed]
      rfl

/-- What a reading does is done by its operations. -/
theorem of_reads {os : List (Move UInt8 ClientAction)} (h : httpclientParser.Reads q xs os q')
    (hos : ∀ (s : ClientScan) (rest : Bytes), s.ahead = xs ++ rest →
      ∃ t, exec ClientScan.step s os = some t ∧ Calls f s t) : ResponseParses q xs q' f := by
  refine ⟨h.status, fun s rest hahead => ?_⟩
  obtain ⟨t, hexec, hcalls⟩ := hos s rest hahead
  have hfed : Transducer.fed os = xs := by
    rw [← h.ops]
    exact Transducer.fed_ops_of_running h.status
  rw [h.ops]
  exact ⟨t, hexec, ClientScan.ahead_of_exec hexec (hahead.trans (congrArg (· ++ rest) hfed.symm)),
    hcalls⟩

/-- A text from its mark on, and the byte behind it, whose actions see both. -/
theorem token {a : ClientAction} (ha : a = .mark ∨ a = .startValue)
    (h : httpclientParser.Reads q xs (.act a :: xs.map Move.feed) q₁) {d : UInt8}
    {acts : List ClientAction} (hnext : httpclientParser.next q₁ d = some (acts, q'))
    (hgoes : acts.any httpclientParser.halts = false)
    (hacts : ∀ (s : ClientScan) (rest : Bytes), s.text s.parser.mark = xs → s.ahead = d :: rest →
      ∃ t, exec ClientScan.perform s acts = some t ∧ Calls f s t) :
    ResponseParses q (xs ++ [d]) q' f := by
  apply of_reads (h.trans (Transducer.Reads.single hnext hgoes))
  intro s rest hahead
  let marked : ClientScan := { s with parser := { s.parser with mark := s.seen.length } }
  have hmark : s.perform a = some marked := by
    obtain rfl | rfl := ha
    · rfl
    · rfl
  let read : ClientScan := { marked with seen := s.seen ++ xs, ahead := s.ahead.drop xs.length }
  have htext : read.text read.parser.mark = xs := List.drop_left
  have hread : read.ahead = d :: rest := by
    change s.ahead.drop xs.length = d :: rest
    rw [hahead, List.append_assoc, List.drop_left]
    rfl
  obtain ⟨t, ht, hcalls⟩ := hacts read rest htext hread
  have hacted : exec ClientScan.step read (acts.map Move.act) = some t :=
    (Transducer.exec_acts read acts).trans ht
  have hexec : exec ClientScan.step s
      (.act a :: (xs.map Move.feed ++ (acts.map Move.act ++ [.feed d]))) =
      exec ClientScan.step read (acts.map Move.act ++ [.feed d]) := by
    change (s.perform a).bind (fun u => exec ClientScan.step u _) = _
    rw [hmark]
    exact ClientScan.exec_feeds xs _ marked
  refine ⟨t.feed d, hexec.trans ?_, hcalls.parsed, hcalls.chunked⟩
  rw [exec_append, hacted]
  rfl

/-- The line end behind a token. -/
theorem endLine (h : ResponseParses q (xs ++ [13]) 24 f) : ResponseParses q (xs ++ [13, 10]) 20 f := by
  have hread : httpclientParser.Reads 24 [10] [.feed 10] 20 := ⟨by decide, by decide⟩
  have hfeed : ResponseParses 24 [10] 20 id :=
    of_reads hread fun s _ _ => ⟨s.feed 10, rfl, rfl, rfl⟩
  have hboth := h.trans hfeed
  rwa [List.append_assoc] at hboth

end ResponseParses

/-- The text of a field line, as far as it goes behind the name. -/
def fieldEnd (value : Bytes) : Bytes := bytes ": " ++ (value ++ bytes "\r\n")

/-- A value that comes back as it is. It may be empty. -/
structure FieldValue (value : Bytes) : Prop where
  first : ∀ b ∈ value.head?, Chars.has valueFirst b = true
  line : ∀ b ∈ value, Chars.has lineChars b = true

theorem FieldValue.of_all {value : Bytes} (hfirst : value.head?.all (Chars.has valueFirst) = true)
    (hline : value.all (Chars.has lineChars) = true) : FieldValue value := by
  refine ⟨?_, List.all_eq_true.mp hline⟩
  intro b hb
  rw [Option.mem_def.mp hb] at hfirst
  exact hfirst

end HCServer.Http
