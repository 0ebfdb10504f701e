import HCServer.Http.Session
import HCServer.Lib.Liveness

/-! When the request head may arrive in pieces. Each call of `http_parser_execute` forgets where
the token that it is in began, and `execute` drops the bytes of it that came before. -/
namespace HCServer.Http
open Lib

/-- What `http_parser` remembers about the bytes before `p`. -/
inductive Register
  | mark
  | fieldStart
  | fieldLen
  | queryStart
  deriving DecidableEq, Repr

instance (K : Register → Prop) [DecidablePred K] : Decidable (∀ r, K r) :=
  decidable_of_iff (K .mark ∧ K .fieldStart ∧ K .fieldLen ∧ K .queryStart)
    ⟨fun ⟨hmark, hstart, hlen, hquery⟩ r => by cases r <;> assumption,
      fun h => ⟨h .mark, h .fieldStart, h .fieldLen, h .queryStart⟩⟩

def uses : Move UInt8 Action → Register → Bool
  | .act .writeField, .fieldStart => true
  | .act .writeValue, .fieldStart => true
  | .act .writeValue, .fieldLen => true
  | .act .writeValue, .mark => true
  | .act .requestMethod, .mark => true
  | .act .fragment, .mark => true
  | .act .httpVersion, .mark => true
  | .act .requestPath, .mark => true
  | .act .queryString, .queryStart => true
  | _, _ => false

def defs : Move UInt8 Action → Register → Bool
  | .act .mark, .mark => true
  | .act .startValue, .mark => true
  | .act .startField, .fieldStart => true
  | .act .writeField, .fieldLen => true
  | .act .startQuery, .queryStart => true
  | _, _ => false

/-- No callback among the operations is passed a token that has begun before them. -/
def quiet (os : List (Move UInt8 Action)) : Bool :=
  [Register.mark, .fieldStart, .fieldLen, .queryStart].all fun r => !live uses defs os r

theorem quiet.dead {os : List (Move UInt8 Action)} (h : quiet os = true) (r : Register) :
    live uses defs os r = false := by
  simp only [quiet, List.all_cons, List.all_nil, Bool.and_eq_true, Bool.not_eq_true'] at h
  cases r with
  | mark => exact h.1
  | fieldStart => exact h.2.1
  | fieldLen => exact h.2.2.1
  | queryStart => exact h.2.2.2.1

/-- Every read ends between tokens: what the machine does from there to the end of the head uses
nothing that it remembers. -/
def betweenTokens (uriRelaxed : Bool) : Nat → List Arrival → Bool
  | _, [] => true
  | q, a :: segs =>
    match (httpParser uriRelaxed).status q a.bytes with
    | .running q' =>
      quiet ((httpParser uriRelaxed).ops q' (Socket.bytes segs)) && betweenTokens uriRelaxed q' segs
    | _ => true

namespace Scan

/-- The token from `i` on in one buffer is the token from `j` on in the other. -/
structure SameText (xs ys : Bytes) (i j : Nat) : Prop where
  left : i ≤ xs.length
  right : j ≤ ys.length
  text : xs.drop i = ys.drop j

theorem SameText.here (xs ys : Bytes) : SameText xs ys xs.length ys.length :=
  ⟨le_refl _, le_refl _, by simp⟩

theorem SameText.feed {xs ys : Bytes} {i j : Nat} (h : SameText xs ys i j) (b : UInt8) :
    SameText (xs ++ [b]) (ys ++ [b]) i j := by
  constructor
  case left => exact h.left.trans (by simp)
  case right => exact h.right.trans (by simp)
  case text =>
    rw [List.drop_append_of_le_length h.left, List.drop_append_of_le_length h.right, h.text]

theorem SameText.length_eq {xs ys : Bytes} {i j : Nat} (h : SameText xs ys i j) :
    xs.length - i = ys.length - j := by
  have htext := congrArg List.length h.text
  rwa [List.length_drop, List.length_drop] at htext

def agree : Register → Scan → Scan → Prop
  | .mark, s, t => SameText s.seen t.seen s.parser.mark t.parser.mark
  | .fieldStart, s, t => SameText s.seen t.seen s.parser.fieldStart t.parser.fieldStart
  | .fieldLen, s, t => s.parser.fieldLen = t.parser.fieldLen
  | .queryStart, s, t => SameText s.seen t.seen s.parser.queryStart t.parser.queryStart

structure Same (s t : Scan) : Prop where
  parsed : s.parser.toParsed = t.parser.toParsed
  relaxed : s.parser.uriRelaxed = t.parser.uriRelaxed

variable {s t : Scan}

theorem agree_feed {r : Register} (h : agree r s t) (b : UInt8) :
    agree r (s.feed b) (t.feed b) := by
  cases r with
  | mark => exact SameText.feed h b
  | fieldStart => exact SameText.feed h b
  | fieldLen => exact h
  | queryStart => exact SameText.feed h b

/-- A callback leaves the registers alone. -/
theorem agree_call {r : Register} (h : agree r s t) (x y : Parsed) :
    agree r (s.call x) (t.call y) := by
  cases r <;> exact h

/-- What `Tracks` asks of one operation. -/
def Kept (o : Move UInt8 Action) (s t s' t' : Scan) : Prop :=
  Same s' t' ∧ ∀ r, defs o r = true ∨ agree r s t → agree r s' t'

/-- A callback that is passed the same texts has the same effect. -/
theorem kept_call {o : Move UInt8 Action} (hsame : Same s t) (hdefs : ∀ r, defs o r = false)
    {x y : Parsed} (hxy : x = y) : Kept o s t (s.call x) (t.call y) := by
  refine ⟨⟨hxy, hsame.relaxed⟩, ?_⟩
  intro r hr
  exact agree_call (hr.resolve_left (by simp [hdefs r])) x y

theorem kept_call_mark {o : Move UInt8 Action} (hsame : Same s t) (hdefs : ∀ r, defs o r = false)
    (hmark : agree .mark s t) (f : Parsed → Bytes → Parsed) :
    Kept o s t (s.call (f s.parser.toParsed (s.text s.parser.mark)))
      (t.call (f t.parser.toParsed (t.text t.parser.mark))) := by
  have htext : s.text s.parser.mark = t.text t.parser.mark := hmark.text
  exact kept_call hsame hdefs (by rw [htext, hsame.parsed])

def put (s : Scan) : Register → Nat → Scan
  | .mark, n => { s with parser := { s.parser with mark := n } }
  | .fieldStart, n => { s with parser := { s.parser with fieldStart := n } }
  | .fieldLen, n => { s with parser := { s.parser with fieldLen := n } }
  | .queryStart, n => { s with parser := { s.parser with queryStart := n } }

/-- An operation that sets one register leaves the others as they were. -/
theorem kept_put {o : Move UInt8 Action} (hsame : Same s t) {r : Register}
    (hdefs : ∀ q, defs o q = true → q = r) {m n : Nat} (hr : agree r (s.put r m) (t.put r n)) :
    Kept o s t (s.put r m) (t.put r n) := by
  refine ⟨?_, ?_⟩
  · cases r <;> exact ⟨hsame.parsed, hsame.relaxed⟩
  · intro q hq
    by_cases hqr : q = r
    · exact hqr ▸ hr
    · have hother : agree q s t := hq.resolve_left fun hdef => hqr (hdefs q hdef)
      cases q <;> cases r <;> first | exact hother | exact absurd rfl hqr

theorem tracks : Tracks uses defs agree Same step step := by
  intro s t o hsame huse
  cases o with
  | feed b =>
      refine Option.Rel.some ⟨⟨hsame.parsed, hsame.relaxed⟩, ?_⟩
      intro r hr
      exact agree_feed (hr.resolve_left Bool.false_ne_true) b
  | act a =>
      cases a
      case mark =>
        exact Option.Rel.some (kept_put (r := .mark) hsame (by decide)
          (SameText.here s.seen t.seen))
      case startValue =>
        exact Option.Rel.some (kept_put (r := .mark) hsame (by decide)
          (SameText.here s.seen t.seen))
      case startField =>
        exact Option.Rel.some (kept_put (r := .fieldStart) hsame (by decide)
          (SameText.here s.seen t.seen))
      case startQuery =>
        exact Option.Rel.some (kept_put (r := .queryStart) hsame (by decide)
          (SameText.here s.seen t.seen))
      case writeField =>
        exact Option.Rel.some (kept_put (r := .fieldLen) hsame (by decide)
          (SameText.length_eq (huse .fieldStart rfl)))
      case writeValue =>
        have hfield : agree .fieldStart s t := huse .fieldStart rfl
        have hlen : s.parser.fieldLen = t.parser.fieldLen := huse .fieldLen rfl
        have hmark : agree .mark s t := huse .mark rfl
        refine Option.Rel.some (kept_call hsame (by decide) ?_)
        simp only [Scan.text, hfield.text, hlen, hmark.text, hsame.parsed]
      case queryString =>
        have hquery : agree .queryStart s t := huse .queryStart rfl
        simp only [step_act, perform, if_pos hquery.left, if_pos hquery.right]
        refine Option.Rel.some (kept_call hsame (by decide) ?_)
        simp only [Scan.text, hquery.text, hsame.parsed]
      case requestMethod =>
        exact Option.Rel.some (kept_call_mark hsame (by decide) (huse .mark rfl)
          Parsed.onRequestMethod)
      case fragment =>
        exact Option.Rel.some (kept_call_mark hsame (by decide) (huse .mark rfl)
          Parsed.onRequestFragment)
      case httpVersion =>
        exact Option.Rel.some (kept_call_mark hsame (by decide) (huse .mark rfl)
          Parsed.onRequestVersion)
      case requestPath =>
        exact Option.Rel.some (kept_call_mark hsame (by decide) (huse .mark rfl)
          Parsed.onRequestPath)
      all_goals
        refine Option.Rel.some ⟨hsame, ?_⟩
        intro r hr
        exact hr.resolve_left Bool.false_ne_true

/-- At the start of a call on a new parser. -/
theorem agree_new (uriRelaxed : Bool) (r : Register) :
    agree r ⟨HttpRequestParser.rewind { uriRelaxed }, []⟩
      ⟨HttpRequestParser.rewind { uriRelaxed }, []⟩ := by
  cases r with
  | fieldLen => rfl
  | _ => exact SameText.here [] []

end Scan

/-- `s` is the parser on its way through the whole head, which ends in the state `f` and the store
`t`. `p` is about to take the rest of the head, `data`. -/
structure Follows (uriRelaxed : Bool) (f : Nat) (t s : Scan) (p : HttpRequestParser)
    (data : Bytes) : Prop where
  ends : (httpParser uriRelaxed).Ends p.cs data f
  unfinished : p.cs < httpParserFirstFinal
  relaxed : p.uriRelaxed = uriRelaxed
  same : Scan.Same s ⟨p.rewind, []⟩
  agree : ∀ r, live uses defs (p.ops data) r = true → Scan.agree r s ⟨p.rewind, []⟩
  exec : exec Scan.step s (p.ops data) = some t

namespace Follows
variable {uriRelaxed : Bool} {f : Nat} {t s : Scan} {p : HttpRequestParser} {data xs ys : Bytes}

theorem start {head : Bytes} (h : HttpRequestParser.Accepts uriRelaxed head p) :
    ∃ t, t.parser.toParsed = p.toParsed ∧
      Follows uriRelaxed p.cs t ⟨HttpRequestParser.rewind { uriRelaxed }, []⟩ { uriRelaxed } head := by
  obtain ⟨t, ht, hparsed⟩ := h.exec
  exact ⟨t, hparsed, h.ends, httpParserStart_lt, rfl, ⟨rfl, rfl⟩,
    fun r _ => Scan.agree_new uriRelaxed r, ht⟩

/-- The call that takes all of the rest. -/
theorem last (h : Follows uriRelaxed f t s p data) :
    ∃ p', p.execute data = some (p', []) ∧ p'.cs = f ∧ p'.toParsed = t.parser.toParsed := by
  have hends := h.ends
  rw [← h.relaxed] at hends
  obtain ⟨u, hu, hsame⟩ := Scan.tracks.of_exec h.same h.agree h.exec
  have hstep := HttpRequestParser.execute_ends hends []
  rw [List.append_nil, hu, Option.map_some] at hstep
  exact ⟨_, hstep, rfl, hsame.parsed.symm⟩

/-- A call that takes a piece of it. When what follows does not look back, `p` goes on like `s`. -/
theorem piece (h : Follows uriRelaxed f t s p (xs ++ ys)) (hxs : xs ≠ []) (hys : ys ≠ []) :
    ∃ q p', (httpParser uriRelaxed).status p.cs xs = .running q ∧ p.execute xs = some (p', []) ∧
      p'.cs = q ∧ (t.parser.error = 0 → p'.error = 0) ∧
      (quiet ((httpParser uriRelaxed).ops q ys) = true →
        ∃ s', Follows uriRelaxed f t s' p' ys) := by
  obtain ⟨q, hrun, hends⟩ := h.ends.split hys
  have hrun' := hrun
  have hlive := h.agree
  have hexec := h.exec
  rw [← h.relaxed] at hrun'
  rw [HttpRequestParser.ops, Transducer.ops_append hrun'] at hlive hexec
  rw [exec_append] at hexec
  obtain ⟨s', hs', hexec'⟩ := Option.bind_eq_some_iff.mp hexec
  obtain ⟨u, hu, hsame⟩ :=
    Scan.tracks.of_exec h.same (fun r hr => hlive r (live_append_left hr _)) hs'
  have hstep := HttpRequestParser.execute_running hxs (httpParser_ends_ne_error h.ends) hrun'
  rw [HttpRequestParser.ops, hu, Option.map_some] at hstep
  have hrelaxed : u.parser.uriRelaxed = uriRelaxed := (Scan.exec_relaxed hu).trans h.relaxed
  refine ⟨q, { u.parser with cs := q }, hrun, hstep, rfl, ?_, ?_⟩
  · intro ht
    exact (congrArg Parsed.error hsame.parsed).symm.trans (Scan.exec_error hexec' ht)
  · intro hquiet
    have hops : HttpRequestParser.ops { u.parser with cs := q } = (httpParser uriRelaxed).ops q := by
      rw [← hrelaxed]
      rfl
    rw [h.relaxed] at hexec'
    refine ⟨s', hends, httpParser_running_lt h.unfinished hrun, hrelaxed,
      ⟨hsame.parsed, hsame.relaxed⟩, ?_, by rw [hops, hexec']⟩
    intro r hr
    rw [hops, quiet.dead hquiet r] at hr
    cases hr

end Follows

variable {env : SessionEnv}

/-- The induction over the reads. -/
theorem recvHead_split (hbuff : toInt env.buffSize ≠ 0) {f : Nat} {t : Scan}
    (hfinal : httpParserFirstFinal ≤ f) (ht : t.parser.error = 0) (later : Socket)
    (a : Arrival) (segs : List Arrival) {p : HttpRequestParser} {s : Scan}
    (hread : ∀ b ∈ a :: segs, Socket.ready env.buffSize [b] = b.bytes.length)
    (hclean : betweenTokens env.uriRelaxed p.cs (a :: segs) = true)
    (hfollows : Follows env.uriRelaxed f t s p (Socket.bytes (a :: segs))) :
    ∃ p', recvHead env p (a :: segs ++ later) = .got (p', []) later ∧
      p'.toParsed = t.parser.toParsed := by
  induction segs generalizing a p s with
  | nil =>
      have hall : Socket.bytes [a] = a.bytes := List.append_nil _
      rw [hall] at hfollows
      obtain ⟨p', hstep, hcs, hparsed⟩ := hfollows.last
      refine ⟨p', ?_, hparsed⟩
      have herror : p'.error = 0 := (congrArg Parsed.error hparsed).trans ht
      have hne : f ≠ httpParserError := Nat.ne_of_gt (Nat.lt_of_lt_of_le (Nat.succ_pos _) hfinal)
      rw [List.singleton_append, recvHead_cons (hread a List.mem_cons_self) hstep]
      simp [HttpRequestParser.hasError, HttpRequestParser.isFinished, herror, hcs, hne, hbuff.symm,
        hfinal]
  | cons b segs ih =>
      obtain ⟨q, p₁, hrun, hstep, hcs, herror, hnext⟩ :=
        Follows.piece hfollows a.ne (Socket.bytes_cons_ne_nil b segs)
      rw [betweenTokens, hrun, Bool.and_eq_true] at hclean
      obtain ⟨s', hfollows'⟩ := hnext hclean.1
      have hread' : ∀ c ∈ b :: segs, Socket.ready env.buffSize [c] = c.bytes.length :=
        fun c hc => hread c (List.mem_cons_of_mem a hc)
      obtain ⟨p', hp', hparsed⟩ := ih b hread' (hcs ▸ hclean.2) hfollows'
      refine ⟨p', ?_, hparsed⟩
      have hne := httpParser_ends_ne_error hfollows'.ends
      have hnot := Nat.not_le.mpr hfollows'.unfinished
      rw [List.cons_append, recvHead_cons (hread a List.mem_cons_self) hstep]
      simp [HttpRequestParser.hasError, HttpRequestParser.isFinished, herror ht, hne, hbuff.symm,
        hnot]
      exact hp'

/-- Also the first piece is consumed whole. -/
theorem execute_first {uriRelaxed : Bool} {f : Nat} {t s : Scan} {p : HttpRequestParser}
    {a : Arrival} {segs : List Arrival}
    (hfollows : Follows uriRelaxed f t s p (Socket.bytes (a :: segs))) :
    ∃ p', p.execute a.bytes = some (p', []) := by
  cases segs with
  | nil =>
      have hall : Socket.bytes [a] = a.bytes := List.append_nil _
      rw [hall] at hfollows
      obtain ⟨p', hstep, _⟩ := hfollows.last
      exact ⟨p', hstep⟩
  | cons b segs =>
      obtain ⟨_, p', _, hstep, _⟩ := Follows.piece hfollows a.ne (Socket.bytes_cons_ne_nil b segs)
      exact ⟨p', hstep⟩

/-- The result of `recvRequest` does not depend on how the head was cut, as long as it was cut
between tokens. -/
theorem segmentation_independence (env : SessionEnv) (head : Arrival) (segs : List Arrival)
    (later : Socket) (p : HttpRequestParser)
    (hread : Socket.ready env.buffSize [head] = head.bytes.length)
    (haccepts : HttpRequestParser.Accepts env.uriRelaxed head.bytes p)
    (hsplit : Socket.bytes segs = head.bytes)
    (hclean : betweenTokens env.uriRelaxed httpParserStart segs = true) :
    recvRequest env (segs ++ later) = recvRequest env (head :: later) := by
  have hwhole := recvHead_cons hread haccepts.whole later
  simp only [haccepts.sound, Bool.false_eq_true, if_false, haccepts.finished, if_true] at hwhole
  cases segs with
  | nil => exact absurd hsplit.symm head.ne
  | cons a segs =>
      have hfits : ∀ b ∈ a :: segs, Socket.ready env.buffSize [b] = b.bytes.length := by
        intro b hb
        have hle : b.bytes.length ≤ head.bytes.length := by
          rw [← hsplit]
          exact (List.sublist_flatten_of_mem (List.mem_map_of_mem hb)).length_le
        simp only [Socket.ready] at hread ⊢
        omega
      obtain ⟨t, hparsed, hfollows⟩ := Follows.start haccepts
      have herror : t.parser.error = 0 :=
        (congrArg Parsed.error hparsed).trans haccepts.error_eq
      rw [← hsplit] at hfollows
      by_cases hbuff : toInt env.buffSize = 0
      · obtain ⟨x, hx⟩ := execute_first hfollows
        have hpiece := recvHead_cons (hfits a List.mem_cons_self) hx (segs ++ later)
        simp only [List.length_nil, hbuff, Nat.cast_zero, if_true, ite_self] at hpiece hwhole
        rw [recvRequest, recvRequest, List.cons_append, hpiece, hwhole]
      · obtain ⟨p', hp', hparsed'⟩ :=
          recvHead_split hbuff haccepts.final herror later a segs hfits hclean hfollows
        have hzero : ¬ (([] : Bytes).length : Int) = toInt env.buffSize := fun h => hbuff h.symm
        rw [if_neg hzero] at hwhole
        rw [recvRequest, recvRequest, hp', hwhole]
        exact congrArg (fun x => recvRest env x [] later) (hparsed'.trans hparsed)

theorem segmentation_independence_line :
    recvRequest ⟨4096, false, fun _ => none⟩
        [⟨bytes "GET / HTTP/1.1\r\n", by decide⟩,
          ⟨bytes "Host: h\r\n\r\n", by decide⟩] =
      recvRequest ⟨4096, false, fun _ => none⟩
        [⟨bytes "GET / HTTP/1.1\r\nHost: h\r\n\r\n", by decide⟩] :=
  segmentation_independence ⟨4096, false, fun _ => none⟩
    ⟨bytes "GET / HTTP/1.1\r\nHost: h\r\n\r\n", by decide⟩
    [⟨bytes "GET / HTTP/1.1\r\n", by decide⟩,
      ⟨bytes "Host: h\r\n\r\n", by decide⟩] []
    ((HttpRequestParser.execute { uriRelaxed := false }
      (bytes "GET / HTTP/1.1\r\nHost: h\r\n\r\n")).get (by decide)).1
    (by decide) ⟨by decide, by decide, by decide⟩
    (by decide) (by decide)

/-- Cut inside its path, the head `GET /ab HTTP/1.1` is taken for one with the path `b`. -/
theorem cut_inside_path :
    ¬ ∀ (env : SessionEnv) (head : Arrival) (segs : List Arrival) (p : HttpRequestParser),
      Socket.ready env.buffSize [head] = head.bytes.length →
      HttpRequestParser.Accepts env.uriRelaxed head.bytes p →
      Socket.bytes segs = head.bytes → recvRequest env segs = recvRequest env [head] := by
  intro h
  have hcut := h ⟨4096, false, fun _ => none⟩ ⟨bytes "GET /ab HTTP/1.1\r\n\r\n", by decide⟩
    [⟨bytes "GET /a", by decide⟩, ⟨bytes "b HTTP/1.1\r\n\r\n", by decide⟩]
    ((HttpRequestParser.execute { uriRelaxed := false }
      (bytes "GET /ab HTTP/1.1\r\n\r\n")).get (by decide)).1
    (by decide) ⟨by decide, by decide, by decide⟩ (by decide)
  exact absurd hcut (by decide +kernel)

-- A cut token may come out right all the same: `GET` is what is left of this method.
example :
    betweenTokens false httpParserStart
        [⟨bytes "GET", by decide⟩, ⟨bytes "GET / HTTP/1.1\r\n\r\n", by decide⟩] = false ∧
      recvRequest ⟨4096, false, fun _ => none⟩
          [⟨bytes "GET", by decide⟩, ⟨bytes "GET / HTTP/1.1\r\n\r\n", by decide⟩] =
        recvRequest ⟨4096, false, fun _ => none⟩
          [⟨bytes "GETGET / HTTP/1.1\r\n\r\n", by decide +kernel⟩] := by decide +kernel

end HCServer.Http
