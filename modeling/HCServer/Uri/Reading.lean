import HCServer.Uri.Phases

/-! What the phases make of each part of a reference. A part is cut off by the first byte that ends
it (`before`, `onward`), and the rest is read from the phase that this byte leads to. -/
namespace HCServer.Uris
open Lib
open Http (Bytes)

/-- The bytes before the first one that stops. -/
def before (stop : Nat → Bool) (s : Bytes) : Bytes := s.takeWhile fun b => !stop b.toNat

/-- The first byte that stops, and what follows it. -/
def onward (stop : Nat → Bool) (s : Bytes) : Bytes := s.dropWhile fun b => !stop b.toNat

def Free (stop : Nat → Bool) (s : Bytes) : Prop := ∀ b ∈ s, stop b.toNat = false

/-- At the end of the text, or in front of a byte that stops. -/
def AtStop (stop : Nat → Bool) (s : Bytes) : Prop := ∀ b bs, s = b :: bs → stop b.toNat = true

section Cut
variable {stop : Nat → Bool} {x rest : Bytes}

theorem before_cons (b : UInt8) (s : Bytes) :
    before stop (b :: s) = bif stop b.toNat then [] else b :: before stop s := by
  rw [before, List.takeWhile_cons]
  cases stop b.toNat <;> rfl

theorem onward_cons (b : UInt8) (s : Bytes) :
    onward stop (b :: s) = bif stop b.toNat then b :: s else onward stop s := by
  rw [onward, List.dropWhile_cons]
  cases stop b.toNat <;> rfl

theorem before_append (hx : Free stop x) (hrest : AtStop stop rest) :
    before stop (x ++ rest) = x := by
  induction x with
  | nil =>
      cases rest with
      | nil => rfl
      | cons b bs => rw [List.nil_append, before_cons, hrest b bs rfl, cond_true]
  | cons b x ih =>
      rw [List.cons_append, before_cons, hx b List.mem_cons_self, cond_false,
        ih fun c hc => hx c (List.mem_cons_of_mem b hc)]

theorem onward_skip (hx : Free stop x) : onward stop (x ++ rest) = onward stop rest := by
  induction x with
  | nil => rfl
  | cons b x ih =>
      rw [List.cons_append, onward_cons, hx b List.mem_cons_self, cond_false,
        ih fun c hc => hx c (List.mem_cons_of_mem b hc)]

theorem onward_append (hx : Free stop x) (hrest : AtStop stop rest) :
    onward stop (x ++ rest) = rest := by
  rw [onward_skip hx]
  cases rest with
  | nil => rfl
  | cons b bs => rw [onward_cons, hrest b bs rfl, cond_true]

theorem onward_of_free (hx : Free stop x) : onward stop x = [] := by
  have h : onward stop (x ++ []) = [] := onward_append hx fun b bs h => by cases h
  rwa [List.append_nil] at h

theorem before_free (stop : Nat → Bool) (s : Bytes) : Free stop (before stop s) := by
  induction s with
  | nil =>
      intro b hb
      cases hb
  | cons c s ih =>
      intro b hb
      rw [before_cons] at hb
      cases hc : stop c.toNat with
      | true =>
          rw [hc] at hb
          cases hb
      | false =>
          rw [hc] at hb
          rcases List.mem_cons.mp hb with rfl | hb
          · exact hc
          · exact ih b hb

theorem onward_atStop (stop : Nat → Bool) (s : Bytes) : AtStop stop (onward stop s) := by
  induction s with
  | nil =>
      intro b bs h
      cases h
  | cons c s ih =>
      intro b bs h
      rw [onward_cons] at h
      cases hc : stop c.toNat with
      | true =>
          rw [hc] at h
          cases h
          exact hc
      | false =>
          rw [hc] at h
          exact ih b bs h

theorem before_append_onward (stop : Nat → Bool) (s : Bytes) :
    before stop s ++ onward stop s = s :=
  List.takeWhile_append_dropWhile

end Cut

/-! ### The path and what follows it -/

def Phase.endsQuery (n : Nat) : Bool := n.beq 35

def queryOf : Bytes → Bytes
  | 63 :: bs => before Phase.endsQuery bs
  | _ => []

def fragmentOf (tail : Bytes) : Bytes := (onward Phase.endsQuery tail).tail

def Uri.withTail (u : Uri) (tail : Bytes) : Uri :=
  { u with query := queryOf tail, fragment := fragmentOf tail }

/-- The `Uri` when a path starts at `rest`. -/
def Uri.finish (u : Uri) (saved : Bool) (rest : Bytes) : Uri :=
  (if saved then { u with path := before Phase.endsPath rest } else u).withTail
    (onward Phase.endsPath rest)

/-- Nothing has been read of the query and the fragment. -/
structure Uri.Fresh (u : Uri) : Prop where
  query : u.query = []
  fragment : u.fragment = []

namespace Phase

theorem read_cons (P : Phase) (h : Held) (b : UInt8) (bs : Bytes) :
    P.read h (b :: bs) = (exec (Held.perform (b :: bs)) h (P.step b.toNat).1).bind fun h' =>
      (P.step b.toNat).2.read (h'.feed b) bs :=
  rfl

/-- One byte, with what the phase does there worked out. -/
theorem read_step {P Q : Phase} {h h' : Held} {b : UInt8} {bs : Bytes} {acts : List Action}
    (hstep : P.step b.toNat = (acts, Q)) (hexec : exec (Held.perform (b :: bs)) h acts = some h') :
    P.read h (b :: bs) = Q.read (h'.feed b) bs := by
  rw [read_cons, hstep]
  dsimp only
  rw [hexec, Option.bind_some]

/-- Bytes on which nothing is done. -/
theorem read_stay {P : Phase} {u : Uri} {w : Option Bytes} {x t : Bytes}
    (hstay : ∀ b ∈ x, P.step b.toNat = ([], P)) :
    P.read ⟨u, w⟩ (x ++ t) = P.read ⟨u, w.map (· ++ x)⟩ t := by
  induction x generalizing w with
  | nil =>
      have hw : w.map (· ++ []) = w := by cases w <;> simp
      rw [hw, List.nil_append]
  | cons b x ih =>
      rw [List.cons_append, read_step (hstay b List.mem_cons_self) rfl]
      refine (ih fun c hc => hstay c (List.mem_cons_of_mem b hc)).trans ?_
      congr 2
      cases w with
      | none => rfl
      | some w => simp

theorem read_frag (u : Uri) (w bs : Bytes) :
    frag.read ⟨u, some w⟩ bs = some { u with fragment := w ++ bs } := by
  have hstay := read_stay (P := frag) (u := u) (w := some w) (x := bs) (t := []) fun _ _ => rfl
  rw [List.append_nil] at hstay
  exact hstay

theorem read_frag0 (h : Held) (bs : Bytes) :
    frag0.read h bs = some { h.uri with fragment := bs } := by
  cases bs with
  | nil => rfl
  | cons b bs => exact read_frag h.uri [b] bs

theorem read_query {u : Uri} (hu : u.fragment = []) (w bs : Bytes) :
    query.read ⟨u, some w⟩ bs =
      some { u with query := w ++ before Phase.endsQuery bs, fragment := fragmentOf bs } := by
  have hstay : ∀ b ∈ before Phase.endsQuery bs, query.step b.toNat = ([], query) := by
    intro b hb
    have hfree : b.toNat.beq 35 = false := before_free Phase.endsQuery bs b hb
    rw [step, hfree]
    rfl
  conv_lhs => rw [← before_append_onward Phase.endsQuery bs, read_stay hstay]
  have hstop := onward_atStop Phase.endsQuery bs
  rw [fragmentOf]
  cases hrest : onward Phase.endsQuery bs with
  | nil =>
      obtain ⟨_, _, _, _, _, fragment, _⟩ := u
      cases hu
      rfl
  | cons c cs =>
      have hc : c.toNat.beq 35 = true := hstop c cs hrest
      have hstep : query.step c.toNat = ([.saveQuery], frag0) := by
        rw [step, hc]
        rfl
      rw [read_step hstep rfl, read_frag0]
      rfl

theorem read_query0 {h : Held} (hu : h.uri.fragment = []) (bs : Bytes) :
    query0.read h bs =
      some { h.uri with query := before Phase.endsQuery bs, fragment := fragmentOf bs } := by
  cases bs with
  | nil =>
      obtain ⟨⟨_, _, _, _, _, fragment, _⟩, _⟩ := h
      cases hu
      rfl
  | cons b bs =>
      cases hb : b.toNat.beq 35 with
      | true =>
          have hstep : query0.step b.toNat = ([.marku, .saveQuery], frag0) := by
            rw [step, hb]
            rfl
          have hends : endsQuery b.toNat = true := hb
          rw [read_step hstep rfl, read_frag0, before_cons, fragmentOf, onward_cons, hends]
          rfl
      | false =>
          have hstep : query0.step b.toNat = ([.marku], query) := by
            rw [step, hb]
            rfl
          rw [read_step hstep rfl]
          have hends : endsQuery b.toNat = false := hb
          refine (read_query hu [b] bs).trans ?_
          rw [before_cons, fragmentOf, fragmentOf, onward_cons, hends]
          rfl

/-- From the byte that ends the path on. -/
theorem read_follow {h : Held} (hu : h.uri.Fresh) {c : UInt8} {cs : Bytes}
    (hc : endsPath c.toNat = true) (saved : Bool) :
    (follow saved c.toNat).read (h.feed c) cs = some (h.uri.withTail (c :: cs)) := by
  cases hq : c.toNat.beq 63 with
  | true =>
      have hc63 : c = 63 := UInt8.toNat.inj (Nat.eq_of_beq_eq_true hq)
      subst hc63
      exact read_query0 (h := h.feed 63) hu.fragment cs
  | false =>
      have hf : c.toNat.beq 35 = true := by
        rw [endsPath, hq, Bool.false_or] at hc
        exact hc
      have hc35 : c = 35 := UInt8.toNat.inj (Nat.eq_of_beq_eq_true hf)
      subst hc35
      refine (read_frag0 (h.feed 35) cs).trans ?_
      obtain ⟨⟨_, _, _, _, query, _, _⟩, _⟩ := h
      cases hu.query
      rfl

theorem step_path_of_free {saved : Bool} {n : Nat} (h : endsPath n = false) :
    (path saved).step n = ([], path saved) := by
  have hq : n.beq 63 = false := (Bool.or_eq_false_iff.mp h).1
  have hf : n.beq 35 = false := (Bool.or_eq_false_iff.mp h).2
  rw [step, h, Bool.and_false, follow, hq, hf]
  rfl

theorem read_path_saved {u : Uri} (hu : u.Fresh) (w bs : Bytes) :
    (path true).read ⟨u, some w⟩ bs =
      some ({ u with path := w ++ before endsPath bs }.withTail (onward endsPath bs)) := by
  have hstay := read_stay (P := path true) (u := u) (w := some w) (t := onward endsPath bs)
    fun b hb => step_path_of_free (before_free endsPath bs b hb)
  rw [before_append_onward] at hstay
  rw [hstay]
  have hstop := onward_atStop endsPath bs
  cases hrest : onward endsPath bs with
  | nil =>
      obtain ⟨_, _, _, _, query, fragment, _⟩ := u
      cases hu.query
      cases hu.fragment
      rfl
  | cons c cs =>
      have hc := hstop c cs hrest
      have hstep : (path true).step c.toNat = ([.savePath], follow true c.toNat) := by
        rw [step, hc]
        rfl
      rw [read_step hstep rfl]
      exact read_follow (h := ⟨{ u with path := w ++ before endsPath bs }, none⟩)
        ⟨hu.query, hu.fragment⟩ hc true

theorem read_path {h : Held} (hu : h.uri.Fresh) (bs : Bytes) :
    (path false).read h bs = some (h.uri.withTail (onward endsPath bs)) := by
  obtain ⟨u, w⟩ := h
  have hstay := read_stay (P := path false) (u := u) (w := w) (t := onward endsPath bs)
    fun b hb => step_path_of_free (before_free endsPath bs b hb)
  rw [before_append_onward] at hstay
  rw [hstay]
  have hstop := onward_atStop endsPath bs
  cases hrest : onward endsPath bs with
  | nil =>
      obtain ⟨_, _, _, _, query, fragment, _⟩ := u
      cases hu.query
      cases hu.fragment
      rfl
  | cons c cs =>
      have hc := hstop c cs hrest
      rw [read_step (Q := follow false c.toNat) rfl rfl]
      exact read_follow (h := ⟨u, w.map (· ++ before endsPath bs)⟩) hu hc false

/-! ### The authority -/

theorem read_leave {P : Phase} {saved : Bool} {acts start : List Action}
    (hstep : ∀ n, endsAuthority n = true → P.step n = leave saved acts start n)
    (heof : P.eof = acts ++ bif saved then start ++ [.savePath] else []) {h r : Held} {rest : Bytes}
    (hrest : AtStop endsAuthority rest) (hacts : exec (Held.perform rest) h acts = some r)
    (hstart : saved = true → exec (Held.perform rest) r start = some ⟨r.uri, some []⟩)
    (hu : r.uri.Fresh) : P.read h rest = some (r.uri.finish saved rest) := by
  obtain ⟨u, w⟩ := r
  dsimp only at hstart hu ⊢
  cases rest with
  | nil =>
      rw [read, heof, exec_append, hacts, Option.bind_some]
      obtain ⟨_, _, _, _, query, fragment, _⟩ := u
      cases hu.query
      cases hu.fragment
      cases saved with
      | false => rfl
      | true =>
          rw [cond_true, exec_append, hstart rfl]
          rfl
  | cons b bs =>
      have hb := hstep b.toNat (hrest b bs rfl)
      rw [leave] at hb
      cases hends : endsPath b.toNat with
      | true =>
          rw [hends] at hb
          cases saved with
          | false =>
              rw [read_step hb hacts, Uri.finish, onward_cons, hends]
              exact read_follow hu hends false
          | true =>
              have hexec : exec (Held.perform (b :: bs)) h (acts ++ start ++ [.savePath]) =
                  some ⟨{ u with path := [] }, none⟩ := by
                rw [exec_append, exec_append, hacts, Option.bind_some, hstart rfl]
                rfl
              rw [read_step hb hexec, Uri.finish, onward_cons, before_cons, hends]
              exact read_follow (h := ⟨{ u with path := [] }, none⟩) ⟨hu.query, hu.fragment⟩ hends true
      | false =>
          rw [hends] at hb
          have hfollow : follow saved b.toNat = path saved := by
            obtain ⟨hq, hf⟩ := Bool.or_eq_false_iff.mp hends
            rw [follow, hq, hf]
            rfl
          rw [hfollow] at hb
          cases saved with
          | false =>
              rw [read_step hb hacts, Uri.finish, onward_cons, hends]
              exact read_path hu bs
          | true =>
              have hexec : exec (Held.perform (b :: bs)) h (acts ++ start ++ []) =
                  some ⟨u, some []⟩ := by
                rw [List.append_nil, exec_append, hacts, Option.bind_some, hstart rfl]
              rw [read_step hb hexec, Uri.finish, onward_cons, before_cons, hends]
              exact read_path_saved hu [b] bs

/-- Whether a byte ends a name. -/
def endsName (n : Nat) : Bool := endsAuthority n || n.beq 58 || n.beq 64

variable {saved : Bool} {u : Uri} {w x t rest : Bytes}

theorem step_name_of_free {n : Nat} (h : endsName n = false) :
    (name saved).step n = ([], name saved) := by
  obtain ⟨h, hat⟩ := Bool.or_eq_false_iff.mp h
  obtain ⟨hends, hcolon⟩ := Bool.or_eq_false_iff.mp h
  rw [step, hends, hcolon, hat]
  rfl

theorem read_name_free (hx : Free endsName x) (t : Bytes) :
    (name saved).read ⟨u, some w⟩ (x ++ t) = (name saved).read ⟨u, some (w ++ x)⟩ t :=
  read_stay fun b hb => step_name_of_free (hx b hb)

theorem read_name (hu : u.Fresh) (hx : Free endsName x) (hrest : AtStop endsAuthority rest) :
    (name saved).read ⟨u, some w⟩ (x ++ rest) =
      some ({ u with host := w ++ x }.finish saved rest) := by
  have hstep : ∀ n, endsAuthority n = true →
      (name saved).step n = leave saved [.saveHost] [.markh] n := by
    intro n hn
    rw [step, hn]
    rfl
  have heof : (name saved).eof =
      [.saveHost] ++ bif saved then [.markh] ++ [.savePath] else [] := by
    cases saved <;> rfl
  rw [read_name_free hx]
  exact read_leave (r := ⟨{ u with host := w ++ x }, some (w ++ x)⟩) hstep heof hrest rfl
    (fun _ => rfl) ⟨hu.query, hu.fragment⟩

theorem read_name_colon (hx : Free endsName x) :
    (name saved).read ⟨u, some w⟩ (x ++ 58 :: t) =
      (colon0 saved).read ⟨{ u with host := w ++ x }, some (w ++ x ++ [58])⟩ t := by
  have hstep : (name saved).step (58 : UInt8).toNat = ([.saveHost], colon0 saved) := rfl
  rw [read_name_free hx, read_step hstep rfl]
  rfl

theorem read_name_at (hx : Free endsName x) :
    (name saved).read ⟨u, some w⟩ (x ++ 64 :: t) =
      (auth0 saved).read ⟨{ u with userinfo := w ++ x }, none⟩ t := by
  have hstep : (name saved).step (64 : UInt8).toNat = ([.saveUserinfo], auth0 saved) := rfl
  rw [read_name_free hx, read_step hstep rfl]
  rfl

theorem read_literal (hx : Free (·.beq 93) x) :
    (literal saved).read ⟨u, some w⟩ (x ++ 93 :: t) =
      (name saved).read ⟨u, some (w ++ x ++ [93])⟩ t := by
  have hstay := read_stay (P := literal saved) (u := u) (w := some w) (x := x) (t := 93 :: t)
    fun b hb => by
      have hfree : b.toNat.beq 93 = false := hx b hb
      rw [step, hfree]
      rfl
  have hstep : (literal saved).step (93 : UInt8).toNat = ([], name saved) := rfl
  rw [hstay]
  exact read_step hstep rfl

/-- A name, or a literal in brackets. -/
def HostForm (x : Bytes) : Prop :=
  Free (fun n => endsName n || n.beq 91) x ∨ ∃ y, x = 91 :: (y ++ [93]) ∧ Free (·.beq 93) y

theorem read_auth0_cons {h : Held} {b : UInt8} (hb : (endsName b.toNat || b.toNat.beq 91) = false) :
    (auth0 saved).read h (b :: t) = (name saved).read ⟨h.uri, some [b]⟩ t := by
  obtain ⟨hb, hbracket⟩ := Bool.or_eq_false_iff.mp hb
  obtain ⟨hb, hat⟩ := Bool.or_eq_false_iff.mp hb
  obtain ⟨hends, hcolon⟩ := Bool.or_eq_false_iff.mp hb
  have hstep : (auth0 saved).step b.toNat = ([.markh], name saved) := by
    rw [step, hends, hcolon, hat, hbracket]
    rfl
  exact read_step hstep rfl

/-- A host that is not empty ends in the name phase. -/
theorem read_auth0_host (h : Held) (hx : HostForm x) (hne : x ≠ []) :
    ∃ w y, w ++ y = x ∧ Free endsName y ∧ ∀ saved t,
      (auth0 saved).read h (x ++ t) = (name saved).read ⟨h.uri, some w⟩ (y ++ t) := by
  rcases hx with hfree | ⟨y, rfl, hy⟩
  · cases x with
    | nil => exact absurd rfl hne
    | cons b x =>
        refine ⟨[b], x, rfl, ?_, fun _ _ => read_auth0_cons (hfree b List.mem_cons_self)⟩
        intro c hc
        exact (Bool.or_eq_false_iff.mp (hfree c (List.mem_cons_of_mem b hc))).1
  · have hnil : Free endsName [] := by
      intro b hb
      cases hb
    refine ⟨91 :: (y ++ [93]), [], List.append_nil _, hnil, fun saved t => ?_⟩
    have hstep : (auth0 saved).step (91 : UInt8).toNat = ([.markh], literal saved) := rfl
    have hbracket : (auth0 saved).read h (91 :: (y ++ [93] ++ t)) =
        (literal saved).read ⟨h.uri, some [91]⟩ (y ++ 93 :: t) := by
      rw [List.append_assoc]
      exact read_step hstep rfl
    exact hbracket.trans (read_literal hy)

theorem read_host {h : Held} (hu : h.uri.Fresh) (hx : HostForm x)
    (hrest : AtStop endsAuthority rest) :
    (auth0 saved).read h (x ++ rest) = some ({ h.uri with host := x }.finish saved rest) := by
  by_cases hne : x = []
  · have hstep : ∀ n, endsAuthority n = true →
        (auth0 saved).step n = leave saved [.markh, .saveHost] [] n := by
      intro n hn
      rw [step, hn]
      rfl
    have heof : (auth0 saved).eof =
        [.markh, .saveHost] ++ bif saved then [] ++ [.savePath] else [] := by
      cases saved <;> rfl
    subst hne
    exact read_leave (r := ⟨{ h.uri with host := [] }, some []⟩) hstep heof hrest rfl
      (fun _ => rfl) ⟨hu.query, hu.fragment⟩
  · obtain ⟨w, y, rfl, hy, hread⟩ := read_auth0_host h hx hne
    rw [hread]
    exact read_name hu hy hrest

theorem read_host_colon {h : Held} (hx : HostForm x) :
    (auth0 saved).read h (x ++ 58 :: t) =
      (colon0 saved).read ⟨{ h.uri with host := x }, some (x ++ [58])⟩ t := by
  by_cases hne : x = []
  · have hstep : (auth0 saved).step (58 : UInt8).toNat = ([.markh, .saveHost], colon0 saved) := rfl
    subst hne
    exact read_step hstep rfl
  · obtain ⟨w, y, rfl, hy, hread⟩ := read_auth0_host h hx hne
    rw [hread]
    exact read_name_colon hy

theorem isDigit_ends {n : Nat} (h : isDigit n = true) :
    endsAuthority n = false ∧ n.beq 64 = false := by
  obtain ⟨hlo, hhi⟩ := Bool.and_eq_true_iff.mp h
  have hlo := Nat.le_of_ble_eq_true hlo
  have hhi := Nat.le_of_ble_eq_true hhi
  have hne : ∀ m, m < 48 ∨ 57 < m → n.beq m = false := by
    intro m hm
    apply Bool.eq_false_iff.mpr
    intro hbeq
    have := Nat.eq_of_beq_eq_true hbeq
    omega
  refine ⟨?_, hne 64 (by omega)⟩
  rw [endsAuthority, endsPath, hne 47 (by omega), hne 63 (by omega), hne 35 (by omega)]
  rfl

theorem read_colon0_digit {h : Held} {d : UInt8} (hd : isDigit d.toNat = true) :
    (colon0 saved).read h (d :: t) = (digits saved).read ⟨h.uri, some [d]⟩ t := by
  have hstep : (colon0 saved).step d.toNat = ([.markh], digits saved) := by
    rw [step, (isDigit_ends hd).1, (isDigit_ends hd).2, hd]
    rfl
  exact read_step hstep rfl

theorem read_port {h : Held} (hu : h.uri.Fresh) (hx : ∀ d ∈ x, isDigit d.toNat = true)
    (hne : x ≠ []) (hrest : AtStop endsAuthority rest) :
    (colon0 saved).read h (x ++ rest) =
      some ({ h.uri with port := atoi (x ++ rest) }.finish saved rest) := by
  cases x with
  | nil => exact absurd rfl hne
  | cons d x =>
      have hdigit : ∀ n, isDigit n = true → (digits saved).step n = ([], digits saved) := by
        intro n hn
        rw [step, (isDigit_ends hn).1, (isDigit_ends hn).2, hn]
        rfl
      have hstay := read_stay (P := digits saved) (u := h.uri) (w := some [d]) (x := x) (t := rest)
        fun b hb => hdigit b.toNat (hx b (List.mem_cons_of_mem d hb))
      rw [List.cons_append, read_colon0_digit (hx d List.mem_cons_self), hstay]
      have hstep : ∀ n, endsAuthority n = true →
          (digits saved).step n = leave saved [.savePort] [.markh] n := by
        intro n hn
        rw [step, hn]
        rfl
      have heof : (digits saved).eof =
          [.savePort] ++ bif saved then [.markh] ++ [.savePath] else [] := by
        cases saved <;> rfl
      exact read_leave (r := ⟨{ h.uri with port := atoi (d :: (x ++ rest)) }, none⟩) hstep heof
        hrest rfl (fun _ => rfl) ⟨hu.query, hu.fragment⟩

/-- A colon without digits, where the path is not saved. -/
theorem read_port_nil {h : Held} (hu : h.uri.Fresh) (hrest : AtStop endsAuthority rest) :
    (colon0 false).read h rest = some (h.uri.finish false rest) := by
  have hstep : ∀ n, endsAuthority n = true →
      (colon0 false).step n = leave false [.markh, .savePort] [] n := by
    intro n hn
    rw [step, hn]
    rfl
  exact read_leave (r := ⟨h.uri, none⟩) hstep rfl hrest rfl (fun hfalse => by cases hfalse) hu

/-- `mark` is set anew by a digit at the start of `rest`. -/
def restart (whole : Bytes) : Bytes → Bytes
  | [] => whole
  | d :: ds => if isDigit d.toNat then d :: ds else whole

/-- What is stored of a userinfo, where `mark` is set anew by a digit after the first colon. -/
def kept (userinfo : Bytes) : Bytes := restart userinfo (onward (·.beq 58) userinfo).tail

/-- Whether a byte ends a userinfo. -/
def endsUser (n : Nat) : Bool := endsAuthority n || n.beq 64 || n.beq 91

theorem read_user (hx : Free endsUser x) :
    (user saved).read ⟨u, some w⟩ (x ++ 64 :: t) =
      (auth0 saved).read ⟨{ u with userinfo := w ++ x }, none⟩ t := by
  have hstay := read_stay (P := user saved) (u := u) (w := some w) (x := x) (t := 64 :: t)
    fun b hb => by
      have hfree := (Bool.or_eq_false_iff.mp (Bool.or_eq_false_iff.mp (hx b hb)).1).2
      rw [step, hfree]
      rfl
  have hstep : (user saved).step (64 : UInt8).toNat = ([.saveUserinfo], auth0 saved) := rfl
  rw [hstay, read_step hstep rfl]
  rfl

theorem read_digits_user (hx : Free endsUser x) :
    (digits saved).read ⟨u, some w⟩ (x ++ 64 :: t) =
      (auth0 saved).read ⟨{ u with userinfo := w ++ x }, none⟩ t := by
  induction x generalizing w with
  | nil =>
      have hstep : (digits saved).step (64 : UInt8).toNat = ([.saveUserinfo], auth0 saved) := rfl
      rw [List.append_nil, List.nil_append, read_step hstep rfl]
      rfl
  | cons b x ih =>
      have hx' : Free endsUser x := fun c hc => hx c (List.mem_cons_of_mem b hc)
      obtain ⟨hb, -⟩ := Bool.or_eq_false_iff.mp (hx b List.mem_cons_self)
      obtain ⟨hends, hat⟩ := Bool.or_eq_false_iff.mp hb
      have hstep : (digits saved).step b.toNat =
          ([], bif isDigit b.toNat then digits saved else user saved) := by
        rw [step, hends, hat]
        rfl
      rw [List.cons_append, read_step hstep rfl, List.append_cons w b x]
      cases isDigit b.toNat with
      | true => exact ih hx'
      | false => exact read_user hx'

theorem read_colon0_user (hx : Free endsUser x) :
    (colon0 saved).read ⟨u, some w⟩ (x ++ 64 :: t) =
      (auth0 saved).read ⟨{ u with userinfo := restart (w ++ x) x }, none⟩ t := by
  cases x with
  | nil =>
      have hstep : (colon0 saved).step (64 : UInt8).toNat = ([.saveUserinfo], auth0 saved) := rfl
      rw [List.append_nil, List.nil_append, read_step hstep rfl]
      rfl
  | cons b x =>
      have hx' : Free endsUser x := fun c hc => hx c (List.mem_cons_of_mem b hc)
      cases hdigit : isDigit b.toNat with
      | true =>
          rw [List.cons_append, read_colon0_digit hdigit, read_digits_user hx', restart, hdigit]
          rfl
      | false =>
          obtain ⟨hb, -⟩ := Bool.or_eq_false_iff.mp (hx b List.mem_cons_self)
          obtain ⟨hends, hat⟩ := Bool.or_eq_false_iff.mp hb
          have hstep : (colon0 saved).step b.toNat = ([], user saved) := by
            rw [step, hends, hat, hdigit]
            rfl
          refine (read_step hstep rfl).trans ((read_user hx').trans ?_)
          rw [← List.append_cons w b x, restart, hdigit]
          rfl

/-- What is read as a host on the way is written over later. -/
theorem read_userinfo {h : Held} (hx : Free endsUser x) :
    ∃ host, (auth0 saved).read h (x ++ 64 :: t) =
      (auth0 saved).read ⟨{ h.uri with userinfo := kept x, host := host }, none⟩ t := by
  have hcut := before_append_onward (·.beq 58) x
  have hfree : Free (fun n => endsName n || n.beq 91) (before (·.beq 58) x) := by
    intro b hb
    have hcolon : b.toNat.beq 58 = false := before_free _ _ b hb
    have hmem : b ∈ x := by
      rw [← hcut]
      exact List.mem_append_left _ hb
    obtain ⟨hother, hbracket⟩ := Bool.or_eq_false_iff.mp (hx b hmem)
    obtain ⟨hends, hat⟩ := Bool.or_eq_false_iff.mp hother
    simp [endsName, hends, hcolon, hat, hbracket]
  have hstop := onward_atStop (·.beq 58) x
  unfold kept
  cases hon : onward (·.beq 58) x with
  | nil =>
      rw [hon, List.append_nil] at hcut
      rw [hcut] at hfree
      refine ⟨h.uri.host, ?_⟩
      by_cases hne : x = []
      · have hstep : (auth0 saved).step (64 : UInt8).toNat =
            ([.markh, .saveUserinfo], auth0 saved) := rfl
        subst hne
        rw [List.nil_append, read_step hstep rfl]
        rfl
      · obtain ⟨w, y, rfl, hy, hread⟩ := read_auth0_host h (.inl hfree) hne
        rw [hread]
        exact read_name_at hy
  | cons c cs =>
      have hc : c = 58 := UInt8.toNat.inj (Nat.eq_of_beq_eq_true (hstop c cs hon))
      subst hc
      rw [hon] at hcut
      have hcs : Free endsUser cs := by
        intro b hb
        apply hx b
        rw [← hcut]
        exact List.mem_append_right _ (List.mem_cons_of_mem 58 hb)
      refine ⟨before (·.beq 58) x, ?_⟩
      conv_lhs => rw [← hcut, List.append_assoc, List.cons_append]
      rw [read_host_colon (.inl hfree), read_colon0_user hcs, List.append_assoc,
        List.singleton_append, hcut]
      rfl

end Phase
end HCServer.Uris
