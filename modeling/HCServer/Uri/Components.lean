import HCServer.Uri.Misread
import HCServer.Uri.Reading

/-! The components that RFC 3986 gives a reference, by the expression of its appendix B and the
rules of its section 3.2, and those that `Create` stores. -/
namespace HCServer.Uris
open Lib
open Http (Bytes digitsValue longToInt)
open Phase (endsPath endsAuthority endsName endsUser isDigit isAlpha isScheme kept HostForm)

/-! ### The RFC's components -/

def endsScheme (n : Nat) : Bool := n.beq 58 || endsAuthority n

/-- The scheme, and what follows its colon. -/
def splitScheme (s : Bytes) : Bytes × Bytes :=
  match before endsScheme s, onward endsScheme s with
  | c :: cs, 58 :: rest => (c :: cs, rest)
  | _, _ => ([], s)

def splitAuthority : Bytes → Option Bytes × Bytes
  | 47 :: 47 :: bs => (some (before endsAuthority bs), onward endsAuthority bs)
  | bs => (none, bs)

/-- The userinfo, and what follows its `@`. -/
def splitUserinfo (authority : Bytes) : Bytes × Bytes :=
  match onward (·.beq 64) authority with
  | [] => ([], authority)
  | _ :: rest => (before (·.beq 64) authority, rest)

/-- The host, up to `]` if it is in brackets, and what follows it. -/
def splitHost (hostport : Bytes) : Bytes × Bytes :=
  if hostport.head? = some 91 then
    (before (·.beq 93) hostport ++ (onward (·.beq 93) hostport).take 1,
      (onward (·.beq 93) hostport).drop 1)
  else (before (·.beq 58) hostport, onward (·.beq 58) hostport)

structure Parts where
  scheme : Bytes
  authority : Option Bytes
  path : Bytes
  query : Bytes
  fragment : Bytes
  deriving DecidableEq, Repr

namespace Parts
variable (p : Parts)

def userinfo : Bytes := (splitUserinfo (p.authority.getD [])).1

def hostport : Bytes := (splitUserinfo (p.authority.getD [])).2

def host : Bytes := (splitHost p.hostport).1

/-- The digits of the port. -/
def port : Bytes := (splitHost p.hostport).2.tail

/-- The `Uri` that holds the components. -/
def uri : Uri where
  scheme := p.scheme
  userinfo := p.userinfo
  host := p.host
  path := p.path
  query := p.query
  fragment := p.fragment
  port := digitsValue 10 p.port

/-- Whether `Create` saves the path. -/
def pathSaved : Bool := !p.scheme.isEmpty && p.authority.isSome

/-- The `Uri` that `Create` makes. -/
def stored : Uri where
  scheme := p.scheme
  userinfo := kept p.userinfo
  host := p.host
  path := if p.pathSaved then p.path else []
  query := p.query
  fragment := p.fragment
  port := longToInt (min (digitsValue 10 p.port) (2 ^ 63 - 1))

end Parts

def parts (s : Bytes) : Parts :=
  let scheme := splitScheme s
  let authority := splitAuthority scheme.2
  { scheme := scheme.1
    authority := authority.1
    path := before endsPath authority.2
    query := queryOf (onward endsPath authority.2)
    fragment := fragmentOf (onward endsPath authority.2) }

/-! ### Reading without an authority -/

namespace Phase
variable {P : Phase} {h : Held} {b : UInt8} {bs : Bytes}

theorem read_other (hu : h.uri.Fresh) (hstep : P.step b.toNat = ([], follow false b.toNat)) :
    P.read h (b :: bs) = some (h.uri.finish false (b :: bs)) := by
  rw [read_step hstep rfl, Uri.finish, onward_cons]
  cases hends : endsPath b.toNat with
  | true => exact read_follow hu hends false
  | false =>
      obtain ⟨hq, hf⟩ := Bool.or_eq_false_iff.mp hends
      rw [follow, hq, hf]
      exact read_path (h := h.feed b) hu bs

theorem read_end {P : Phase} {h : Held} (hu : h.uri.Fresh) (heof : P.eof = []) :
    P.read h [] = some (h.uri.finish false []) := by
  rw [read, heof]
  obtain ⟨⟨_, _, _, _, query, fragment, _⟩, _⟩ := h
  cases hu.query
  cases hu.fragment
  rfl

/-- After a slash that no other follows. -/
theorem read_slash (hu : h.uri.Fresh) (heof : P.eof = [])
    (hstep : ∀ n, n.beq 47 = false → P.step n = ([], follow false n))
    (hbs : bs.head? ≠ some 47) : P.read h bs = some (h.uri.finish false (47 :: bs)) := by
  have hslash : h.uri.finish false (47 :: bs) = h.uri.finish false bs := by
    rw [Uri.finish, Uri.finish, onward_cons]
    rfl
  rw [hslash]
  cases bs with
  | nil => exact read_end hu heof
  | cons b bs =>
      apply read_other hu
      apply hstep
      apply Bool.eq_false_iff.mpr
      intro hb
      exact hbs (congrArg some (UInt8.toNat.inj (Nat.eq_of_beq_eq_true hb)))

theorem head_of_splitAuthority (hnone : (splitAuthority (47 :: bs)).1 = none) :
    bs.head? ≠ some 47 := by
  intro hhead
  cases bs with
  | nil => cases hhead
  | cons b bs =>
      cases hhead
      cases hnone

theorem read_hier (hu : h.uri.Fresh) (hnone : (splitAuthority bs).1 = none) :
    hier.read h bs = some (h.uri.finish false bs) := by
  cases bs with
  | nil => exact read_end hu rfl
  | cons b bs =>
      cases hb : b.toNat.beq 47 with
      | false =>
          apply read_other hu
          rw [step, hb]
          rfl
      | true =>
          have hb47 : b = 47 := UInt8.toNat.inj (Nat.eq_of_beq_eq_true hb)
          subst hb47
          have hstep : hier.step (47 : UInt8).toNat = ([], hslash) := rfl
          rw [read_step hstep rfl]
          refine read_slash (h := h.feed 47) hu rfl (fun n hn => ?_) (head_of_splitAuthority hnone)
          rw [step, hn]
          rfl

theorem isScheme_free {n : Nat} (hn : isScheme n = true) : endsScheme n = false := by
  have hne : ∀ m, m = 58 ∨ m = 47 ∨ m = 63 ∨ m = 35 → n.beq m = false := by
    intro m hm
    apply Bool.eq_false_iff.mpr
    intro hbeq
    rw [Nat.eq_of_beq_eq_true hbeq] at hn
    rcases hm with rfl | rfl | rfl | rfl <;> cases hn
  rw [endsScheme, endsAuthority, endsPath, hne 58 (by simp), hne 47 (by simp), hne 63 (by simp),
    hne 35 (by simp)]
  rfl

/-- A segment that no colon ends. -/
theorem read_first (hu : h.uri.Fresh) (hcolon : (onward endsScheme bs).head? ≠ some 58) :
    first.read h bs = some (h.uri.finish false bs) := by
  induction bs generalizing h with
  | nil => exact read_end hu rfl
  | cons b bs ih =>
      rw [onward_cons] at hcolon
      cases hb : isScheme b.toNat with
      | true =>
          have hfree := isScheme_free hb
          have hends : endsPath b.toNat = false :=
            (Bool.or_eq_false_iff.mp (Bool.or_eq_false_iff.mp hfree).2).2
          have hstep : first.step b.toNat = ([], first) := by
            rw [step, (Bool.or_eq_false_iff.mp hfree).1, hb]
            rfl
          rw [hfree] at hcolon
          rw [read_step hstep rfl, ih (h := h.feed b) hu hcolon, Uri.finish, Uri.finish, onward_cons,
            hends]
          rfl
      | false =>
          have hne : b.toNat.beq 58 = false := by
            apply Bool.eq_false_iff.mpr
            intro hbeq
            have hb58 : b = 58 := UInt8.toNat.inj (Nat.eq_of_beq_eq_true hbeq)
            subst hb58
            exact hcolon rfl
          apply read_other hu
          rw [step, hne, hb]
          rfl

theorem isAlpha_isScheme {n : Nat} (hn : isAlpha n = true) : isScheme n = true := by
  simp [isScheme, hn]

theorem read_start (hu : h.uri.Fresh) (hscheme : (splitScheme bs).1 = [])
    (hnone : (splitAuthority bs).1 = none) : start.read h bs = some (h.uri.finish false bs) := by
  cases bs with
  | nil => exact read_end hu rfl
  | cons b bs =>
      cases halpha : isAlpha b.toNat with
      | true =>
          have hfree := isScheme_free (isAlpha_isScheme halpha)
          have hends : endsPath b.toNat = false :=
            (Bool.or_eq_false_iff.mp (Bool.or_eq_false_iff.mp hfree).2).2
          have hcolon : (onward endsScheme bs).head? ≠ some 58 := by
            intro hhead
            rw [splitScheme, before_cons, onward_cons, hfree] at hscheme
            obtain ⟨rest, hrest⟩ := List.head?_eq_some_iff.mp hhead
            rw [cond_false, cond_false, hrest] at hscheme
            cases hscheme
          have hstep : start.step b.toNat = ([.marku], first) := by
            rw [step, halpha]
            rfl
          have hfinish : h.uri.finish false (b :: bs) = h.uri.finish false bs := by
            rw [Uri.finish, Uri.finish, onward_cons, hends]
            rfl
          rw [read_step hstep rfl, hfinish]
          exact read_first (h := ⟨h.uri, some [b]⟩) hu hcolon
      | false =>
          cases hb : b.toNat.beq 47 with
          | false =>
              apply read_other hu
              rw [step, halpha, hb]
              rfl
          | true =>
              have hb47 : b = 47 := UInt8.toNat.inj (Nat.eq_of_beq_eq_true hb)
              subst hb47
              have hstep : start.step (47 : UInt8).toNat = ([], rslash) := rfl
              rw [read_step hstep rfl]
              refine read_slash (h := h.feed 47) hu rfl (fun n hn => ?_) (head_of_splitAuthority hnone)
              rw [step, hn]
              rfl

theorem read_scheme {c : UInt8} {cs : Bytes} (hc : isAlpha c.toNat = true)
    (hcs : ∀ b ∈ cs, isScheme b.toNat = true) :
    start.read h (c :: cs ++ 58 :: bs) =
      hier.read ⟨{ h.uri with scheme := c :: cs }, none⟩ bs := by
  have hstart : start.step c.toNat = ([.marku], first) := by
    rw [step, hc]
    rfl
  have hstay := read_stay (P := first) (u := h.uri) (w := some [c]) (x := cs) (t := 58 :: bs)
    fun b hb => by
      rw [step, (Bool.or_eq_false_iff.mp (isScheme_free (hcs b hb))).1, hcs b hb]
      rfl
  have hcolon : first.step (58 : UInt8).toNat = ([.saveScheme], hier) := rfl
  rw [List.cons_append, read_step hstart rfl]
  refine hstay.trans ?_
  rw [read_step hcolon rfl]
  rfl

end Phase
/-! ### The port -/

theorem toNat_digit {d : UInt8} (hd : isDigit d.toNat = true) : 48 ≤ d.toNat ∧ d.toNat ≤ 57 := by
  obtain ⟨hlo, hhi⟩ := Bool.and_eq_true_iff.mp hd
  exact ⟨Nat.le_of_ble_eq_true hlo, Nat.le_of_ble_eq_true hhi⟩

theorem digitValue_lt_iff (b : UInt8) : Http.digitValue b < 10 ↔ isDigit b.toNat = true := by
  have hall : ∀ n < 256, (decide (Http.digitValue (UInt8.ofNat n) < 10)) = isDigit n := by
    decide +kernel
  have h := hall b.toNat b.toNat_lt
  rw [UInt8.ofNat_toNat] at h
  rw [← h, decide_eq_true_eq]

/-- `atoi` stops at the end of the port. -/
theorem atoi_digits {d rest : Bytes} (hd : ∀ b ∈ d, isDigit b.toNat = true)
    (hrest : AtStop endsAuthority rest) :
    Http.leadingValue 10 (d ++ rest) = digitsValue 10 d := by
  rw [Http.leadingValue]
  congr 1
  induction d with
  | nil =>
      cases rest with
      | nil => rfl
      | cons b bs =>
          have hb : ¬ Http.digitValue b < 10 := by
            rw [digitValue_lt_iff]
            intro hdigit
            have hends := hrest b bs rfl
            rw [(Phase.isDigit_ends hdigit).1] at hends
            cases hends
          rw [List.nil_append, List.takeWhile_cons_of_neg (by simpa using hb)]
  | cons c d ih =>
      have hc := (digitValue_lt_iff c).mpr (hd c List.mem_cons_self)
      rw [List.cons_append, List.takeWhile_cons_of_pos (by simpa using hc),
        ih fun b hb => hd b (List.mem_cons_of_mem c hb)]

theorem atoi_port {d rest : Bytes} (hd : ∀ b ∈ d, isDigit b.toNat = true) (hne : d ≠ [])
    (hrest : AtStop endsAuthority rest) :
    atoi (d ++ rest) = longToInt (min (digitsValue 10 d) (2 ^ 63 - 1)) := by
  have hvalue := atoi_digits hd hrest
  cases d with
  | nil => exact absurd rfl hne
  | cons c d =>
      obtain ⟨hlo, hhi⟩ := toNat_digit (hd c List.mem_cons_self)
      have hspace : Http.isSpace c = false := by
        have h32 : c ≠ 32 := fun h => by rw [h] at hlo; exact absurd hlo (by decide)
        have h13 : ¬ c ≤ 13 := fun h => by
          have := UInt8.le_iff_toNat_le.mp h
          have h13 : (13 : UInt8).toNat = 13 := rfl
          omega
        simp [Http.isSpace, h32, h13]
      have hprefixed : Http.prefixedValue 10 (c :: d ++ rest) = digitsValue 10 (c :: d) := by
        rw [← hvalue]
        unfold Http.prefixedValue
        split <;> rfl
      have hminus : c ≠ 45 := fun h => by rw [h] at hlo; exact absurd hlo (by decide)
      have hplus : c ≠ 43 := fun h => by rw [h] at hlo; exact absurd hlo (by decide)
      rw [atoi, Http.strtol, List.cons_append, List.dropWhile_cons_of_neg (by simp [hspace]),
        ← List.cons_append]
      split
      · rename_i heq
        exact absurd (List.cons.inj heq).1 hminus
      · rename_i heq
        exact absurd (List.cons.inj heq).1 hplus
      · rw [hprefixed]

/-! ### Reading an authority -/

/-- A host and a port, maybe after a userinfo. A path is only saved after a port with digits. -/
structure AuthorityForm (saved : Bool) (userinfo : Option Bytes) (host port : Bytes) : Prop where
  user : ∀ x, userinfo = some x → Free endsUser x
  form : HostForm host
  inside : Free (fun n => endsAuthority n || n.beq 64) host
  digits : port = [] ∨
    ∃ d, port = 58 :: d ∧ (∀ b ∈ d, isDigit b.toNat = true) ∧ (saved = true → d ≠ [])

/-- The text of an authority. -/
def authorityText (userinfo : Option Bytes) (host port : Bytes) : Bytes :=
  match userinfo with
  | some x => x ++ 64 :: (host ++ port)
  | none => host ++ port

namespace AuthorityForm
variable {saved : Bool} {userinfo : Option Bytes} {host port : Bytes}

theorem splitHost_eq (h : AuthorityForm saved userinfo host port) :
    splitHost (host ++ port) = (host, port) := by
  have hcolon : AtStop (·.beq 58) port := by
    intro b bs hb
    rcases h.digits with rfl | ⟨d, rfl, -, -⟩
    · cases hb
    · cases hb
      rfl
  unfold splitHost
  rcases h.form with hfree | ⟨y, rfl, hy⟩
  · have hname : Free (·.beq 58) host := fun b hb => by
      have hother := (Bool.or_eq_false_iff.mp (hfree b hb)).1
      exact (Bool.or_eq_false_iff.mp (Bool.or_eq_false_iff.mp hother).1).2
    have hhead : (host ++ port).head? ≠ some 91 := by
      intro hhead
      cases host with
      | nil =>
          obtain ⟨bs, rfl⟩ := List.head?_eq_some_iff.mp hhead
          exact absurd (hcolon 91 bs rfl) (by decide)
      | cons b x =>
          cases hhead
          exact absurd (hfree 91 List.mem_cons_self) (by decide)
    rw [if_neg hhead, before_append hname hcolon, onward_append hname hcolon]
  · have hopen : Free (·.beq 93) (91 :: y) := by
      intro b hb
      rcases List.mem_cons.mp hb with rfl | hb
      · rfl
      · exact hy b hb
    have hstop : AtStop (·.beq 93) (93 :: port) := by
      intro b bs hb
      cases hb
      rfl
    have htext : 91 :: (y ++ [93]) ++ port = (91 :: y) ++ 93 :: port := by simp
    rw [htext, before_append hopen hstop, onward_append hopen hstop]
    exact if_pos rfl

theorem splitUserinfo_eq (h : AuthorityForm saved userinfo host port) :
    splitUserinfo (authorityText userinfo host port) = (userinfo.getD [], host ++ port) := by
  cases userinfo with
  | none =>
      have hfree : Free (·.beq 64) (host ++ port) := by
        intro b hb
        rcases List.mem_append.mp hb with hb | hb
        · exact (Bool.or_eq_false_iff.mp (h.inside b hb)).2
        · rcases h.digits with rfl | ⟨d, rfl, hd, -⟩
          · cases hb
          · rcases List.mem_cons.mp hb with rfl | hb
            · rfl
            · exact (Phase.isDigit_ends (hd b hb)).2
      rw [splitUserinfo, authorityText, onward_of_free hfree]
      rfl
  | some x =>
      have hfree : Free (·.beq 64) x := fun b hb =>
        (Bool.or_eq_false_iff.mp (Bool.or_eq_false_iff.mp (h.user x rfl b hb)).1).2
      have hstop : AtStop (·.beq 64) (64 :: (host ++ port)) := by
        intro b bs hb
        cases hb
        rfl
      rw [splitUserinfo, authorityText, before_append hfree hstop, onward_append hfree hstop]
      rfl

theorem read_hostport (h : AuthorityForm saved userinfo host port) {r : Held}
    (hu : r.uri.Fresh) (hport : r.uri.port = 0) {rest : Bytes}
    (hrest : AtStop endsAuthority rest) :
    (Phase.auth0 saved).read r (host ++ port ++ rest) =
      some ({ r.uri with
        host := host
        port := longToInt (min (digitsValue 10 port.tail) (2 ^ 63 - 1)) }.finish saved rest) := by
  rcases h.digits with rfl | ⟨d, rfl, hd, hdigits⟩
  · rw [List.append_nil, Phase.read_host hu h.form hrest]
    obtain ⟨⟨_, _, _, _, _, _, port⟩, _⟩ := r
    cases hport
    rfl
  · rw [List.append_assoc, List.cons_append, Phase.read_host_colon h.form]
    by_cases hne : d = []
    · subst hne
      cases saved with
      | true => exact absurd rfl (hdigits rfl)
      | false =>
          refine (Phase.read_port_nil (h := ⟨{ r.uri with host := host }, some (host ++ [58])⟩)
            ⟨hu.query, hu.fragment⟩ hrest).trans ?_
          obtain ⟨⟨_, _, _, _, _, _, port⟩, _⟩ := r
          cases hport
          rfl
    · refine (Phase.read_port (h := ⟨{ r.uri with host := host }, some (host ++ [58])⟩)
        ⟨hu.query, hu.fragment⟩ hd hne hrest).trans ?_
      rw [atoi_port hd hne hrest]
      rfl

theorem read_authority (h : AuthorityForm saved userinfo host port) {r : Held}
    (hu : r.uri.Fresh) (hport : r.uri.port = 0) (huser : r.uri.userinfo = [])
    {rest : Bytes} (hrest : AtStop endsAuthority rest) :
    (Phase.auth0 saved).read r (authorityText userinfo host port ++ rest) =
      some ({ r.uri with
        userinfo := kept (userinfo.getD [])
        host := host
        port := longToInt (min (digitsValue 10 port.tail) (2 ^ 63 - 1)) }.finish saved rest) := by
  cases userinfo with
  | none =>
      rw [authorityText, h.read_hostport hu hport hrest]
      obtain ⟨⟨_, userinfo, _, _, _, _, _⟩, _⟩ := r
      cases huser
      rfl
  | some x =>
      have htext : authorityText (some x) host port ++ rest = x ++ 64 :: (host ++ port ++ rest) := by
        rw [authorityText, List.append_assoc, List.cons_append]
      obtain ⟨host', hread⟩ := Phase.read_userinfo (h.user x rfl)
      rw [htext, hread]
      exact h.read_hostport (r := ⟨{ r.uri with userinfo := kept x, host := host' }, none⟩)
        ⟨hu.query, hu.fragment⟩ hport hrest

end AuthorityForm

end HCServer.Uris
