import HCServer.Uri.Components

/-! The shape of the texts that `Create` takes, and what it stores of them. -/
namespace HCServer.Uris
open Lib Regex
open Http (Bytes digitsValue longToInt)
open Phase (endsPath endsAuthority endsName endsUser isDigit isAlpha isScheme kept HostForm)

/-! ### Words of the rules -/

namespace Grammar
variable {g h p : Grammar} {w : Bytes}

/-- No range of `cs` has a number that stops. -/
def avoids (stop : Nat → Bool) (cs : Chars) : Bool :=
  cs.all fun r => (List.range' r.1 (r.2 + 1 - r.1)).all fun n => !stop n

theorem avoids_free {stop : Nat → Bool} {cs : Chars} {b : UInt8} (h : avoids stop cs = true)
    (hb : Chars.has cs b = true) : stop b.toNat = false := by
  obtain ⟨r, hr, hrb⟩ := List.any_eq_true.mp hb
  obtain ⟨hlo, hhi⟩ := Bool.and_eq_true_iff.mp hrb
  have hlo := of_decide_eq_true hlo
  have hhi := of_decide_eq_true hhi
  have hn := List.all_eq_true.mp (List.all_eq_true.mp h r hr) b.toNat
    (List.mem_range'_1.mpr ⟨hlo, by omega⟩)
  simpa using hn

theorem free_of_every {stop : Nat → Bool} (hg : g.every (avoids stop) = true) (hw : w ∈ g.lang) :
    Free stop w :=
  forall_of_every (fun _ _ => avoids_free) hg hw

theorem has_digit (b : UInt8) : Chars.has digit b = isDigit b.toNat := by
  rw [Bool.eq_iff_iff]
  simp [Chars.has, digit, isDigit, Nat.ble_eq]

theorem mem_port : w ∈ port.lang ↔ ∀ b ∈ w, isDigit b.toNat = true := by
  constructor
  · intro hw b hb
    rw [← has_digit]
    exact forall_of_every (p := fun cs => decide (cs = digit)) (P := fun b => Chars.has digit b = true)
      (fun cs b hcs hb => by rwa [of_decide_eq_true hcs] at hb) (by decide) hw b hb
  · intro hw
    exact mem_star_of_forall _ fun b hb => ⟨b, by rw [has_digit, hw b hb], rfl⟩

theorem mem_optPort : w ∈ optPort.lang ↔
    w = [] ∨ ∃ d, w = 58 :: d ∧ ∀ b ∈ d, isDigit b.toNat = true := by
  rw [optPort, mem_opt, colon, mem_byte_cat (by decide)]
  refine or_congr_right ?_
  constructor
  · rintro ⟨d, hd, rfl⟩
    exact ⟨d, rfl, mem_port.mp hd⟩
  · rintro ⟨d, rfl, hd⟩
    exact ⟨d, mem_port.mpr hd, rfl⟩

theorem mem_plus_digit : w ∈ Grammar.lang (plus (sym digit)) ↔
    w ≠ [] ∧ ∀ b ∈ w, isDigit b.toNat = true := by
  have hport : Grammar.lang (plus (sym digit)) = Grammar.lang (cat (sym digit) port) := rfl
  rw [hport, mem_cat]
  constructor
  · rintro ⟨u, ⟨b, hb, rfl⟩, v, hv, rfl⟩
    refine ⟨List.cons_ne_nil b v, fun c hc => ?_⟩
    rcases List.mem_cons.mp hc with rfl | hc
    · rw [← has_digit, hb]
    · exact mem_port.mp hv c hc
  · rintro ⟨hne, hdigits⟩
    cases w with
    | nil => exact absurd rfl hne
    | cons b v =>
        refine ⟨[b], ⟨b, ?_, rfl⟩, v, ?_, rfl⟩
        · rw [has_digit, hdigits b List.mem_cons_self]
        · exact mem_port.mpr fun c hc => hdigits c (List.mem_cons_of_mem b hc)

theorem mem_digitPort : w ∈ digitPort.lang ↔
    w = [] ∨ ∃ d, w = 58 :: d ∧ d ≠ [] ∧ ∀ b ∈ d, isDigit b.toNat = true := by
  rw [digitPort, mem_opt, colon, mem_byte_cat (by decide)]
  refine or_congr_right ?_
  constructor
  · rintro ⟨d, hd, rfl⟩
    exact ⟨d, rfl, mem_plus_digit.mp hd⟩
  · rintro ⟨d, rfl, hd⟩
    exact ⟨d, mem_plus_digit.mpr hd, rfl⟩

theorem mem_network : w ∈ (network g).lang ↔
    ∃ a ∈ (authority g).lang, ∃ path ∈ pathAbempty.lang, w = 47 :: 47 :: (a ++ path) := by
  have hnetwork : network g = cat (lit '/') (cat (lit '/') (cat (authority g) pathAbempty)) := rfl
  rw [hnetwork, lit, mem_byte_cat (by decide)]
  constructor
  · rintro ⟨v, hv, rfl⟩
    rw [← lit, mem_cat] at hv
    obtain ⟨u, hu, v, hv, rfl⟩ := hv
    rw [(mem_byte (by decide)).mp hu]
    obtain ⟨a, ha, path, hpath, rfl⟩ := mem_cat.mp hv
    exact ⟨a, ha, path, hpath, rfl⟩
  · rintro ⟨a, ha, path, hpath, rfl⟩
    exact ⟨_, (mem_byte_cat (by decide)).mpr ⟨_, mem_cat.mpr ⟨a, ha, path, hpath, rfl⟩, rfl⟩, rfl⟩

/-- The text of an authority is a word of the rule when its parts are. -/
theorem mem_authority : w ∈ (authority (cat h p)).lang ↔
    ∃ user, (∀ x ∈ user, x ∈ userinfo.lang) ∧ ∃ host ∈ h.lang, ∃ port ∈ p.lang,
      w = authorityText user host port := by
  rw [authority, mem_cat]
  constructor
  · rintro ⟨u, hu, v, hv, rfl⟩
    obtain ⟨host, hhost, port, hport, rfl⟩ := mem_cat.mp hv
    rcases mem_opt.mp hu with rfl | hu
    · exact ⟨none, fun x hx => (by cases hx), host, hhost, port, hport, rfl⟩
    · obtain ⟨x, hx, a, ha, rfl⟩ := mem_cat.mp hu
      rw [(mem_byte (by decide)).mp ha]
      refine ⟨some x, fun y hy => by cases hy; exact hx, host, hhost, port, hport, ?_⟩
      exact List.append_assoc x [64] (host ++ port)
  · rintro ⟨user, huser, host, hhost, port, hport, rfl⟩
    have hhostport := mem_cat.mpr ⟨host, hhost, port, hport, rfl⟩
    cases user with
    | none => exact ⟨[], mem_opt.mpr (.inl rfl), _, hhostport, rfl⟩
    | some x =>
        refine ⟨x ++ [64], mem_opt.mpr (.inr ?_), _, hhostport, List.append_assoc x [64] _⟩
        exact mem_cat.mpr ⟨x, huser x rfl, [64], (mem_byte (by decide)).mpr rfl, rfl⟩

theorem mem_tail : w ∈ tail.lang ↔ ∃ q f, (q = [] ∨ ∃ x ∈ query.lang, q = 63 :: x) ∧
    (f = [] ∨ ∃ x ∈ query.lang, f = 35 :: x) ∧ w = q ++ f := by
  have hpart : ∀ n < 256, ∀ v, v ∈ Grammar.lang (opt (cat (sym [(n, n)]) query)) ↔
      v = [] ∨ ∃ x ∈ query.lang, v = UInt8.ofNat n :: x := by
    intro n hn v
    rw [mem_opt, mem_byte_cat hn]
    refine or_congr_right (exists_congr fun x => and_congr_right fun _ => eq_comm)
  rw [tail, mem_cat]
  constructor
  · rintro ⟨q, hq, f, hf, rfl⟩
    exact ⟨q, f, (hpart 63 (by decide) q).mp hq, (hpart 35 (by decide) f).mp hf, rfl⟩
  · rintro ⟨q, f, hq, hf, rfl⟩
    exact ⟨q, (hpart 63 (by decide) q).mpr hq, f, (hpart 35 (by decide) f).mpr hf, rfl⟩

theorem mem_pathAbempty (hw : w ∈ pathAbempty.lang) : AtStop (·.beq 47) w := by
  intro b bs hb
  obtain ⟨y, z, hyz, hne, hy, -⟩ :=
    Regex.exists_head_of_mem_kstar (l := Grammar.lang (cat (lit '/') (star pchar))) hw
      (by rw [hb]; exact List.cons_ne_nil b bs)
  obtain ⟨v, hv, rfl⟩ := (mem_byte_cat (by decide)).mp hy
  rw [hb] at hyz
  cases hyz
  rfl

theorem mem_scheme (hw : w ∈ scheme.lang) : ∃ c cs, w = c :: cs ∧ isAlpha c.toNat = true ∧
    ∀ b ∈ cs, isScheme b.toNat = true := by
  obtain ⟨u, ⟨c, hc, rfl⟩, cs, hcs, rfl⟩ := mem_cat.mp hw
  have halpha : Free (fun n => !isAlpha n) [c] :=
    free_of_every (g := sym alpha) (by decide) ⟨c, hc, rfl⟩
  have hscheme : Free (fun n => !isScheme n) cs := free_of_every (by decide) hcs
  refine ⟨c, cs, rfl, ?_, fun b hb => ?_⟩
  · simpa using halpha c List.mem_cons_self
  · simpa using hscheme b hb

theorem tail_atStop (hw : w ∈ tail.lang) : AtStop endsPath w := by
  obtain ⟨q, f, hq, hf, rfl⟩ := mem_tail.mp hw
  intro b bs hb
  rcases hq with rfl | ⟨x, -, rfl⟩
  · rcases hf with rfl | ⟨x, -, rfl⟩
    · cases hb
    · cases hb
      rfl
  · cases hb
    rfl

/-- A nonempty run of `g`, which has no slash. -/
theorem plus_head (hnull : g.nullable = false) (hg : g.every (avoids (·.beq 47)) = true)
    (hw : w ∈ Grammar.lang (cat (plus g) h)) :
    ∃ b bs, w = b :: bs ∧ b.toNat.beq 47 = false := by
  obtain ⟨u, hu, v, hv, rfl⟩ := mem_cat.mp hw
  obtain ⟨y, hy, z, hz, rfl⟩ := mem_cat.mp hu
  cases y with
  | nil =>
      rw [(nullable_iff Chars.has g).mpr hy] at hnull
      cases hnull
  | cons b y => exact ⟨b, y ++ z ++ v, rfl, free_of_every hg hy b List.mem_cons_self⟩

theorem form_of_mem {saved : Bool} {user : Option Bytes} {host port : Bytes}
    (huser : ∀ x ∈ user, x ∈ userinfo.lang) (hhost : host ∈ rlHost.lang)
    (hport : port ∈ Grammar.lang (if saved then digitPort else optPort)) :
    AuthorityForm saved user host port where
  user x hx := free_of_every (by decide) (huser x hx)
  inside := free_of_every (by decide) hhost
  form := by
    rcases mem_alt.mp hhost with hliteral | hname
    · obtain ⟨v, hv, rfl⟩ := (mem_byte_cat (by decide)).mp hliteral
      obtain ⟨y, hy, z, hz, rfl⟩ := mem_cat.mp hv
      rw [(mem_byte (by decide)).mp hz]
      exact .inr ⟨y, rfl, free_of_every (by decide) hy⟩
    · exact .inl (free_of_every (by decide) hname)
  digits := by
    cases saved with
    | true =>
        rcases mem_digitPort.mp hport with hnil | ⟨d, hd, hne, hdigits⟩
        · exact .inl hnil
        · exact .inr ⟨d, hd, hdigits, fun _ => hne⟩
    | false =>
        rcases mem_optPort.mp hport with hnil | ⟨d, hd, hdigits⟩
        · exact .inl hnil
        · exact .inr ⟨d, hd, hdigits, fun hfalse => by cases hfalse⟩

end Grammar

open Grammar

/-! ### The shape of a text -/

theorem endsAuthority_of_endsPath {stop : Bytes} (h : AtStop endsPath stop) :
    AtStop endsAuthority stop := by
  intro b bs hb
  rw [endsAuthority, h b bs hb, Bool.or_true]

/-- The parts of a network path are words of their rules. -/
structure NetworkForm (saved : Bool) (user : Option Bytes) (host port path rest : Bytes) : Prop where
  inUser : ∀ x ∈ user, x ∈ userinfo.lang
  inHost : host ∈ rlHost.lang
  inPort : port ∈ Grammar.lang (if saved then digitPort else optPort)
  inPath : path ∈ pathAbempty.lang
  inTail : rest ∈ tail.lang

def networkText (user : Option Bytes) (host port path rest : Bytes) : Bytes :=
  47 :: 47 :: (authorityText user host port ++ (path ++ rest))

/-- What stands after a scheme, or instead of it. -/
def Hier (saved : Bool) (s : Bytes) : Prop :=
  splitAuthority s = (none, s) ∨ ∃ user host port path rest,
    NetworkForm saved user host port path rest ∧ s = networkText user host port path rest

theorem hier_network {saved : Bool} {w t : Bytes} (ht : t ∈ tail.lang)
    (hw : w ∈ (network (cat rlHost (if saved then digitPort else optPort))).lang) :
    Hier saved (w ++ t) := by
  obtain ⟨a, ha, path, hpath, rfl⟩ := mem_network.mp hw
  obtain ⟨user, huser, host, hhost, port, hport, rfl⟩ := mem_authority.mp ha
  refine .inr ⟨user, host, port, path, t, ⟨huser, hhost, hport, hpath, ht⟩, ?_⟩
  rw [networkText, List.cons_append, List.cons_append, List.append_assoc]

theorem splitAuthority_none {s : Bytes} (h : ∀ bs, s ≠ 47 :: 47 :: bs) :
    splitAuthority s = (none, s) := by
  unfold splitAuthority
  split
  · exact absurd rfl (h _)
  · rfl

/-- A path of an absolute form, or one whose first byte is not a slash. -/
theorem hier_path {saved : Bool} {w t : Bytes} (ht : t ∈ tail.lang)
    (hw : w ∈ pathAbsolute.lang ∨ w = [] ∨ ∃ b bs, w = b :: bs ∧ b.toNat.beq 47 = false) :
    Hier saved (w ++ t) := by
  have hstop := tail_atStop ht
  refine .inl (splitAuthority_none fun bs hbs => ?_)
  rcases hw with hw | rfl | ⟨b, bs', rfl, hb⟩
  · obtain ⟨v, hv, rfl⟩ := (mem_byte_cat (by decide)).mp hw
    rcases mem_opt.mp hv with rfl | hv
    · obtain ⟨-, hbs⟩ := List.cons.inj hbs
      exact absurd (hstop 47 bs hbs) (by decide)
    · obtain ⟨b, bs', rfl, hb⟩ := plus_head (by decide) (by decide) hv
      rw [(List.cons.inj (List.cons.inj hbs).2).1] at hb
      cases hb
  · exact absurd (hstop 47 (47 :: bs) hbs) (by decide)
  · rw [(List.cons.inj hbs).1] at hb
    cases hb

theorem splitScheme_none {x rest : Bytes} (hx : Free endsScheme x)
    (hrest : AtStop endsAuthority rest) : splitScheme (x ++ rest) = ([], x ++ rest) := by
  have hstop : AtStop endsScheme rest := by
    intro b bs hb
    rw [endsScheme, hrest b bs hb, Bool.or_true]
  unfold splitScheme
  rw [before_append hx hstop, onward_append hx hstop]
  split
  · exact absurd (hrest 58 _ rfl) (by decide)
  · rfl

theorem splitScheme_some {c : UInt8} {cs bs : Bytes} (hc : isAlpha c.toNat = true)
    (hcs : ∀ b ∈ cs, isScheme b.toNat = true) :
    splitScheme (c :: cs ++ 58 :: bs) = (c :: cs, bs) := by
  have hfree : Free endsScheme (c :: cs) := by
    intro b hb
    rcases List.mem_cons.mp hb with rfl | hb
    · exact Phase.isScheme_free (Phase.isAlpha_isScheme hc)
    · exact Phase.isScheme_free (hcs b hb)
  have hstop : AtStop endsScheme (58 :: bs) := by
    intro b bs hb
    cases hb
    rfl
  rw [splitScheme, before_append hfree hstop, onward_append hfree hstop]
  rfl

/-- A scheme and what may follow one, or what may stand without one. -/
theorem shape {s : Bytes} (hs : s ∈ passed.lang) :
    (∃ sc bs, s = sc ++ 58 :: bs ∧ sc ∈ scheme.lang ∧ Hier true bs) ∨
    (splitScheme s).1 = [] ∧ Hier false s := by
  rcases mem_alt.mp hs with huri | hrelative
  · obtain ⟨sc, hsc, colon, hcolon, rfl⟩ := mem_cat.mp huri
    obtain ⟨v, hv, rfl⟩ := (mem_byte_cat (by decide)).mp hcolon
    refine .inl ⟨sc, v, rfl, hsc, ?_⟩
    obtain ⟨w, hw, t, ht, rfl⟩ := mem_cat.mp hv
    rcases mem_alt.mp hw with hw | hw
    · exact hier_network ht hw
    · apply hier_path ht
      rcases mem_alt.mp hw with hw | hw
      · exact .inl hw
      · rcases mem_alt.mp hw with hw | hw
        · exact .inr (.inr (plus_head (by decide) (by decide) hw))
        · exact .inr (.inl ((Language.mem_one w).mp hw))
  · obtain ⟨w, hw, t, ht, rfl⟩ := mem_cat.mp hrelative
    have hstop := endsAuthority_of_endsPath (tail_atStop ht)
    have hslash : ∀ v, AtStop endsAuthority (47 :: v) := by
      intro v b bs hb
      cases hb
      rfl
    have hnone : ∀ x, AtStop endsAuthority x → (splitScheme x).1 = [] := fun x hx =>
      congrArg Prod.fst (splitScheme_none (x := []) (fun b hb => by cases hb) hx)
    refine .inr ?_
    rcases mem_alt.mp hw with hw | hw
    · obtain ⟨a, ha, path, hpath, rfl⟩ := mem_network.mp hw
      exact ⟨hnone _ (hslash _), hier_network ht hw⟩
    · rcases mem_alt.mp hw with hw | hw
      · refine ⟨?_, hier_path ht (.inl hw)⟩
        obtain ⟨v, -, rfl⟩ := (mem_byte_cat (by decide)).mp hw
        exact hnone _ (hslash _)
      · rcases mem_alt.mp hw with hw | hw
        · have hhead := plus_head (by decide) (by decide) hw
          refine ⟨?_, hier_path ht (.inr (.inr hhead))⟩
          obtain ⟨x, hx, path, hpath, rfl⟩ := mem_cat.mp hw
          have hfree : Free endsScheme x := free_of_every (by decide) hx
          rw [List.append_assoc]
          refine congrArg Prod.fst (splitScheme_none hfree fun b bs hb => ?_)
          cases path with
          | nil => exact hstop b bs hb
          | cons c path =>
              have hc : c.toNat.beq 47 = true := mem_pathAbempty hpath c path rfl
              cases hb
              rw [endsAuthority, hc, Bool.true_or]
        · rw [(Language.mem_one w).mp hw]
          exact ⟨hnone _ hstop, hier_path ht (.inr (.inl rfl))⟩

/-! ### What is stored -/

theorem AuthorityForm.free {saved : Bool} {user : Option Bytes} {host port : Bytes}
    (h : AuthorityForm saved user host port) : Free endsAuthority (authorityText user host port) := by
  have hhostport : Free endsAuthority (host ++ port) := by
    intro b hb
    rcases List.mem_append.mp hb with hb | hb
    · exact (Bool.or_eq_false_iff.mp (h.inside b hb)).1
    · rcases h.digits with rfl | ⟨d, rfl, hd, -⟩
      · cases hb
      · rcases List.mem_cons.mp hb with rfl | hb
        · rfl
        · exact (Phase.isDigit_ends (hd b hb)).1
  cases user with
  | none => exact hhostport
  | some x =>
      intro b hb
      rcases List.mem_append.mp hb with hb | hb
      · exact (Bool.or_eq_false_iff.mp (Bool.or_eq_false_iff.mp (h.user x rfl b hb)).1).1
      · rcases List.mem_cons.mp hb with rfl | hb
        · rfl
        · exact hhostport b hb

namespace NetworkForm
variable {saved : Bool} {user : Option Bytes} {host port path rest : Bytes}

theorem authority (h : NetworkForm saved user host port path rest) :
    AuthorityForm saved user host port :=
  form_of_mem h.inUser h.inHost h.inPort

theorem atStop (h : NetworkForm saved user host port path rest) :
    AtStop endsAuthority (path ++ rest) := by
  intro b bs hb
  cases hpath : path with
  | nil =>
      rw [hpath] at hb
      exact endsAuthority_of_endsPath (tail_atStop h.inTail) b bs hb
  | cons c cs =>
      have hc : c.toNat.beq 47 = true := mem_pathAbempty h.inPath c cs hpath
      rw [hpath] at hb
      cases hb
      rw [endsAuthority, hc, Bool.true_or]

theorem splitAuthority_eq (h : NetworkForm saved user host port path rest) :
    splitAuthority (networkText user host port path rest) =
      (some (authorityText user host port), path ++ rest) := by
  rw [networkText, splitAuthority, before_append h.authority.free h.atStop,
    onward_append h.authority.free h.atStop]

/-- The `Uri` that is read from the authority on. -/
theorem read_eq (h : NetworkForm saved user host port path rest) (scheme : Bytes) :
    (Phase.auth0 saved).read ⟨{ scheme := scheme }, none⟩
        (authorityText user host port ++ (path ++ rest)) =
      some (Uri.finish
        { scheme := scheme
          userinfo := kept (user.getD [])
          host := host
          port := longToInt (min (digitsValue 10 port.tail) (2 ^ 63 - 1)) } saved (path ++ rest)) :=
  h.authority.read_authority (r := ⟨{ scheme := scheme }, none⟩) ⟨rfl, rfl⟩ rfl rfl h.atStop

end NetworkForm

/-- What the parts of a text with an authority are read from. -/
theorem stored_of_authority {saved : Bool} {user : Option Bytes} {host port : Bytes}
    (h : AuthorityForm saved user host port) {p : Parts}
    (hp : p.authority = some (authorityText user host port)) :
    p.userinfo = user.getD [] ∧ p.host = host ∧ p.port = port.tail := by
  simp only [Parts.userinfo, Parts.host, Parts.port, Parts.hostport, hp, Option.getD_some,
    h.splitUserinfo_eq, h.splitHost_eq, and_self]

/-- `Create` stores these parts of what it takes. -/
theorem create_stores {s : Bytes} {u : Uri} (h : Uri.create s = .uri u) : u = (parts s).stored := by
  have hread := create_read h
  rcases shape ((create_uri_iff_passed s).mp ⟨u, h⟩) with ⟨sc, bs, rfl, hsc, hhier⟩ | ⟨hscheme, hhier⟩
  · obtain ⟨c, cs, rfl, hc, hcs⟩ := mem_scheme hsc
    rw [Phase.read_scheme hc hcs] at hread
    rw [parts, splitScheme_some hc hcs]
    rcases hhier with hnone | ⟨user, host, port, path, rest, hform, rfl⟩
    · have hfresh : Uri.Fresh { scheme := c :: cs } := ⟨rfl, rfl⟩
      rw [Phase.read_hier hfresh (congrArg Prod.fst hnone)] at hread
      cases hread
      dsimp only
      rw [hnone]
      rfl
    · have hslash : Phase.hier.step (47 : UInt8).toNat = ([], .hslash) := rfl
      have hslash' : Phase.hslash.step (47 : UInt8).toNat = ([], .auth0 true) := rfl
      rw [networkText, Phase.read_step hslash rfl, Phase.read_step hslash' rfl] at hread
      cases hread.symm.trans (hform.read_eq (c :: cs))
      dsimp only
      rw [hform.splitAuthority_eq]
      obtain ⟨huser, hhost, hport⟩ := stored_of_authority hform.authority (p := ⟨_, _, _, _, _⟩) rfl
      rw [Parts.stored, huser, hhost, hport]
      rfl
  · have hsplit : splitScheme s = ([], s) := by
      unfold splitScheme at hscheme ⊢
      split at hscheme
      · cases hscheme
      · rfl
    rw [parts, hsplit]
    rcases hhier with hnone | ⟨user, host, port, path, rest, hform, rfl⟩
    · have hfresh : Uri.Fresh {} := ⟨rfl, rfl⟩
      rw [Phase.read_start hfresh hscheme (congrArg Prod.fst hnone)] at hread
      cases hread
      dsimp only
      rw [hnone]
      rfl
    · have hslash : Phase.start.step (47 : UInt8).toNat = ([], .rslash) := rfl
      have hslash' : Phase.rslash.step (47 : UInt8).toNat = ([], .auth0 false) := rfl
      rw [networkText, Phase.read_step hslash rfl, Phase.read_step hslash' rfl] at hread
      cases hread.symm.trans (hform.read_eq [])
      dsimp only
      rw [hform.splitAuthority_eq]
      obtain ⟨huser, hhost, hport⟩ := stored_of_authority hform.authority (p := ⟨_, _, _, _, _⟩) rfl
      rw [Parts.stored, huser, hhost, hport]
      rfl

/-- A colon in the userinfo that a digit follows, with no colon before it. -/
def digitAfterColon (userinfo : Bytes) : Bool :=
  ((onward (·.beq 58) userinfo).tail.head?.map fun d => isDigit d.toNat).getD false

theorem kept_eq_iff (userinfo : Bytes) : kept userinfo = userinfo ↔ digitAfterColon userinfo = false := by
  have hcut := congrArg List.length (before_append_onward (·.beq 58) userinfo)
  rw [List.length_append] at hcut
  unfold kept digitAfterColon
  cases hrest : (onward (·.beq 58) userinfo).tail with
  | nil => exact iff_of_true rfl rfl
  | cons d ds =>
      have hlen := congrArg List.length hrest
      rw [List.length_tail] at hlen
      simp only [List.head?_cons, Option.map_some, Option.getD_some, Phase.restart]
      cases hd : isDigit d.toNat with
      | false => exact iff_of_true rfl rfl
      | true =>
          simp only [if_true, Bool.true_eq_false, iff_false]
          intro heq
          have := congrArg List.length heq
          rw [List.length_cons] at hlen this
          omega

theorem longToInt_eq_iff (n : Nat) : longToInt (min (n : Int) (2 ^ 63 - 1)) = n ↔ n < 2 ^ 31 := by
  unfold longToInt
  rw [BitVec.toInt_ofInt]
  constructor
  · intro h
    have hlt := Int.bmod_lt (x := min (n : Int) (2 ^ 63 - 1)) (m := 2 ^ 32) (by decide)
    omega
  · intro h
    rw [min_eq_left (by omega), Int.bmod_eq_of_le (by omega) (by omega)]

/-- The parts are those that `Create` keeps. -/
structure Parts.Kept (p : Parts) : Prop where
  path : p.path = [] ∨ p.pathSaved = true
  userinfo : digitAfterColon p.userinfo = false
  port : digitsValue 10 p.port < 2 ^ 31

theorem Parts.stored_eq_iff (p : Parts) : p.stored = p.uri ↔ p.Kept := by
  constructor
  · intro h
    refine ⟨?_, (kept_eq_iff _).mp (congrArg Uri.userinfo h),
      (longToInt_eq_iff _).mp (congrArg Uri.port h)⟩
    have hpath : (if p.pathSaved then p.path else []) = p.path := congrArg Uri.path h
    split_ifs at hpath with hsaved
    · exact .inr hsaved
    · exact .inl hpath.symm
  · rintro ⟨hpath, huser, hport⟩
    have hstored : (if p.pathSaved then p.path else []) = p.path := by
      rcases hpath with hpath | hsaved
      · rw [hpath, ite_self]
      · rw [if_pos hsaved]
    rw [stored, uri, hstored, (kept_eq_iff _).mpr huser, (longToInt_eq_iff _).mpr hport]

/-- What is stored are the components of the RFC when no path is lost, no digit follows the first
colon of the userinfo, and the port is an `int`. -/
theorem create_components_iff {s : Bytes} {u : Uri} (h : Uri.create s = .uri u) :
    u = (parts s).uri ↔ (parts s).Kept := by
  rw [create_stores h, Parts.stored_eq_iff]

/-- `s://u@h:8/p?q#f`. -/
theorem create_components_keeps_all :
    let s : Bytes := [115, 58, 47, 47, 117, 64, 104, 58, 56, 47, 112, 63, 113, 35, 102]
    let u : Uri := ⟨[115], [117], [104], [47, 112], [113], [102], 8⟩
    u = (parts s).uri ↔ (parts s).Kept :=
  create_components_iff (by decide +kernel)

/-- `a:b` has the path `b`, which is not stored. -/
theorem create_loses_path : ¬ ∀ s u, Uri.create s = .uri u → u = (parts s).uri := by
  intro h
  have hcreate : Uri.create [97, 58, 98] = .uri { scheme := [97] } := by decide +kernel
  have hpath := congrArg Uri.path (h _ _ hcreate)
  have hparts : (parts [97, 58, 98]).path = [98] := by decide
  exact absurd (hpath.trans hparts) (by decide)

end HCServer.Uris
