import HCServer.Uri.Acceptance
import Mathlib.Tactic.Abel

/-! Where `Create` and RFC 3986 part. What both grammars take is common; beside it the RFC has the
texts of `missed`, and uri.rl those of `extra`. -/
namespace HCServer.Uris
open Lib

namespace Grammar
open Regex

/-- A `dec-octet` that is not one of 200 to 249. -/
def plainOctet : Grammar :=
  any (sym digit)
    [seq [sym [(49, 57)], sym digit], seq [lit '1', sym digit, sym digit],
      seq [lit '2', lit '5', sym [(48, 53)]]]

def bigOctet (two : Chars) : Grammar := seq [sym two, sym [(48, 52)], sym digit]

/-- A dotted quad with one of 200 to 249 in it. -/
def bigQuad (two : Chars) : Grammar :=
  any (dotted (bigOctet two) (decOctet two) (decOctet two) (decOctet two))
    [dotted plainOctet (bigOctet two) (decOctet two) (decOctet two),
      dotted plainOctet plainOctet (bigOctet two) (decOctet two),
      dotted plainOctet plainOctet plainOctet (bigOctet two)]

/-- An IPv6 address that ends in `ls`. -/
def endsIn (groups : Nat → Grammar) (ls : Grammar) : Grammar :=
  any (cat (group.rep 6) ls)
    [seq [sym colon, sym colon, group.rep 5, ls], elided (groups 0) (cat (group.rep 4) ls),
      elided (groups 1) (cat (group.rep 3) ls), elided (groups 2) (cat (group.rep 2) ls),
      elided (groups 3) (cat group ls), elided (groups 4) ls]

/-- At most `n` groups and one more, then `::` and `after`. -/
def cutShort (n : Nat) (after : Grammar) : Grammar :=
  seq [group.upTo n, h16, sym colon, sym colon, after]

/-- An address whose `::` has groups before it, and stands for more than one or two groups. -/
def shortAddress (ls : Grammar) : Grammar :=
  any (cutShort 0 (cat (group.rep 3) ls))
    [cutShort 1 (cat (group.rep 2) ls), cutShort 2 (cat group ls), cutShort 3 ls, cutShort 4 h16,
      cutShort 5 one]

def commonHost : Grammar :=
  alt (ipLiteral (alt (ipv6Address group.rep (ls32 plainOctet)) (ipvFuture [(118, 118)]))) regName

/-- The literals that only the RFC has: a capital `V`, a `::` with too few groups before it, a
dotted quad with one of 200 to 249 at the end. -/
def oddHost : Grammar :=
  ipLiteral (any (ipvFuture [(86, 86)])
    [shortAddress (ls32 rfcOctet), endsIn group.rep (bigQuad [(50, 50)])])

/-- The hosts that only uri.rl has: dotted quads with the byte 2 for the digit. -/
def controlHost : Grammar := alt (ipLiteral (endsIn group.rep (bigQuad [(2, 2)]))) (bigQuad [(2, 2)])

def common : Grammar := uriReference (cat commonHost digitPort) (cat commonHost optPort)

/-- References with an odd host, and URIs with a colon and no digit after the host. -/
def missed : Grammar :=
  alt (uri (network (alt (cat oddHost optPort) (cat rfcHost (sym colon)))))
    (relativeRef (network (cat oddHost optPort)))

def extra : Grammar :=
  alt (uri (network (cat controlHost digitPort))) (relativeRef (network (cat controlHost optPort)))

/-! ### Languages of the rules -/

theorem lang_decOctet (two : Chars) :
    (decOctet two).lang = plainOctet.lang + (bigOctet two).lang := by
  simp only [Grammar.lang, decOctet, plainOctet, bigOctet, any, seq, lang_alt, lang_cat]
  abel

theorem lang_quad (two : Chars) :
    (ipv4Address (decOctet two)).lang = (ipv4Address plainOctet).lang + (bigQuad two).lang := by
  have hoctet := lang_decOctet two
  simp only [Grammar.lang] at hoctet
  simp only [Grammar.lang, ipv4Address, bigQuad, dotted, any, seq, lang_alt, lang_cat, hoctet,
    add_mul, mul_add]
  abel

theorem lang_ls32 (two : Chars) :
    (ls32 (decOctet two)).lang = (ls32 plainOctet).lang + (bigQuad two).lang := by
  have hquad := lang_quad two
  simp only [Grammar.lang] at hquad
  simp only [Grammar.lang, ls32, lang_alt, hquad]
  abel

theorem lang_ipv6_ls {groups : Nat → Grammar} {ls a b : Grammar} (h : ls.lang = a.lang + b.lang) :
    (ipv6Address groups ls).lang = (ipv6Address groups a).lang + (endsIn groups b).lang := by
  simp only [Grammar.lang] at h
  simp only [Grammar.lang, ipv6Address, endsIn, elided, any, seq, lang_alt, lang_cat, h, mul_add]
  abel

theorem lang_ipv6_upTo (ls : Grammar) :
    (ipv6Address group.upTo ls).lang =
      (ipv6Address group.rep ls).lang + (shortAddress ls).lang := by
  have hzero : group.upTo 0 = group.rep 0 := rfl
  simp only [Grammar.lang, ipv6Address, shortAddress, elided, cutShort, any, seq, opt, lang_alt,
    lang_cat, hzero, lang_upTo_succ, add_mul, mul_assoc]
  abel

theorem lang_ipvFuture_any :
    (ipvFuture [(86, 86), (118, 118)]).lang =
      (ipvFuture [(86, 86)]).lang + (ipvFuture [(118, 118)]).lang := by
  have hv : Regex.lang Chars.has (sym [(86, 86), (118, 118)]) =
      Regex.lang Chars.has (sym [(86, 86)]) + Regex.lang Chars.has (sym [(118, 118)]) :=
    lang_sym_append (c := [(86, 86)]) fun x => by simp [Chars.has]
  simp only [Grammar.lang, ipvFuture, seq, lang_cat, hv, add_mul]

theorem lang_optPort : optPort.lang = digitPort.lang + Grammar.lang (sym colon) := by
  have hstar : Regex.lang Chars.has (star (sym digit)) =
      1 + Regex.lang Chars.has (sym digit) * Regex.lang Chars.has (star (sym digit)) :=
    (Language.one_add_self_mul_kstar_eq_kstar _).symm
  have hport : Regex.lang Chars.has port =
      1 + Regex.lang Chars.has (sym digit) * Regex.lang Chars.has (star (sym digit)) := hstar
  simp only [Grammar.lang, optPort, digitPort, opt, plus, lang_alt, lang_cat, hport, mul_add, mul_one]
  abel

/-- A class of digits, dots and other bytes that stand for themselves in a name. -/
def inName (cs : Chars) : Bool :=
  cs.all fun r => (unreserved ++ subDelims).any fun t => t.1.ble r.1 && r.2.ble t.2

theorem mem_regName {g : Grammar} (h : g.every inName = true) {w : Http.Bytes} (hw : w ∈ g.lang) :
    w ∈ regName.lang := by
  have hclass : ∀ cs b, inName cs = true → Chars.has cs b = true →
      Chars.has (unreserved ++ subDelims) b = true := by
    intro cs b hcs hb
    obtain ⟨r, hr, hrb⟩ := List.any_eq_true.mp hb
    obtain ⟨t, ht, htr⟩ := List.any_eq_true.mp (List.all_eq_true.mp hcs r hr)
    refine List.any_eq_true.mpr ⟨t, ht, ?_⟩
    simp only [Bool.and_eq_true, decide_eq_true_eq, Nat.ble_eq] at hrb htr ⊢
    omega
  refine mem_star_of_forall _ fun x hx => Or.inl ⟨x, ?_, rfl⟩
  exact forall_of_every hclass h hw x hx

theorem lang_rfcHost : rfcHost.lang = commonHost.lang + oddHost.lang := by
  have hname : (ipv4Address rfcOctet).lang + regName.lang = regName.lang :=
    add_eq_right_iff_le.mpr fun _ => mem_regName (by decide)
  have haddress := (lang_ipv6_upTo (ls32 rfcOctet)).trans
    (congrArg (· + _) (lang_ipv6_ls (lang_ls32 [(50, 50)])))
  have hfuture := lang_ipvFuture_any
  simp only [Grammar.lang] at hname haddress hfuture
  simp only [Grammar.lang, rfcHost, commonHost, oddHost, rfcAddress, ipLiteral, any, seq, lang_alt,
    lang_cat, hname, haddress, hfuture, mul_add, add_mul]
  abel

theorem lang_rlHost : rlHost.lang = commonHost.lang + controlHost.lang := by
  have hplain : (ipv4Address plainOctet).lang + regName.lang = regName.lang :=
    add_eq_right_iff_le.mpr fun _ => mem_regName (by decide)
  have hname : (ipv4Address rlOctet).lang + regName.lang =
      regName.lang + (bigQuad [(2, 2)]).lang := by
    rw [rlOctet, lang_quad, add_right_comm, hplain]
  have haddress : (ipv6Address group.rep (ls32 rlOctet)).lang = _ :=
    lang_ipv6_ls (lang_ls32 [(2, 2)])
  simp only [Grammar.lang] at hname haddress
  simp only [Grammar.lang, rlHost, commonHost, controlHost, rlAddress, ipLiteral, any, seq, lang_alt,
    lang_cat, haddress, hname, mul_add, add_mul]
  abel

theorem lang_uriReference {p p' q q' : Grammar} {x y : Grammar} (hp : p.lang = p'.lang + x.lang)
    (hq : q.lang = q'.lang + y.lang) :
    (uriReference p q).lang =
      (uriReference p' q').lang + Grammar.lang (alt (uri (network x)) (relativeRef (network y))) := by
  simp only [Grammar.lang] at hp hq
  simp only [Grammar.lang, uriReference, uri, relativeRef, network, authority, any, seq, lang_alt,
    lang_cat, hp, hq, mul_add, add_mul]
  abel

theorem lang_reference : reference.lang = common.lang + missed.lang := by
  have hhost := lang_rfcHost
  have hport := lang_optPort
  simp only [Grammar.lang] at hhost hport
  apply lang_uriReference
  · simp only [Grammar.lang, lang_alt, lang_cat, hhost, hport, mul_add, add_mul]
    -- an odd host before a lone colon is in both parts of `missed`
    abel_nf
    rw [two_nsmul, add_idem]
  · simp only [Grammar.lang, lang_cat, hhost, add_mul]

theorem lang_passed : passed.lang = common.lang + extra.lang := by
  have hhost := lang_rlHost
  simp only [Grammar.lang] at hhost
  apply lang_uriReference <;> simp only [Grammar.lang, lang_cat, hhost, add_mul]

/-! ### Disjointness -/

/-- No RFC reference has the byte 2. -/
theorem extra_not_reference {s : Http.Bytes} (hs : s ∈ extra.lang) : s ∉ reference.lang := by
  intro href
  have htwo : ∃ b ∈ s, b.toNat = 2 := by
    refine exists_of_needs (p := fun cs => decide (cs = [(2, 2)])) ?_ (by decide) hs
    intro cs b hcs hb
    rw [of_decide_eq_true hcs] at hb
    simp only [Chars.has, List.any_cons, List.any_nil, Bool.or_false, Bool.and_eq_true,
      decide_eq_true_eq] at hb
    omega
  have hnot : ∀ b ∈ s, b.toNat ≠ 2 := by
    refine forall_of_every (p := fun cs => cs.all fun r => (2).blt r.1) ?_ (by decide) href
    intro cs b hcs hb htwo
    obtain ⟨r, hr, hrb⟩ := List.any_eq_true.mp hb
    have hlt := Nat.blt_eq.mp (List.all_eq_true.mp hcs r hr)
    simp only [Bool.and_eq_true, decide_eq_true_eq] at hrb
    omega
  obtain ⟨b, hb, htwo⟩ := htwo
  exact hnot b hb htwo

/-- `//[1::2]` has one group before its `::`, where uri.rl wants six or none. -/
theorem literal_missed : [47, 47, 91, 49, 58, 58, 50, 93] ∈ missed.lang := by
  have hgroup (b : UInt8) (hb : Chars.has hexdig b = true) : [b] ∈ h16.lang :=
    mem_cat.mpr ⟨[b], ⟨b, hb, rfl⟩, [], Or.inl rfl, rfl⟩
  have hnone (n : Nat) : [] ∈ Grammar.lang (group.upTo n) := by
    cases n with
    | zero => rfl
    | succ n => exact Or.inl rfl
  have hcut : [49, 58, 58, 50] ∈ (cutShort 4 h16).lang :=
    mem_cat.mpr ⟨[], hnone 4, _, mem_cat.mpr ⟨[49], hgroup 49 (by decide), _,
      (mem_byte_cat (by decide)).mpr ⟨_, (mem_byte_cat (by decide)).mpr
        ⟨[50], hgroup 50 (by decide), rfl⟩, rfl⟩, rfl⟩, rfl⟩
  have haddress : [49, 58, 58, 50] ∈ (shortAddress (ls32 rfcOctet)).lang :=
    mem_alt.mpr (.inr (mem_alt.mpr (.inr (mem_alt.mpr (.inr (mem_alt.mpr (.inr
      (mem_alt.mpr (.inl hcut)))))))))
  have hhost : [91, 49, 58, 58, 50, 93] ∈ oddHost.lang :=
    (mem_byte_cat (by decide)).mpr ⟨[49, 58, 58, 50, 93], mem_cat.mpr
      ⟨_, mem_alt.mpr (.inr (mem_alt.mpr (.inl haddress))), [93], (mem_byte (by decide)).mpr rfl, rfl⟩,
      rfl⟩
  have hport : [91, 49, 58, 58, 50, 93] ∈ Grammar.lang (cat oddHost optPort) :=
    mem_cat.mpr ⟨_, hhost, [], mem_opt.mpr (.inl rfl), rfl⟩
  have hauthority : [91, 49, 58, 58, 50, 93] ∈ (authority (cat oddHost optPort)).lang :=
    mem_cat.mpr ⟨[], mem_opt.mpr (.inl rfl), _, hport, rfl⟩
  have hnetwork : [47, 47, 91, 49, 58, 58, 50, 93] ∈ (network (cat oddHost optPort)).lang :=
    (mem_byte_cat (by decide)).mpr ⟨_, (mem_byte_cat (by decide)).mpr
      ⟨_, mem_cat.mpr ⟨_, hauthority, [], Language.nil_mem_kstar _, rfl⟩, rfl⟩, rfl⟩
  have htail : [] ∈ tail.lang :=
    mem_cat.mpr ⟨[], mem_opt.mpr (.inl rfl), [], mem_opt.mpr (.inl rfl), rfl⟩
  exact mem_alt.mpr (.inr (mem_cat.mpr ⟨_, hnetwork, [], htail, rfl⟩))

end Grammar

open Grammar

theorem missed_not_passed {s : Http.Bytes} (hs : s ∈ missed.lang) : s ∉ passed.lang := by
  have himage : (shadow.image kindsOf 8 missed [key uriParserStart false]).any
      (fun T => T.all fun t => !shadow.final t) = true := by
    decide +kernel
  have hbits : ∀ cs b, respects cs = true → Chars.has cs b = true →
      (kindsOf cs).testBit (kind b) = true := by
    intro cs b hcs hb
    rw [testBit_kindsOf hcs, hb]
  rw [← create_uri_iff_passed, create_uri_iff, ← accepts_shadow (by decide : uriParserStart < 561)]
  exact Graph.not_accepts_of_image hbits (by decide) himage hs

/-- `Create` follows the RFC on every other text, and on none of those. -/
theorem create_iff_reference_iff (s : Http.Bytes) :
    ((∃ u, Uri.create s = .uri u) ↔ s ∈ reference.lang) ↔ s ∉ missed.lang ∧ s ∉ extra.lang := by
  have hpassed : s ∈ passed.lang ↔ s ∈ common.lang ∨ s ∈ extra.lang := by
    rw [lang_passed, Language.mem_add]
  have href : s ∈ reference.lang ↔ s ∈ common.lang ∨ s ∈ missed.lang := by
    rw [lang_reference, Language.mem_add]
  rw [create_uri_iff_passed]
  constructor
  · intro hiff
    constructor
    · intro hmissed
      exact missed_not_passed hmissed (hiff.mpr (href.mpr (.inr hmissed)))
    · intro hextra
      exact extra_not_reference hextra (hiff.mp (hpassed.mpr (.inr hextra)))
  · rintro ⟨hmissed, hextra⟩
    rw [hpassed, href, or_iff_left hmissed, or_iff_left hextra]

/-- `//[1::2]` is a reference, and `Create` does not take it. -/
theorem create_refuses_reference :
    ¬ ∀ s, (∃ u, Uri.create s = .uri u) ↔ s ∈ reference.lang := by
  intro h
  have hreference : [47, 47, 91, 49, 58, 58, 50, 93] ∈ reference.lang := by
    rw [lang_reference]
    exact Or.inr literal_missed
  have hcreated := (h _).mpr hreference
  exact missed_not_passed literal_missed ((create_uri_iff_passed _).mp hcreated)

end HCServer.Uris
