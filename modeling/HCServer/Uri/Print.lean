import HCServer.Http.Decimal
import HCServer.Uri.Shape

/-! `Uri::toString`, and what `Create` makes of what it prints. -/
namespace HCServer.Uris
open Lib Grammar
open Http (Bytes bytes decimal numberString digitsValue longToInt)
open Phase (endsPath endsAuthority isDigit isAlpha isScheme kept)

namespace Uri
variable (u : Uri)

def isDefaultPort : Bool :=
  if u.port = 0 then true
  else if u.scheme = bytes "http" ∨ u.scheme = bytes "ws" then decide (u.port = 80)
  else if u.scheme = bytes "https" ∨ u.scheme = bytes "wss" then decide (u.port = 443)
  else false

def getPath : Bytes := if u.path = [] then [47] else u.path

def getPort : Int :=
  if u.port ≠ 0 then u.port
  else if u.scheme = bytes "http" ∨ u.scheme = bytes "ws" then 80
  else if u.scheme = bytes "https" ∨ u.scheme = bytes "wss" then 443
  else u.port

def dump : Bytes :=
  u.scheme ++ bytes "://" ++ u.userinfo ++ (if u.userinfo = [] then [] else bytes "@") ++ u.host ++
    (if u.isDefaultPort then [] else bytes ":" ++ numberString u.port) ++ u.getPath ++
    (if u.query = [] then [] else bytes "?") ++ u.query ++
    (if u.fragment = [] then [] else bytes "#") ++ u.fragment

def toString : Bytes := u.dump

/-- `toString` is parsed to a `Uri` that has the same components and is printed the same. -/
def RoundTrips : Prop :=
  ∃ v, create u.toString = .uri v ∧ v.scheme = u.scheme ∧ v.userinfo = u.userinfo ∧
    v.host = u.host ∧ v.getPort = u.getPort ∧ v.getPath = u.getPath ∧ v.query = u.query ∧
    v.fragment = u.fragment ∧ v.toString = u.toString

end Uri

/-! ### The parts of a text with a scheme and an authority -/

section Network
variable {scheme host port path rest : Bytes} {user : Option Bytes}

theorem parts_network (hscheme : scheme ∈ Grammar.scheme.lang)
    (h : NetworkForm true user host port path rest) :
    parts (scheme ++ 58 :: networkText user host port path rest) =
      ⟨scheme, some (authorityText user host port), path, queryOf rest, fragmentOf rest⟩ := by
  obtain ⟨c, cs, rfl, hc, hcs⟩ := mem_scheme hscheme
  have hfree : Free endsPath path := free_of_every (by decide) h.inPath
  have hstop := tail_atStop h.inTail
  rw [parts, splitScheme_some hc hcs]
  dsimp only
  rw [h.splitAuthority_eq]
  dsimp only
  rw [before_append hfree hstop, onward_append hfree hstop]

theorem network_passed (hscheme : scheme ∈ Grammar.scheme.lang)
    (h : NetworkForm true user host port path rest) :
    scheme ++ 58 :: networkText user host port path rest ∈ passed.lang := by
  have hauthority : authorityText user host port ∈ (authority (.cat rlHost digitPort)).lang :=
    mem_authority.mpr ⟨user, h.inUser, host, h.inHost, port, h.inPort, rfl⟩
  have hnetwork : 47 :: 47 :: (authorityText user host port ++ path) ∈
      (network (.cat rlHost digitPort)).lang :=
    mem_network.mpr ⟨_, hauthority, path, h.inPath, rfl⟩
  refine mem_alt.mpr (.inl (mem_cat.mpr ⟨scheme, hscheme, _, ?_, rfl⟩))
  refine (mem_byte_cat (by decide)).mpr ⟨networkText user host port path rest, ?_, rfl⟩
  refine mem_cat.mpr ⟨_, mem_alt.mpr (.inl hnetwork), rest, h.inTail, ?_⟩
  rw [networkText, List.cons_append, List.cons_append, List.append_assoc]

/-- A text with a scheme and an authority is made of words of the rules. -/
theorem exists_network {s : Bytes} (hs : s ∈ passed.lang) (hscheme : (parts s).scheme ≠ [])
    (hauthority : (parts s).authority.isSome = true) :
    ∃ scheme user host port path rest, scheme ∈ Grammar.scheme.lang ∧
      NetworkForm true user host port path rest ∧
      s = scheme ++ 58 :: networkText user host port path rest := by
  rcases shape hs with ⟨sc, bs, rfl, hsc, hhier⟩ | ⟨hnone, -⟩
  · rcases hhier with hnone | ⟨user, host, port, path, rest, hform, rfl⟩
    · obtain ⟨c, cs, rfl, hc, hcs⟩ := mem_scheme hsc
      rw [parts, splitScheme_some hc hcs] at hauthority
      dsimp only at hauthority
      rw [hnone] at hauthority
      cases hauthority
    · exact ⟨sc, user, host, port, path, rest, hsc, hform, rfl⟩
  · exact absurd hnone hscheme

end Network

/-! ### What is printed -/

theorem mem_query_of_tail {rest : Bytes} (h : rest ∈ tail.lang) :
    queryOf rest ∈ query.lang ∧ fragmentOf rest ∈ query.lang := by
  have hnil : ([] : Bytes) ∈ query.lang := Language.nil_mem_kstar _
  obtain ⟨q, f, hq, hf, rfl⟩ := mem_tail.mp h
  have hfstop : AtStop Phase.endsQuery f := by
    intro b bs hb
    rcases hf with rfl | ⟨x, -, rfl⟩
    · cases hb
    · cases hb
      rfl
  have hqfree : ∀ x ∈ query.lang, Free Phase.endsQuery x := fun x hx =>
    free_of_every (by decide) hx
  have hftail : f.tail ∈ query.lang := by
    rcases hf with rfl | ⟨x, hx, rfl⟩
    · exact hnil
    · exact hx
  rcases hq with rfl | ⟨x, hx, rfl⟩
  · refine ⟨?_, ?_⟩
    · rcases hf with rfl | ⟨x, -, rfl⟩
      · exact hnil
      · exact hnil
    · rw [List.nil_append, fragmentOf]
      have honward : onward Phase.endsQuery f = f :=
        onward_append (x := []) (fun b hb => by cases hb) hfstop
      rw [honward]
      exact hftail
  · have hfree : Free Phase.endsQuery (63 :: x) := by
      intro b hb
      rcases List.mem_cons.mp hb with rfl | hb
      · rfl
      · exact hqfree x hx b hb
    refine ⟨?_, ?_⟩
    · rw [List.cons_append, queryOf, before_append (hqfree x hx) hfstop]
      exact hx
    · rw [fragmentOf, onward_append hfree hfstop]
      exact hftail

/-- The query and the fragment as they are printed. -/
def tailText (query fragment : Bytes) : Bytes :=
  (if query = [] then [] else 63 :: query) ++ (if fragment = [] then [] else 35 :: fragment)

theorem tailText_parts {q f : Bytes} (hq : q ∈ query.lang) (hf : f ∈ query.lang) :
    tailText q f ∈ tail.lang ∧ queryOf (tailText q f) = q ∧ fragmentOf (tailText q f) = f := by
  have hqfree : Free Phase.endsQuery q := free_of_every (by decide) hq
  have hfstop : AtStop Phase.endsQuery (if f = [] then [] else 35 :: f) := by
    intro b bs hb
    split_ifs at hb
    cases hb
    rfl
  refine ⟨mem_tail.mpr ⟨_, _, ?_, ?_, rfl⟩, ?_, ?_⟩
  · split_ifs
    · exact .inl rfl
    · exact .inr ⟨q, hq, rfl⟩
  · split_ifs
    · exact .inl rfl
    · exact .inr ⟨f, hf, rfl⟩
  · unfold tailText
    by_cases hnil : q = []
    · rw [if_pos hnil, List.nil_append, hnil]
      split_ifs <;> rfl
    · rw [if_neg hnil, List.cons_append, queryOf, before_append hqfree hfstop]
  · have hfree : Free Phase.endsQuery (if q = [] then [] else 63 :: q) := by
      split_ifs
      · intro b hb
        cases hb
      · intro b hb
        rcases List.mem_cons.mp hb with rfl | hb
        · rfl
        · exact hqfree b hb
    rw [tailText, fragmentOf, onward_append hfree hfstop]
    split_ifs with hnil
    · exact hnil.symm
    · rfl

/-- What follows the first colon. -/
def afterColon (userinfo : Bytes) : Bytes := (onward (·.beq 58) userinfo).tail

theorem afterColon_mem {x : Bytes} (hx : x ∈ userinfo.lang) : afterColon x ∈ userinfo.lang := by
  obtain ⟨ws, rfl, hws⟩ := Language.mem_kstar.mp hx
  clear hx
  induction ws with
  | nil => exact Language.nil_mem_kstar _
  | cons w ws ih =>
      have hrest : ∀ y ∈ ws, y ∈ _ := fun y hy => hws y (List.mem_cons_of_mem w hy)
      have hskip : Free (·.beq 58) w → afterColon (w ++ ws.flatten) ∈ userinfo.lang := by
        intro hfree
        rw [afterColon, onward_skip hfree]
        exact ih hrest
      rw [List.flatten_cons]
      rcases mem_alt.mp (hws w List.mem_cons_self) with ⟨b, hb, rfl⟩ | hpct
      · cases hcolon : b.toNat.beq 58 with
        | false =>
            apply hskip
            intro c hc
            rw [List.mem_singleton.mp hc]
            exact hcolon
        | true =>
            rw [afterColon, List.singleton_append, onward_cons, hcolon]
            exact Language.join_mem_kstar hrest
      · exact hskip (free_of_every (by decide) hpct)

theorem kept_of_digit {x : Bytes} (h : digitAfterColon x = true) : kept x = afterColon x := by
  unfold digitAfterColon at h
  unfold kept afterColon
  cases hrest : (onward (·.beq 58) x).tail with
  | nil =>
      rw [hrest] at h
      cases h
  | cons d ds =>
      rw [hrest] at h
      have hd : isDigit d.toNat = true := h
      rw [Phase.restart, if_pos hd]

theorem kept_mem {x : Bytes} (hx : x ∈ userinfo.lang) : kept x ∈ userinfo.lang := by
  cases h : digitAfterColon x with
  | true =>
      rw [kept_of_digit h]
      exact afterColon_mem hx
  | false =>
      rw [(kept_eq_iff x).mpr h]
      exact hx

theorem kept_kept_iff (x : Bytes) : kept (kept x) = kept x ↔
    ¬ (digitAfterColon x = true ∧ digitAfterColon (afterColon x) = true) := by
  rw [kept_eq_iff]
  cases h : digitAfterColon x with
  | true => rw [kept_of_digit h, Bool.eq_false_iff, ne_eq, eq_self, true_and]
  | false => simp [(kept_eq_iff x).mpr h, h]

/-! ### Reading what is printed -/

/-- A `Uri` whose components are words of their rules. -/
structure Uri.Printable (u : Uri) : Prop where
  inScheme : u.scheme ∈ Grammar.scheme.lang
  inUserinfo : u.userinfo ∈ Grammar.userinfo.lang
  inHost : u.host ∈ rlHost.lang
  inPath : u.path ∈ pathAbempty.lang
  inQuery : u.query ∈ Grammar.query.lang
  inFragment : u.fragment ∈ Grammar.query.lang
  isPort : ∃ n : Nat, u.port = n ∧ n < 2 ^ 31

namespace Uri
variable {u : Uri}

theorem toString_eq (u : Uri) : u.toString = u.scheme ++ 58 ::
    networkText (if u.userinfo = [] then none else some u.userinfo) u.host
      (if u.isDefaultPort then [] else 58 :: numberString u.port) u.getPath
      (tailText u.query u.fragment) := by
  have hslashes : bytes "://" = [58, 47, 47] := by decide
  have hat : bytes "@" = [64] := by decide
  have hcolon : bytes ":" = [58] := by decide
  have hquery : bytes "?" = [63] := by decide
  have hfragment : bytes "#" = [35] := by decide
  unfold toString dump networkText authorityText tailText
  rw [hslashes, hat, hcolon, hquery, hfragment]
  by_cases huser : u.userinfo = [] <;> by_cases hq : u.query = [] <;>
    by_cases hf : u.fragment = [] <;> simp [huser, hq, hf]

/-- What `Create` makes of the text. -/
def reread (u : Uri) : Uri :=
  { u with
    userinfo := kept u.userinfo
    path := u.getPath
    port := if u.isDefaultPort then 0 else u.port }

theorem Printable.network (h : u.Printable) :
    NetworkForm true (if u.userinfo = [] then none else some u.userinfo) u.host
      (if u.isDefaultPort then [] else 58 :: numberString u.port) u.getPath
      (tailText u.query u.fragment) where
  inUser x hx := by
    split_ifs at hx
    · cases hx
    · rw [← Option.mem_some_iff.mp hx]
      exact h.inUserinfo
  inHost := h.inHost
  inPort := by
    obtain ⟨n, hn, -⟩ := h.isPort
    refine mem_digitPort.mpr ?_
    split_ifs
    · exact .inl rfl
    · refine .inr ⟨decimal n, by rw [hn]; rfl, Http.decimal_ne_nil n, fun b hb => ?_⟩
      obtain ⟨hlo, hhi⟩ := Http.mem_decimal hb
      rw [isDigit, Nat.ble_eq_true_of_le hlo, Nat.ble_eq_true_of_le hhi]
      rfl
  inPath := by
    unfold getPath
    split_ifs
    · have hslash : ([47] : Bytes) ∈ Grammar.lang (.cat (lit '/') (.star pchar)) :=
        (mem_byte_cat (by decide)).mpr ⟨[], Language.nil_mem_kstar _, rfl⟩
      exact Language.mem_kstar.mpr ⟨[[47]], rfl, fun y hy => List.mem_singleton.mp hy ▸ hslash⟩
    · exact h.inPath
  inTail := (tailText_parts h.inQuery h.inFragment).1

theorem create_toString (h : u.Printable) : create u.toString = .uri u.reread := by
  have hnetwork := h.network
  obtain ⟨-, hquery, hfragment⟩ := tailText_parts h.inQuery h.inFragment
  obtain ⟨v, hv⟩ := (create_uri_iff_passed _).mpr (network_passed h.inScheme hnetwork)
  obtain ⟨c, cs, hscheme, -, -⟩ := mem_scheme h.inScheme
  rw [← toString_eq] at hv
  rw [hv, create_stores hv]
  congr 1
  conv_lhs => rw [toString_eq, parts_network h.inScheme hnetwork]
  obtain ⟨huser, hhost, hport⟩ := stored_of_authority hnetwork.authority (p := ⟨_, _, _, _, _⟩) rfl
  rw [Parts.stored, huser, hhost, hport, hquery, hfragment]
  have huserinfo : (if u.userinfo = [] then none else some u.userinfo).getD [] = u.userinfo := by
    split_ifs with hnil
    · exact hnil.symm
    · rfl
  have hsaved : Parts.pathSaved ⟨u.scheme, some (authorityText
      (if u.userinfo = [] then none else some u.userinfo) u.host
      (if u.isDefaultPort then [] else 58 :: numberString u.port)), u.getPath, u.query,
      u.fragment⟩ = true := by
    rw [Parts.pathSaved, hscheme]
    rfl
  have hvalue : longToInt (min (digitsValue 10
      (List.tail (if u.isDefaultPort then [] else 58 :: numberString u.port)) : Int)
      (2 ^ 63 - 1)) = if u.isDefaultPort then 0 else u.port := by
    obtain ⟨n, hn, hlt⟩ := h.isPort
    split_ifs
    · rfl
    · have hdecimal : numberString u.port = decimal n := by
        rw [hn]
        rfl
      rw [List.tail_cons, hdecimal, Http.digitsValue_decimal, (longToInt_eq_iff n).mpr hlt, hn]
  rw [huserinfo, hvalue]
  dsimp only
  rw [hsaved]
  rfl

theorem isDefaultPort_reread (u : Uri) : u.reread.isDefaultPort = u.isDefaultPort := by
  unfold reread
  cases hdefault : u.isDefaultPort with
  | true => rfl
  | false => exact hdefault

theorem getPort_reread (u : Uri) : u.reread.getPort = u.getPort := by
  unfold reread getPort
  cases hdefault : u.isDefaultPort with
  | false => rfl
  | true =>
      unfold isDefaultPort at hdefault
      by_cases hzero : u.port = 0
      · simp [hzero]
      · by_cases hhttp : u.scheme = bytes "http" ∨ u.scheme = bytes "ws"
        · rw [if_neg hzero, if_pos hhttp] at hdefault
          simp [hhttp, of_decide_eq_true hdefault]
        · by_cases hhttps : u.scheme = bytes "https" ∨ u.scheme = bytes "wss"
          · rw [if_neg hzero, if_neg hhttp, if_pos hhttps] at hdefault
            simp [hhttp, hhttps, of_decide_eq_true hdefault]
          · rw [if_neg hzero, if_neg hhttp, if_neg hhttps] at hdefault
            cases hdefault

theorem getPath_reread (u : Uri) : u.reread.getPath = u.getPath := by
  have hne : u.getPath ≠ [] := by
    unfold getPath
    split_ifs with hnil
    · exact List.cons_ne_nil _ _
    · exact hnil
  exact if_neg hne

theorem toString_reread {u : Uri} (h : kept u.userinfo = u.userinfo) :
    u.reread.toString = u.toString := by
  have huserinfo : u.reread.userinfo = u.userinfo := h
  have hport : (if u.isDefaultPort then [] else 58 :: numberString u.reread.port) =
      if u.isDefaultPort then [] else 58 :: numberString u.port := by
    split_ifs with hdefault
    · rfl
    · rw [reread, if_neg hdefault]
  rw [toString_eq, toString_eq, huserinfo, isDefaultPort_reread, getPath_reread, hport]
  rfl

theorem Printable.roundTrips_iff (h : u.Printable) :
    u.RoundTrips ↔ kept u.userinfo = u.userinfo := by
  have hcreate := create_toString h
  constructor
  · rintro ⟨v, hv, -, huserinfo, -⟩
    rw [hcreate] at hv
    cases hv
    exact huserinfo
  · intro hkept
    exact ⟨u.reread, hcreate, rfl, hkept, rfl, getPort_reread u, getPath_reread u, rfl, rfl,
      toString_reread hkept⟩

end Uri

/-- What `Create` makes of a text with a scheme and an authority can be printed. -/
theorem printable_of_create {s : Bytes} {u : Uri} (h : Uri.create s = .uri u)
    (hscheme : (parts s).scheme ≠ []) (hauthority : (parts s).authority.isSome = true)
    (hport : digitsValue 10 (parts s).port ≤ 65535) : u.Printable := by
  obtain ⟨scheme, user, host, port, path, rest, hin, hform, hs⟩ :=
    exists_network ((create_uri_iff_passed s).mp ⟨u, h⟩) hscheme hauthority
  have hparts : parts s =
      ⟨scheme, some (authorityText user host port), path, queryOf rest, fragmentOf rest⟩ := by
    rw [hs, parts_network hin hform]
  have hsaved : (parts s).pathSaved = true := by
    rw [Parts.pathSaved, hauthority, Bool.and_true]
    simpa using hscheme
  obtain ⟨huser, hhost, -⟩ := stored_of_authority hform.authority
    (p := parts s) (congrArg Parts.authority hparts)
  obtain ⟨hquery, hfragment⟩ := mem_query_of_tail hform.inTail
  have huserinfo : user.getD [] ∈ Grammar.userinfo.lang := by
    cases user with
    | none => exact Language.nil_mem_kstar _
    | some x => exact hform.inUser x rfl
  rw [create_stores h, Parts.stored, huser, hhost, hsaved, if_pos rfl,
    (longToInt_eq_iff _).mpr (by omega)]
  exact
    { inScheme := congrArg Parts.scheme hparts ▸ hin
      inUserinfo := kept_mem huserinfo
      inHost := hform.inHost
      inPath := congrArg Parts.path hparts ▸ hform.inPath
      inQuery := congrArg Parts.query hparts ▸ hquery
      inFragment := congrArg Parts.fragment hparts ▸ hfragment
      isPort := ⟨_, rfl, by omega⟩ }

/-- What is printed is parsed to the same, unless the userinfo loses its start a second time. -/
theorem toString_roundTrips_iff {s : Bytes} {u : Uri} (h : Uri.create s = .uri u)
    (hscheme : (parts s).scheme ≠ []) (hauthority : (parts s).authority.isSome = true)
    (hport : digitsValue 10 (parts s).port ≤ 65535) :
    u.RoundTrips ↔ ¬ (digitAfterColon (parts s).userinfo = true ∧
      digitAfterColon (afterColon (parts s).userinfo) = true) := by
  have huserinfo : u.userinfo = kept (parts s).userinfo := congrArg Uri.userinfo (create_stores h)
  rw [(printable_of_create h hscheme hauthority hport).roundTrips_iff, huserinfo, kept_kept_iff]

/-- `s://u@h:8/p?q#f`. -/
theorem toString_roundTrips_all :
    let s : Bytes := [115, 58, 47, 47, 117, 64, 104, 58, 56, 47, 112, 63, 113, 35, 102]
    let u : Uri := ⟨[115], [117], [104], [47, 112], [113], [102], 8⟩
    u.RoundTrips ↔ ¬ (digitAfterColon (parts s).userinfo = true ∧
      digitAfterColon (afterColon (parts s).userinfo) = true) :=
  toString_roundTrips_iff (by decide +kernel) (by decide) (by decide) (by decide)

/-- `s://a:1:2@h/` is stored with the userinfo `1:2`, which is stored as `2` when it is read again. -/
theorem toString_loses_userinfo :
    ¬ ∀ s u, Uri.create s = .uri u → (parts s).scheme ≠ [] → (parts s).authority.isSome = true →
      digitsValue 10 (parts s).port ≤ 65535 → u.RoundTrips := by
  intro h
  have hcreate : Uri.create [115, 58, 47, 47, 97, 58, 49, 58, 50, 64, 104, 47] =
      .uri ⟨[115], [49, 58, 50], [104], [47], [], [], 0⟩ := by decide +kernel
  obtain ⟨v, hv, -, huserinfo, -⟩ := h _ _ hcreate (by decide) (by decide) (by decide)
  have hagain : Uri.create (Uri.toString ⟨[115], [49, 58, 50], [104], [47], [], [], 0⟩) =
      .uri ⟨[115], [50], [104], [47], [], [], 0⟩ := by decide +kernel
  rw [hagain] at hv
  cases hv
  cases huserinfo

end HCServer.Uris
