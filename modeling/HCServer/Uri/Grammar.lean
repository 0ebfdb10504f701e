import HCServer.Lib.Regex
import HCServer.Http.Socket

/-! The grammar of RFC 3986, with bytes from 128 on wherever `pchar` may stand, and the grammar of
uri.rl, rule by rule. Both are written over what they differ in: the digit 2 of `dec_octet`, the
groups before the `::` of an IPv6 address, the `v` of IPvFuture, and the port. -/
namespace HCServer.Uris
open Lib

/-- A set of bytes, as ranges with their bounds. -/
abbrev Chars := List (Nat × Nat)

def Chars.has (cs : Chars) (b : UInt8) : Bool :=
  cs.any fun r => decide (r.1 ≤ b.toNat) && decide (b.toNat ≤ r.2)

abbrev Grammar := Regex Chars

def Grammar.lang (g : Grammar) : Language UInt8 := Regex.lang Chars.has g

namespace Grammar
open Regex

def lit (c : Char) : Grammar := sym [(c.toNat, c.toNat)]

def alpha : Chars := [(65, 90), (97, 122)]

def digit : Chars := [(48, 57)]

def hexdig : Chars := [(48, 57), (65, 70), (97, 102)]

/-- `-`, `.`, `_` and `~` beside letters and digits. -/
def unreserved : Chars := alpha ++ digit ++ [(45, 46), (95, 95), (126, 126)]

/-- `!`, `$`, `&` to `,`, `;` and `=`. -/
def subDelims : Chars := [(33, 33), (36, 36), (38, 44), (59, 59), (61, 61)]

def colon : Chars := [(58, 58)]

def nonAscii : Chars := [(128, 255)]

def pctEncoded : Grammar := seq [lit '%', sym hexdig, sym hexdig]

/-- `+`, `-` and `.` beside letters and digits. -/
def scheme : Grammar := cat (sym alpha) (star (sym (alpha ++ digit ++ [(43, 43), (45, 46)])))

def userinfo : Grammar := star (alt (sym (unreserved ++ subDelims ++ colon)) pctEncoded)

def regName : Grammar := star (alt (sym (unreserved ++ subDelims)) pctEncoded)

def port : Grammar := star (sym digit)

/-- `dec-octet`, with the byte that starts 200 to 249. -/
def decOctet (two : Chars) : Grammar :=
  any (sym digit)
    [seq [sym [(49, 57)], sym digit], seq [lit '1', sym digit, sym digit],
      seq [sym two, sym [(48, 52)], sym digit], seq [lit '2', lit '5', sym [(48, 53)]]]

def dotted (a b c d : Grammar) : Grammar := seq [a, lit '.', b, lit '.', c, lit '.', d]

def ipv4Address (octet : Grammar) : Grammar := dotted octet octet octet octet

def h16 : Grammar := cat (sym hexdig) ((sym hexdig).upTo 3)

/-- `h16 ":"`. -/
def group : Grammar := cat h16 (sym colon)

def ls32 (octet : Grammar) : Grammar :=
  alt (seq [h16, sym colon, h16]) (ipv4Address octet)

/-- `"::"` after as many groups as `groups` says, and one more, or after none. -/
def elided (groups after : Grammar) : Grammar :=
  seq [opt (cat groups h16), sym colon, sym colon, after]

/-- `groups n` are the groups that `*n( h16 ":" )` stands for. -/
def ipv6Address (groups : Nat → Grammar) (ls : Grammar) : Grammar :=
  any (cat (group.rep 6) ls)
    [seq [sym colon, sym colon, group.rep 5, ls], elided (groups 0) (cat (group.rep 4) ls),
      elided (groups 1) (cat (group.rep 3) ls), elided (groups 2) (cat (group.rep 2) ls),
      elided (groups 3) (cat group ls), elided (groups 4) ls, elided (groups 5) h16,
      elided (groups 6) one]

def ipvFuture (v : Chars) : Grammar :=
  seq [sym v, plus (sym hexdig), lit '.', plus (sym (unreserved ++ subDelims ++ colon))]

def ipLiteral (address : Grammar) : Grammar := seq [lit '[', address, lit ']']

def pchar : Grammar := alt (sym (nonAscii ++ unreserved ++ subDelims ++ [(58, 58), (64, 64)])) pctEncoded

/-- `pchar` without `:`. -/
def pcharNc : Grammar := alt (sym (nonAscii ++ unreserved ++ subDelims ++ [(64, 64)])) pctEncoded

def pathAbempty : Grammar := star (cat (lit '/') (star pchar))

def pathAbsolute : Grammar := cat (lit '/') (opt (cat (plus pchar) pathAbempty))

def pathNoscheme : Grammar := cat (plus pcharNc) pathAbempty

def pathRootless : Grammar := cat (plus pchar) pathAbempty

/-- `query` and `fragment`. -/
def query : Grammar :=
  star (alt (sym (nonAscii ++ unreserved ++ subDelims ++ [(47, 47), (58, 58), (63, 64)])) pctEncoded)

def tail : Grammar := cat (opt (cat (lit '?') query)) (opt (cat (lit '#') query))

/-- With `hostport` for the host and the port. -/
def authority (hostport : Grammar) : Grammar :=
  cat (opt (cat userinfo (lit '@'))) hostport

/-- `"//" authority path-abempty`. -/
def network (hostport : Grammar) : Grammar :=
  seq [lit '/', lit '/', authority hostport, pathAbempty]

def uri (hierPart : Grammar) : Grammar := seq [scheme, sym colon, hierPart, tail]

def relativeRef (relativePart : Grammar) : Grammar := cat relativePart tail

/-- `URI-reference`, with the hosts and ports that stand in a URI and in a relative reference. -/
def uriReference (inUri inRelative : Grammar) : Grammar :=
  alt (uri (any (network inUri) [pathAbsolute, pathRootless, one]))
    (relativeRef (any (network inRelative) [pathAbsolute, pathNoscheme, one]))

/-! ### RFC 3986 -/

def rfcOctet : Grammar := decOctet [(50, 50)]

def rfcAddress : Grammar :=
  alt (ipv6Address group.upTo (ls32 rfcOctet)) (ipvFuture [(86, 86), (118, 118)])

def rfcHost : Grammar := any (ipLiteral rfcAddress) [ipv4Address rfcOctet, regName]

def optPort : Grammar := opt (cat (sym colon) port)

def reference : Grammar := uriReference (cat rfcHost optPort) (cat rfcHost optPort)

/-! ### uri.rl

The `2` of `dec_octet` is not in quotes and stands for the byte 2. The groups are repeated `{n}`
times where the RFC has `*n`. -/

def rlOctet : Grammar := decOctet [(2, 2)]

def rlAddress : Grammar := alt (ipv6Address group.rep (ls32 rlOctet)) (ipvFuture [(118, 118)])

def rlHost : Grammar := any (ipLiteral rlAddress) [ipv4Address rlOctet, regName]

/-- No port, or one with digits. -/
def digitPort : Grammar := opt (cat (sym colon) (plus (sym digit)))

/-- The texts that the machine passes: a URI's empty port leaves no `mark` for the path. -/
def passed : Grammar := uriReference (cat rlHost digitPort) (cat rlHost optPort)

/-! ### Words of the rules -/

section
variable {g h : Grammar} {w : Http.Bytes}

theorem mem_byte {n : Nat} (hn : n < 256) : w ∈ Grammar.lang (sym [(n, n)]) ↔ w = [UInt8.ofNat n] := by
  have hbyte : ∀ b : UInt8, Chars.has [(n, n)] b = true ↔ b = UInt8.ofNat n := by
    intro b
    rw [← UInt8.toNat_inj, UInt8.toNat_ofNat_of_lt' hn]
    simp only [Chars.has, List.any_cons, List.any_nil, Bool.or_false, Bool.and_eq_true,
      decide_eq_true_eq]
    omega
  constructor
  · rintro ⟨b, hb, rfl⟩
    rw [(hbyte b).mp hb]
  · rintro rfl
    exact ⟨_, (hbyte _).mpr rfl, rfl⟩

theorem mem_alt : w ∈ Grammar.lang (alt g h) ↔ w ∈ g.lang ∨ w ∈ h.lang :=
  Language.mem_add _ _ _

theorem mem_cat : w ∈ Grammar.lang (cat g h) ↔ ∃ u ∈ g.lang, ∃ v ∈ h.lang, u ++ v = w :=
  Language.mem_mul

theorem mem_opt : w ∈ Grammar.lang (opt g) ↔ w = [] ∨ w ∈ g.lang :=
  (Language.mem_add _ _ _).trans (or_congr_left (Language.mem_one w))

theorem mem_byte_cat {n : Nat} (hn : n < 256) :
    w ∈ Grammar.lang (cat (sym [(n, n)]) g) ↔ ∃ v ∈ g.lang, UInt8.ofNat n :: v = w := by
  rw [mem_cat]
  constructor
  · rintro ⟨u, hu, v, hv, rfl⟩
    rw [(mem_byte hn).mp hu]
    exact ⟨v, hv, rfl⟩
  · rintro ⟨v, hv, rfl⟩
    exact ⟨_, (mem_byte hn).mpr rfl, v, hv, rfl⟩

end

end Grammar
end HCServer.Uris
