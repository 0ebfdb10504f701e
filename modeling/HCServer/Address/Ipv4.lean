import HCServer.Address.Model
import HCServer.ByteArray.RoundTrip
import HCServer.Lib.Subnet

/-! The subnets of IPv4 addresses, in host byte order. `networkAddress` keeps what it should clear,
and `subnetMask` takes any prefix. -/
namespace HCServer
open Lib Lib.Subnet

/-- A swapped word has the bits of the word, at other places. -/
theorem getLsbD_byteswap {w : Nat} (hw : 8 ∣ w) (v : BitVec w) {i : Nat} (hi : i < w) :
    (byteswap v).getLsbD i = v.getLsbD (8 * (w / 8 - 1 - i / 8) + i % 8) := by
  obtain ⟨k, rfl⟩ := hw
  have hk : 8 * k / 8 = k := Nat.mul_div_cancel_left k (by decide)
  have hlen : (objectBytes v).length = k := (ByteArray.length_objectBytes v).trans hk
  have hindex : i / 8 < k := by omega
  have hreverse : (objectBytes v).reverse.getD (i / 8) 0 = (objectBytes v).getD (k - 1 - i / 8) 0 := by
    rw [List.getD_eq_getElem?_getD, List.getD_eq_getElem?_getD, List.getElem?_reverse (by omega), hlen]
  have hpow : (256 : Nat) ^ (k - 1 - i / 8) = 2 ^ (8 * (k - 1 - i / 8)) := (Nat.pow_mul 2 8 _).symm
  rw [byteswap, ofObject, BitVec.getLsbD_ofNat, decide_eq_true hi, Bool.true_and, testBit_leValue,
    hreverse, objectBytes, hk, getD_leBytes _ (by omega), hpow, ← Nat.shiftRight_eq_div_pow,
    BitVec.getLsbD]
  have hcut : (256 : Nat) = 2 ^ 8 := rfl
  rw [hcut, Nat.testBit_mod_two_pow, Nat.testBit_shiftRight, decide_eq_true (Nat.mod_lt i (by decide)),
    Bool.true_and]

theorem byteswap_and {w : Nat} (hw : 8 ∣ w) (x y : BitVec w) :
    byteswap (x &&& y) = byteswap x &&& byteswap y := by
  apply BitVec.eq_of_getLsbD_eq
  intro i hi
  simp only [BitVec.getLsbD_and, getLsbD_byteswap hw _ hi]

theorem byteswap_or {w : Nat} (hw : 8 ∣ w) (x y : BitVec w) :
    byteswap (x ||| y) = byteswap x ||| byteswap y := by
  apply BitVec.eq_of_getLsbD_eq
  intro i hi
  simp only [BitVec.getLsbD_or, getLsbD_byteswap hw _ hi]

theorem byteswap_not {w : Nat} (hw : 8 ∣ w) (x : BitVec w) : byteswap (~~~x) = ~~~byteswap x := by
  apply BitVec.eq_of_getLsbD_eq
  intro i hi
  have hplace : 8 * (w / 8 - 1 - i / 8) + i % 8 < w := by omega
  simp only [BitVec.getLsbD_not, getLsbD_byteswap hw _ hi, hi, hplace]

/-- For the prefixes of an address the mask is the host part, given as an `int`. -/
theorem createMask_of_pos {p : BitVec 32} (hpos : 1 ≤ p.toNat) (hle : p.toNat ≤ 32) :
    createMask 32 p = some (hostMask 32 p.toNat) := by
  have hall : ∀ d < 32, (1#32 <<< d - 1#32).setWidth 32 = ~~~(BitVec.allOnes 32 <<< d) := by
    decide
  have hlt : 32 - p.toNat < 32 := by omega
  rw [createMask, sizeSub_of_le hle, if_pos hlt, hall _ hlt]
  rfl

theorem createMask_undefined {p : BitVec 32} (h : p.toNat = 0 ∨ 32 < p.toNat) :
    createMask 32 p = none := by
  have hp := p.isLt
  have hlarge : ¬ sizeSub 32 p.toNat < 32 := by
    rw [sizeSub]
    split <;> omega
  rw [createMask, if_neg hlarge]

namespace IPv4Address

/-- The address as a number. -/
def number (a : IPv4Address) : BitVec 32 := byteswapOnLittleEndian a.addr.sAddr

theorem number_mk (s : SockaddrIn) : number ⟨s⟩ = byteswap s.sAddr := byteswapOnLittleEndian_eq _

theorem swap_swap (x : BitVec 32) : byteswap (byteswapOnLittleEndian x) = x := by
  rw [byteswapOnLittleEndian_eq]
  exact ByteArray.byteswap_byteswap (by decide) x

theorem broadcastAddress_of_pos (a : IPv4Address) {p : BitVec 32} (hpos : 1 ≤ p.toNat)
    (hle : p.toNat ≤ 32) :
    ∃ c, a.broadcastAddress p = .address c ∧ c.number = a.number ||| hostMask 32 p.toNat := by
  have hsmall : ¬ p > 32 := Nat.not_lt.mpr hle
  rw [broadcastAddress, if_neg hsmall, createMask_of_pos hpos hle]
  refine ⟨_, rfl, ?_⟩
  rw [number_mk, number_mk, byteswap_or (by decide), swap_swap]

/-- The host part is what is left of the address. -/
theorem networkAddress_of_pos (a : IPv4Address) {p : BitVec 32} (hpos : 1 ≤ p.toNat)
    (hle : p.toNat ≤ 32) :
    ∃ n, a.networkAddress p = .address n ∧ n.number = a.number &&& hostMask 32 p.toNat := by
  have hsmall : ¬ p > 32 := Nat.not_lt.mpr hle
  rw [networkAddress, if_neg hsmall, createMask_of_pos hpos hle]
  refine ⟨_, rfl, ?_⟩
  rw [number_mk, number_mk, byteswap_and (by decide), swap_swap]

theorem subnetMask_of_pos {p : BitVec 32} (hpos : 1 ≤ p.toNat) (hle : p.toNat ≤ 32) :
    ∃ m, subnetMask p = .address m ∧ m.number = netMask 32 p.toNat := by
  rw [subnetMask, createMask_of_pos hpos hle]
  refine ⟨_, rfl, ?_⟩
  rw [number_mk, byteswap_not (by decide), swap_swap, hostMask, BitVec.not_not]

theorem subnetMask_undefined {p : BitVec 32} (h : p.toNat = 0 ∨ 32 < p.toNat) :
    subnetMask p = .undefined := by
  rw [subnetMask, createMask_undefined h]
  rfl

/-- What the operations are for, at one address and one prefix length. -/
structure Subnet (a : IPv4Address) (p : BitVec 32) : Prop where
  mask : ∃ m, subnetMask p = .address m ∧ m.number = netMask 32 p.toNat
  network : ∃ n, a.networkAddress p = .address n ∧ n.number = a.number &&& netMask 32 p.toNat ∧
    n.number ≤ a.number ∧ ∃ n', n.networkAddress p = .address n' ∧ n'.number = n.number
  broadcast : ∃ c, a.broadcastAddress p = .address c ∧
    c.number = a.number ||| ~~~netMask 32 p.toNat ∧ a.number ≤ c.number

/-- The arithmetic at two addresses: their subnets, which are the same exactly where the prefixes
are, and refusal where there is no such prefix. -/
def Arithmetic (a b : IPv4Address) (p : BitVec 32) : Prop :=
  if p > 32 then
    a.broadcastAddress p = .null ∧ a.networkAddress p = .null ∧ subnetMask p = .null
  else
    a.Subnet p ∧ b.Subnet p ∧
      ∀ n n', a.networkAddress p = .address n → b.networkAddress p = .address n' →
        (n.number = n'.number ↔ ∀ i < p.toNat, a.number.getMsbD i = b.number.getMsbD i)

theorem Subnet.prefix_pos {a : IPv4Address} {p : BitVec 32} (h : a.Subnet p) : 1 ≤ p.toNat := by
  obtain ⟨m, hm, -⟩ := h.mask
  by_contra hzero
  rw [subnetMask_undefined (.inl (by omega))] at hm
  cases hm

theorem subnet_iff {a : IPv4Address} {p : BitVec 32} (hle : p.toNat ≤ 32) :
    a.Subnet p ↔ 1 ≤ p.toNat ∧ a.number = 0#32 := by
  constructor
  · intro h
    have hpos := h.prefix_pos
    obtain ⟨n, hn, hnumber, -⟩ := h.network
    obtain ⟨n', hn', hhost⟩ := networkAddress_of_pos a hpos hle
    rw [hn] at hn'
    cases hn'
    exact ⟨hpos, and_not_eq_iff.mp (hhost.symm.trans hnumber)⟩
  · rintro ⟨hpos, hzero⟩
    obtain ⟨n, hn, hhost⟩ := networkAddress_of_pos a hpos hle
    obtain ⟨n', hn', hagain⟩ := networkAddress_of_pos n hpos hle
    obtain ⟨c, hc, hbroadcast⟩ := broadcastAddress_of_pos a hpos hle
    refine ⟨subnetMask_of_pos hpos hle, ⟨n, hn, ?_, ?_, n', hn', ?_⟩, ⟨c, hc, hbroadcast, ?_⟩⟩
    · rw [hhost, hzero, BitVec.zero_and, BitVec.zero_and]
    · rw [hhost]
      exact and_le_left _ _
    · rw [hagain, hhost]
      exact and_mask_idem _ _
    · rw [hbroadcast]
      exact le_or_left _ _

/-- The arithmetic holds for no address but zero, and for prefixes of at least one bit. -/
theorem subnet_arithmetic_iff (a b : IPv4Address) (p : BitVec 32) :
    Arithmetic a b p ↔ 1 ≤ p.toNat ∧ p.toNat ≤ 32 ∧ a.number = 0#32 ∧ b.number = 0#32 := by
  rw [Arithmetic]
  by_cases hlarge : p > 32
  · have hp : 32 < p.toNat := hlarge
    rw [if_pos hlarge]
    refine iff_of_false ?_ (by omega)
    rintro ⟨-, -, hmask⟩
    rw [subnetMask_undefined (.inr hp)] at hmask
    cases hmask
  · have hle : p.toNat ≤ 32 := Nat.not_lt.mp hlarge
    rw [if_neg hlarge, subnet_iff hle, subnet_iff hle]
    constructor
    · rintro ⟨⟨hpos, ha⟩, ⟨-, hb⟩, -⟩
      exact ⟨hpos, hle, ha, hb⟩
    · rintro ⟨hpos, -, ha, hb⟩
      refine ⟨⟨hpos, ha⟩, ⟨hpos, hb⟩, ?_⟩
      intro n n' hn hn'
      obtain ⟨m, hm, hhost⟩ := networkAddress_of_pos a hpos hle
      obtain ⟨m', hm', hhost'⟩ := networkAddress_of_pos b hpos hle
      rw [hn] at hm
      rw [hn'] at hm'
      cases hm
      cases hm'
      rw [hhost, hhost', ha, hb]
      exact iff_of_true rfl fun _ _ => rfl

/-- The network of 192.168.1.1/24 comes out as 0.0.0.1. -/
theorem network_keeps_host : ¬ ∀ a b p, Arithmetic a b p := by
  intro h
  have hall := h (ofNumber 0xC0A80101 0) (ofNumber 0xC0A80101 0) 24
  have hnumber : (ofNumber 0xC0A80101 0).number ≠ 0#32 := by decide
  exact hnumber ((subnet_iff (by decide)).mp hall.1).2

end IPv4Address
end HCServer
