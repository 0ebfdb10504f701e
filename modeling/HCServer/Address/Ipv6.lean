import HCServer.Address.Model
import HCServer.Lib.Subnet

/-! The subnets of IPv6 addresses, bit by bit. The byte that a prefix splits is found by `p / 8` with
no check, and `networkAddress` keeps the wrong half of it. -/
namespace HCServer
open Lib Lib.Subnet

theorem createMask_byte (p : BitVec 32) :
    createMask 8 (p % 8) = some (hostMask 8 (p.toNat % 8)) := by
  have hall : ∀ d : Fin 8, createMask 8 (BitVec.ofNat 32 d) = some (hostMask 8 d) := by decide
  have hp : p % 8 = BitVec.ofNat 32 (p.toNat % 8) := by
    apply BitVec.eq_of_toNat_eq
    rw [BitVec.toNat_umod, BitVec.toNat_ofNat]
    have hlt : p.toNat % 8 < 2 ^ 32 := by omega
    exact (Nat.mod_eq_of_lt hlt).symm
  rw [hp]
  exact hall ⟨p.toNat % 8, Nat.mod_lt _ (by decide)⟩

namespace In6Addr

theorem update_of_le {s : In6Addr} {i : Nat} (h : 16 ≤ i) (f : BitVec 8 → BitVec 8) :
    s.update i f = none := dif_neg (Nat.not_lt.mpr h)

theorem update_spec (s : In6Addr) {i : Nat} (hi : i < 16) (f : BitVec 8 → BitVec 8) :
    ∃ t, s.update i f = some t ∧ ∀ j : Fin 16, t[j] = if (j : Nat) = i then f s[j] else s[j] := by
  refine ⟨_, dif_pos hi, ?_⟩
  intro j
  by_cases hij : (j : Nat) = i
  · subst hij
    rw [if_pos rfl]
    exact Vector.getElem_set_self hi
  · rw [if_neg hij]
    exact Vector.getElem_set_ne hi j.isLt (Ne.symm hij)

/-- Induction on the number of bytes still to be stored. -/
theorem fill_spec (value : BitVec 8) (count i : Nat) (s : In6Addr) (h : i + count ≤ 16) :
    ∃ t, fill value count i s = some t ∧
      ∀ j : Fin 16, t[j] = if i ≤ (j : Nat) ∧ (j : Nat) < i + count then value else s[j] := by
  induction count generalizing i s with
  | zero =>
      refine ⟨s, rfl, ?_⟩
      intro j
      rw [if_neg (by omega)]
  | succ count ih =>
      obtain ⟨t, ht, hbytes⟩ := update_spec s (by omega : i < 16) fun _ => value
      obtain ⟨u, hu, hrest⟩ := ih (i + 1) t (by omega)
      refine ⟨u, ?_, ?_⟩
      · rw [fill, ht]
        exact hu
      · intro j
        rw [hrest j, hbytes j]
        by_cases hj : (j : Nat) = i
        · rw [if_neg (by omega), if_pos hj, if_pos (by omega)]
        · rw [if_neg hj]
          congr 1
          rw [eq_iff_iff]
          omega

/-- What `broadcastAddress` and `networkAddress` do to the bytes. -/
theorem split_spec (s : In6Addr) {i : Nat} (hi : i < 16) (f : BitVec 8 → BitVec 8) (value : BitVec 8) :
    ∃ t u, s.update i f = some t ∧ fill value (16 - (i + 1)) (i + 1) t = some u ∧
      ∀ j : Fin 16, u[j] =
        if (j : Nat) < i then s[j] else if (j : Nat) = i then f s[j] else value := by
  obtain ⟨t, ht, hsplit⟩ := update_spec s hi f
  obtain ⟨u, hu, hrest⟩ := fill_spec value (16 - (i + 1)) (i + 1) t (by omega)
  refine ⟨t, u, ht, hu, ?_⟩
  intro j
  have hj := j.isLt
  rw [hrest j, hsplit j]
  obtain hbefore | hat | hafter := Nat.lt_trichotomy (j : Nat) i
  · rw [if_neg (by omega), if_neg (by omega), if_pos hbefore]
  · rw [if_neg (by omega), if_pos hat, if_neg (by omega), if_pos hat]
  · rw [if_pos (by omega), if_neg (by omega), if_neg (by omega)]

end In6Addr

namespace IPv6Address

/-- Bit `i` of the address, the first being the topmost of byte 0. -/
def bit (a : IPv6Address) (i : Fin 128) : Bool :=
  a.addr.s6Addr[(i : Nat) / 8].getMsbD (i % 8)

/-- Byte `j` of the mask of a prefix. -/
def maskByte (p j : Nat) : BitVec 8 := netMask 8 (p - 8 * j)

theorem maskByte_before {p j : Nat} (h : j < p / 8) : maskByte p j = 0xff := by
  have hwhole : 8 - (p - 8 * j) = 0 := by omega
  rw [maskByte, netMask, hwhole]
  rfl

theorem maskByte_split {p j : Nat} (h : j = p / 8) : maskByte p j = netMask 8 (p % 8) := by
  rw [maskByte, h, ← Nat.mod_def]

theorem maskByte_after {p j : Nat} (h : p / 8 < j) : maskByte p j = 0x00 := by
  have hnone : 8 - (p - 8 * j) = 8 := by omega
  rw [maskByte, netMask, hnone]
  rfl

theorem toNat_index (p : BitVec 32) : (p / 8).toNat = p.toNat / 8 := BitVec.toNat_udiv

theorem subnetMask_spec {p : BitVec 32} (h : p.toNat < 128) :
    ∃ m, subnetMask p = .address m ∧ ∀ j : Fin 16, m.addr.s6Addr[j] = maskByte p.toNat j := by
  have hindex : p.toNat / 8 < 16 := by omega
  obtain ⟨s, hs, hsplit⟩ := In6Addr.update_spec (Vector.replicate 16 0) hindex
    fun _ => ~~~hostMask 8 (p.toNat % 8)
  obtain ⟨t, ht, hbefore⟩ := In6Addr.fill_spec 0xff (p.toNat / 8) 0 s (by omega)
  refine ⟨⟨{ s6Addr := t }⟩, ?_, ?_⟩
  · simp only [subnetMask, toNat_index, createMask_byte, Option.bind_eq_bind, Option.bind_some, hs, ht]
    rfl
  · intro j
    simp only [hbefore j, hsplit j, Fin.getElem_fin, Vector.getElem_replicate]
    obtain hlt | heq | hgt := Nat.lt_trichotomy (j : Nat) (p.toNat / 8)
    · rw [if_pos (by omega), maskByte_before hlt]
    · rw [if_neg (by omega), if_pos heq, maskByte_split heq, hostMask, BitVec.not_not]
    · rw [if_neg (by omega), if_neg (by omega), maskByte_after hgt]

theorem broadcastAddress_spec (a : IPv6Address) {p : BitVec 32} (h : p.toNat < 128) :
    ∃ b, a.broadcastAddress p = .address b ∧
      ∀ j : Fin 16, b.addr.s6Addr[j] = a.addr.s6Addr[j] ||| ~~~maskByte p.toNat j := by
  have hindex : p.toNat / 8 < 16 := by omega
  obtain ⟨s, t, hs, ht, hbytes⟩ := a.addr.s6Addr.split_spec hindex (· ||| hostMask 8 (p.toNat % 8)) 0xff
  refine ⟨a.withBytes t, ?_, ?_⟩
  · simp only [broadcastAddress, toNat_index, createMask_byte, Option.bind_eq_bind, Option.bind_some,
      hs, ht]
    rfl
  · intro j
    rw [withBytes, hbytes j]
    obtain hlt | heq | hgt := Nat.lt_trichotomy (j : Nat) (p.toNat / 8)
    · rw [if_pos hlt, maskByte_before hlt]
      exact BitVec.or_zero.symm
    · rw [if_neg (by omega), if_pos heq, maskByte_split heq]
      rfl
    · rw [if_neg (by omega), if_neg (by omega), maskByte_after hgt]
      exact BitVec.or_allOnes.symm

/-- The split byte keeps its host part, where the bytes after it are cleared. -/
theorem networkAddress_spec (a : IPv6Address) {p : BitVec 32} (h : p.toNat < 128) :
    ∃ n, a.networkAddress p = .address n ∧
      ∀ j : Fin 16, n.addr.s6Addr[j] =
        if (j : Nat) = p.toNat / 8 then a.addr.s6Addr[j] &&& ~~~maskByte p.toNat j
        else a.addr.s6Addr[j] &&& maskByte p.toNat j := by
  have hindex : p.toNat / 8 < 16 := by omega
  obtain ⟨s, t, hs, ht, hbytes⟩ := a.addr.s6Addr.split_spec hindex (· &&& hostMask 8 (p.toNat % 8)) 0x00
  refine ⟨a.withBytes t, ?_, ?_⟩
  · simp only [networkAddress, toNat_index, createMask_byte, Option.bind_eq_bind, Option.bind_some,
      hs, ht]
    rfl
  · intro j
    rw [withBytes, hbytes j]
    obtain hlt | heq | hgt := Nat.lt_trichotomy (j : Nat) (p.toNat / 8)
    · rw [if_pos hlt, if_neg (by omega), maskByte_before hlt]
      exact BitVec.and_allOnes.symm
    · rw [if_neg (by omega), if_pos heq, if_pos heq, maskByte_split heq]
      rfl
    · rw [if_neg (by omega), if_neg (by omega), if_neg (by omega), maskByte_after hgt]
      exact BitVec.and_zero.symm

/-- From 128 on the first store is past the end of the bytes. -/
theorem subnetMask_undefined {p : BitVec 32} (h : 128 ≤ p.toNat) : subnetMask p = .undefined := by
  have hindex : 16 ≤ p.toNat / 8 := by omega
  simp only [subnetMask, toNat_index, createMask_byte, Option.bind_eq_bind, Option.bind_some,
    Option.bind_none, In6Addr.update_of_le hindex]
  rfl

/-- What the operations are for, at one address and one prefix length. -/
structure Subnet (a : IPv6Address) (p : BitVec 32) (m n b : IPv6Address) : Prop where
  mask : subnetMask p = .address m ∧ ∀ i : Fin 128, m.bit i = decide ((i : Nat) < p.toNat)
  network : a.networkAddress p = .address n ∧
    ∀ j : Fin 16, n.addr.s6Addr[j] = a.addr.s6Addr[j] &&& m.addr.s6Addr[j]
  broadcast : a.broadcastAddress p = .address b ∧
    ∀ j : Fin 16, b.addr.s6Addr[j] = a.addr.s6Addr[j] ||| ~~~m.addr.s6Addr[j]

/-- The arithmetic, with refusal where there is no such prefix. -/
def Arithmetic (a : IPv6Address) (p : BitVec 32) : Prop :=
  if p > 128 then
    a.broadcastAddress p = .null ∧ a.networkAddress p = .null ∧ subnetMask p = .null
  else ∃ m n b, a.Subnet p m n b

theorem bit_of_maskBytes {m : IPv6Address} {p : Nat}
    (h : ∀ j : Fin 16, m.addr.s6Addr[j] = maskByte p j) (i : Fin 128) :
    m.bit i = decide ((i : Nat) < p) := by
  have hbyte := h ⟨i / 8, by omega⟩
  rw [Fin.getElem_fin] at hbyte
  rw [bit, hbyte, maskByte, getMsbD_netMask _ _ (Nat.mod_lt _ (by decide))]
  congr 1
  rw [eq_iff_iff]
  dsimp only
  omega

theorem subnet_iff {a : IPv6Address} {p : BitVec 32} (hp : p.toNat < 128) :
    (∃ m n b, a.Subnet p m n b) ↔ ∃ j : Fin 16, p.toNat / 8 = j ∧ a.addr.s6Addr[j] = 0#8 := by
  obtain ⟨m, hm, hmask⟩ := subnetMask_spec hp
  obtain ⟨n, hn, hnetwork⟩ := networkAddress_spec a hp
  obtain ⟨b, hb, hbroadcast⟩ := broadcastAddress_spec a hp
  constructor
  · rintro ⟨m', n', b', h⟩
    refine ⟨⟨p.toNat / 8, by omega⟩, rfl, ?_⟩
    obtain rfl : m = m' := by simpa [hm] using h.mask.1
    obtain rfl : n = n' := by simpa [hn] using h.network.1
    have hsplit := h.network.2 ⟨p.toNat / 8, by omega⟩
    rw [hnetwork, if_pos rfl, hmask] at hsplit
    exact and_not_eq_iff.mp hsplit
  · rintro ⟨j, hj, hzero⟩
    refine ⟨m, n, b, ⟨hm, bit_of_maskBytes hmask⟩, ⟨hn, ?_⟩, ⟨hb, ?_⟩⟩
    · intro k
      rw [hnetwork k, hmask k]
      by_cases hk : (k : Nat) = p.toNat / 8
      · obtain rfl : k = j := Fin.ext (hk.trans hj)
        rw [if_pos hk, hzero, BitVec.zero_and, BitVec.zero_and]
      · rw [if_neg hk]
    · intro k
      rw [hbroadcast k, hmask k]

/-- The arithmetic holds where the byte that the prefix splits exists and is zero. -/
theorem subnet6_arithmetic_iff (a : IPv6Address) (p : BitVec 32) :
    Arithmetic a p ↔ ∃ j : Fin 16, p.toNat / 8 = j ∧ a.addr.s6Addr[j] = 0#8 := by
  rw [Arithmetic]
  by_cases hp : p.toNat < 128
  · have hsmall : ¬ p > 128 := Nat.not_lt.mpr hp.le
    rw [if_neg hsmall]
    exact subnet_iff hp
  · have hnone : ¬ ∃ j : Fin 16, p.toNat / 8 = j ∧ a.addr.s6Addr[j] = 0#8 := by
      rintro ⟨j, hj, -⟩
      omega
    have hmask := subnetMask_undefined (Nat.not_lt.mp hp)
    refine iff_of_false ?_ hnone
    split
    · rintro ⟨-, -, hnull⟩
      rw [hmask] at hnull
      cases hnull
    · rintro ⟨m, n, b, h⟩
      have hdefined := h.mask.1
      rw [hmask] at hdefined
      cases hdefined

/-- A prefix of all bits stores past the end of the address. -/
theorem whole_prefix_undefined : ¬ ∀ a p, Arithmetic a p := by
  intro h
  obtain ⟨m, n, b, hsubnet⟩ := h ⟨{}⟩ 128
  have hdefined := hsubnet.mask.1
  rw [subnetMask_undefined (by decide)] at hdefined
  cases hdefined

end IPv6Address
end HCServer
