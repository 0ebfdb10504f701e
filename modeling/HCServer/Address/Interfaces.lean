import HCServer.Address.Ipv6
import HCServer.Address.Port
import HCServer.Lib.Multimap
import HCServer.Lib.Population
import Mathlib

/-! `GetInterfaceAddresses`: the addresses of the network interfaces with the lengths of their prefixes,
which `CountBytes` takes from the masks, through a `multimap` by the interfaces' names. -/
namespace HCServer
open Lib Lib.Subnet Lib.Population

/-- `CountBytes`; each round clears the lowest bit. -/
def countBytes {w : Nat} (value : BitVec w) : Nat :=
  if value = 0#w then 0 else countBytes (value &&& (value - 1#w)) + 1
termination_by value.cpop.toNat
decreasing_by
  have hclear := cpop_clear_lowest (by assumption)
  omega

theorem countBytes_eq {w : Nat} (value : BitVec w) : countBytes value = value.cpop.toNat := by
  induction value using countBytes.induct with
  | case1 =>
      rw [countBytes, if_pos rfl]
      simp
  | case2 value hne ih => rw [countBytes, if_neg hne, ih, cpop_clear_lowest hne]

namespace Interfaces

/-- What `ifa_addr` and `ifa_netmask` point to, by the family of the first; `none` is a null mask. -/
inductive Ifaddr
  | inet (addr : SockaddrIn) (netmask : Option SockaddrIn)
  | inet6 (addr : SockaddrIn6) (netmask : Option SockaddrIn6)
  | other (addr : Sockaddr)
  deriving DecidableEq, Repr

def afUnspec : Nat := 0

def Ifaddr.family : Ifaddr → Nat
  | .inet _ _ => afInet
  | .inet6 _ _ => afInet6
  | .other addr => addr.saFamily.toNat

/-- An entry of the list of `getifaddrs`. An interface without an address has a null `ifa_addr`. -/
structure Ifaddrs where
  ifaName : List UInt8
  ifaAddr : Option Ifaddr
  deriving DecidableEq, Repr

/-- The prefix length of an IPv6 mask, byte by byte. -/
def prefixLen6 (netmask : In6Addr) : Nat := ((List.finRange 16).map fun i => countBytes (netmask.get i)).sum

/-- What the loop makes of an entry: `none` dereferences a null pointer. -/
def entry (family : Nat) (next : Ifaddrs) : Option (Option (Address × Nat)) :=
  match next.ifaAddr with
  | none => none
  | some addr =>
      if family ≠ afUnspec ∧ family ≠ addr.family then some none
      else match addr with
        | .inet addr netmask =>
            netmask.map fun m => some (Address.create (.inet addr), countBytes m.sAddr)
        | .inet6 addr netmask =>
            netmask.map fun m => some (Address.create (.inet6 addr), prefixLen6 m.s6Addr)
        | .other _ => some none

/-- The order of `std::string`. -/
def key (name : List UInt8) : List Nat := name.map UInt8.toNat

abbrev Result := List (List Nat × Address × Nat)

/-- The loop over the list. -/
def collect (family : Nat) : List Ifaddrs → Result → Option Result
  | [], result => some result
  | next :: rest, result => do
      let found ← entry family next
      collect family rest (match found with
        | none => result
        | some pair => Multimap.insert result (key next.ifaName, pair))

/-- The overload with a `multimap`, which is empty before; `getifaddrs` has failed where it gives `none`. -/
def getAllAddresses (getifaddrs : Option (List Ifaddrs)) (family : Nat) : Option (Bool × Result) :=
  match getifaddrs with
  | none => some (false, [])
  | some results => (collect family results []).map fun result => (!result.isEmpty, result)

/-- The overload with the name of an interface. -/
def getInterfaceAddresses (getifaddrs : Option (List Ifaddrs)) (result : List (Address × Nat))
    (iface : List UInt8) (family : Nat) : Option (Bool × List (Address × Nat)) :=
  if iface = [] ∨ iface = [42] then
    let v4 := if family = afInet ∨ family = afUnspec then [(Address.ipv4 (.ofNumber 0 0), 0)] else []
    let v6 := if family = afInet6 ∨ family = afUnspec then [(Address.ipv6 ⟨{}⟩, 0)] else []
    some (true, result ++ v4 ++ v6)
  else do
    let (ok, results) ← getAllAddresses getifaddrs family
    if ok = false then some (false, result)
    else
      let result := result ++ Multimap.equalRange results (key iface)
      some (!result.isEmpty, result)

/-- What the entries of the list give, an entry without a pointer nothing. -/
def given (family : Nat) (results : List Ifaddrs) : List (List UInt8 × Address × Nat) :=
  results.filterMap fun next => (entry family next).join.map fun pair => (next.ifaName, pair)

/-- The addresses of one interface, in the order of the list. -/
def addressesOf (family : Nat) (results : List Ifaddrs) (iface : List UInt8) : List (Address × Nat) :=
  ((given family results).filter fun x => decide (x.1 = iface)).map Prod.snd

theorem key_injective : Function.Injective key :=
  List.map_injective_iff.mpr fun _ _ h => UInt8.toNat_inj.mp h

theorem collect_eq (family : Nat) (results : List Ifaddrs) (result : Result) :
    collect family results result =
      if ∃ next ∈ results, entry family next = none then none
      else some (((given family results).map fun x => (key x.1, x.2)).foldl Multimap.insert result) := by
  induction results generalizing result with
  | nil => simp [collect, given]
  | cons next rest ih =>
      cases hentry : entry family next with
      | none => simp [collect, hentry]
      | some found =>
          have hrest : (∃ other ∈ next :: rest, entry family other = none) ↔
              ∃ other ∈ rest, entry family other = none := by simp [hentry]
          simp only [collect, hentry, Option.bind_eq_bind, Option.bind_some, ih, hrest]
          cases found with
          | none => simp [given, hentry]
          | some pair => simp [given, hentry]

theorem equalRange_key (l : List (List UInt8 × Address × Nat)) (iface : List UInt8) :
    Multimap.equalRange ((l.map fun x => (key x.1, x.2)).foldl Multimap.insert []) (key iface) =
      (l.filter fun x => decide (x.1 = iface)).map Prod.snd := by
  rw [Multimap.equalRange_foldl, List.filter_map, List.map_map]
  refine congrArg (List.map Prod.snd) (List.filter_congr fun x _ => ?_)
  exact decide_eq_decide.mpr key_injective.eq_iff

/-- Where `getifaddrs` succeeds and no null pointer is met: the addresses of the interface behind what was
there, each with the number of bits set in its mask. -/
theorem addresses_listed (results : List Ifaddrs) (result : List (Address × Nat)) {iface : List UInt8}
    (hname : iface ≠ []) (hstar : iface ≠ [42]) (family : Nat) :
    getInterfaceAddresses (some results) result iface family =
      if ∃ next ∈ results, entry family next = none then none
      else some (decide (given family results ≠ [] ∧ result ++ addressesOf family results iface ≠ []),
        result ++ addressesOf family results iface) := by
  rw [getInterfaceAddresses, if_neg (not_or.mpr ⟨hname, hstar⟩), getAllAddresses, collect_eq]
  split
  · rfl
  · dsimp only [Option.map_some, Option.bind_eq_bind, Option.bind_some]
    rw [equalRange_key]
    by_cases hgiven : given family results = []
    · simp [addressesOf, hgiven]
    · have hsome : ((given family results).map fun x => (key x.1, x.2)).foldl Multimap.insert [] ≠ [] :=
        fun hnil => hgiven (List.map_eq_nil_iff.mp (Multimap.foldl_insert_eq_nil.mp hnil))
      rw [List.isEmpty_eq_false_iff.mpr hsome, addressesOf]
      generalize result ++ _ = l
      cases l <;> simp [hgiven]

def twoInterfaces : List Ifaddrs :=
  [⟨[108, 111], some (.inet {} (some { sAddr := 0xff }))⟩,
    ⟨[101, 48], some (.inet6 {} (some {}))⟩,
    ⟨[108, 111], some (.inet6 {} (some {}))⟩]

theorem addresses_listed_two :
    getInterfaceAddresses (some twoInterfaces) [] [108, 111] afUnspec =
      if ∃ next ∈ twoInterfaces, entry afUnspec next = none then none
      else some (decide (given afUnspec twoInterfaces ≠ [] ∧
          [] ++ addressesOf afUnspec twoInterfaces [108, 111] ≠ []),
        [] ++ addressesOf afUnspec twoInterfaces [108, 111]) :=
  addresses_listed twoInterfaces [] (by decide) (by decide) afUnspec

theorem number_bits (m : IPv4Address) : m.number.cpop.toNat = m.addr.sAddr.cpop.toNat := by
  rw [IPv4Address.number, byteswapOnLittleEndian_eq]
  refine cpop_of_involution (fun i => 8 * (3 - i / 8) + i % 8) ?_ ?_ ?_
  · intro i hi
    omega
  · intro i hi
    omega
  · intro i hi
    exact getLsbD_byteswap (by decide) _ hi

theorem sum_bytes (p k : Nat) : ((List.range k).map fun i => min (p - 8 * i) 8).sum = min p (8 * k) := by
  induction k with
  | zero => simp
  | succ k ih =>
      rw [List.range_succ, List.map_append, List.sum_append, ih, List.map_singleton, List.sum_singleton]
      omega

/-- The masks that `subnetMask` makes have their prefix length. -/
theorem prefix_of_subnetMask :
    (∀ p m, IPv4Address.subnetMask p = .address m → countBytes m.addr.sAddr = p.toNat) ∧
    ∀ p m, IPv6Address.subnetMask p = .address m → prefixLen6 m.addr.s6Addr = p.toNat := by
  refine ⟨?_, ?_⟩
  · intro p m hm
    by_cases hp : p.toNat = 0 ∨ 32 < p.toNat
    · rw [IPv4Address.subnetMask_undefined hp] at hm
      cases hm
    · obtain ⟨m', hm', hnumber⟩ := IPv4Address.subnetMask_of_pos (p := p) (by omega) (by omega)
      cases hm.symm.trans hm'
      rw [countBytes_eq, ← number_bits, hnumber, cpop_netMask]
      omega
  · intro p m hm
    by_cases hp : 128 ≤ p.toNat
    · rw [IPv6Address.subnetMask_undefined hp] at hm
      cases hm
    · obtain ⟨m', hm', hbytes⟩ := IPv6Address.subnetMask_spec (p := p) (by omega)
      cases hm.symm.trans hm'
      have hmap : ((List.finRange 16).map fun i => countBytes (m.addr.s6Addr.get i)) =
          (List.range 16).map fun i => min (p.toNat - 8 * i) 8 := by
        rw [← List.map_coe_finRange_eq_range, List.map_map]
        refine List.map_congr_left fun i _ => ?_
        have hbyte : m.addr.s6Addr.get i = IPv6Address.maskByte p.toNat i := hbytes i
        rw [countBytes_eq, hbyte, IPv6Address.maskByte, cpop_netMask]
        rfl
      rw [prefixLen6, hmap, sum_bytes]
      omega

end Interfaces
end HCServer
