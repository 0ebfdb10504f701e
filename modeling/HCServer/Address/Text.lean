import HCServer.Address.Model
import HCServer.ByteArray.RoundTrip
import HCServer.Lib.Ipv6Text
import Mathlib.Data.List.TakeWhile

/-! The texts of IP addresses. -/
namespace HCServer
open Lib Lib.Ipv6Text

/-- `os << n` of an unsigned number after `dec` or `hex`. -/
def streamNumber (base n : Nat) : List UInt8 := numeral base hexDigit n

namespace IPv4Address

def insert (a : IPv4Address) : List UInt8 :=
  let addr := byteswapOnLittleEndian a.addr.sAddr
  streamNumber 10 ((addr >>> 24) &&& 0xff).toNat ++ [dot] ++
    streamNumber 10 ((addr >>> 16) &&& 0xff).toNat ++ [dot] ++
    streamNumber 10 ((addr >>> 8) &&& 0xff).toNat ++ [dot] ++
    streamNumber 10 (addr &&& 0xff).toNat ++
    [colon] ++ streamNumber 10 (byteswapOnLittleEndian a.addr.sinPort).toNat

end IPv4Address

/-- `((uint16_t*)s6_addr)[i]`. -/
def In6Addr.group (s : In6Addr) (i : Nat) : BitVec 16 := ofObject 16 ((s.bytes.drop (2 * i)).take 2)

namespace IPv6Address

/-- The loop over the groups, `n` of which are left; with `used_zeros` and what was written. -/
def insertLoop (addr : Nat → BitVec 16) : Nat → Nat → Bool → List UInt8 → List UInt8 × Bool
  | 0, _, used_zeros, os => (os, used_zeros)
  | n + 1, i, used_zeros, os =>
      if addr i = 0 ∧ used_zeros = false then insertLoop addr n (i + 1) used_zeros os
      else
        let behindZeros : Bool := i ≠ 0 && addr (i - 1) = 0 && !used_zeros
        let os := if behindZeros then os ++ [colon] else os
        let used_zeros := if behindZeros then true else used_zeros
        let os := if i ≠ 0 then os ++ [colon] else os
        insertLoop addr n (i + 1) used_zeros
          (os ++ streamNumber 16 (byteswapOnLittleEndian (addr i)).toNat)

/-- What `insert` writes between the brackets. -/
def insertAddress (s : In6Addr) : List UInt8 :=
  let (os, used_zeros) := insertLoop s.group 8 0 false []
  if used_zeros = false ∧ s.group 7 = 0 then os ++ [colon, colon] else os

def insert (a : IPv6Address) : List UInt8 :=
  [91] ++ insertAddress a.addr.s6Addr ++ [93, colon] ++
    streamNumber 10 (byteswapOnLittleEndian a.addr.sin6Port).toNat

section
variable (addr : Nat → BitVec 16)

/-- The `n` groups from the `i`-th on, as numbers. -/
def groupsFrom (i n : Nat) : List Nat :=
  (List.range' i n).map fun j => (byteswapOnLittleEndian (addr j)).toNat

theorem groupsFrom_zero (i : Nat) : groupsFrom addr i 0 = [] := rfl

theorem groupsFrom_succ (i n : Nat) :
    groupsFrom addr i (n + 1) = (byteswapOnLittleEndian (addr i)).toNat :: groupsFrom addr (i + 1) n := by
  rw [groupsFrom, List.range'_succ, List.map_cons]
  rfl

theorem swapped_eq_zero_iff (v : BitVec 16) : (byteswapOnLittleEndian v).toNat = 0 ↔ v = 0 := by
  have hzero : byteswap (0 : BitVec 16) = 0 := by decide
  have hback : byteswap (byteswap v) = v := ByteArray.byteswap_byteswap (by decide) v
  rw [byteswapOnLittleEndian_eq]
  constructor
  · intro h
    have hv : byteswap v = 0 := BitVec.eq_of_toNat_eq h
    rw [← hback, hv, hzero]
  · rintro rfl
    rw [hzero]
    rfl

/-- Groups each behind a colon. -/
def behindColons (gs : List Nat) : List UInt8 := gs.flatMap fun g => colon :: hexText g

theorem hexText_append_behindColons (g : Nat) (gs : List Nat) :
    hexText g ++ behindColons gs = join (g :: gs) := by
  induction gs generalizing g with
  | nil =>
    rw [join_singleton]
    exact List.append_nil _
  | cons g' gs ih =>
    rw [join_cons_cons, ← ih]
    rfl

theorem behindColons_cons (g : Nat) (gs : List Nat) :
    behindColons (g :: gs) = colon :: join (g :: gs) :=
  congrArg (colon :: ·) (hexText_append_behindColons g gs)

section
variable {addr} {i : Nat} (n : Nat) (os : List UInt8)

theorem insertLoop_skip (hzero : addr i = 0) :
    insertLoop addr (n + 1) i false os = insertLoop addr n (i + 1) false os :=
  if_pos ⟨hzero, rfl⟩

theorem insertLoop_used_step (hi : 0 < i) :
    insertLoop addr (n + 1) i true os =
      insertLoop addr n (i + 1) true
        (os ++ colon :: hexText (byteswapOnLittleEndian (addr i)).toNat) := by
  have hne : i ≠ 0 := by omega
  simp [insertLoop, hne, streamNumber, hexText]

/-- The first group behind the zeros. -/
theorem insertLoop_resume (hi : 0 < i) (hgroup : addr i ≠ 0) (hzero : addr (i - 1) = 0) :
    insertLoop addr (n + 1) i false os =
      insertLoop addr n (i + 1) true
        (os ++ colon :: colon :: hexText (byteswapOnLittleEndian (addr i)).toNat) := by
  have hne : i ≠ 0 := by omega
  have hgroup' : ¬ addr i = 0#16 := hgroup
  simp [insertLoop, hne, hgroup', hzero, streamNumber, hexText]

theorem insertLoop_plain (hi : 0 < i) (hgroup : addr i ≠ 0) (hbefore : addr (i - 1) ≠ 0) :
    insertLoop addr (n + 1) i false os =
      insertLoop addr n (i + 1) false
        (os ++ colon :: hexText (byteswapOnLittleEndian (addr i)).toNat) := by
  have hne : i ≠ 0 := by omega
  have hgroup' : ¬ addr i = 0#16 := hgroup
  have hbefore' : ¬ addr (i - 1) = 0#16 := hbefore
  simp [insertLoop, hne, hgroup', hbefore', streamNumber, hexText]

end

/-- Once the zeros are used every group is written. -/
theorem insertLoop_used {i : Nat} (n : Nat) (hi : 0 < i) (os : List UInt8) :
    insertLoop addr n i true os = (os ++ behindColons (groupsFrom addr i n), true) := by
  induction n generalizing i os with
  | zero =>
    rw [insertLoop, groupsFrom_zero]
    simp [behindColons]
  | succ n ih =>
    rw [insertLoop_used_step n os hi, ih (Nat.succ_pos i), groupsFrom_succ]
    simp [behindColons]

/-- What the groups behind the zeros add, if there are any. -/
def resumed (post : List Nat) : List UInt8 := if post = [] then [] else colon :: behindColons post

/-- From a zero on, with the zeros not yet used. -/
theorem insertLoop_zeros {i : Nat} (n : Nat) (hi : 0 < i) (hzero : addr (i - 1) = 0)
    (os : List UInt8) {post : List Nat}
    (hpost : (groupsFrom addr i n).dropWhile isZero = post) :
    insertLoop addr n i false os = (os ++ resumed post, decide (post ≠ [])) := by
  induction n generalizing i with
  | zero =>
    obtain rfl : [] = post := hpost
    simp [insertLoop, resumed]
  | succ n ih =>
    have hswap := swapped_eq_zero_iff (addr i)
    rw [groupsFrom_succ] at hpost
    by_cases hgroup : addr i = 0
    · have hskip : isZero (byteswapOnLittleEndian (addr i)).toNat = true :=
        decide_eq_true (hswap.mpr hgroup)
      rw [List.dropWhile_cons_of_pos hskip] at hpost
      rw [insertLoop_skip n os hgroup]
      exact ih (Nat.succ_pos i) hgroup hpost
    · have hne : ¬ isZero (byteswapOnLittleEndian (addr i)).toNat = true :=
        fun h => hgroup (hswap.mp (of_decide_eq_true h))
      rw [List.dropWhile_cons_of_neg hne] at hpost
      rw [insertLoop_resume n os hi hgroup hzero, insertLoop_used addr n (Nat.succ_pos i), ← hpost]
      simp [resumed, behindColons]

/-- From a group that is not zero on. -/
theorem insertLoop_groups {i : Nat} (n : Nat) (hi : 0 < i) (hbefore : addr (i - 1) ≠ 0)
    (os : List UInt8) {pre rest post : List Nat}
    (hpre : (groupsFrom addr i n).takeWhile isNonzero = pre)
    (hrest : (groupsFrom addr i n).dropWhile isNonzero = rest)
    (hpost : rest.dropWhile isZero = post) :
    insertLoop addr n i false os = (os ++ behindColons pre ++ resumed post, decide (post ≠ [])) := by
  induction n generalizing i os pre with
  | zero =>
    obtain rfl : [] = pre := hpre
    obtain rfl : [] = rest := hrest
    obtain rfl : [] = post := hpost
    simp [insertLoop, resumed, behindColons]
  | succ n ih =>
    have hswap := swapped_eq_zero_iff (addr i)
    rw [groupsFrom_succ] at hpre hrest
    by_cases hgroup : addr i = 0
    · have hstop : ¬ isNonzero (byteswapOnLittleEndian (addr i)).toNat = true :=
        fun h => of_decide_eq_true h (hswap.mpr hgroup)
      have hskip : isZero (byteswapOnLittleEndian (addr i)).toNat = true :=
        decide_eq_true (hswap.mpr hgroup)
      rw [List.takeWhile_cons_of_neg hstop] at hpre
      rw [List.dropWhile_cons_of_neg hstop] at hrest
      rw [← hrest, List.dropWhile_cons_of_pos hskip] at hpost
      rw [insertLoop_skip n os hgroup, insertLoop_zeros addr n (Nat.succ_pos i) hgroup os hpost, ← hpre]
      simp [behindColons]
    · have hgo : isNonzero (byteswapOnLittleEndian (addr i)).toNat = true :=
        decide_eq_true fun h => hgroup (hswap.mp h)
      rw [List.takeWhile_cons_of_pos hgo] at hpre
      rw [List.dropWhile_cons_of_pos hgo] at hrest
      rw [insertLoop_plain n os hi hgroup hbefore,
        ih (Nat.succ_pos i) hgroup (os ++ colon :: hexText _) rfl hrest, ← hpre]
      simp [behindColons]

theorem groupsFrom_concat (i n : Nat) :
    groupsFrom addr i (n + 1) =
      groupsFrom addr i n ++ [(byteswapOnLittleEndian (addr (i + n))).toNat] := by
  rw [groupsFrom, List.range'_1_concat, List.map_append]
  rfl

/-- With no zero used, the text still needs its `::` exactly if zeros are what is left. -/
theorem last_zero_iff {rest : List Nat} (n : Nat)
    (hrest : (groupsFrom addr 1 (n + 1)).dropWhile isNonzero = rest)
    (hpost : rest.dropWhile isZero = []) : addr (n + 1) = 0 ↔ rest ≠ [] := by
  have hswap := swapped_eq_zero_iff (addr (1 + n))
  have hconcat := groupsFrom_concat addr 1 n
  rw [Nat.add_comm n 1, ← hswap]
  constructor
  · rintro hzero rfl
    have hall := List.dropWhile_eq_nil_iff.mp hrest
    have hlast := hall (byteswapOnLittleEndian (addr (1 + n))).toNat (by
      rw [hconcat]
      exact List.mem_append_right _ List.mem_cons_self)
    exact of_decide_eq_true hlast hzero
  · intro hne
    have hall := List.dropWhile_eq_nil_iff.mp hpost
    have hsplit : (groupsFrom addr 1 (n + 1)).takeWhile isNonzero ++ rest =
        groupsFrom addr 1 n ++ [(byteswapOnLittleEndian (addr (1 + n))).toNat] := by
      rw [← hrest, List.takeWhile_append_dropWhile, hconcat]
    have hlast : (byteswapOnLittleEndian (addr (1 + n))).toNat ∈ rest := by
      have h := congrArg List.getLast? hsplit
      rw [List.getLast?_append_of_ne_nil _ hne, List.getLast?_concat] at h
      exact List.mem_of_getLast? h
    exact of_decide_eq_true (hall _ hlast)

end

theorem resumed_of_ne_nil {post : List Nat} (h : post ≠ []) :
    resumed post = colon :: colon :: join post := by
  obtain ⟨g, gs, rfl⟩ := List.exists_cons_of_ne_nil h
  rw [resumed, if_neg h, behindColons_cons]

theorem insertAddress_of_loop {s : In6Addr} {os : List UInt8} {used_zeros : Bool}
    (h : insertLoop s.group 8 0 false [] = (os, used_zeros)) :
    insertAddress s = if used_zeros = false ∧ s.group 7 = 0 then os ++ [colon, colon] else os := by
  rw [insertAddress, h]

theorem groupsFrom_first (s : In6Addr) : groupsFrom s.group 0 8 =
    (byteswapOnLittleEndian (s.group 0)).toNat :: groupsFrom s.group 1 7 := groupsFrom_succ _ 0 7

theorem insertAddress_zero_first {s : In6Addr} (hzero : s.group 0 = 0) :
    insertAddress s = compress (groupsFrom s.group 0 8) := by
  have hswap := swapped_eq_zero_iff (s.group 0)
  have hskip : isZero (byteswapOnLittleEndian (s.group 0)).toNat = true :=
    decide_eq_true (hswap.mpr hzero)
  have hstop : ¬ isNonzero (byteswapOnLittleEndian (s.group 0)).toNat = true :=
    fun h => of_decide_eq_true h (hswap.mpr hzero)
  have hrun := insertLoop_zeros s.group 7 Nat.one_pos hzero [] rfl
  rw [← insertLoop_skip 7 [] hzero] at hrun
  rw [insertAddress_of_loop hrun, compress, groupsFrom_first, List.dropWhile_cons_of_neg hstop,
    List.takeWhile_cons_of_neg hstop, if_neg (List.cons_ne_nil _ _), List.dropWhile_cons_of_pos hskip]
  by_cases hpost : (groupsFrom s.group 1 7).dropWhile isZero = []
  · have hlast : s.group 7 = 0 := by
      have hall := List.dropWhile_eq_nil_iff.mp hpost
      have hmem : (byteswapOnLittleEndian (s.group 7)).toNat ∈ groupsFrom s.group 1 7 := by
        rw [groupsFrom_concat s.group 1 6]
        exact List.mem_append_right _ List.mem_cons_self
      exact (swapped_eq_zero_iff _).mp (of_decide_eq_true (hall _ hmem))
    rw [if_pos ⟨decide_eq_false fun h => h hpost, hlast⟩, hpost]
    rfl
  · rw [resumed_of_ne_nil hpost, if_neg fun h => of_decide_eq_false h.1 hpost]
    rfl

theorem insertAddress_nonzero_first {s : In6Addr} (hzero : s.group 0 ≠ 0) :
    insertAddress s = compress (groupsFrom s.group 0 8) := by
  have hswap := swapped_eq_zero_iff (s.group 0)
  have hgo : isNonzero (byteswapOnLittleEndian (s.group 0)).toNat = true :=
    decide_eq_true fun h => hzero (hswap.mp h)
  have hstart : insertLoop s.group 8 0 false [] =
      insertLoop s.group 7 1 false (hexText (byteswapOnLittleEndian (s.group 0)).toNat) := by
    have hzero' : ¬ s.group 0 = 0#16 := hzero
    simp [insertLoop, hzero', streamNumber, hexText]
  have hrun := insertLoop_groups s.group 7 Nat.one_pos hzero
    (hexText (byteswapOnLittleEndian (s.group 0)).toNat) rfl rfl rfl
  rw [← hstart, hexText_append_behindColons] at hrun
  rw [insertAddress_of_loop hrun, compress, groupsFrom_first, List.dropWhile_cons_of_pos hgo,
    List.takeWhile_cons_of_pos hgo]
  by_cases hpost : ((groupsFrom s.group 1 7).dropWhile isNonzero).dropWhile isZero = []
  · have hlast := last_zero_iff s.group 6 rfl hpost
    have hunused : decide (((groupsFrom s.group 1 7).dropWhile isNonzero).dropWhile isZero ≠ []) =
        false := decide_eq_false fun h => h hpost
    by_cases hrest : (groupsFrom s.group 1 7).dropWhile isNonzero = []
    · rw [if_pos hrest, if_neg fun h => hlast.mp h.2 hrest, hpost, resumed, if_pos rfl,
        List.append_nil, List.takeWhile_eq_self_iff.mpr (List.dropWhile_eq_nil_iff.mp hrest)]
    · rw [if_neg hrest, if_pos ⟨hunused, hlast.mpr hrest⟩, hpost, resumed, if_pos rfl,
        List.append_nil, join_nil]
  · have hrest : (groupsFrom s.group 1 7).dropWhile isNonzero ≠ [] := by
      intro h
      rw [h] at hpost
      exact hpost rfl
    rw [resumed_of_ne_nil hpost, if_neg hrest, if_neg fun h => of_decide_eq_false h.1 hpost]

/-- The text is that of the groups with their first run of zeros elided. -/
theorem insertAddress_eq (s : In6Addr) : insertAddress s = compress (groupsFrom s.group 0 8) := by
  by_cases hzero : s.group 0 = 0
  · exact insertAddress_zero_first hzero
  · exact insertAddress_nonzero_first hzero

/-- The bytes that groups stand for, in network byte order. -/
def groupBytes (gs : List Nat) : List UInt8 :=
  gs.flatMap fun g => [UInt8.ofNat (g / 256), UInt8.ofNat (g % 256)]

theorem groupBytes_swapped (x y : UInt8) :
    groupBytes [(byteswapOnLittleEndian (ofObject 16 [x, y])).toNat] = [x, y] := by
  have hswap : byteswapOnLittleEndian (ofObject 16 [x, y]) = ofObject 16 [y, x] := by
    have himage : objectBytes (ofObject 16 [x, y]) = [x, y] :=
      ByteArray.objectBytes_ofObject (by decide) rfl
    rw [byteswapOnLittleEndian_eq, byteswap, himage]
    rfl
  have hx : x.toNat < 256 := x.toNat_lt
  have hy : y.toNat < 256 := y.toNat_lt
  have hvalue : (ofObject 16 [y, x]).toNat = y.toNat + 256 * x.toNat := by
    simp only [ofObject, leValue, BitVec.toNat_ofNat]
    omega
  have hdiv : (y.toNat + 256 * x.toNat) / 256 = x.toNat := by omega
  have hmod : (y.toNat + 256 * x.toNat) % 256 = y.toNat := by omega
  rw [hswap, hvalue, groupBytes, List.flatMap_cons, hdiv, hmod, UInt8.ofNat_toNat, UInt8.ofNat_toNat]
  rfl

theorem flatMap_pairs (bs : List UInt8) (i n : Nat) :
    (List.range' i n).flatMap (fun j => (bs.drop (2 * j)).take 2) = (bs.drop (2 * i)).take (2 * n) := by
  induction n generalizing i with
  | zero => rfl
  | succ n ih =>
    have hsize : 2 * (n + 1) = 2 + 2 * n := by omega
    have hnext : 2 * i + 2 = 2 * (i + 1) := by omega
    rw [List.range'_succ, List.flatMap_cons, ih, hsize, List.take_add, List.drop_drop, hnext]

theorem length_bytes (s : In6Addr) : s.bytes.length = 16 := by
  rw [In6Addr.bytes, List.length_map, Vector.length_toList]

theorem groupBytes_groupsFrom (s : In6Addr) : groupBytes (groupsFrom s.group 0 8) = s.bytes := by
  have hpair : ∀ i < 8, groupBytes [(byteswapOnLittleEndian (s.group i)).toNat] =
      (s.bytes.drop (2 * i)).take 2 := by
    intro i hi
    have hlength : ((s.bytes.drop (2 * i)).take 2).length = 2 := by
      rw [List.length_take, List.length_drop, length_bytes]
      omega
    obtain ⟨x, y, hxy⟩ := List.length_eq_two.mp hlength
    rw [In6Addr.group, hxy]
    exact groupBytes_swapped x y
  have hall := flatMap_pairs s.bytes 0 8
  rw [Nat.mul_zero, List.drop_zero, List.take_of_length_le (length_bytes s).le] at hall
  rw [← hall, groupBytes, groupsFrom, List.flatMap_map]
  apply List.flatMap_congr
  intro i hi
  have hlt : i < 8 := by
    have h := List.mem_range'_1.mp hi
    omega
  rw [← hpair i hlt, groupBytes, List.flatMap_singleton]

theorem insertAddress_denotes (s : In6Addr) :
    countDouble (insertAddress s) ≤ 1 ∧ (parse (insertAddress s)).map groupBytes = some s.bytes := by
  have hlength : (groupsFrom s.group 0 8).length = 8 := by
    rw [groupsFrom, List.length_map, List.length_range']
  have hsmall : ∀ g ∈ groupsFrom s.group 0 8, g < 65536 := by
    intro g hg
    obtain ⟨i, hi, rfl⟩ := List.mem_map.mp hg
    exact BitVec.isLt _
  rw [insertAddress_eq]
  refine ⟨countDouble_compress_le _, ?_⟩
  rw [parse_compress hlength hsmall, Option.map_some, groupBytes_groupsFrom]

end IPv6Address
end HCServer
