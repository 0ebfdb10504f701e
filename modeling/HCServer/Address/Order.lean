import HCServer.Address.Model
import HCServer.ByteArray.RoundTrip
import HCServer.Lib.Lexicographic

/-! The addresses of all families and their comparisons. An address is the bytes at `getAddr()`,
`getAddrlen()` of them. -/
namespace HCServer
open Lib

/-- `memcmp`: the difference of the first two bytes that differ, as unsigned values. -/
def memcmp (p q : Nat → UInt8) : Nat → Int
  | 0 => 0
  | n + 1 =>
      if p 0 = q 0 then memcmp (fun i => p (i + 1)) (fun i => q (i + 1)) n
      else (p 0).toNat - (q 0).toNat

def SockaddrIn.image (s : SockaddrIn) : List UInt8 :=
  objectBytes (BitVec.ofNat 16 s.sinFamily) ++ objectBytes s.sinPort ++ objectBytes s.sAddr ++
    objectBytes s.sinZero

def SockaddrIn6.image (s : SockaddrIn6) : List UInt8 :=
  objectBytes (BitVec.ofNat 16 s.sin6Family) ++ objectBytes s.sin6Port ++
    objectBytes s.sin6Flowinfo ++ s.s6Addr.bytes ++
    objectBytes s.sin6ScopeId

def afUnix : Nat := 1

/-- `sizeof(sockaddr_un::sun_path)`. -/
def sunPathSize : Nat := 108

structure SockaddrUn where
  sunFamily : BitVec 16 := BitVec.ofNat 16 afUnix
  sunPath : Vector UInt8 sunPathSize := Vector.replicate sunPathSize 0
  deriving DecidableEq, Repr

def SockaddrUn.image (s : SockaddrUn) : List UInt8 := objectBytes s.sunFamily ++ s.sunPath.toList

/-- `offsetof(sockaddr_un, sun_path)`. -/
def sunPathOffset : Nat := 2

/-- A length set past `m_addr` takes in what lies behind it. -/
structure UnixAddress where
  addr : SockaddrUn := {}
  length : BitVec 32
  behind : Nat → UInt8

namespace UnixAddress

/-- `MAX_PATH_LEN`. -/
def maxPathLen : Nat := sunPathSize - 1

def new (behind : Nat → UInt8) : UnixAddress :=
  { length := BitVec.ofNat 32 (sunPathOffset + maxPathLen), behind }

/-- What the constructor from a path first sets `m_length` to. -/
def pathLength (path : List UInt8) : BitVec 32 :=
  let m_length := BitVec.ofNat 32 (path.length + 1)
  if path ≠ [] ∧ path.head? = some 0 then m_length - 1#32 else m_length

/-- The constructor from a path. -/
def ofPath (behind : Nat → UInt8) (path : List UInt8) : Except String UnixAddress :=
  let m_length := pathLength path
  if m_length.toNat > sunPathSize then .error "path too long"
  else
    -- `path.c_str()` ends with a zero
    let sun_path := Vector.ofFn fun i : Fin sunPathSize => ((path ++ [0]).take m_length.toNat).getD i 0
    .ok { addr := { sunPath := sun_path },
          length := m_length + BitVec.ofNat 32 sunPathOffset, behind }

def setAddrlen (a : UnixAddress) (len : BitVec 32) : UnixAddress := { a with length := len }

end UnixAddress

/-- `sockaddr`. -/
structure Sockaddr where
  saFamily : BitVec 16
  saData : Vector UInt8 14 := Vector.replicate 14 0
  deriving DecidableEq, Repr

def Sockaddr.image (s : Sockaddr) : List UInt8 := objectBytes s.saFamily ++ s.saData.toList

structure UnknownAddress where
  addr : Sockaddr
  deriving DecidableEq, Repr

inductive Address
  | ipv4 (a : IPv4Address)
  | ipv6 (a : IPv6Address)
  | unix (a : UnixAddress)
  | unknown (a : UnknownAddress)

namespace Address

/-- `getAddr()->sa_family`. -/
def getFamily : Address → BitVec 16
  | ipv4 a => BitVec.ofNat 16 a.addr.sinFamily
  | ipv6 a => BitVec.ofNat 16 a.addr.sin6Family
  | unix a => a.addr.sunFamily
  | unknown a => a.addr.saFamily

/-- The object `m_addr`. -/
def image : Address → List UInt8
  | ipv4 a => a.addr.image
  | ipv6 a => a.addr.image
  | unix a => a.addr.image
  | unknown a => a.addr.image

/-- What a read behind `m_addr` gives; only a Unix address can have a length that takes it there. -/
def behind : Address → Nat → UInt8
  | unix a => a.behind
  | _ => fun _ => 0

/-- The memory from `getAddr()` on. -/
def getAddr (a : Address) (i : Nat) : UInt8 :=
  a.image.getD i (a.behind (i - a.image.length))

/-- `sizeof(m_addr)`, but for Unix addresses. -/
def getAddrlen : Address → Nat
  | ipv4 _ => 16
  | ipv6 _ => 28
  | unix a => a.length.toNat
  | unknown _ => 16

/-- `operator<`. -/
def lt (a b : Address) : Bool :=
  let minlen := min a.getAddrlen b.getAddrlen
  let result := memcmp a.getAddr b.getAddr minlen
  if result < 0 then true
  else if result > 0 then false
  else if a.getAddrlen < b.getAddrlen then true
  else false

/-- `operator==`. -/
def eq (a b : Address) : Bool :=
  a.getAddrlen = b.getAddrlen && memcmp a.getAddr b.getAddr a.getAddrlen = 0

/-- `operator!=`. -/
def ne (a b : Address) : Bool := !a.eq b

/-- The first `getAddrlen()` bytes. -/
def bytes (a : Address) : List UInt8 := window a.getAddr a.getAddrlen

/-- The bytes as the unsigned values that `memcmp` compares. -/
def key (a : Address) : List Nat := a.bytes.map UInt8.toNat

end Address

theorem Address.bytes_eq_take {a : Address} (h : a.getAddrlen ≤ a.image.length) :
    a.bytes = a.image.take a.getAddrlen := window_getD a.image _ h

theorem SockaddrUn.length_image (s : SockaddrUn) : s.image.length = 110 := by
  rw [image, List.length_append, ByteArray.length_objectBytes, Vector.length_toList]
  rfl

theorem Address.getAddrlen_eq_image (a : Address) (h : ∀ u, a ≠ unix u) :
    a.getAddrlen = a.image.length := by
  cases a with
  | ipv4 a => simp [getAddrlen, image, SockaddrIn.image, ByteArray.length_objectBytes]
  | ipv6 a => simp [getAddrlen, image, SockaddrIn6.image, ByteArray.length_objectBytes, In6Addr.bytes]
  | unix a => exact absurd rfl (h a)
  | unknown a => simp [getAddrlen, image, Sockaddr.image, ByteArray.length_objectBytes]

/-- The text of a path: with a zero behind it unless it names an abstract socket. -/
def UnixAddress.pathText (path : List UInt8) : List UInt8 :=
  if path.head? = some 0 then path else path ++ [0]

theorem UnixAddress.take_pathText (path : List UInt8) :
    (path ++ [0]).take (pathText path).length = pathText path := by
  rw [pathText]
  split
  · exact List.take_left
  · exact List.take_length

theorem UnixAddress.toNat_pathLength {path : List UInt8} (hfit : path.length + 1 < 2 ^ 32) :
    (pathLength path).toNat = (pathText path).length := by
  have hwhole : (BitVec.ofNat 32 (path.length + 1)).toNat = path.length + 1 :=
    (BitVec.toNat_ofNat _ _).trans (Nat.mod_eq_of_lt hfit)
  rw [pathLength, pathText]
  by_cases hzero : path.head? = some 0
  · have hne : path ≠ [] := by
      rintro rfl
      cases hzero
    rw [if_pos ⟨hne, hzero⟩, if_pos hzero]
    bv_omega
  · rw [if_neg fun h => hzero h.2, if_neg hzero, List.length_append, List.length_singleton]
    exact hwhole

theorem take_toList_ofFn_getD (l : List UInt8) {n : Nat} (h : l.length ≤ n) :
    (Vector.ofFn fun i : Fin n => l.getD i 0).toList.take l.length = l := by
  apply List.ext_getElem
  · rw [List.length_take, Vector.length_toList, Nat.min_eq_left h]
  · intro i hi hi'
    rw [List.getElem_take, Vector.getElem_toList, Vector.getElem_ofFn, List.getD_eq_getElem?_getD,
      List.getElem?_eq_getElem hi', Option.getD_some]

theorem UnixAddress.bytes_ofPath {behind : Nat → UInt8} {path : List UInt8} {a : UnixAddress}
    (hfit : path.length + 1 < 2 ^ 32) (h : ofPath behind path = .ok a) :
    (Address.unix a).bytes = objectBytes (BitVec.ofNat 16 afUnix) ++ pathText path := by
  have hlength := toNat_pathLength hfit
  unfold ofPath at h
  dsimp only at h
  split at h
  · cases h
  next hle =>
    obtain rfl := Except.ok.inj h
    have hshort : (pathText path).length ≤ sunPathSize := by omega
    have hroom : (pathLength path + BitVec.ofNat 32 sunPathOffset).toNat
        = 2 + (pathText path).length := by
      simp only [sunPathSize, sunPathOffset] at *
      bv_omega
    have hinside : 2 + (pathText path).length ≤ 110 := by
      simp only [sunPathSize] at hshort
      omega
    rw [Address.bytes_eq_take (by
      rw [Address.getAddrlen, hroom, Address.image, SockaddrUn.length_image]
      exact hinside)]
    simp only [Address.getAddrlen, hroom, Address.image, SockaddrUn.image]
    have hhead : (objectBytes (BitVec.ofNat 16 afUnix)).length = 2 := ByteArray.length_objectBytes _
    rw [← hhead, List.take_length_add_append, hlength, take_pathText,
      take_toList_ofFn_getD (pathText path) hshort]

theorem compare_memcmp (p q : Nat → UInt8) (n : Nat) :
    compare (memcmp p q n) 0 = compareFirst (fun i => (p i).toNat) (fun i => (q i).toNat) n := by
  induction n generalizing p q with
  | zero => rfl
  | succ n ih =>
    rw [memcmp, compareFirst]
    split
    next heq =>
      have hhead : compare (p 0).toNat (q 0).toNat = .eq := compare_eq_iff_eq.mpr (by rw [heq])
      rw [ih, hhead]
      rfl
    next hne =>
      have hne' : (p 0).toNat ≠ (q 0).toNat := fun h => hne (UInt8.toNat_inj.mp h)
      rcases Nat.lt_or_gt_of_ne hne' with hlt | hgt
      · have hhead : compare (p 0).toNat (q 0).toNat = .lt := compare_lt_iff_lt.mpr hlt
        rw [hhead]
        exact compare_lt_iff_lt.mpr (by omega)
      · have hhead : compare (p 0).toNat (q 0).toNat = .gt := compare_gt_iff_gt.mpr hgt
        rw [hhead]
        exact compare_gt_iff_gt.mpr (by omega)

namespace Address

theorem key_eq_window (a : Address) : a.key = window (fun i => (a.getAddr i).toNat) a.getAddrlen :=
  map_window _ _ _

theorem key_eq_key_iff (a b : Address) : a.key = b.key ↔ a.bytes = b.bytes :=
  (List.map_injective_iff.mpr fun _ _ h => UInt8.toNat_inj.mp h).eq_iff

/-- The order of addresses is the lexicographic order of their bytes. -/
theorem lt_iff (a b : Address) : a.lt b = true ↔ a.key < b.key := by
  have hsign := compare_memcmp a.getAddr b.getAddr (min a.getAddrlen b.getAddrlen)
  rw [key_eq_window, key_eq_window, window_lt_iff, ← hsign, compare_lt_iff_lt, compare_eq_iff_eq, lt]
  split
  next hneg => simp [hneg]
  next hneg =>
    split
    next hpos =>
      have hne : memcmp a.getAddr b.getAddr (min a.getAddrlen b.getAddrlen) ≠ 0 := by omega
      simp [hneg, hne]
    next hpos =>
      have hzero : memcmp a.getAddr b.getAddr (min a.getAddrlen b.getAddrlen) = 0 := by omega
      simp [hzero]

theorem eq_iff (a b : Address) : a.eq b = true ↔ a.key = b.key := by
  have hsign := compare_memcmp a.getAddr b.getAddr a.getAddrlen
  rw [key_eq_window, key_eq_window, eq, Bool.and_eq_true, decide_eq_true_iff, decide_eq_true_iff,
    ← compare_eq_iff_eq (b := 0), hsign, ← window_eq_iff]
  constructor
  · rintro ⟨hlength, hwindow⟩
    rw [hwindow, hlength]
  · intro h
    have hlength : a.getAddrlen = b.getAddrlen := by
      simpa only [length_window] using congrArg List.length h
    exact ⟨hlength, by rw [h, hlength]⟩

/-- Exactly one of `a < b`, `b < a` and `a == b`. -/
def ExactlyOne (a b : Address) : Prop :=
  a.lt b = true ∧ b.lt a = false ∧ a.eq b = false ∨
  a.lt b = false ∧ b.lt a = true ∧ a.eq b = false ∨
  a.lt b = false ∧ b.lt a = false ∧ a.eq b = true

/-- No comparison with a third address tells `a` from `b`. -/
def Interchangeable (a b : Address) : Prop :=
  ∀ c : Address, a.lt c = b.lt c ∧ c.lt a = c.lt b ∧ a.eq c = b.eq c ∧ c.eq a = c.eq b ∧
    a.ne c = b.ne c ∧ c.ne a = c.ne b

theorem lt_eq_decide (a b : Address) : a.lt b = decide (a.key < b.key) :=
  Bool.eq_iff_iff.mpr ((lt_iff a b).trans decide_eq_true_iff.symm)

theorem eq_eq_decide (a b : Address) : a.eq b = decide (a.key = b.key) :=
  Bool.eq_iff_iff.mpr ((eq_iff a b).trans decide_eq_true_iff.symm)

theorem exactlyOne (a b : Address) : ExactlyOne a b := by
  simp only [ExactlyOne, lt_eq_decide, eq_eq_decide, decide_eq_true_iff, decide_eq_false_iff_not]
  rcases lt_trichotomy a.key b.key with hlt | heq | hgt
  · exact .inl ⟨hlt, hlt.asymm, hlt.ne⟩
  · exact .inr (.inr ⟨heq.not_lt, heq.not_gt, heq⟩)
  · exact .inr (.inl ⟨hgt.asymm, hgt, hgt.ne'⟩)

theorem interchangeable_of_eq {a b : Address} (h : a.eq b = true) : Interchangeable a b := by
  have hkey : a.key = b.key := (eq_iff a b).mp h
  intro c
  simp only [ne, lt_eq_decide, eq_eq_decide, hkey, and_self]

theorem operators_totalOrder :
    (∀ a b : Address, (a.lt b = true ↔ a.key < b.key) ∧ (a.eq b = true ↔ a.bytes = b.bytes)) ∧
    (∀ a : Address, a.lt a = false) ∧
    (∀ a b c : Address, a.lt b = true → b.lt c = true → a.lt c = true) ∧
    (∀ a b : Address, ExactlyOne a b ∧ a.ne b = !a.eq b) ∧
    ∀ a b : Address, a.eq b = true → Interchangeable a b := by
  refine ⟨fun a b => ⟨lt_iff a b, (eq_iff a b).trans (key_eq_key_iff a b)⟩, ?_, ?_, ?_, ?_⟩
  · intro a
    rw [lt_eq_decide, decide_eq_false_iff_not]
    exact lt_irrefl _
  · intro a b c hab hbc
    rw [lt_iff] at hab hbc ⊢
    exact hab.trans hbc
  · exact fun a b => ⟨exactlyOne a b, rfl⟩
  · exact fun a b h => interchangeable_of_eq h

end Address
end HCServer
