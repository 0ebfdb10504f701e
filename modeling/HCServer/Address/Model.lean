import HCServer.ByteArray.Codec

/-! `IPv4Address` and `IPv6Address` as far as their subnets go. Arithmetic on `int` wraps around; a
shift by the width or more and an index past the end of an array are undefined. -/
namespace HCServer

/-- `byteswapOnLittleEndian`, which leaves a value alone on other machines. -/
def byteswapOnLittleEndian {w : Nat} (t : BitVec w) : BitVec w :=
  if byteOrder = .little then byteswap t else t

theorem byteswapOnLittleEndian_eq {w : Nat} (t : BitVec w) :
    byteswapOnLittleEndian t = byteswap t := if_pos rfl

/-- `CreateMask<T>` for an unsigned `T` of `w` bits: the `1` is an `int`, the distance a `size_t`. -/
def createMask (w : Nat) (bits : BitVec 32) : Option (BitVec w) :=
  let distance := sizeSub w bits.toNat
  if distance < 32 then some ((1#32 <<< distance - 1#32).setWidth w) else none

/-- How an operation on addresses ends: with undefined behaviour, a null pointer or an address. -/
inductive Made (α : Type)
  | undefined
  | null
  | address (a : α)
  deriving DecidableEq, Repr

def Made.ofOption {α : Type} : Option α → Made α
  | none => .undefined
  | some a => .address a

def afInet : Nat := 2
def afInet6 : Nat := 10

/-- `sockaddr_in`, in network byte order. -/
structure SockaddrIn where
  sinFamily : Nat := afInet
  sinPort : BitVec 16 := 0
  sAddr : BitVec 32 := 0
  sinZero : BitVec 64 := 0
  deriving DecidableEq, Repr

structure IPv4Address where
  addr : SockaddrIn
  deriving DecidableEq, Repr

namespace IPv4Address

/-- The constructor from a number and a port. -/
def ofNumber (address : BitVec 32) (port : BitVec 32) : IPv4Address :=
  ⟨{ sinPort := (byteswapOnLittleEndian port).setWidth 16, sAddr := byteswapOnLittleEndian address }⟩

def broadcastAddress (a : IPv4Address) (prefix_len : BitVec 32) : Made IPv4Address :=
  if prefix_len > 32 then .null
  else
    Made.ofOption ((createMask 32 prefix_len).map fun mask =>
      ⟨{ a.addr with sAddr := a.addr.sAddr ||| byteswapOnLittleEndian mask }⟩)

def networkAddress (a : IPv4Address) (prefix_len : BitVec 32) : Made IPv4Address :=
  if prefix_len > 32 then .null
  else
    Made.ofOption ((createMask 32 prefix_len).map fun mask =>
      ⟨{ a.addr with sAddr := a.addr.sAddr &&& byteswapOnLittleEndian mask }⟩)

/-- The address itself is not looked at, nor is the prefix checked. -/
def subnetMask (prefix_len : BitVec 32) : Made IPv4Address :=
  Made.ofOption ((createMask 32 prefix_len).map fun mask =>
    ⟨{ sAddr := ~~~byteswapOnLittleEndian mask }⟩)

end IPv4Address

/-- `s6_addr`. -/
abbrev In6Addr := Vector (BitVec 8) 16

namespace In6Addr

/-- The bytes as they lie in memory. -/
def bytes (s : In6Addr) : List UInt8 := s.toList.map fun b => UInt8.ofNat b.toNat

/-- `s6_addr[i] = f(s6_addr[i])`. -/
def update (s : In6Addr) (i : Nat) (f : BitVec 8 → BitVec 8) : Option In6Addr :=
  if h : i < 16 then some (s.set i (f s[i])) else none

/-- The loops that store one value at `count` indices from `i` on. -/
def fill (value : BitVec 8) : Nat → Nat → In6Addr → Option In6Addr
  | 0, _, s => some s
  | count + 1, i, s => (s.update i fun _ => value).bind (fill value count (i + 1))

end In6Addr

structure SockaddrIn6 where
  sin6Family : Nat := afInet6
  sin6Port : BitVec 16 := 0
  sin6Flowinfo : BitVec 32 := 0
  s6Addr : In6Addr := Vector.replicate 16 0
  sin6ScopeId : BitVec 32 := 0
  deriving DecidableEq, Repr

structure IPv6Address where
  addr : SockaddrIn6
  deriving DecidableEq, Repr

namespace IPv6Address

def withBytes (a : IPv6Address) (s : In6Addr) : IPv6Address := ⟨{ a.addr with s6Addr := s }⟩

def broadcastAddress (a : IPv6Address) (prefix_len : BitVec 32) : Made IPv6Address :=
  let i := (prefix_len / 8).toNat
  Made.ofOption (do
    let mask ← createMask 8 (prefix_len % 8)
    let s ← a.addr.s6Addr.update i (· ||| mask)
    let s ← In6Addr.fill 0xff (16 - (i + 1)) (i + 1) s
    some (a.withBytes s))

def networkAddress (a : IPv6Address) (prefix_len : BitVec 32) : Made IPv6Address :=
  let i := (prefix_len / 8).toNat
  Made.ofOption (do
    let mask ← createMask 8 (prefix_len % 8)
    let s ← a.addr.s6Addr.update i (· &&& mask)
    let s ← In6Addr.fill 0x00 (16 - (i + 1)) (i + 1) s
    some (a.withBytes s))

def subnetMask (prefix_len : BitVec 32) : Made IPv6Address :=
  let i := (prefix_len / 8).toNat
  let subnet : SockaddrIn6 := {}
  Made.ofOption (do
    let mask ← createMask 8 (prefix_len % 8)
    let s ← subnet.s6Addr.update i fun _ => ~~~mask
    let s ← In6Addr.fill 0xff i 0 s
    some ⟨{ subnet with s6Addr := s }⟩)

end IPv6Address
end HCServer
