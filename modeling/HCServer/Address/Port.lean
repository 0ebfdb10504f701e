import HCServer.Address.Ipv4
import HCServer.Address.Order
import HCServer.Address.Text

/-! The ways to give an IP address its port. Some take the port as a 32-bit number, swap all four bytes
and store the low two. -/
namespace HCServer
open Lib Lib.Ipv6Text

namespace IPv4Address

def setPort (a : IPv4Address) (v : BitVec 16) : IPv4Address :=
  ⟨{ a.addr with sinPort := byteswapOnLittleEndian v }⟩

def getPort (a : IPv4Address) : BitVec 32 := (byteswapOnLittleEndian a.addr.sinPort).setWidth 32

/-- `Create`; `inet_pton` gives the four bytes that it stores. -/
def create (inet_pton : List UInt8 → Option (BitVec 32)) (address : List UInt8) (port : BitVec 32) :
    Option IPv4Address :=
  let rt := ofNumber 0 0
  let addr := { rt.addr with sinPort := (byteswapOnLittleEndian port).setWidth 16 }
  (inet_pton address).map fun sAddr => ⟨{ addr with sAddr }⟩

end IPv4Address

namespace IPv6Address

def setPort (a : IPv6Address) (v : BitVec 16) : IPv6Address :=
  ⟨{ a.addr with sin6Port := byteswapOnLittleEndian v }⟩

def getPort (a : IPv6Address) : BitVec 32 := (byteswapOnLittleEndian a.addr.sin6Port).setWidth 32

/-- The constructor from 16 bytes and a port. -/
def ofBytes (address : In6Addr) (port : BitVec 16) : IPv6Address :=
  ⟨{ sin6Port := byteswapOnLittleEndian port, s6Addr := address }⟩

def create (inet_pton : List UInt8 → Option In6Addr) (address : List UInt8) (port : BitVec 32) :
    Option IPv6Address :=
  let addr : SockaddrIn6 := { sin6Port := (byteswapOnLittleEndian port).setWidth 16 }
  (inet_pton address).map fun s6Addr => ⟨{ addr with s6Addr }⟩

end IPv6Address

/-- What `ai_addr` points to, by its `sa_family`. -/
inductive SocketAddress
  | inet (addr : SockaddrIn)
  | inet6 (addr : SockaddrIn6)
  | other (addr : Sockaddr)
  deriving DecidableEq, Repr

def Address.create : SocketAddress → Address
  | .inet addr => .ipv4 ⟨addr⟩
  | .inet6 addr => .ipv6 ⟨addr⟩
  | .other addr => .unknown ⟨addr⟩

/-- The system calls that read an address text. -/
structure Resolver where
  inetPton : List UInt8 → Option (BitVec 32)
  inetPton6 : List UInt8 → Option In6Addr
  /-- The first result of `getaddrinfo` with `AI_NUMERICHOST` and no service. -/
  getaddrinfo : List UInt8 → Option SocketAddress

inductive IPAddress
  | v4 (a : IPv4Address)
  | v6 (a : IPv6Address)
  deriving DecidableEq, Repr

namespace IPAddress

def getPort : IPAddress → BitVec 32
  | v4 a => a.getPort
  | v6 a => a.getPort

def setPort (v : BitVec 16) : IPAddress → IPAddress
  | v4 a => v4 (a.setPort v)
  | v6 a => v6 (a.setPort v)

def toString : IPAddress → List UInt8
  | v4 a => a.insert
  | v6 a => a.insert

def toAddress : IPAddress → Address
  | v4 a => .ipv4 a
  | v6 a => .ipv6 a

/-- `dynamic_pointer_cast<IPAddress>`. -/
def ofAddress : Address → Option IPAddress
  | .ipv4 a => some (v4 a)
  | .ipv6 a => some (v6 a)
  | _ => none

def create (r : Resolver) (address : List UInt8) (port : BitVec 16) : Option IPAddress :=
  (r.getaddrinfo address).bind fun ai_addr =>
    (ofAddress (Address.create ai_addr)).map (setPort port)

end IPAddress

/-- An address without a port: a number, or 16 bytes. -/
inductive Host
  | v4 (address : BitVec 32)
  | v6 (address : In6Addr)
  deriving DecidableEq, Repr

/-- `address` is a text of the host: the calls read it, and leave zero what it does not say. -/
def Resolver.Reads (r : Resolver) (address : List UInt8) : Host → Prop
  | .v4 n =>
      r.inetPton address = some (byteswapOnLittleEndian n) ∧
        r.getaddrinfo address = some (.inet { sAddr := byteswapOnLittleEndian n })
  | .v6 s => r.inetPton6 address = some s ∧ r.getaddrinfo address = some (.inet6 { s6Addr := s })

instance (r : Resolver) (address : List UInt8) (host : Host) : Decidable (r.Reads address host) :=
  match host with
  | .v4 _ => inferInstanceAs (Decidable (_ ∧ _))
  | .v6 _ => inferInstanceAs (Decidable (_ ∧ _))

/-- The ways to a host with a port; `setPort` replaces the port of an address built in any way. -/
inductive Way
  | constructed
  | created
  | ipCreated
  | setPort (way : Way) (earlier : BitVec 16)
  deriving DecidableEq, Repr

namespace Way

def build (r : Resolver) (address : List UInt8) (host : Host) : Way → BitVec 16 → Option IPAddress
  | constructed, port =>
      match host with
      | .v4 n => some (.v4 (IPv4Address.ofNumber n (port.setWidth 32)))
      | .v6 s => some (.v6 (IPv6Address.ofBytes s port))
  | created, port =>
      match host with
      | .v4 _ => (IPv4Address.create r.inetPton address (port.setWidth 32)).map .v4
      | .v6 _ => (IPv6Address.create r.inetPton6 address (port.setWidth 32)).map .v6
  | ipCreated, port => IPAddress.create r address port
  | setPort way earlier, port => (build r address host way earlier).map (IPAddress.setPort port)

/-- The port goes through a parameter of 32 bits. -/
def wide (host : Host) : Way → Bool
  | constructed =>
      match host with
      | .v4 _ => true
      | .v6 _ => false
  | created => true
  | ipCreated => false
  | setPort _ _ => false

end Way

namespace IPAddress

/-- The bytes of the port in the socket address. -/
def portBytes (a : IPAddress) : List UInt8 := (a.toAddress.bytes.drop 2).take 2

/-- The port read back, the bytes `htons` gives and the end of the text are those of `port`. -/
def Survives (a : IPAddress) (port : BitVec 16) : Prop :=
  a.getPort.toNat = port.toNat ∧
  a.portBytes = [UInt8.ofNat (port.toNat / 256), UInt8.ofNat (port.toNat % 256)] ∧
  (colon :: streamNumber 10 port.toNat) <:+ a.toString

/-- The host with the port in network byte order. -/
def standard (port : BitVec 16) : Host → IPAddress
  | .v4 n => v4 ⟨{ sinPort := byteswap port, sAddr := byteswap n }⟩
  | .v6 s => v6 ⟨{ sin6Port := byteswap port, s6Addr := s }⟩

end IPAddress

/-- Of four swapped bytes the low two are those of the number's upper half. -/
theorem byteswap_setWidth (port : BitVec 16) : (byteswap (port.setWidth 32)).setWidth 16 = 0#16 := by
  apply BitVec.eq_of_getLsbD_eq
  intro i hi
  have hupper : port.getLsbD (8 * (32 / 8 - 1 - i / 8) + i % 8) = false :=
    BitVec.getLsbD_of_ge port _ (by omega)
  rw [BitVec.getLsbD_setWidth, getLsbD_byteswap (by decide) _ (by omega), BitVec.getLsbD_setWidth,
    hupper, BitVec.getLsbD_zero, Bool.and_false, Bool.and_false]

theorem byteswap_zero : byteswap (0#16) = 0#16 := by decide

theorem narrowed_eq (port : BitVec 16) :
    (byteswap (port.setWidth 32)).setWidth 16 = byteswap (0#16) := by
  rw [byteswap_setWidth, byteswap_zero]

/-- What a way makes of the port. -/
theorem build_eq {r : Resolver} {address : List UInt8} {host : Host} (h : r.Reads address host)
    (way : Way) (port : BitVec 16) :
    way.build r address host port =
      some (IPAddress.standard (if way.wide host then 0 else port) host) := by
  induction way generalizing port with
  | constructed =>
    cases host with
    | v4 n =>
      simp only [Way.build, Way.wide, IPv4Address.ofNumber, narrowed_eq, byteswapOnLittleEndian_eq]
      rfl
    | v6 s =>
      simp only [Way.build, Way.wide, IPv6Address.ofBytes, byteswapOnLittleEndian_eq]
      rfl
  | created =>
    cases host with
    | v4 n =>
      simp only [Way.build, Way.wide, IPv4Address.create, narrowed_eq, h.1, byteswapOnLittleEndian_eq]
      rfl
    | v6 s =>
      simp only [Way.build, Way.wide, IPv6Address.create, narrowed_eq, h.1, byteswapOnLittleEndian_eq]
      rfl
  | ipCreated =>
    cases host with
    | v4 n =>
      simp only [Way.build, Way.wide, IPAddress.create, h.2, byteswapOnLittleEndian_eq]
      rfl
    | v6 s =>
      simp only [Way.build, Way.wide, IPAddress.create, h.2]
      rfl
  | setPort way earlier ih =>
    rw [Way.build, ih earlier]
    cases host with
    | v4 n => rfl
    | v6 s => rfl

theorem swapped_port (port : BitVec 16) : byteswapOnLittleEndian (byteswap port) = port := by
  rw [byteswapOnLittleEndian_eq]
  exact ByteArray.byteswap_byteswap (by decide) port

theorem getPort_standard (port : BitVec 16) (host : Host) :
    (IPAddress.standard port host).getPort = port.setWidth 32 := by
  cases host with
  | v4 n => exact congrArg (BitVec.setWidth 32) (swapped_port port)
  | v6 s => exact congrArg (BitVec.setWidth 32) (swapped_port port)

/-- `htons`. -/
theorem objectBytes_swapped (port : BitVec 16) :
    objectBytes (byteswap port) = [UInt8.ofNat (port.toNat / 256), UInt8.ofNat (port.toNat % 256)] := by
  have hmod : port.toNat / 256 % 256 = port.toNat / 256 := by omega
  rw [ByteArray.objectBytes_byteswap (by decide), objectBytes]
  simp only [leBytes, hmod]
  rfl

theorem portBytes_standard (port : BitVec 16) (host : Host) :
    (IPAddress.standard port host).portBytes = objectBytes (byteswap port) := by
  have htwo : ∀ v : BitVec 16, (objectBytes v).length = 2 := ByteArray.length_objectBytes
  have hwhole : ∀ a : IPAddress, a.toAddress.bytes = a.toAddress.image := by
    intro a
    have hlength : a.toAddress.getAddrlen = a.toAddress.image.length :=
      Address.getAddrlen_eq_image _ (by cases a <;> exact fun _ h => Address.noConfusion h)
    rw [Address.bytes_eq_take hlength.le, hlength, List.take_length]
  rw [IPAddress.portBytes, hwhole]
  cases host with
  | v4 n =>
    simp only [IPAddress.standard, IPAddress.toAddress, Address.image, SockaddrIn.image,
      List.append_assoc]
    rw [List.drop_left' (htwo _), List.take_left' (htwo _)]
  | v6 s =>
    simp only [IPAddress.standard, IPAddress.toAddress, Address.image, SockaddrIn6.image,
      List.append_assoc]
    rw [List.drop_left' (htwo _), List.take_left' (htwo _)]

theorem survives_standard (port : BitVec 16) (host : Host) :
    (IPAddress.standard port host).Survives port := by
  refine ⟨?_, ?_, ?_⟩
  · rw [getPort_standard]
    exact BitVec.toNat_setWidth_of_le (by decide)
  · rw [portBytes_standard, objectBytes_swapped]
  · cases host with
    | v4 n =>
      simp only [IPAddress.standard, IPAddress.toString, IPv4Address.insert, swapped_port]
      rw [List.append_assoc]
      exact List.suffix_append _ _
    | v6 s =>
      simp only [IPAddress.standard, IPAddress.toString, IPv6Address.insert, swapped_port]
      rw [List.append_assoc]
      exact (List.suffix_append [93] _).trans (List.suffix_append _ _)

theorem survives_standard_iff (port port' : BitVec 16) (host : Host) :
    (IPAddress.standard port host).Survives port' ↔ port = port' := by
  constructor
  · rintro ⟨hport, -, -⟩
    rw [getPort_standard, BitVec.toNat_setWidth_of_le (by decide)] at hport
    exact BitVec.eq_of_toNat_eq hport
  · rintro rfl
    exact survives_standard port host

namespace Way

/-- Both addresses keep the port, and they compare equal. -/
def Agree (r : Resolver) (address : List UInt8) (host : Host) (port : BitVec 16) (way way' : Way) :
    Prop :=
  ∃ a b, way.build r address host port = some a ∧ way'.build r address host port = some b ∧
    a.Survives port ∧ b.Survives port ∧ a.toAddress.eq b.toAddress = true

theorem kept_iff (wide : Bool) (port : BitVec 16) :
    (if wide then 0 else port) = port ↔ port = 0 ∨ wide = false := by
  cases wide with
  | false => simp
  | true =>
    rw [if_pos rfl]
    exact ⟨fun h => .inl h.symm, fun h => (h.resolve_right fun h => Bool.noConfusion h).symm⟩

theorem agree_iff {r : Resolver} {address : List UInt8} {host : Host} (h : r.Reads address host)
    (port : BitVec 16) (way way' : Way) :
    Agree r address host port way way' ↔
      port = 0 ∨ way.wide host = false ∧ way'.wide host = false := by
  rw [or_and_left, ← kept_iff, ← kept_iff]
  constructor
  · rintro ⟨a, b, ha, hb, hsurvives, hsurvives', -⟩
    rw [build_eq h] at ha hb
    obtain rfl := Option.some.inj ha
    obtain rfl := Option.some.inj hb
    exact ⟨(survives_standard_iff _ _ _).mp hsurvives, (survives_standard_iff _ _ _).mp hsurvives'⟩
  · rintro ⟨hkept, hkept'⟩
    refine ⟨_, _, build_eq h way port, build_eq h way' port, ?_⟩
    rw [hkept, hkept']
    exact ⟨survives_standard port host, survives_standard port host, (Address.eq_iff _ _).mpr rfl⟩

/-- `127.0.0.1`. -/
def loopbackText : List UInt8 := [49, 50, 55, 46, 48, 46, 48, 46, 49]

def loopback : Host := .v4 0x7f000001

def loopbackResolver : Resolver where
  inetPton address := if address = loopbackText then some 0x0100007f else none
  inetPton6 _ := none
  getaddrinfo address := if address = loopbackText then some (.inet { sAddr := 0x0100007f }) else none

theorem loopback_reads : loopbackResolver.Reads loopbackText loopback := by decide

theorem agree_loopback :
    Agree loopbackResolver loopbackText loopback 80 ipCreated (setPort constructed 8080) :=
  (agree_iff loopback_reads 80 ipCreated (setPort constructed 8080)).mpr (.inr ⟨rfl, rfl⟩)

/-- `IPv4Address(0x7f000001, 80)` has port 0. -/
theorem constructed_loses_port :
    ¬ ∀ (r : Resolver) (address : List UInt8) (host : Host), r.Reads address host →
      ∀ (port : BitVec 16) (way way' : Way), Agree r address host port way way' := by
  intro hall
  obtain ⟨a, b, ha, -, hsurvives, -⟩ :=
    hall loopbackResolver loopbackText loopback loopback_reads 80 constructed ipCreated
  rw [build_eq loopback_reads] at ha
  obtain rfl := Option.some.inj ha
  have hport := (survives_standard_iff _ _ _).mp hsurvives
  exact absurd hport (by decide)

end Way
end HCServer
