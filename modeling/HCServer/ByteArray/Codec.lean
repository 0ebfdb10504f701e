import HCServer.ByteArray.Model
import HCServer.Lib.Varint

/-! The typed operations of `ByteArray`. Signed and unsigned values of one width share their bit
pattern, and `float` and `double` are taken as the bit patterns that `memcpy` moves. -/
namespace HCServer
open Lib

/-- `HCSERVER_BYTE_ORDER` on the little-endian machines the code is built for. -/
def byteOrder : Endian := .little

/-- The memory image of a value, `sizeof(value)` bytes. -/
def objectBytes {w : Nat} (v : BitVec w) : List UInt8 := leBytes (w / 8) v.toNat

/-- The value whose memory image was read. -/
def ofObject (w : Nat) (bytes : List UInt8) : BitVec w := BitVec.ofNat w (leValue bytes)

/-- `bswap_16`, `bswap_32` and `bswap_64`, by the width of the value. -/
def byteswap {w : Nat} (v : BitVec w) : BitVec w := ofObject w (objectBytes v).reverse

namespace ByteArray
variable (mem : Nat → Nat → UInt8)

/-- The common body of `writeFint16` to `writeFuint64`. -/
def writeFixed {w : Nat} (value : BitVec w) : Op Unit := do
  let b ← get
  let value := if b.endian ≠ byteOrder then byteswap value else value
  write mem (objectBytes value)

def writeFint8 (value : BitVec 8) : Op Unit := write mem (objectBytes value)
def writeFuint8 (value : BitVec 8) : Op Unit := write mem (objectBytes value)
def writeFint16 (value : BitVec 16) : Op Unit := writeFixed mem value
def writeFuint16 (value : BitVec 16) : Op Unit := writeFixed mem value
def writeFint32 (value : BitVec 32) : Op Unit := writeFixed mem value
def writeFuint32 (value : BitVec 32) : Op Unit := writeFixed mem value
def writeFint64 (value : BitVec 64) : Op Unit := writeFixed mem value
def writeFuint64 (value : BitVec 64) : Op Unit := writeFixed mem value

/-- `EncodeZigzag32` and `EncodeZigzag64`, with wrap-around. -/
def encodeZigzag {w : Nat} (v : BitVec w) : BitVec w :=
  if v.slt 0#w then -v * 2#w - 1#w else v * 2#w

/-- The loop that fills `tmp`; `none` is an index past the end of the array. -/
def varintBytes {w : Nat} : Nat → BitVec w → Option (List UInt8)
  | 0, _ => none
  | room + 1, value =>
      if value.toNat ≥ 0x80 then
        (varintBytes room (value >>> 7)).map
          (UInt8.ofNat ((value &&& 0x7F#w) ||| 0x80#w).toNat :: ·)
      else some [UInt8.ofNat value.toNat]

/-- The common body of `writeUint32` and `writeUint64`, with `tmp` of `room` bytes. -/
def writeVarint {w : Nat} (room : Nat) (value : BitVec w) : Op Unit :=
  match varintBytes room value with
  | none => throw .fault
  | some tmp => write mem tmp

def writeUint32 (value : BitVec 32) : Op Unit := writeVarint mem 5 value
def writeUint64 (value : BitVec 64) : Op Unit := writeVarint mem 10 value
def writeInt32 (value : BitVec 32) : Op Unit := writeUint32 mem (encodeZigzag value)
def writeInt64 (value : BitVec 64) : Op Unit := writeUint64 mem (encodeZigzag value)
def writeFloat (value : BitVec 32) : Op Unit := writeFuint32 mem value
def writeDouble (value : BitVec 64) : Op Unit := writeFuint64 mem value

/-- `read(&v, sizeof(v))`. -/
def readObject (w : Nat) : Op (BitVec w) := do
  let bytes ← read (w / 8)
  pure (ofObject w bytes)

/-- The macro `XX(type)` of the fixed-width readers. -/
def readFixed (w : Nat) : Op (BitVec w) := do
  let v ← readObject w
  let b ← get
  if b.endian = byteOrder then pure v else pure (byteswap v)

def readFint8 : Op (BitVec 8) := readObject 8
def readFuint8 : Op (BitVec 8) := readObject 8
def readFint16 : Op (BitVec 16) := readFixed 16
def readFuint16 : Op (BitVec 16) := readFixed 16
def readFint32 : Op (BitVec 32) := readFixed 32
def readFuint32 : Op (BitVec 32) := readFixed 32
def readFint64 : Op (BitVec 64) := readFixed 64
def readFuint64 : Op (BitVec 64) := readFixed 64

/-- `DecodeZigzag32` and `DecodeZigzag64`. -/
def decodeZigzag {w : Nat} (v : BitVec w) : BitVec w := (v >>> 1) ^^^ -(v &&& 1#w)

/-- The loop `for(int i = 0; i < w; i += 7)` with `rounds` passes left. -/
def readVarintLoop (w : Nat) : Nat → Nat → BitVec w → Op (BitVec w)
  | 0, _, result => pure result
  | rounds + 1, i, result => do
      let b ← readFuint8
      if b.toNat < 0x80 then pure (result ||| (b.setWidth w) <<< i)
      else readVarintLoop w rounds (i + 7) (result ||| ((b &&& 0x7f#8).setWidth w) <<< i)

def readUint32 : Op (BitVec 32) := readVarintLoop 32 5 0 0
def readUint64 : Op (BitVec 64) := readVarintLoop 64 10 0 0

def readInt32 : Op (BitVec 32) := do
  let v ← readUint32
  pure (decodeZigzag v)

def readInt64 : Op (BitVec 64) := do
  let v ← readUint64
  pure (decodeZigzag v)

def readFloat : Op (BitVec 32) := readFuint32
def readDouble : Op (BitVec 64) := readFuint64

end ByteArray
end HCServer
