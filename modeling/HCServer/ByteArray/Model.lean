import HCServer.Lib.Overwrite
import Mathlib.Tactic.NormNum

/-! The block list of `ByteArray`: a linked list of equally sized nodes, a cursor into it and the
loops that carry a transfer from node to node. A pointer to a node is the node's index in the
list, the null pointer is `none`. Sizes and positions are `Nat`: they stay below `2^64`, since
they count allocated bytes. -/
namespace HCServer
open Lib

/-- The two ways a call can fail to return: the documented exception, and undefined behaviour
(a null node dereferenced, a copy past the end of a node). -/
inductive Exn
  | outOfRange (what : String)
  | fault
  deriving DecidableEq, Repr

inductive Endian
  | little
  | big
  deriving DecidableEq, Repr

structure Node where
  ptr : List UInt8
  size : Nat
  alloc : ptr.length = size

/-- `new char[s]`: the bytes are whatever the allocator left there. -/
def Node.new (mem : Nat → UInt8) (s : Nat) : Node :=
  ⟨(List.range s).map mem, s, by simp⟩

/-- `memcpy(ptr + off, src, |src|)`, undefined where it leaves the node. -/
def Node.memcpy (n : Node) (off : Nat) (src : List UInt8) : Option Node :=
  if h : off + src.length ≤ n.size then
    some ⟨overwrite n.ptr off src, n.size,
      (length_overwrite_of_fits (by rw [n.alloc]; exact h)).trans n.alloc⟩
  else none

/-- `allocs` counts the nodes allocated so far; it only names the memory the next one gets. -/
structure ByteArray where
  baseSize : Nat
  position : Nat
  capacity : Nat
  size : Nat
  endian : Endian
  root : List Node
  cur : Option Nat
  allocs : Nat

abbrev Op := EStateM Exn ByteArray

/-- The pointer to node `i`, null past the end of the list. -/
def nodeAt (root : List Node) (i : Nat) : Option Nat :=
  if i < root.length then some i else none

/-- The nodes from a pointer on: what is reached from it through `next`. -/
def nodesFrom (root : List Node) : Option Nat → List Node
  | none => []
  | some i => root.drop i

/-- `size_t` subtraction of two values below `2^64`. -/
def sizeSub (a b : Nat) : Nat := if b ≤ a then a - b else 2 ^ 64 - (b - a)

@[simp] theorem sizeSub_of_le {a b : Nat} (h : b ≤ a) : sizeSub a b = a - b := if_pos h

namespace ByteArray

def new (mem : Nat → Nat → UInt8) (base_size : Nat) : ByteArray where
  baseSize := base_size
  position := 0
  capacity := base_size
  size := 0
  endian := .big
  root := [Node.new (mem 0) base_size]
  cur := some 0
  allocs := 1

def getPosition (b : ByteArray) : Nat := b.position
def getSize (b : ByteArray) : Nat := b.size
def getBaseSize (b : ByteArray) : Nat := b.baseSize
def getReadSize (b : ByteArray) : Nat := sizeSub b.size b.position
def getCapacity (b : ByteArray) : Nat := sizeSub b.capacity b.position
def isLittleEndian (b : ByteArray) : Bool := b.endian = .little

def setIsLittleEndian (val : Bool) (b : ByteArray) : ByteArray :=
  { b with endian := if val then .little else .big }

/-- The allocation loop of `addCapacity`. -/
def appendNodes (mem : Nat → Nat → UInt8) : Nat → ByteArray → ByteArray
  | 0, b => b
  | count + 1, b => appendNodes mem count
      { b with
        root := b.root ++ [Node.new (mem b.allocs) b.baseSize]
        capacity := b.capacity + b.baseSize
        allocs := b.allocs + 1 }

/-- `ceil(1.0 * size / m_baseSize)` is the exact ceiling. -/
def addCapacity (mem : Nat → Nat → UInt8) (size : Nat) (b : ByteArray) : ByteArray :=
  if size = 0 then b
  else
    let old_cap := b.getCapacity
    if old_cap ≥ size then b
    else
      let count := (size - old_cap + b.baseSize - 1) / b.baseSize
      let b' := appendNodes mem count b
      let first := if count = 0 then none else some b.root.length
      if old_cap = 0 then { b' with cur := first } else b'

/-- The copy loop of `write` over the nodes from `m_cur` on: the rewritten nodes and the number
of `next` steps `m_cur` has taken. -/
def writeLoop : List Node → Nat → List UInt8 → Option (List Node × Nat)
  | [], _, _ => none
  | n :: next, npos, buf =>
      let ncap := n.size - npos
      if ncap ≥ buf.length then do
        let n' ← n.memcpy npos buf
        some (n' :: next, if n.size = npos + buf.length then 1 else 0)
      else do
        let n' ← n.memcpy npos (buf.take ncap)
        let (rest, k) ← writeLoop next 0 (buf.drop ncap)
        some (n' :: rest, k + 1)

/-- The copy loop of `read`: the bytes copied out and the number of `next` steps. -/
def readLoop : List Node → Nat → Nat → Option (List UInt8 × Nat)
  | [], _, _ => none
  | n :: next, npos, size =>
      let ncap := n.size - npos
      if size = 0 then some ([], 0)
      else if ncap ≥ size then
        some ((n.ptr.drop npos).take size, if n.size = npos + size then 1 else 0)
      else do
        let (rest, k) ← readLoop next 0 (size - ncap)
        some ((n.ptr.drop npos).take ncap ++ rest, k + 1)

/-- The node walk of `setPosition`, from `m_root`: the index `m_cur` ends on. -/
def seekLoop : List Node → Nat → Option Nat
  | [], _ => none
  | n :: next, v =>
      if v > n.size then (seekLoop next (v - n.size)).map (· + 1)
      else if v = n.size then some 1
      else some 0

/-- `m_cur` after `k` steps along `next`. -/
def advance (b : ByteArray) (k : Nat) : Option Nat :=
  b.cur.bind fun i => nodeAt b.root (i + k)

/-- The list with the nodes from `m_cur` on replaced by their rewritten versions. -/
def storeFrom (b : ByteArray) (nodes : List Node) : List Node :=
  match b.cur with
  | none => b.root
  | some i => b.root.take i ++ nodes

def clear : Op Unit := fun b =>
  match b.root with
  | [] => .error .fault b
  | first :: _ => .ok () { b with
      position := 0, size := 0, capacity := b.baseSize, root := [first], cur := some 0 }

def write (mem : Nat → Nat → UInt8) (buf : List UInt8) : Op Unit := fun b =>
  if buf.length = 0 then .ok () b
  else
    let b := b.addCapacity mem buf.length
    match writeLoop (nodesFrom b.root b.cur) (b.position % b.baseSize) buf with
    | none => .error .fault b
    | some (nodes, k) =>
        let position := b.position + buf.length
        .ok () { b with
          root := b.storeFrom nodes
          cur := b.advance k
          position := position
          size := if position > b.size then position else b.size }

def read (size : Nat) : Op (List UInt8) := fun b =>
  if size > b.getReadSize then .error (.outOfRange "not enough len") b
  else
    match readLoop (nodesFrom b.root b.cur) (b.position % b.baseSize) size with
    | none => .error .fault b
    | some (bytes, k) => .ok bytes { b with cur := b.advance k, position := b.position + size }

/-- The positional overload. It starts at `m_cur`, whatever `position` says. -/
def readAt (b : ByteArray) (size position : Nat) : Except Exn (List UInt8) :=
  if size > sizeSub b.size position then .error (.outOfRange "not enough len")
  else
    match readLoop (nodesFrom b.root b.cur) (position % b.baseSize) size with
    | none => .error .fault
    | some (bytes, _) => .ok bytes

def setPosition (v : Nat) : Op Unit := fun b =>
  if v > b.capacity then .error (.outOfRange "set_position out of range") b
  else
    let b := { b with position := v, size := if v > b.size then v else b.size }
    match seekLoop b.root v with
    | none => .error .fault b
    | some k => .ok () { b with cur := nodeAt b.root k }

/-- `toString` of an empty range returns before it touches a node. -/
def toString (b : ByteArray) : Except Exn (List UInt8) :=
  if b.getReadSize = 0 then .ok [] else b.readAt b.getReadSize b.position

/-- The loop `while(!ifs.eof())`: a read that comes up short sets `eof`. -/
def readFileLoop (mem : Nat → Nat → UInt8) : Nat → List UInt8 → Op Unit
  | 0, _ => throw .fault
  | rounds + 1, content => do
      let b ← get
      write mem (content.take b.baseSize)
      if content.length < b.baseSize then pure ()
      else readFileLoop mem rounds (content.drop b.baseSize)

/-- `none` is a file that cannot be opened. -/
def readFromFile (mem : Nat → Nat → UInt8) : Option (List UInt8) → Op Bool
  | none => pure false
  | some content => do
      readFileLoop mem (content.length + 1) content
      pure true

/-- An `iovec` into a node: the node's index, the offset of `iov_base` and `iov_len`. -/
structure Iovec where
  node : Nat
  base : Nat
  len : Nat
  deriving DecidableEq, Repr

/-- The gathering loop of `getWriteBuffers` and `getReadBuffers`, from node `i` on. -/
def iovecLoop : List Node → Nat → Nat → Nat → Option (List Iovec)
  | [], _, _, _ => none
  | n :: next, i, npos, len =>
      let ncap := n.size - npos
      if len = 0 then some []
      else if ncap ≥ len then some [⟨i, npos, len⟩]
      else (iovecLoop next (i + 1) 0 (len - ncap)).map (⟨i, npos, ncap⟩ :: ·)

def getWriteBuffers (mem : Nat → Nat → UInt8) (len : Nat) : Op (Nat × List Iovec) := fun b =>
  if len = 0 then .ok (0, []) b
  else
    let b := b.addCapacity mem len
    match iovecLoop (nodesFrom b.root b.cur) (b.cur.getD 0) (b.position % b.baseSize) len with
    | none => .error .fault b
    | some buffers => .ok (len, buffers) b

end ByteArray
end HCServer
