import HCServer.ByteArray.Strings
import HCServer.ByteArray.Varint

/-! What a typed read needs to find at the cursor, and what it leaves when it does not. A reader is
made of calls of `read`, and only the single call is all or nothing. -/
namespace HCServer
open Lib

namespace ByteArray

/-- What a reader takes first: so many bytes in one call, or groups until one ends the number. -/
inductive Field
  | fixed (n : Nat)
  | varint (rounds : Nat)
  deriving DecidableEq, Repr

namespace Field

/-- The bytes of the field at the start of the data; `none` where they end before. -/
def take : Field → List UInt8 → Option (List UInt8)
  | .fixed n, l => if n ≤ l.length then some (l.take n) else none
  | .varint rounds, l => varintField rounds l

/-- The number of bytes that the first call of `read` asks for. -/
def first : Field → Nat
  | .fixed n => n
  | .varint _ => 1

end Field

/-- A stored fixed-width value. -/
def fixedValue (w : Nat) (e : Endian) (bs : List UInt8) : BitVec w :=
  ofObject w (if e = byteOrder then bs else bs.reverse)

def varintValue (w : Nat) (_ : Endian) (bs : List UInt8) : BitVec w := BitVec.ofNat w (lebValue bs)

/-- The operation takes the field off the cursor and returns its value. Where the data end before,
it throws, and it has moved the cursor unless the data end before what its first call asks for. -/
structure Follows {α : Type} (F : Field) (val : Endian → List UInt8 → α) (op : Op α) : Prop where
  takes : ∀ b bs, Rep b → F.take (b.content.drop b.position) = some bs →
    ∃ b', op b = .ok (val b.endian bs) b' ∧ Rep b' ∧ b'.content = b.content ∧
      b'.position = b.position + bs.length
  fails : ∀ b, Rep b → F.take (b.content.drop b.position) = none →
    ∃ b', op b = .error (.outOfRange "not enough len") b' ∧
      (b.size - b.position < F.first → b' = b) ∧
      (b'.position = b.position → b.size - b.position < F.first)

theorem bind_error {α β : Type} {x : Op α} {f : α → Op β} {b b' : ByteArray} {e : Exn}
    (h : x b = .error e b') : (x >>= f) b = .error e b' := by
  change EStateM.bind x f b = _
  rw [EStateM.bind, h]

theorem Follows.map {α β : Type} {F : Field} {val : Endian → List UInt8 → α} {op : Op α}
    (h : Follows F val op) (f : α → β) :
    Follows F (fun e bs => f (val e bs)) (op >>= fun x => pure (f x)) where
  takes b bs hb hfield := by
    obtain ⟨b', hop, hrest⟩ := h.takes b bs hb hfield
    exact ⟨b', bind_ok hop, hrest⟩
  fails b hb hfield := by
    obtain ⟨b', hop, hsame⟩ := h.fails b hb hfield
    exact ⟨b', bind_error hop, hsame⟩

theorem Rep.length_drop {b : ByteArray} (h : Rep b) :
    (b.content.drop b.position).length = b.size - b.position := by
  rw [List.length_drop, h.length_content]

theorem Field.fixed_take {n : Nat} {l bs : List UInt8} (h : (Field.fixed n).take l = some bs) :
    bs.length = n ∧ ∃ rest, l = bs ++ rest := by
  obtain ⟨hle, heq⟩ := Option.ite_none_right_eq_some.mp h
  cases heq
  exact ⟨List.length_take_of_le hle, l.drop n, (List.take_append_drop n l).symm⟩

theorem fixedValue_image {w : Nat} (hw : 8 ∣ w) (e : Endian) {bs : List UInt8}
    (hlen : bs.length = w / 8) : fixedImage e (fixedValue w e bs) = bs := by
  rw [fixedImage, fixedValue]
  by_cases he : e = byteOrder
  · rw [if_pos he, if_pos he, objectBytes_ofObject hw hlen]
  · rw [if_neg he, if_neg he, objectBytes_byteswap hw,
      objectBytes_ofObject hw ((List.length_reverse).trans hlen), List.reverse_reverse]

theorem follows_fixed {w : Nat} {op : Op (BitVec w)} {val : Endian → List UInt8 → BitVec w}
    (hparse : ∀ e bs, bs.length = w / 8 → Parses e op bs (val e bs))
    (hthrow : ∀ b b' e, read (w / 8) b = .error e b' → op b = .error e b') :
    Follows (.fixed (w / 8)) val op where
  takes b bs hb hfield := by
    obtain ⟨hlen, hrest⟩ := Field.fixed_take hfield
    obtain ⟨b', hop, hb', hcontent, hposition, _⟩ := hparse b.endian bs hlen b hb rfl hrest
    exact ⟨b', hop, hb', hcontent, hposition⟩
  fails b hb hfield := by
    have hshort : b.size - b.position < w / 8 := by
      rw [← hb.length_drop]
      by_contra hle
      rw [Field.take, if_pos (Nat.not_lt.mp hle)] at hfield
      cases hfield
    exact ⟨b, hthrow _ _ _ (read_throws hb hshort), fun _ => rfl, fun _ => hshort⟩

theorem follows_readObject {w : Nat} (hw : 8 ∣ w) (h0 : 0 < w) :
    Follows (.fixed (w / 8)) (fun _ => ofObject w) (readObject w) := by
  refine follows_fixed ?_ fun _ _ _ hread => bind_error hread
  intro e bs hlen
  have hparse := parses_readObject hw h0 e (ofObject w bs)
  rwa [objectBytes_ofObject hw hlen] at hparse

theorem follows_readFixed {w : Nat} (hw : 8 ∣ w) (h0 : 0 < w) :
    Follows (.fixed (w / 8)) (fixedValue w) (readFixed w) := by
  refine follows_fixed ?_ fun _ _ _ hread => bind_error (bind_error hread)
  intro e bs hlen
  have hparse := parses_readFixed hw h0 e (fixedValue w e bs)
  rwa [fixedValue_image hw e hlen] at hparse

/-- Where the data end within a number, its groups are taken all the same. -/
theorem readVarintLoop_throws {w rounds i : Nat} {result : BitVec w} {b : ByteArray} (h : Rep b)
    (hfield : varintField rounds (b.content.drop b.position) = none) :
    ∃ b', readVarintLoop w rounds i result b = .error (.outOfRange "not enough len") b' ∧
      b'.position = b.size ∧ (b.position = b.size → b' = b) := by
  induction rounds generalizing i result b with
  | zero => cases hfield
  | succ rounds ih =>
      have hlen := h.length_drop
      have hle := h.position_le
      cases hdata : b.content.drop b.position with
      | nil =>
          rw [hdata, List.length_nil] at hlen
          have hthrow : read 1 b = .error (.outOfRange "not enough len") b :=
            read_throws h (by omega)
          exact ⟨b, bind_error (bind_error hthrow), by omega, fun _ => rfl⟩
      | cons c cs =>
          rw [hdata] at hfield hlen
          rw [varintField] at hfield
          have hc : ¬ c.toNat < 128 := by
            intro hc
            rw [if_pos hc] at hfield
            cases hfield
          rw [if_neg hc, Option.map_eq_none_iff] at hfield
          obtain ⟨b1, hread, h1, hcontent, hposition, _⟩ :=
            parses_readFuint8 b.endian c b h rfl ⟨cs, hdata⟩
          have hsize : b1.size = b.size := by
            rw [← h1.length_content, hcontent, h.length_content]
          have hrest : b1.content.drop b1.position = cs := by
            rw [hcontent, hposition, ← List.drop_drop, hdata]
            rfl
          rw [← hrest] at hfield
          obtain ⟨b', hloop, hend, _⟩ :=
            @ih (i + 7) (result ||| ((c.toBitVec &&& 0x7f#8).setWidth w) <<< i) b1 h1 hfield
          rw [List.length_cons] at hlen
          refine ⟨b', ?_, hend.trans hsize, fun hempty => absurd hempty (by omega)⟩
          rw [readVarintLoop, bind_ok hread, UInt8.toNat_toBitVec, if_neg hc]
          exact hloop

theorem follows_readVarintLoop {w : Nat} (hw : 8 ≤ w) (rounds : Nat) :
    Follows (.varint rounds) (varintValue w) (readVarintLoop w rounds 0 0) where
  takes b bs hb hfield := by
    obtain ⟨hwhole, hrest⟩ := varintField_spec hfield
    have hparse := parses_varintField hw b.endian 0 (0 : BitVec w) hwhole (by simp)
    obtain ⟨b', hread, hb', hcontent, hposition, _⟩ := hparse b hb rfl hrest
    refine ⟨b', ?_, hb', hcontent, hposition⟩
    rw [hread, varintValue]
    simp
  fails b hb hfield := by
    obtain ⟨b', hloop, hend, hsame⟩ := readVarintLoop_throws hb hfield
    have hle := hb.position_le
    refine ⟨b', hloop, ?_, ?_⟩
    · intro hshort
      have hempty : b.size - b.position < 1 := hshort
      exact hsame (by omega)
    · intro hposition
      change _ < 1
      omega

/-! ### The typed readers -/

def Kind.field : Kind → Field
  | .fint8 | .fuint8 => .fixed 1
  | .fint16 | .fuint16 => .fixed 2
  | .fint32 | .fuint32 | .float => .fixed 4
  | .fint64 | .fuint64 | .double => .fixed 8
  | .int32 | .uint32 => .varint 5
  | .int64 | .uint64 => .varint 10

theorem follows_readBits (k : Kind) : ∃ val, Follows k.field val (readBits k) := by
  cases k with
  | fint8 => exact ⟨_, follows_readObject (w := 8) (by decide) (by decide)⟩
  | fuint8 => exact ⟨_, follows_readObject (w := 8) (by decide) (by decide)⟩
  | fint16 => exact ⟨_, follows_readFixed (w := 16) (by decide) (by decide)⟩
  | fuint16 => exact ⟨_, follows_readFixed (w := 16) (by decide) (by decide)⟩
  | fint32 => exact ⟨_, follows_readFixed (w := 32) (by decide) (by decide)⟩
  | fuint32 => exact ⟨_, follows_readFixed (w := 32) (by decide) (by decide)⟩
  | fint64 => exact ⟨_, follows_readFixed (w := 64) (by decide) (by decide)⟩
  | fuint64 => exact ⟨_, follows_readFixed (w := 64) (by decide) (by decide)⟩
  | int32 => exact ⟨_, (follows_readVarintLoop (w := 32) (by decide) 5).map decodeZigzag⟩
  | uint32 => exact ⟨_, follows_readVarintLoop (w := 32) (by decide) 5⟩
  | int64 => exact ⟨_, (follows_readVarintLoop (w := 64) (by decide) 10).map decodeZigzag⟩
  | uint64 => exact ⟨_, follows_readVarintLoop (w := 64) (by decide) 10⟩
  | float => exact ⟨_, follows_readFixed (w := 32) (by decide) (by decide)⟩
  | double => exact ⟨_, follows_readFixed (w := 64) (by decide) (by decide)⟩

namespace StringFormat

def field : StringFormat → Field
  | .F16 => .fixed 2
  | .F32 => .fixed 4
  | .F64 => .fixed 8
  | .Vint => .varint 10

/-- The length that a field denotes. -/
def length : (f : StringFormat) → Endian → List UInt8 → BitVec f.width
  | .F16 => fixedValue 16
  | .F32 => fixedValue 32
  | .F64 => fixedValue 64
  | .Vint => varintValue 64

theorem follows_readLength (f : StringFormat) : Follows f.field f.length f.readLength := by
  cases f with
  | F16 => exact follows_readFixed (w := 16) (by decide) (by decide)
  | F32 => exact follows_readFixed (w := 32) (by decide) (by decide)
  | F64 => exact follows_readFixed (w := 64) (by decide) (by decide)
  | Vint => exact follows_readVarintLoop (w := 64) (by decide) 10

end StringFormat

/-- A read that fits fails only in asking for nothing at the end of the capacity. -/
theorem read_iff {b : ByteArray} (h : Rep b) {n : Nat} (hn : n ≤ b.size - b.position) :
    (∃ bytes b', read n b = .ok bytes b') ↔ (n = 0 → b.position ≠ b.capacity) := by
  constructor
  · rintro ⟨bytes, b', hread⟩ rfl
    have hlen := length_of_read h hread
    rw [List.length_eq_zero_iff.mp hlen] at hread
    exact (read_zero h).mp ⟨b', hread⟩
  · intro hend
    have hlt : b.position < b.capacity := by
      rcases Nat.eq_zero_or_pos n with hzero | hpos
      · have hle := h.position_le.trans h.size_le
        have hne := hend hzero
        omega
      · exact h.position_lt hpos hn
    obtain ⟨b', hread, _⟩ := read_spec h hn hlt
    exact ⟨_, b', hread⟩

/-- The length of the record at the cursor, and where its text starts. -/
theorem readString_eq_read {b : ByteArray} (h : Rep b) {f : StringFormat} {bs : List UInt8}
    (hfield : f.field.take (b.content.drop b.position) = some bs) :
    ∃ b', f.readString b = read (f.length b.endian bs).toNat b' ∧ Rep b' ∧ b'.content = b.content ∧
      b'.position = b.position + bs.length ∧ b'.capacity = b.capacity := by
  obtain ⟨b', hlength, h', hcontent, hposition⟩ := f.follows_readLength.takes b bs h hfield
  refine ⟨b', ?_, h', hcontent, hposition, keepsCapacity_readLength f b _ b' hlength⟩
  rw [StringFormat.readString_eq]
  exact bind_ok hlength

/-- A read within the data succeeds unless it asks for nothing where the capacity ends, and a string
whose record is there does unless it is empty and its length ends there. -/
theorem read_fits_iff (mem : Nat → Nat → UInt8) {base : Nat} (hb : 0 < base) {b : ByteArray}
    (hr : Reachable mem base b) :
    (∀ size ≤ b.getReadSize, (∃ bytes b', read size b = .ok bytes b') ↔
        (size = 0 → b.position ≠ b.capacity)) ∧
      ∀ (f : StringFormat) (bs : List UInt8),
        f.field.take (b.content.drop b.position) = some bs →
        b.position + bs.length + (f.length b.endian bs).toNat ≤ b.size →
        ((∃ s b', f.readString b = .ok s b') ↔
          ((f.length b.endian bs).toNat = 0 → b.position + bs.length ≠ b.capacity)) := by
  have h := hr.rep hb
  refine ⟨?_, ?_⟩
  · intro size hsize
    rw [h.readSize] at hsize
    exact read_iff h hsize
  · intro f bs hfield hwhole
    obtain ⟨b', heq, h', hcontent, hposition, hcapacity⟩ := readString_eq_read h hfield
    have hsize : b'.size = b.size := by
      rw [← h'.length_content, hcontent, h.length_content]
    rw [heq, ← hposition, ← hcapacity]
    exact read_iff h' (by omega)

/-- One block, full, with the cursor behind its last byte. -/
def fullBlock : Option ByteArray :=
  performAll (fun _ _ => 0xcd) [.write [0, 0]] (new (fun _ _ => 0xcd) 2)

theorem read_fits_iff_at_end :
    0 < 2 ∧ ∃ b, fullBlock = some b ∧ Reachable (fun _ _ => 0xcd) 2 b ∧
      ¬ ((∃ bytes b', read 0 b = .ok bytes b')) := by
  have hrun : (fullBlock.map fun b => (b.position, b.capacity)) = some (2, 2) := by
    decide
  obtain ⟨b, hb, heq⟩ := Option.map_eq_some_iff.mp hrun
  obtain ⟨hposition, hcapacity⟩ := Prod.mk.inj heq
  have hreach := reachable_of_performAll _ Reachable.new _ hb
  refine ⟨by decide, b, hb, hreach, ?_⟩
  rw [(read_fits_iff (fun _ _ => 0xcd) (by decide) hreach).1 0 (Nat.zero_le _)]
  intro hne
  exact hne rfl (hposition.trans hcapacity.symm)

/-- Reading nothing at the end of a full block goes through the null cursor. -/
theorem read_nothing_at_end :
    ¬ ∀ (mem : Nat → Nat → UInt8) (base : Nat), 0 < base → ∀ b, Reachable mem base b →
      ∀ size ≤ b.getReadSize, ∃ bytes b', read size b = .ok bytes b' := by
  intro h
  have hrun : (fullBlock.map fun b => (EStateM.run' (read 0) b).isSome) = some false := by
    decide
  obtain ⟨b, hb, hnone⟩ := Option.map_eq_some_iff.mp hrun
  have hreach := reachable_of_performAll _ Reachable.new _ hb
  obtain ⟨bytes, b', hread⟩ := h _ 2 (by decide) b hreach 0 (Nat.zero_le _)
  delta EStateM.run' EStateM.run at hnone
  rw [hread] at hnone
  cases hnone

/-! ### Failed reads -/

/-- The readers of values and of strings. -/
inductive TypedRead
  | value (k : Kind)
  | string (f : StringFormat)
  deriving DecidableEq, Repr

namespace TypedRead

def perform : TypedRead → Op Unit
  | .value k => do
      let _ ← readBits k
      pure ()
  | .string f => do
      let _ ← f.readString
      pure ()

def field : TypedRead → Field
  | .value k => k.field
  | .string f => f.field

/-- The record is there as a whole. -/
def Complete (e : Endian) (l : List UInt8) : TypedRead → Prop
  | .value k => (k.field.take l).isSome
  | .string f => ∃ bs, f.field.take l = some bs ∧ bs.length + (f.length e bs).toNat ≤ l.length

end TypedRead

/-- Where it throws, the operation has changed nothing. -/
def LeavesUnchanged {α : Type} (op : Op α) (b : ByteArray) : Prop :=
  ∀ what b', op b = .error (.outOfRange what) b' →
    SameData b b' ∧ b'.capacity = b.capacity ∧ b'.cur = b.cur

theorem leavesUnchanged_discard {α : Type} {op : Op α} {b : ByteArray} :
    LeavesUnchanged (op >>= fun _ => pure ()) b ↔ LeavesUnchanged op b := by
  refine forall_congr' fun what => forall_congr' fun b' => imp_congr_left ?_
  cases hop : op b with
  | ok a b1 =>
      rw [bind_ok hop]
      exact iff_of_false (fun h => nomatch h) (fun h => nomatch h)
  | error e b1 =>
      rw [bind_error hop]
      simp only [EStateM.Result.error.injEq]

theorem leavesUnchanged_of_same {α : Type} {op : Op α} {b : ByteArray} {what : String}
    (hop : op b = .error (.outOfRange what) b) : LeavesUnchanged op b := by
  intro what' b' hop'
  rw [hop] at hop'
  cases hop'
  exact ⟨⟨rfl, rfl, rfl, rfl, rfl⟩, rfl, rfl⟩

theorem Follows.leavesUnchanged_iff {α : Type} {F : Field} {val : Endian → List UInt8 → α}
    {op : Op α} (hop : Follows F val op) {b : ByteArray} (h : Rep b)
    (hfield : F.take (b.content.drop b.position) = none) :
    LeavesUnchanged op b ↔ b.size - b.position < F.first := by
  obtain ⟨b', hthrow, hsame, hmoved⟩ := hop.fails b h hfield
  constructor
  · intro hunchanged
    exact hmoved (hunchanged _ b' hthrow).1.position
  · intro hshort
    rw [hsame hshort] at hthrow
    exact leavesUnchanged_of_same hthrow

theorem field_take_ne_nil {F : Field} (hpos : 0 < F.first) {l bs : List UInt8}
    (hrounds : F ≠ .varint 0) (h : F.take l = some bs) : 0 < bs.length := by
  cases F with
  | fixed n =>
      rw [(Field.fixed_take h).1]
      exact hpos
  | varint rounds =>
      cases rounds with
      | zero => exact absurd rfl hrounds
      | succ rounds =>
          obtain ⟨hwhole, -⟩ := varintField_spec h
          cases bs with
          | nil => cases hwhole
          | cons b bs => exact Nat.succ_pos _

theorem StringFormat.length_field_pos {f : StringFormat} {l bs : List UInt8}
    (h : f.field.take l = some bs) : 0 < bs.length := by
  cases f with
  | F16 => exact field_take_ne_nil (by decide) (by decide) h
  | F32 => exact field_take_ne_nil (by decide) (by decide) h
  | F64 => exact field_take_ne_nil (by decide) (by decide) h
  | Vint => exact field_take_ne_nil (by decide) (by decide) h

theorem field_first_le {F : Field} {l : List UInt8} (hrounds : F ≠ .varint 0) {bs : List UInt8}
    (h : F.take l = some bs) : F.first ≤ l.length := by
  cases F with
  | fixed n => exact (Option.ite_none_right_eq_some.mp h).1
  | varint rounds =>
      have hpos := field_take_ne_nil (F := .varint rounds) Nat.one_pos hrounds h
      obtain ⟨-, rest, rfl⟩ := varintField_spec h
      rw [List.length_append]
      exact hpos.trans_le (Nat.le_add_right _ _)

theorem leavesUnchanged_value {b : ByteArray} (h : Rep b) (k : Kind) :
    LeavesUnchanged (TypedRead.perform (.value k)) b ↔
      b.size - b.position < k.field.first ∨ (k.field.take (b.content.drop b.position)).isSome := by
  obtain ⟨val, hfollows⟩ := follows_readBits k
  rw [TypedRead.perform, leavesUnchanged_discard]
  cases hfield : k.field.take (b.content.drop b.position) with
  | some bs =>
      obtain ⟨b', hop, -⟩ := hfollows.takes b bs h hfield
      refine iff_of_true ?_ (.inr rfl)
      intro what b'' herror
      rw [hop] at herror
      cases herror
  | none =>
      rw [hfollows.leavesUnchanged_iff h hfield]
      simp

theorem leavesUnchanged_string {b : ByteArray} (h : Rep b) (f : StringFormat) :
    LeavesUnchanged (TypedRead.perform (.string f)) b ↔
      b.size - b.position < f.field.first ∨
        TypedRead.Complete b.endian (b.content.drop b.position) (.string f) := by
  have hlen := h.length_drop
  rw [TypedRead.perform, leavesUnchanged_discard]
  cases hfield : f.field.take (b.content.drop b.position) with
  | none =>
      have hstring : LeavesUnchanged f.readString b ↔ LeavesUnchanged f.readLength b := by
        obtain ⟨b', hop, -⟩ := f.follows_readLength.fails b h hfield
        refine forall_congr' fun what => forall_congr' fun b'' => imp_congr_left ?_
        rw [StringFormat.readString_eq, readSized, bind_error hop, hop]
        simp only [EStateM.Result.error.injEq]
      rw [hstring, f.follows_readLength.leavesUnchanged_iff h hfield, TypedRead.Complete]
      simp [hfield]
  | some bs =>
      obtain ⟨b', heq, h', hcontent, hposition, -⟩ := readString_eq_read h hfield
      have hpos := StringFormat.length_field_pos hfield
      have hfirst := field_first_le (by cases f <;> decide) hfield
      have hsize : b'.size = b.size := by
        rw [← h'.length_content, hcontent, h.length_content]
      have hcomplete : TypedRead.Complete b.endian (b.content.drop b.position) (.string f) ↔
          bs.length + (f.length b.endian bs).toNat ≤ b.size - b.position := by
        rw [TypedRead.Complete, hlen]
        simp [hfield]
      have hle : bs.length ≤ b.size - b.position := by
        have hle' := h'.position_le
        omega
      rw [hcomplete, or_iff_right (by omega)]
      by_cases hwhole : bs.length + (f.length b.endian bs).toNat ≤ b.size - b.position
      · refine iff_of_true ?_ hwhole
        intro what b'' hread
        -- the text is there, so `read` returns or meets the null cursor
        rw [heq, read, h'.readSize, if_neg (by omega)] at hread
        split at hread
        · cases hread
        · cases hread
      · have hthrow := read_throws h' (n := (f.length b.endian bs).toNat) (by omega)
        have hstring : f.readString b = .error (.outOfRange "not enough len") b' := heq.trans hthrow
        refine iff_of_false ?_ hwhole
        intro hunchanged
        have hback := (hunchanged _ b' hstring).1.position
        omega

/-- A typed read that throws leaves the array as it was exactly where there was too little for its
first call of `read`. -/
theorem failed_read_unchanged_iff (mem : Nat → Nat → UInt8) {base : Nat} (hb : 0 < base)
    {b : ByteArray} (hr : Reachable mem base b) (r : TypedRead) :
    LeavesUnchanged r.perform b ↔
      b.size - b.position < r.field.first ∨ r.Complete b.endian (b.content.drop b.position) := by
  cases r with
  | value k => exact leavesUnchanged_value (hr.rep hb) k
  | string f => exact leavesUnchanged_string (hr.rep hb) f

/-- A length of two that one byte follows. -/
def cutString : Option ByteArray :=
  performAll (fun _ _ => 0xcd) [.write [0, 2, 7], .setPosition 0] (new (fun _ _ => 0xcd) 2)

theorem cutString_state :
    (cutString.map fun b => (b.size - b.position, b.content.drop b.position, b.endian)) =
      some (3, [0, 2, 7], .big) := by
  decide

theorem failed_read_unchanged_iff_run :
    0 < 2 ∧ ∃ b, cutString = some b ∧ Reachable (fun _ _ => 0xcd) 2 b ∧
      LeavesUnchanged (TypedRead.perform (.value .fuint32)) b ∧
      ¬ LeavesUnchanged (TypedRead.perform (.string .F16)) b := by
  obtain ⟨b, hb, heq⟩ := Option.map_eq_some_iff.mp cutString_state
  obtain ⟨hsize, hrest⟩ := Prod.mk.inj heq
  obtain ⟨hdata, hendian⟩ := Prod.mk.inj hrest
  have hreach := reachable_of_performAll _ Reachable.new _ hb
  refine ⟨by decide, b, hb, hreach, ?_, ?_⟩
  · rw [failed_read_unchanged_iff (fun _ _ => 0xcd) (by decide) hreach, hsize]
    exact .inl (by decide)
  · rw [failed_read_unchanged_iff (fun _ _ => 0xcd) (by decide) hreach, hsize, hdata, hendian]
    rintro (hfirst | ⟨bs, hfield, hlen⟩)
    · exact absurd hfirst (by decide)
    · cases hfield
      exact absurd hlen (by decide)

/-- The length is gone when the text turns out to be cut. -/
theorem cut_string_loses_length :
    ¬ ∀ (mem : Nat → Nat → UInt8) (base : Nat), 0 < base → ∀ b, Reachable mem base b →
      ∀ r : TypedRead, LeavesUnchanged r.perform b := by
  intro h
  have hrun : (cutString.map fun b => match StringFormat.readString .F16 b with
      | .ok _ _ => none
      | .error e b' => some (e, b.position, b'.position)) =
        some (some (.outOfRange "not enough len", 0, 2)) := by
    decide
  obtain ⟨b, hb, hmoved⟩ := Option.map_eq_some_iff.mp hrun
  have hreach := reachable_of_performAll _ Reachable.new _ hb
  have hunchanged := h _ 2 (by decide) b hreach (.string .F16)
  rw [TypedRead.perform, leavesUnchanged_discard] at hunchanged
  cases hstring : StringFormat.readString .F16 b with
  | ok s b' =>
      rw [hstring] at hmoved
      cases hmoved
  | error e b' =>
      rw [hstring] at hmoved
      obtain ⟨rfl, hbefore, hafter⟩ : e = .outOfRange "not enough len" ∧ b.position = 0 ∧
          b'.position = 2 := by
        simpa using hmoved
      have hback := (hunchanged _ b' hstring).1.position
      rw [hbefore, hafter] at hback
      cases hback

end ByteArray
end HCServer
