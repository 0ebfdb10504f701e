import HCServer.ByteArray.Codec
import HCServer.ByteArray.Refine

/-! Serialised values read back. A writer emits a byte string, a reader parses one; both are
stated for every well-formed array, so that typed items compose whatever the block borders. -/
namespace HCServer
open Lib

namespace ByteArray
variable (mem : Nat → Nat → UInt8)

/-- Under byte order `e` the operation stores exactly `bs` at the cursor. -/
def Emits (e : Endian) (op : Op Unit) (bs : List UInt8) : Prop :=
  ∀ b, Rep b → b.endian = e → ∃ b', op b = .ok () b' ∧ Rep b' ∧
    b'.content = overwrite b.content b.position bs ∧ b'.position = b.position + bs.length ∧
    b'.endian = e

/-- Under byte order `e` the operation takes `bs` off the cursor and returns `a`. -/
def Parses {α : Type} (e : Endian) (op : Op α) (bs : List UInt8) (a : α) : Prop :=
  ∀ b, Rep b → b.endian = e → (∃ rest, b.content.drop b.position = bs ++ rest) →
    ∃ b', op b = .ok a b' ∧ Rep b' ∧ b'.content = b.content ∧
      b'.position = b.position + bs.length ∧ b'.endian = e

theorem emits_write (e : Endian) (bs : List UInt8) : Emits e (write mem bs) bs := by
  intro b h he
  obtain ⟨b', hw, h', hc, hp, _, hend⟩ := write_spec mem h bs
  exact ⟨b', hw, h', hc, hp, hend.trans he⟩

theorem parses_pure {α : Type} (e : Endian) (a : α) : Parses e (pure a) [] a :=
  fun b h he _ => ⟨b, rfl, h, rfl, rfl, he⟩

theorem drop_of_parsed {l p q rest : List UInt8} {n : Nat} (h : l.drop n = (p ++ q) ++ rest) :
    l.drop (n + p.length) = q ++ rest := by
  rw [← List.drop_drop, h, List.append_assoc, List.drop_left]

theorem Parses.bind {α β : Type} {e : Endian} {op : Op α} {k : α → Op β} {p q : List UInt8} {a : α}
    {c : β} (h : Parses e op p a) (hk : Parses e (k a) q c) : Parses e (op >>= k) (p ++ q) c := by
  rintro b hb he ⟨rest, hr⟩
  obtain ⟨b1, h1, hb1, hc1, hp1, he1⟩ := h b hb he ⟨q ++ rest, by rw [hr, List.append_assoc]⟩
  obtain ⟨b2, h2, hb2, hc2, hp2, he2⟩ := hk b1 hb1 he1 ⟨rest, by rw [hc1, hp1, drop_of_parsed hr]⟩
  refine ⟨b2, (bind_ok h1).trans h2, hb2, hc2.trans hc1, ?_, he2⟩
  rw [hp2, hp1, List.length_append, Nat.add_assoc]

theorem Parses.map {α β : Type} {e : Endian} {op : Op α} {p : List UInt8} {a : α}
    (h : Parses e op p a) (f : α → β) : Parses e (op >>= fun x => pure (f x)) p (f a) := by
  have hb := h.bind (k := fun x => pure (f x)) (parses_pure e (f a))
  rwa [List.append_nil] at hb

theorem parses_read (e : Endian) (bs : List UInt8) (hne : bs ≠ []) :
    Parses e (read bs.length) bs bs := by
  rintro b h he ⟨rest, hr⟩
  have hlen : b.size - b.position = bs.length + rest.length := by
    rw [← h.length_content, ← List.length_drop, hr, List.length_append]
  have h0 : 0 < bs.length := List.length_pos_of_ne_nil hne
  have hn : bs.length ≤ b.size - b.position := by omega
  obtain ⟨b', hread, h', hc, hp, _, hend⟩ := read_spec h hn (h.position_lt h0 hn)
  rw [hr, List.take_left] at hread
  exact ⟨b', hread, h', hc, hp, hend.trans he⟩

@[simp] theorem length_objectBytes {w : Nat} (v : BitVec w) : (objectBytes v).length = w / 8 :=
  length_leBytes _ _

theorem two_pow_width {w : Nat} (hw : 8 ∣ w) : 256 ^ (w / 8) = 2 ^ w := by
  obtain ⟨k, rfl⟩ := hw
  rw [Nat.mul_div_cancel_left k (by decide), Nat.pow_mul]

theorem ofObject_objectBytes {w : Nat} (hw : 8 ∣ w) (v : BitVec w) : ofObject w (objectBytes v) = v := by
  rw [ofObject, objectBytes, leValue_leBytes, two_pow_width hw, Nat.mod_eq_of_lt v.isLt,
    BitVec.ofNat_toNat, BitVec.setWidth_eq]

theorem objectBytes_ofObject {w : Nat} (hw : 8 ∣ w) {bs : List UInt8} (hl : bs.length = w / 8) :
    objectBytes (ofObject w bs) = bs := by
  have hlt : leValue bs < 2 ^ w := by
    rw [← two_pow_width hw, ← hl]
    exact leValue_lt bs
  rw [objectBytes, ofObject, BitVec.toNat_ofNat, Nat.mod_eq_of_lt hlt, ← hl, leBytes_leValue]

theorem objectBytes_byteswap {w : Nat} (hw : 8 ∣ w) (v : BitVec w) :
    objectBytes (byteswap v) = (objectBytes v).reverse :=
  objectBytes_ofObject hw (by simp)

theorem byteswap_byteswap {w : Nat} (hw : 8 ∣ w) (v : BitVec w) : byteswap (byteswap v) = v := by
  rw [byteswap, objectBytes_byteswap hw, List.reverse_reverse, ofObject_objectBytes hw]

/-- The stored image of a fixed-width value: byte-swapped unless the order is the machine's. -/
def fixedImage {w : Nat} (e : Endian) (v : BitVec w) : List UInt8 :=
  if e = byteOrder then objectBytes v else objectBytes (byteswap v)

theorem writeFixed_eq {w : Nat} (v : BitVec w) {b : ByteArray} {e : Endian} (he : b.endian = e) :
    writeFixed mem v b = write mem (fixedImage e v) b := by
  rw [writeFixed]
  refine (bind_ok (x := (get : Op ByteArray)) rfl).trans ?_
  rw [he, fixedImage]
  by_cases hord : e = byteOrder
  · rw [if_neg (not_not.mpr hord), if_pos hord]
  · rw [if_pos hord, if_neg hord]

theorem emits_writeFixed {w : Nat} (e : Endian) (v : BitVec w) :
    Emits e (writeFixed mem v) (fixedImage e v) := by
  intro b h he
  rw [writeFixed_eq mem v he]
  exact emits_write mem e _ b h he

theorem parses_readObject {w : Nat} (hw : 8 ∣ w) (h0 : 0 < w) (e : Endian) (v : BitVec w) :
    Parses e (readObject w) (objectBytes v) v := by
  have hlen := length_objectBytes v
  have hpos : 0 < w / 8 := Nat.div_pos (Nat.le_of_dvd h0 hw) (by decide)
  have hread := parses_read e (objectBytes v) (List.ne_nil_of_length_pos (by omega))
  rw [hlen] at hread
  have hmap := hread.map (ofObject w)
  rwa [ofObject_objectBytes hw] at hmap

theorem parses_readFixed {w : Nat} (hw : 8 ∣ w) (h0 : 0 < w) (e : Endian) (v : BitVec w) :
    Parses e (readFixed w) (fixedImage e v) v := by
  rw [fixedImage]
  rintro b h he hr
  by_cases hord : e = byteOrder
  · rw [if_pos hord] at hr ⊢
    obtain ⟨b', h1, h', hc, hp, he'⟩ := parses_readObject hw h0 e v b h he hr
    refine ⟨b', ?_, h', hc, hp, he'⟩
    refine (bind_ok h1).trans ((bind_ok (x := (get : Op ByteArray)) rfl).trans ?_)
    rw [he', if_pos hord]
    rfl
  · rw [if_neg hord] at hr ⊢
    obtain ⟨b', h1, h', hc, hp, he'⟩ := parses_readObject hw h0 e (byteswap v) b h he hr
    refine ⟨b', ?_, h', hc, hp, he'⟩
    refine (bind_ok h1).trans ((bind_ok (x := (get : Op ByteArray)) rfl).trans ?_)
    rw [he', if_neg hord, byteswap_byteswap hw]
    rfl

theorem varint_group {w : Nat} (hw : 8 ≤ w) (v : BitVec w) :
    ((v &&& 0x7F#w) ||| 0x80#w).toNat = v.toNat % 128 + 128 := by
  have hpow : 2 ^ 8 ≤ 2 ^ w := Nat.pow_le_pow_right (by decide) hw
  have h7f : (0x7F#w).toNat = 2 ^ 7 - 1 := by
    rw [BitVec.toNat_ofNat, Nat.mod_eq_of_lt (by omega)]
    rfl
  have h80 : (0x80#w).toNat = 2 ^ 7 * 1 := by
    rw [BitVec.toNat_ofNat, Nat.mod_eq_of_lt (by omega)]
    rfl
  rw [BitVec.toNat_or, BitVec.toNat_and, h7f, h80, Nat.and_two_pow_sub_one_eq_mod, Nat.or_comm,
    ← Nat.two_pow_add_eq_or_of_lt (Nat.mod_lt _ (by decide)), Nat.add_comm]

/-- The `tmp` array of the writer holds the LEB128 groups of the value. -/
theorem varintBytes_eq {w : Nat} (hw : 8 ≤ w) (room : Nat) (v : BitVec w) :
    varintBytes room v = lebBytes room v.toNat := by
  induction room generalizing v with
  | zero => rfl
  | succ room ih =>
      have hshift : (v >>> 7).toNat = v.toNat / 128 := by
        rw [BitVec.toNat_ushiftRight, Nat.shiftRight_eq_div_pow]
      rw [varintBytes, lebBytes, ih, hshift, varint_group hw]

theorem parses_readFuint8 (e : Endian) (b : UInt8) : Parses e readFuint8 [b] b.toBitVec := by
  have himage : objectBytes b.toBitVec = [b] := by
    have hb := b.toNat_lt
    rw [objectBytes, leBytes, leBytes, UInt8.toNat_toBitVec, Nat.mod_eq_of_lt hb, UInt8.ofNat_toNat]
  have hread := parses_readObject (by decide) (by decide) e b.toBitVec
  rwa [himage] at hread

/-- Or-ing a group in above the bits already there adds it, up to the width. -/
theorem or_shift_eq {w i : Nat} {result : BitVec w} {x : BitVec 8} (hw : 8 ≤ w)
    (hr : result.toNat < 2 ^ i) :
    result ||| (x.setWidth w) <<< i = BitVec.ofNat w (result.toNat + 2 ^ i * x.toNat) := by
  have hx : x.toNat < 2 ^ w := x.isLt.trans_le (Nat.pow_le_pow_right (by decide) hw)
  have hshift : ((x.setWidth w) <<< i).toNat = 2 ^ i * x.toNat % 2 ^ w := by
    rw [BitVec.toNat_shiftLeft, BitVec.toNat_setWidth, Nat.mod_eq_of_lt hx, Nat.shiftLeft_eq,
      Nat.mul_comm]
  have hdisjoint : result &&& (x.setWidth w) <<< i = 0#w := by
    apply BitVec.eq_of_getLsbD_eq
    intro j hj
    rw [BitVec.getLsbD_and, BitVec.getLsbD_shiftLeft, BitVec.getLsbD_zero]
    by_cases hji : j < i
    · simp [hji]
    · have hzero : result.getLsbD j = false := by
        rw [BitVec.getLsbD]
        exact Nat.testBit_lt_two_pow (hr.trans_le (Nat.pow_le_pow_right (by decide) (by omega)))
      rw [hzero, Bool.false_and]
  rw [← BitVec.add_eq_or_of_and_eq_zero _ _ hdisjoint]
  apply BitVec.eq_of_toNat_eq
  rw [BitVec.toNat_add, hshift, Nat.add_mod_mod, BitVec.toNat_ofNat]

theorem toNat_low7 (b : UInt8) : (b.toBitVec &&& 0x7f#8).toNat = b.toNat % 128 := by
  rw [BitVec.toNat_and, UInt8.toNat_toBitVec]
  exact Nat.and_two_pow_sub_one_eq_mod b.toNat 7

/-- The loop takes its field off the cursor, whatever bytes it is made of. -/
theorem parses_varintField {w : Nat} (hw : 8 ≤ w) (e : Endian) {bs : List UInt8} {rounds : Nat}
    (i : Nat) (result : BitVec w) (hfield : varintField rounds bs = some bs)
    (hr : result.toNat < 2 ^ i) :
    Parses e (readVarintLoop w rounds i result) bs
      (BitVec.ofNat w (result.toNat + 2 ^ i * lebValue bs)) := by
  induction rounds generalizing bs i result with
  | zero =>
      cases hfield
      have hpure := parses_pure e result
      rwa [lebValue, Nat.mul_zero, Nat.add_zero, BitVec.ofNat_toNat, BitVec.setWidth_eq]
  | succ rounds ih =>
      cases bs with
      | nil => cases hfield
      | cons b bs =>
          rw [varintField] at hfield
          rw [readVarintLoop]
          refine Parses.bind (p := [b]) (parses_readFuint8 e b) ?_
          rw [UInt8.toNat_toBitVec]
          by_cases hb : b.toNat < 128
          · rw [if_pos hb] at hfield
            cases hfield
            have hlow : b.toNat % 128 = b.toBitVec.toNat := Nat.mod_eq_of_lt hb
            rw [if_pos hb, lebValue, lebValue, Nat.mul_zero, Nat.add_zero, hlow, ← or_shift_eq hw hr]
            exact parses_pure e _
          · rw [if_neg hb] at hfield
            have hrest : varintField rounds bs = some bs := by
              obtain ⟨cs, hcs, heq⟩ := Option.map_eq_some_iff.mp hfield
              rwa [(List.cons.inj heq).2] at hcs
            have hpow : 2 ^ (i + 7) = 2 ^ i * 128 := Nat.pow_add 2 i 7
            have hgroup : 2 ^ i * (b.toNat % 128) ≤ 2 ^ i * 127 := Nat.mul_le_mul_left _ (by omega)
            have hnext : (BitVec.ofNat w (result.toNat + 2 ^ i * (b.toNat % 128))).toNat <
                2 ^ (i + 7) := by
              rw [BitVec.toNat_ofNat]
              exact (Nat.mod_le _ _).trans_lt (by omega)
            have hparse := ih (i + 7) _ hrest hnext
            rw [if_neg hb, or_shift_eq hw hr, toNat_low7]
            have hvalue : BitVec.ofNat w (result.toNat + 2 ^ i * lebValue (b :: bs)) =
                BitVec.ofNat w ((BitVec.ofNat w (result.toNat + 2 ^ i * (b.toNat % 128))).toNat +
                  2 ^ (i + 7) * lebValue bs) := by
              apply BitVec.eq_of_toNat_eq
              rw [BitVec.toNat_ofNat, BitVec.toNat_ofNat, BitVec.toNat_ofNat, Nat.mod_add_mod, lebValue,
                Nat.mul_add, hpow, Nat.mul_assoc, Nat.add_assoc]
            rw [hvalue]
            exact hparse

/-- `writeUint32` and `writeUint64` store the LEB128 groups, and their readers parse them, when
`tmp` has room for the groups of the width. -/
theorem varint_stores {w : Nat} (room : Nat) (hw : 8 ≤ w) (hroom : 2 ^ w ≤ 128 ^ (room + 1))
    (v : BitVec w) :
    ∃ bs, lebBytes (room + 1) v.toNat = some bs ∧ Terminated bs ∧
      writeVarint mem (room + 1) v = write mem bs ∧
      ∀ e, Parses e (readVarintLoop w (room + 1) 0 0) bs v := by
  obtain ⟨bs, heq, hterm, hval, hlen⟩ := lebBytes_spec (v.isLt.trans_le hroom)
  refine ⟨bs, heq, hterm, ?_, ?_⟩
  · rw [writeVarint, varintBytes_eq hw, heq]
  · intro e
    have hparse := parses_varintField hw e 0 (0 : BitVec w) (varintField_terminated hterm hlen) (by simp)
    simpa [hval] using hparse

theorem varint_codec {w : Nat} (room : Nat) (hw : 8 ≤ w) (hroom : 2 ^ w ≤ 128 ^ (room + 1))
    (v : BitVec w) :
    ∃ bs, (∀ e, Emits e (writeVarint mem (room + 1) v) bs) ∧
      ∀ e, Parses e (readVarintLoop w (room + 1) 0 0) bs v := by
  obtain ⟨bs, _, _, hwrite, hparse⟩ := varint_stores mem room hw hroom v
  refine ⟨bs, ?_, hparse⟩
  intro e
  rw [hwrite]
  exact emits_write mem e bs

theorem decodeZigzag_encodeZigzag {w : Nat} (hw : 0 < w) (v : BitVec w) :
    decodeZigzag (encodeZigzag v) = v := by
  have henc : encodeZigzag v = zigzag v := by
    rw [encodeZigzag, zigzag, BitVec.slt_zero_eq_msb]
  rw [henc]
  exact unzigzag_zigzag hw v

/-- The types that have a writer and a matching reader. -/
inductive Kind
  | fint8 | fuint8 | fint16 | fuint16 | fint32 | fuint32 | fint64 | fuint64
  | int32 | uint32 | int64 | uint64 | float | double
  deriving DecidableEq, Repr

def Kind.width : Kind → Nat
  | .fint8 | .fuint8 => 8
  | .fint16 | .fuint16 => 16
  | .fint32 | .fuint32 | .int32 | .uint32 | .float => 32
  | .fint64 | .fuint64 | .int64 | .uint64 | .double => 64

/-- A value of any of these types, as its bit pattern. -/
abbrev Value := (k : Kind) × BitVec k.width

def writeValue (mem : Nat → Nat → UInt8) : Value → Op Unit
  | ⟨.fint8, v⟩ => writeFint8 mem v
  | ⟨.fuint8, v⟩ => writeFuint8 mem v
  | ⟨.fint16, v⟩ => writeFint16 mem v
  | ⟨.fuint16, v⟩ => writeFuint16 mem v
  | ⟨.fint32, v⟩ => writeFint32 mem v
  | ⟨.fuint32, v⟩ => writeFuint32 mem v
  | ⟨.fint64, v⟩ => writeFint64 mem v
  | ⟨.fuint64, v⟩ => writeFuint64 mem v
  | ⟨.int32, v⟩ => writeInt32 mem v
  | ⟨.uint32, v⟩ => writeUint32 mem v
  | ⟨.int64, v⟩ => writeInt64 mem v
  | ⟨.uint64, v⟩ => writeUint64 mem v
  | ⟨.float, v⟩ => writeFloat mem v
  | ⟨.double, v⟩ => writeDouble mem v

def readBits : (k : Kind) → Op (BitVec k.width)
  | .fint8 => readFint8
  | .fuint8 => readFuint8
  | .fint16 => readFint16
  | .fuint16 => readFuint16
  | .fint32 => readFint32
  | .fuint32 => readFuint32
  | .fint64 => readFint64
  | .fuint64 => readFuint64
  | .int32 => readInt32
  | .uint32 => readUint32
  | .int64 => readInt64
  | .uint64 => readUint64
  | .float => readFloat
  | .double => readDouble

def readValue (k : Kind) : Op Value := do
  let v ← readBits k
  pure ⟨k, v⟩

/-- The writer of a value and the reader of its type agree on a byte string, byte order by byte
order. -/
theorem bits_codec (k : Kind) (v : BitVec k.width) (e : Endian) :
    ∃ bs, Emits e (writeValue mem ⟨k, v⟩) bs ∧ Parses e (readBits k) bs v := by
  have fixed {w : Nat} (hw : 8 ∣ w) (h0 : 0 < w) (u : BitVec w) :
      ∃ bs, Emits e (writeFixed mem u) bs ∧ Parses e (readFixed w) bs u :=
    ⟨_, emits_writeFixed mem e u, parses_readFixed hw h0 e u⟩
  have byte (u : BitVec 8) :
      ∃ bs, Emits e (write mem (objectBytes u)) bs ∧ Parses e (readObject 8) bs u :=
    ⟨_, emits_write mem e _, parses_readObject (by decide) (by decide) e u⟩
  have varint32 (u : BitVec 32) :
      ∃ bs, Emits e (writeUint32 mem u) bs ∧ Parses e readUint32 bs u := by
    obtain ⟨bs, hw, hr⟩ := varint_codec mem 4 (by decide) (by decide) u
    exact ⟨bs, hw e, hr e⟩
  have varint64 (u : BitVec 64) :
      ∃ bs, Emits e (writeUint64 mem u) bs ∧ Parses e readUint64 bs u := by
    obtain ⟨bs, hw, hr⟩ := varint_codec mem 9 (by decide) (by decide) u
    exact ⟨bs, hw e, hr e⟩
  cases k with
  | fint8 => exact byte v
  | fuint8 => exact byte v
  | fint16 => exact fixed (by decide) (by decide) v
  | fuint16 => exact fixed (by decide) (by decide) v
  | fint32 => exact fixed (by decide) (by decide) v
  | fuint32 => exact fixed (by decide) (by decide) v
  | fint64 => exact fixed (by decide) (by decide) v
  | fuint64 => exact fixed (by decide) (by decide) v
  | int32 =>
      obtain ⟨bs, hw, hr⟩ := varint32 (encodeZigzag v)
      have hmap := hr.map decodeZigzag
      rw [decodeZigzag_encodeZigzag (w := 32) (by decide) v] at hmap
      exact ⟨bs, hw, hmap⟩
  | uint32 => exact varint32 v
  | int64 =>
      obtain ⟨bs, hw, hr⟩ := varint64 (encodeZigzag v)
      have hmap := hr.map decodeZigzag
      rw [decodeZigzag_encodeZigzag (w := 64) (by decide) v] at hmap
      exact ⟨bs, hw, hmap⟩
  | uint64 => exact varint64 v
  | float => exact fixed (by decide) (by decide) v
  | double => exact fixed (by decide) (by decide) v

theorem value_codec (v : Value) (e : Endian) :
    ∃ bs, Emits e (writeValue mem v) bs ∧ Parses e (readValue v.1) bs v := by
  obtain ⟨k, v⟩ := v
  obtain ⟨bs, hw, hr⟩ := bits_codec mem k v e
  exact ⟨bs, hw, hr.map fun x => (⟨k, x⟩ : Value)⟩

/-- A serialisation program: byte-order switches between values. -/
inductive Item
  | setIsLittleEndian (val : Bool)
  | value (v : Value)

/-- The reading program that matches an item: the same switch, or the reader of the type. -/
inductive Slot
  | setIsLittleEndian (val : Bool)
  | kind (k : Kind)

def Item.slot : Item → Slot
  | .setIsLittleEndian val => .setIsLittleEndian val
  | .value v => .kind v.1

def Item.values : List Item → List Value
  | [] => []
  | .setIsLittleEndian _ :: items => values items
  | .value v :: items => v :: values items

def switch (val : Bool) : Op Unit := fun b => .ok () (b.setIsLittleEndian val)

def writeItems (mem : Nat → Nat → UInt8) : List Item → Op Unit
  | [] => pure ()
  | .setIsLittleEndian val :: items => do
      switch val
      writeItems mem items
  | .value v :: items => do
      writeValue mem v
      writeItems mem items

def readSlots : List Slot → Op (List Value)
  | [] => pure []
  | .setIsLittleEndian val :: slots => do
      switch val
      readSlots slots
  | .kind k :: slots => do
      let v ← readValue k
      let vs ← readSlots slots
      pure (v :: vs)

theorem rep_setIsLittleEndian {b : ByteArray} (h : Rep b) (val : Bool) :
    Rep (b.setIsLittleEndian val) :=
  Rep.of_parts h.base_pos h.node_size h.root_ne h.capacity_eq h.position_le h.size_le
    (by
      have hcap := h.capacity_eq
      have hle := h.position_le.trans h.size_le
      have hdiv := nodeAt_div b.position b.root h.base_pos (by omega)
      rw [← hcap] at hdiv
      exact h.cur_eq.trans hdiv.symm)

def order (val : Bool) : Endian := if val then .little else .big

/-- What a program stores is what its reading program takes off again, each switch at its place;
by induction on the items, the byte order carried along. -/
theorem items_codec (items : List Item) (e : Endian) :
    ∃ bs,
      (∀ b, Rep b → b.endian = e → ∃ b', writeItems mem items b = .ok () b' ∧ Rep b' ∧
        b'.content = overwrite b.content b.position bs ∧ b'.position = b.position + bs.length) ∧
      ∀ b, Rep b → b.endian = e → (∃ rest, b.content.drop b.position = bs ++ rest) →
        ∃ b', readSlots (items.map Item.slot) b = .ok (Item.values items) b' ∧ Rep b' ∧
          b'.content = b.content ∧ b'.position = b.position + bs.length := by
  induction items generalizing e with
  | nil =>
      refine ⟨[], ?_, ?_⟩
      · intro b h _
        exact ⟨b, rfl, h, (overwrite_nil _ _).symm, rfl⟩
      · intro b h _ _
        exact ⟨b, rfl, h, rfl, rfl⟩
  | cons item items ih =>
      cases item with
      | setIsLittleEndian val =>
          obtain ⟨bs, hwrite, hread⟩ := ih (order val)
          refine ⟨bs, ?_, ?_⟩
          · intro b h _
            exact hwrite _ (rep_setIsLittleEndian h val) rfl
          · intro b h _ hrest
            exact hread _ (rep_setIsLittleEndian h val) rfl hrest
      | value v =>
          obtain ⟨p, hp, hp'⟩ := value_codec mem v e
          obtain ⟨q, hq, hq'⟩ := ih e
          refine ⟨p ++ q, ?_, ?_⟩
          · intro b h he
            obtain ⟨b1, h1, hr1, hc1, hpos1, he1⟩ := hp b h he
            obtain ⟨b2, h2, hr2, hc2, hpos2⟩ := hq b1 hr1 he1
            refine ⟨b2, (bind_ok h1).trans h2, hr2, ?_, ?_⟩
            · rw [hc2, hc1, hpos1,
                overwrite_overwrite (by rw [h.length_content]; exact h.position_le)]
            · rw [hpos2, hpos1, List.length_append, Nat.add_assoc]
          · rintro b h he ⟨rest, hr⟩
            obtain ⟨b1, h1, hr1, hc1, hpos1, he1⟩ := hp' b h he ⟨q ++ rest, by
              rw [hr, List.append_assoc]⟩
            obtain ⟨b2, h2, hr2, hc2, hpos2⟩ := hq' b1 hr1 he1 ⟨rest, by
              rw [hc1, hpos1, drop_of_parsed hr]⟩
            refine ⟨b2, (bind_ok h1).trans (bind_ok h2), hr2, hc2.trans hc1, ?_⟩
            rw [hpos2, hpos1, List.length_append, Nat.add_assoc]

theorem Rep.position_le_content {b : ByteArray} (h : Rep b) : b.position ≤ b.content.length := by
  rw [h.length_content]
  exact h.position_le

/-- From any reachable array, at whatever position: write the items, go back, restore the byte
order, read them again. Exactly the values come back, and nothing is left to read when the items
ended the data. -/
theorem numeric_round_trip (mem : Nat → Nat → UInt8) {base : Nat} (hb : 0 < base)
    (calls : List Call) {b : ByteArray} (hc : performAll mem calls (new mem base) = some b)
    (items : List Item) :
    ∃ b1 b2 b3, writeItems mem items b = .ok () b1 ∧ setPosition b.position b1 = .ok () b2 ∧
      readSlots (items.map Item.slot) (b2.setIsLittleEndian b.isLittleEndian) =
        .ok (Item.values items) b3 ∧
      (b1.position = b1.size → b3.getReadSize = 0) := by
  obtain ⟨h, -⟩ := (rep_new mem hb).performAll mem calls hc
  obtain ⟨bs, hwrite, hread⟩ := items_codec mem items b.endian
  obtain ⟨b1, h1, hr1, hc1, hpos1⟩ := hwrite b h rfl
  have hle : b.position ≤ b1.size := by
    have := hr1.position_le
    omega
  obtain ⟨b2, h2, hr2, hpos2, hsize2, hroot2, -⟩ := setPosition_spec hr1 (hle.trans hr1.size_le)
  rw [Nat.max_eq_left hle] at hsize2
  have hc2 : b2.content = b1.content := by
    rw [content, content, hroot2, hsize2]
  have hend : (b2.setIsLittleEndian b.isLittleEndian).endian = b.endian := by
    cases he : b.endian <;> simp [setIsLittleEndian, isLittleEndian, he]
  have hdrop : (b2.setIsLittleEndian b.isLittleEndian).content.drop b.position =
      bs ++ b.content.drop (b.position + bs.length) := by
    change b2.content.drop _ = _
    rw [hc2, hc1, drop_overwrite h.position_le_content]
  obtain ⟨b3, h3, hr3, hc3, hpos3⟩ := hread _ (rep_setIsLittleEndian hr2 _) hend
    ⟨_, by rw [← hdrop]; exact congrArg (List.drop · _) hpos2⟩
  refine ⟨b1, b2, b3, h1, h2, h3, ?_⟩
  intro hend1
  have hsize3 : b3.size = b2.size := by
    rw [← hr3.length_content, hc3]
    exact hr2.length_content
  have hpos3' : b3.position = b2.position + bs.length := hpos3
  rw [hr3.readSize]
  omega

def sampleItems : List Item :=
  [.value ⟨.int32, 0x80000000#32⟩, .setIsLittleEndian true, .value ⟨.fuint16, 0x1234#16⟩,
    .setIsLittleEndian false, .value ⟨.double, 0x7ff8000000000001#64⟩,
    .value ⟨.uint64, 0xffffffffffffffff#64⟩]

theorem numeric_round_trip_run :
    ∃ b, performAll (fun _ _ => 0xcd) [.write [1]] (new (fun _ _ => 0xcd) 3) = some b ∧
      ∃ b1 b2 b3, writeItems (fun _ _ => 0xcd) sampleItems b = .ok () b1 ∧
        setPosition b.position b1 = .ok () b2 ∧
        readSlots (sampleItems.map Item.slot) (b2.setIsLittleEndian b.isLittleEndian) =
          .ok (Item.values sampleItems) b3 ∧
        (b1.position = b1.size → b3.getReadSize = 0) := by
  have hrun : (performAll (fun _ _ => 0xcd) [.write [1]] (new (fun _ _ => 0xcd) 3)).isSome := by
    decide
  obtain ⟨b, hb⟩ := Option.isSome_iff_exists.mp hrun
  exact ⟨b, hb, numeric_round_trip _ (by decide) _ hb sampleItems⟩

end ByteArray
end HCServer
