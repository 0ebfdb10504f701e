import HCServer.ByteArray.RoundTrip

/-! The varint operations on whatever bytes there are. The writers store the shortest LEB128 string,
and the readers take groups until one ends the number or the width is full. -/
namespace HCServer
open Lib

namespace ByteArray
variable (mem : Nat → Nat → UInt8)

/-- What the public calls make of a new array, changes of the byte order among them. -/
inductive Reachable (base : Nat) : ByteArray → Prop
  | new : Reachable base (new mem base)
  | perform {b b' : ByteArray} (call : Call) (h : Reachable base b)
      (hc : call.perform mem b = some b') : Reachable base b'
  | setIsLittleEndian {b : ByteArray} (val : Bool) (h : Reachable base b) :
      Reachable base (b.setIsLittleEndian val)

variable {mem}

theorem Reachable.rep {base : Nat} {b : ByteArray} (h : Reachable mem base b) (hb : 0 < base) :
    Rep b := by
  induction h with
  | new => exact rep_new mem hb
  | perform call _ hc ih => exact (ih.perform mem call hc).1
  | setIsLittleEndian val _ ih => exact rep_setIsLittleEndian ih val

variable (mem)

/-- A terminated byte string that denotes `n`, and no shorter one does. -/
structure MinimalLeb (n : Nat) (bs : List UInt8) : Prop where
  terminated : Terminated bs
  value : lebValue bs = n
  shortest : ∀ cs, Terminated cs → lebValue cs = n → bs.length ≤ cs.length

/-- The operation stores the shortest encoding of `n` at the cursor, in at most `room` bytes. -/
def StoresLeb (op : Op Unit) (b : ByteArray) (n room : Nat) : Prop :=
  ∃ bs b', MinimalLeb n bs ∧ bs.length ≤ room ∧ op b = .ok () b' ∧
    b'.content = overwrite b.content b.position bs ∧ b'.position = b.position + bs.length

/-- Where the groups of a number are at the cursor, `rounds` of them at most, the operation takes
them and returns their sum, cut to the width. -/
def LoadsLeb {w : Nat} (op : Op (BitVec w)) (b : ByteArray) (rounds : Nat) : Prop :=
  ∀ bs, varintField rounds (b.content.drop b.position) = some bs →
    ∃ b', op b = .ok (BitVec.ofNat w
        (∑ i ∈ Finset.range bs.length, (bs.getD i 0).toNat % 128 * 2 ^ (7 * i))) b' ∧
      b'.content = b.content ∧ b'.position = b.position + bs.length

theorem storesLeb_writeVarint {w : Nat} {b : ByteArray} (h : Rep b) (room : Nat) (hw : 8 ≤ w)
    (hroom : 2 ^ w ≤ 128 ^ (room + 1)) (v : BitVec w) :
    StoresLeb (writeVarint mem (room + 1) v) b v.toNat (room + 1) := by
  obtain ⟨bs, hbytes, hterm, hval, hlen⟩ := lebBytes_spec (v.isLt.trans_le hroom)
  obtain ⟨b', hwrite, _, hcontent, hposition, _⟩ := write_spec mem h bs
  refine ⟨bs, b', ⟨hterm, hval, fun cs => length_lebBytes_le hbytes⟩, hlen, ?_, hcontent, hposition⟩
  rw [writeVarint, varintBytes_eq hw, hbytes]
  exact hwrite

theorem encodeZigzag_eq {w : Nat} (v : BitVec w) : encodeZigzag v = zigzag v := by
  rw [encodeZigzag, zigzag, BitVec.slt_zero_eq_msb]

theorem toNat_encodeZigzag {w : Nat} (hw : 0 < w) (v : BitVec w) :
    (encodeZigzag v).toNat = zigzagImage v.toInt := by
  rw [encodeZigzag_eq, toNat_zigzag_eq hw]

theorem encodeZigzag_bijective {w : Nat} (hw : 0 < w) :
    Function.Bijective (encodeZigzag : BitVec w → BitVec w) := by
  have heq : (encodeZigzag : BitVec w → BitVec w) = zigzag := by
    funext v
    exact encodeZigzag_eq v
  rw [heq]
  exact zigzag_bijective hw

theorem storesLeb_zigzag {w : Nat} {b : ByteArray} (h : Rep b) (room : Nat) (hw : 8 ≤ w)
    (hroom : 2 ^ w ≤ 128 ^ (room + 1)) (v : BitVec w) :
    StoresLeb (writeVarint mem (room + 1) (encodeZigzag v)) b (zigzagImage v.toInt) (room + 1) := by
  have hstores := storesLeb_writeVarint mem h room hw hroom (encodeZigzag v)
  rwa [toNat_encodeZigzag (by omega)] at hstores

theorem loadsLeb_readVarintLoop {w : Nat} {b : ByteArray} (h : Rep b) (hw : 8 ≤ w) (rounds : Nat) :
    LoadsLeb (readVarintLoop w rounds 0 0) b rounds := by
  intro bs hfield
  obtain ⟨hwhole, hrest⟩ := varintField_spec hfield
  have hparse := parses_varintField hw b.endian 0 (0 : BitVec w) hwhole (by simp)
  obtain ⟨b', hread, _, hcontent, hposition, _⟩ := hparse b h rfl hrest
  refine ⟨b', ?_, hcontent, hposition⟩
  rw [hread, ← lebValue_eq_sum]
  simp

/-- What `writeUint32` has stored, `readUint64` reads as the same number. -/
theorem readUint64_writeUint32 {b : ByteArray} (h : Rep b) (v : BitVec 32) :
    ∃ b1 b2 b3, writeUint32 mem v b = .ok () b1 ∧ setPosition b.position b1 = .ok () b2 ∧
      readUint64 b2 = .ok (v.setWidth 64) b3 ∧ b3.position = b1.position := by
  have hlt : v.toNat < 128 ^ (4 + 1) := v.isLt.trans_le (by decide)
  obtain ⟨bs, hbytes, hterm, hval, hlen⟩ := lebBytes_spec hlt
  obtain ⟨b1, hwrite, h1, hc1, hp1, _⟩ := write_spec mem h bs
  have hle : b.position ≤ b1.size := by
    have hposition := h1.position_le
    omega
  obtain ⟨b2, hseek, h2, hp2, hsize2, hroot2, -⟩ := setPosition_spec h1 (hle.trans h1.size_le)
  rw [Nat.max_eq_left hle] at hsize2
  have hc2 : b2.content = b1.content := by
    rw [content, content, hroot2, hsize2]
  have hdrop : b2.content.drop b2.position = bs ++ b.content.drop (b.position + bs.length) := by
    rw [hc2, hp2, hc1, drop_overwrite h.position_le_content]
  have hparse := parses_varintField (w := 64) (by decide) b2.endian 0 (0 : BitVec 64)
    (varintField_terminated hterm (hlen.trans (by decide : 4 + 1 ≤ 10))) (by decide)
  obtain ⟨b3, hread, _, _, hp3, _⟩ := hparse b2 h2 rfl ⟨_, hdrop⟩
  refine ⟨b1, b2, b3, ?_, hseek, ?_, by rw [hp3, hp2, hp1]⟩
  · rw [writeUint32, writeVarint, varintBytes_eq (by decide), hbytes]
    exact hwrite
  · rw [readUint64, hread]
    have hvalue : BitVec.ofNat 64 ((0 : BitVec 64).toNat + 2 ^ 0 * lebValue bs) = v.setWidth 64 := by
      apply BitVec.eq_of_toNat_eq
      rw [hval, BitVec.toNat_setWidth, BitVec.toNat_ofNat, Nat.pow_zero, Nat.one_mul]
      exact congrArg (· % 2 ^ 64) (Nat.zero_add _)
    rw [hvalue]

/-- The writers store minimal LEB128, of the zigzag image where the type is signed, and that image
is a bijection. The readers sum up what bytes they find, so a 64-bit reader also reads what the
32-bit writer wrote. -/
theorem varint_codec_is_leb128 (mem : Nat → Nat → UInt8) {base : Nat} (hb : 0 < base)
    {b : ByteArray} (hr : Reachable mem base b) :
    (∀ v, StoresLeb (writeUint32 mem v) b v.toNat 5) ∧
      (∀ v, StoresLeb (writeUint64 mem v) b v.toNat 10) ∧
      (∀ v, StoresLeb (writeInt32 mem v) b (zigzagImage v.toInt) 5) ∧
      (∀ v, StoresLeb (writeInt64 mem v) b (zigzagImage v.toInt) 10) ∧
      (∀ v : BitVec 32, (encodeZigzag v).toNat = zigzagImage v.toInt) ∧
      (∀ v : BitVec 64, (encodeZigzag v).toNat = zigzagImage v.toInt) ∧
      Function.Bijective (encodeZigzag : BitVec 32 → BitVec 32) ∧
      Function.Bijective (encodeZigzag : BitVec 64 → BitVec 64) ∧
      LoadsLeb readUint32 b 5 ∧ LoadsLeb readUint64 b 10 ∧
      ∀ v, ∃ b1 b2 b3, writeUint32 mem v b = .ok () b1 ∧ setPosition b.position b1 = .ok () b2 ∧
        readUint64 b2 = .ok (v.setWidth 64) b3 ∧ b3.position = b1.position := by
  have h := hr.rep hb
  refine ⟨?_, ?_, ?_, ?_, toNat_encodeZigzag (by decide), toNat_encodeZigzag (by decide),
    encodeZigzag_bijective (by decide), encodeZigzag_bijective (by decide), ?_, ?_,
    readUint64_writeUint32 mem h⟩
  · exact storesLeb_writeVarint mem h 4 (by decide) (by decide)
  · exact storesLeb_writeVarint mem h 9 (by decide) (by decide)
  · exact storesLeb_zigzag mem h 4 (by decide) (by decide)
  · exact storesLeb_zigzag mem h 9 (by decide) (by decide)
  · exact loadsLeb_readVarintLoop h (by decide) 5
  · exact loadsLeb_readVarintLoop h (by decide) 10

/-- Two groups over a border between blocks, read from the start. -/
def threeHundred : Option ByteArray :=
  performAll (fun _ _ => 0xcd) [.write [1, 0xac, 0x02], .setPosition 1] (new (fun _ _ => 0xcd) 2)

theorem reachable_of_performAll {base : Nat} {b b' : ByteArray} (h : Reachable mem base b)
    (calls : List Call) (hc : performAll mem calls b = some b') : Reachable mem base b' := by
  induction calls generalizing b with
  | nil =>
      cases hc
      exact h
  | cons call calls ih =>
      obtain ⟨b1, h1, hrest⟩ := Option.bind_eq_some_iff.mp hc
      exact ih (h.perform call h1) hrest

theorem varint_codec_is_leb128_run :
    0 < 2 ∧ ∃ b, threeHundred = some b ∧ Reachable (fun _ _ => 0xcd) 2 b ∧
      StoresLeb (writeInt32 (fun _ _ => 0xcd) (-3)) b 5 5 ∧
      ∃ b', readUint32 b = .ok 300 b' ∧ b'.position = 3 := by
  have hrun : (threeHundred.map fun b => (b.position, b.content.drop b.position)) =
      some (1, [0xac, 0x02]) := by
    decide
  obtain ⟨b, hb, heq⟩ := Option.map_eq_some_iff.mp hrun
  obtain ⟨hposition, hbytes⟩ := Prod.mk.inj heq
  have hreach := reachable_of_performAll _ Reachable.new _ hb
  obtain ⟨-, -, hstores, -, -, -, -, -, hloads, -, -⟩ :=
    varint_codec_is_leb128 (fun _ _ => 0xcd) (by decide) hreach
  obtain ⟨b', hread, -, hend⟩ := hloads [0xac, 0x02] (by rw [hbytes]; decide)
  refine ⟨by decide, b, hb, hreach, hstores (-3), b', ?_, ?_⟩
  · rw [hread]
    rfl
  · rw [hend, hposition]
    rfl

end ByteArray
end HCServer
