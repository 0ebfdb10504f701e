import HCServer.ByteArray.RoundTrip

/-! Strings behind their length. A reader asks `read` for the bytes of an empty string too, which
looks at the node under the cursor, and the writers cut a length down to the type of their field. -/
namespace HCServer
open Lib

namespace ByteArray
variable (mem : Nat → Nat → UInt8)

/-- The common body of the four writers. -/
def writeSized {w : Nat} (writeLength : BitVec w → Op Unit) (value : List UInt8) : Op Unit := do
  writeLength (BitVec.ofNat w value.length)
  write mem value

def writeStringF16 (value : List UInt8) : Op Unit := writeSized mem (writeFuint16 mem) value
def writeStringF32 (value : List UInt8) : Op Unit := writeSized mem (writeFuint32 mem) value
def writeStringF64 (value : List UInt8) : Op Unit := writeSized mem (writeFuint64 mem) value
def writeStringVint (value : List UInt8) : Op Unit := writeSized mem (writeUint64 mem) value

/-- The common body of the four readers, where `resize` finds the memory. -/
def readSized {w : Nat} (readLength : Op (BitVec w)) : Op (List UInt8) := do
  let len ← readLength
  read len.toNat

def readStringF16 : Op (List UInt8) := readSized readFuint16
def readStringF32 : Op (List UInt8) := readSized readFuint32
def readStringF64 : Op (List UInt8) := readSized readFuint64
def readStringVint : Op (List UInt8) := readSized readUint64

inductive StringFormat
  | F16
  | F32
  | F64
  | Vint
  deriving DecidableEq, Repr

namespace StringFormat

/-- The width of the type that the length is converted to. -/
def width : StringFormat → Nat
  | .F16 => 16
  | .F32 => 32
  | .F64 => 64
  | .Vint => 64

/-- The number of bytes that the length of an empty string takes. -/
def emptySize : StringFormat → Nat
  | .F16 => 2
  | .F32 => 4
  | .F64 => 8
  | .Vint => 1

def writeString : StringFormat → List UInt8 → Op Unit
  | .F16 => writeStringF16 mem
  | .F32 => writeStringF32 mem
  | .F64 => writeStringF64 mem
  | .Vint => writeStringVint mem

def readString : StringFormat → Op (List UInt8)
  | .F16 => readStringF16
  | .F32 => readStringF32
  | .F64 => readStringF64
  | .Vint => readStringVint

def writeLength : (f : StringFormat) → BitVec f.width → Op Unit
  | .F16 => writeFuint16 mem
  | .F32 => writeFuint32 mem
  | .F64 => writeFuint64 mem
  | .Vint => writeUint64 mem

def readLength : (f : StringFormat) → Op (BitVec f.width)
  | .F16 => readFuint16
  | .F32 => readFuint32
  | .F64 => readFuint64
  | .Vint => readUint64

theorem writeString_eq (f : StringFormat) : f.writeString mem = writeSized mem (f.writeLength mem) := by
  cases f <;> rfl

theorem readString_eq (f : StringFormat) : f.readString = readSized f.readLength := by
  cases f <;> rfl

end StringFormat

/-- Writing `s` and then `after`, going back and reading: `s` comes back, the position is the end of
its record and `after` is read as it was written. -/
def Restores (f : StringFormat) (b : ByteArray) (s after : List UInt8) : Prop :=
  ∃ b1 b2 b3 b4, f.writeString mem s b = .ok () b1 ∧ write mem after b1 = .ok () b2 ∧
    setPosition b.position b2 = .ok () b3 ∧ f.readString b3 = .ok s b4 ∧
    b4.position = b1.position ∧ b4.content = b2.content ∧
    (after ≠ [] → ∃ b5, read after.length b4 = .ok after b5)

/-- Nothing is written after the length of an empty string, and it ends where the last node ends. -/
def EndsCapacity (f : StringFormat) (b : ByteArray) : Prop :=
  b.capacity ≤ b.position + f.emptySize ∧ b.baseSize ∣ b.position + f.emptySize

theorem bind_eq_ok {α β : Type} {x : Op α} {k : α → Op β} {b b'' : ByteArray} {c : β}
    (h : (x >>= k) b = .ok c b'') : ∃ a b', x b = .ok a b' ∧ k a b' = .ok c b'' := by
  change EStateM.bind x k b = _ at h
  rw [EStateM.bind] at h
  cases hx : x b with
  | ok a b' =>
      rw [hx] at h
      exact ⟨a, b', rfl, h⟩
  | error e b' =>
      rw [hx] at h
      cases h

section Capacity
variable {α β : Type}

/-- Nodes are neither added nor released. -/
def KeepsCapacity (op : Op α) : Prop := ∀ b a b', op b = .ok a b' → b'.capacity = b.capacity

theorem KeepsCapacity.pure (a : α) : KeepsCapacity (pure a) := by
  intro b a' b' h
  cases h
  rfl

theorem KeepsCapacity.bind {op : Op α} {k : α → Op β} (h : KeepsCapacity op)
    (hk : ∀ a, KeepsCapacity (k a)) : KeepsCapacity (op >>= k) := by
  intro b c b'' hrun
  obtain ⟨a, b', h1, h2⟩ := bind_eq_ok hrun
  exact (hk a b' c b'' h2).trans (h b a b' h1)

theorem keepsCapacity_read (n : Nat) : KeepsCapacity (read n) := by
  intro b l b' h
  rw [read] at h
  split at h
  · cases h
  · split at h
    · cases h
    · cases h
      rfl

theorem keepsCapacity_readObject (w : Nat) : KeepsCapacity (readObject w) :=
  (keepsCapacity_read _).bind fun _ => KeepsCapacity.pure _

theorem keepsCapacity_readFixed (w : Nat) : KeepsCapacity (readFixed w) := by
  refine (keepsCapacity_readObject w).bind ?_
  intro v
  refine KeepsCapacity.bind ?_ ?_
  · intro b a b' h
    cases h
    rfl
  · intro b
    split
    · exact KeepsCapacity.pure _
    · exact KeepsCapacity.pure _

theorem keepsCapacity_readVarintLoop (w rounds i : Nat) (result : BitVec w) :
    KeepsCapacity (readVarintLoop w rounds i result) := by
  induction rounds generalizing i result with
  | zero => exact KeepsCapacity.pure _
  | succ rounds ih =>
      refine (keepsCapacity_readObject 8).bind ?_
      intro b
      split
      · exact KeepsCapacity.pure _
      · exact ih _ _

theorem keepsCapacity_readLength (f : StringFormat) : KeepsCapacity f.readLength := by
  cases f with
  | F16 => exact keepsCapacity_readFixed 16
  | F32 => exact keepsCapacity_readFixed 32
  | F64 => exact keepsCapacity_readFixed 64
  | Vint => exact keepsCapacity_readVarintLoop 64 10 0 0

/-- `addCapacity` adds no node that is not needed. -/
theorem addCapacity_tight {b : ByteArray} (h : Rep b) (n : Nat) :
    b.capacity ≤ (addCapacity mem n b).capacity ∧
      ((addCapacity mem n b).capacity = b.capacity ∨
        (addCapacity mem n b).capacity < b.position + n + b.baseSize) := by
  have hcap : b.getCapacity = b.capacity - b.position :=
    sizeSub_of_le (h.position_le.trans h.size_le)
  have hle : b.position ≤ b.capacity := h.position_le.trans h.size_le
  unfold addCapacity
  split
  · exact ⟨le_refl _, Or.inl rfl⟩
  · dsimp only
    by_cases hroom : b.getCapacity ≥ n
    · rw [if_pos hroom]
      exact ⟨le_refl _, Or.inl rfl⟩
    · rw [if_neg hroom]
      obtain ⟨fresh, _, _, heq⟩ := appendNodes_spec mem
        ((n - b.getCapacity + b.baseSize - 1) / b.baseSize) b
      have hmul := Nat.mul_div_le (n - b.getCapacity + b.baseSize - 1) b.baseSize
      have hpos := h.base_pos
      rw [heq]
      split
      · exact ⟨Nat.le_add_right _ _, Or.inr (by dsimp only; omega)⟩
      · exact ⟨Nat.le_add_right _ _, Or.inr (by dsimp only; omega)⟩

theorem write_capacity {b b' : ByteArray} {buf : List UInt8} (hne : buf ≠ [])
    (hw : write mem buf b = .ok () b') : b'.capacity = (addCapacity mem buf.length b).capacity := by
  have hlen : buf.length ≠ 0 := fun h => hne (List.length_eq_zero_iff.mp h)
  rw [write, if_neg hlen] at hw
  dsimp only at hw
  split at hw
  · cases hw
  · cases hw
    rfl

/-- After a write the cursor is null exactly when the data ends where a node ends, at or past the
capacity that there was. -/
theorem write_ends {b b' : ByteArray} (h : Rep b) (h' : Rep b') {buf : List UInt8} (hne : buf ≠ [])
    (hw : write mem buf b = .ok () b') (hpos : b'.position = b.position + buf.length)
    (hbase : b'.baseSize = b.baseSize) :
    b'.position = b'.capacity ↔
      b.capacity ≤ b.position + buf.length ∧ b.baseSize ∣ b.position + buf.length := by
  obtain ⟨hgrow, htight⟩ := addCapacity_tight mem h buf.length
  have hroom := h'.position_le.trans h'.size_le
  have hcap := h'.capacity_eq
  rw [← write_capacity mem hne hw] at hgrow htight
  rw [hbase] at hcap
  constructor
  · intro hfull
    refine ⟨by omega, b'.root.length, ?_⟩
    rw [← hpos, hfull, hcap]
  · rintro ⟨hle, k, hk⟩
    rcases htight with hsame | hlt
    · omega
    · have hlen : b'.root.length < k + 1 := by
        refine Nat.lt_of_mul_lt_mul_left (a := b.baseSize) ?_
        rw [Nat.mul_add, Nat.mul_one, ← hk, ← hcap]
        exact hlt
      have hmul : b.baseSize * b'.root.length ≤ b.baseSize * k := Nat.mul_le_mul_left _ (by omega)
      omega

end Capacity

theorem length_fixedImage {w : Nat} (e : Endian) (v : BitVec w) : (fixedImage e v).length = w / 8 := by
  rw [fixedImage]
  split <;> exact length_objectBytes _

/-- A length is stored as one byte string, which its reader parses. -/
theorem length_codec (f : StringFormat) (n : BitVec f.width) (e : Endian) :
    ∃ bs, bs ≠ [] ∧ (∀ b, b.endian = e → f.writeLength mem n b = write mem bs b) ∧
      Parses e f.readLength bs n ∧ (n = 0 → bs.length = f.emptySize) := by
  have fixed {w : Nat} (hw : 8 ∣ w) (h0 : 0 < w) (v : BitVec w) :
      ∃ bs, bs ≠ [] ∧ (∀ b, b.endian = e → writeFixed mem v b = write mem bs b) ∧
        Parses e (readFixed w) bs v ∧ (v = 0 → bs.length = w / 8) := by
    have hlen := length_fixedImage e v
    have hpos : 0 < w / 8 := Nat.div_pos (Nat.le_of_dvd h0 hw) (by decide)
    exact ⟨fixedImage e v, List.ne_nil_of_length_pos (by omega), fun b he => writeFixed_eq mem v he,
      parses_readFixed hw h0 e v, fun _ => hlen⟩
  cases f with
  | F16 => exact fixed (w := 16) (by decide) (by decide) n
  | F32 => exact fixed (w := 32) (by decide) (by decide) n
  | F64 => exact fixed (w := 64) (by decide) (by decide) n
  | Vint =>
      obtain ⟨bs, heq, hterm, hwrite, hparse⟩ :=
        varint_stores mem (w := 64) 9 (by decide) (by decide) n
      refine ⟨bs, ?_, ?_, hparse e, ?_⟩
      · rintro rfl
        exact hterm
      · intro b _
        exact congrFun hwrite b
      · rintro rfl
        cases heq
        rfl

/-- How far the three calls come, and the reader of the length after them. -/
structure Rewound (f : StringFormat) (b : ByteArray) (s after : List UInt8)
    (b1 b2 b3 b4 : ByteArray) : Prop where
  writeString : f.writeString mem s b = .ok () b1
  write : write mem after b1 = .ok () b2
  setPosition : setPosition b.position b2 = .ok () b3
  readLength : f.readLength b3 = .ok (BitVec.ofNat f.width s.length) b4
  rep : Rep b4
  content : b4.content = b2.content
  position : b1.position = b4.position + s.length
  rest : ∃ rest, b4.content.drop b4.position = s ++ (after ++ rest)
  ends : s = [] → after = [] → (b4.position = b4.capacity ↔ EndsCapacity f b)

theorem rewound {b : ByteArray} (h : Rep b) (f : StringFormat) (s after : List UInt8) :
    ∃ b1 b2 b3 b4, Rewound mem f b s after b1 b2 b3 b4 := by
  obtain ⟨bs, hne, hwrite, hparse, hempty⟩ :=
    length_codec mem f (BitVec.ofNat f.width s.length) b.endian
  obtain ⟨b0, hw0, h0, hc0, hp0, hb0, he0⟩ := write_spec mem h bs
  obtain ⟨b1, hw1, h1, hc1, hp1, _, he1⟩ := write_spec mem h0 s
  obtain ⟨b2, hw2, h2, hc2, hp2, _, he2⟩ := write_spec mem h1 after
  have hle : b.position ≤ b2.size := by
    have hlast := h2.position_le
    omega
  obtain ⟨b3, hs3, h3, hp3, hsize3, hroot3, hbase3, he3⟩ :=
    setPosition_spec h2 (hle.trans h2.size_le)
  rw [Nat.max_eq_left hle] at hsize3
  have hcontent3 : b3.content = b2.content := by
    rw [ByteArray.content, ByteArray.content, hroot3, hsize3]
  have hcap3 : b3.capacity = b2.capacity := by
    rw [h3.capacity_eq, h2.capacity_eq, hroot3, hbase3]
  have hall : b2.content = overwrite b.content b.position (bs ++ (s ++ after)) := by
    have hfirst : b.position ≤ b.content.length := h.position_le_content
    rw [hc2, hc1, hp1, overwrite_overwrite (by rw [h0.length_content]; exact h0.position_le), hc0, hp0,
      overwrite_overwrite hfirst]
  have hdrop : b3.content.drop b3.position =
      bs ++ (s ++ (after ++ b.content.drop (b.position + (bs ++ (s ++ after)).length))) := by
    rw [hcontent3, hp3, hall, drop_overwrite h.position_le_content]
    simp only [List.append_assoc]
  obtain ⟨b4, hr4, h4, hc4, hp4, _⟩ :=
    hparse b3 h3 (he3.trans (he2.trans (he1.trans he0))) ⟨_, hdrop⟩
  have hcap4 : b4.capacity = b3.capacity := keepsCapacity_readLength f b3 _ b4 hr4
  refine ⟨b1, b2, b3, b4, ?_, hw2, hs3, hr4, h4, hc4.trans hcontent3, by omega, ?_, ?_⟩
  · have hlength : f.writeLength mem (BitVec.ofNat f.width s.length) b = .ok () b0 :=
      (hwrite b rfl).trans hw0
    rw [StringFormat.writeString_eq, writeSized, bind_ok hlength, hw1]
  · refine ⟨b.content.drop (b.position + (bs ++ (s ++ after)).length), ?_⟩
    rw [hc4, hp4, ← List.drop_drop, hdrop, List.drop_left]
  · rintro rfl rfl
    have hlen : bs.length = f.emptySize := hempty rfl
    have hsame1 : b1 = b0 := by
      cases hw1
      rfl
    have hsame2 : b2 = b0 := by
      cases hw2
      exact hsame1
    have hends := write_ends mem h h0 hne hw0 hp0 hb0
    rw [hlen] at hends hp0
    have hcap : b4.capacity = b0.capacity := by rw [hcap4, hcap3, hsame2]
    have hpos : b4.position = b0.position := by rw [hp4, hp3, hlen, hp0]
    rw [hcap, hpos, hends, EndsCapacity]

theorem length_of_read {b b' : ByteArray} (h : Rep b) {n : Nat} {l : List UInt8}
    (hread : read n b = .ok l b') : l.length = n := by
  by_cases hn : n ≤ b.size - b.position
  · by_cases hcur : b.position < b.capacity
    · obtain ⟨b'', hspec, _⟩ := read_spec h hn hcur
      rw [hspec] at hread
      cases hread
      rw [List.length_take, List.length_drop, h.length_content]
      omega
    · have hle := h.position_le.trans h.size_le
      rw [read, h.readSize, if_neg (by omega), h.cur_eq, if_pos (by omega)] at hread
      cases hread
  · rw [read_throws h (by omega)] at hread
    cases hread

/-- Even for nothing, `read` wants a node under the cursor. -/
theorem read_zero {b : ByteArray} (h : Rep b) :
    (∃ b', read 0 b = .ok [] b') ↔ b.position ≠ b.capacity := by
  have hle := h.position_le.trans h.size_le
  constructor
  · rintro ⟨b', hread⟩ hend
    rw [read, h.readSize, if_neg (by omega), h.cur_eq, if_pos hend] at hread
    cases hread
  · intro hend
    obtain ⟨b', hread, _⟩ := read_spec h (Nat.zero_le _) (by omega)
    exact ⟨b', hread⟩

/-- A string comes back exactly when its length fits the type of the field and, if the string is
empty and nothing follows, its length does not end where the last node ends. -/
theorem string_round_trip (mem : Nat → Nat → UInt8) {base : Nat} (hb : 0 < base)
    (calls : List Call) {b : ByteArray} (hc : performAll mem calls (new mem base) = some b)
    (f : StringFormat) (s after : List UInt8) :
    Restores mem f b s after ↔
      s.length < 2 ^ f.width ∧ (s = [] → after = [] → ¬ EndsCapacity f b) := by
  obtain ⟨h, -⟩ := (rep_new mem hb).performAll mem calls hc
  obtain ⟨b1, b2, b3, b4, hr⟩ := rewound mem h f s after
  have hread : f.readString b3 = read (BitVec.ofNat f.width s.length).toNat b4 := by
    rw [StringFormat.readString_eq]
    exact bind_ok hr.readLength
  obtain ⟨rest, hrest⟩ := hr.rest
  constructor
  · rintro ⟨c1, c2, c3, c4, hw, ha, hs, hstring, _⟩
    rw [hr.writeString] at hw
    cases hw
    rw [hr.write] at ha
    cases ha
    rw [hr.setPosition] at hs
    cases hs
    rw [hread] at hstring
    have hlen := length_of_read hr.rep hstring
    rw [BitVec.toNat_ofNat] at hlen
    refine ⟨hlen ▸ Nat.mod_lt _ (Nat.two_pow_pos _), ?_⟩
    rintro rfl hafter hends
    exact (read_zero hr.rep).mp ⟨c4, hstring⟩ ((hr.ends rfl hafter).mpr hends)
  · rintro ⟨hfits, hroom⟩
    rw [BitVec.toNat_ofNat, Nat.mod_eq_of_lt hfits] at hread
    have hback : b4.position < b4.capacity := by
      have hle := hr.rep.position_le.trans hr.rep.size_le
      by_cases hnil : s = [] ∧ after = []
      · have hnot := hroom hnil.1 hnil.2
        rw [← hr.ends hnil.1 hnil.2] at hnot
        omega
      · have hlen := congrArg List.length hrest
        rw [List.length_drop, hr.rep.length_content, List.length_append, List.length_append] at hlen
        have hpos : 0 < s.length + after.length := by
          by_contra hzero
          exact hnil ⟨List.length_eq_zero_iff.mp (by omega), List.length_eq_zero_iff.mp (by omega)⟩
        exact hr.rep.position_lt (n := 1) (by omega) (by omega)
    have hsize : s.length ≤ b4.size - b4.position := by
      rw [← hr.rep.length_content, ← List.length_drop, hrest, List.length_append]
      exact Nat.le_add_right _ _
    obtain ⟨b5, hr5, h5, hc5, hp5, _, he5⟩ := read_spec hr.rep hsize hback
    rw [hrest, List.take_left] at hr5
    refine ⟨b1, b2, b3, b5, hr.writeString, hr.write, hr.setPosition, hread.trans hr5,
      hp5.trans hr.position.symm, hc5.trans hr.content, ?_⟩
    intro hafter
    have hnext : b5.content.drop b5.position = after ++ rest := by
      rw [hc5, hp5, ← List.drop_drop, hrest, List.drop_left]
    obtain ⟨b6, hr6, _⟩ := parses_read b5.endian after hafter b5 h5 rfl ⟨rest, hnext⟩
    exact ⟨b6, hr6⟩

theorem string_round_trip_run :
    ∃ b, performAll (fun _ _ => 0xcd) [.write [1]] (new (fun _ _ => 0xcd) 3) = some b ∧
      Restores (fun _ _ => 0xcd) .Vint b [104, 105] [7] := by
  have hrun : (performAll (fun _ _ => 0xcd) [.write [1]] (new (fun _ _ => 0xcd) 3)).isSome := by
    decide
  obtain ⟨b, hb⟩ := Option.isSome_iff_exists.mp hrun
  exact ⟨b, hb, (string_round_trip _ (by decide) _ hb .Vint [104, 105] [7]).mpr
    ⟨by decide, fun hnil => (nomatch hnil)⟩⟩

/-- An empty string behind a `uint32_t`, written at the start and read back. -/
def rereadEmpty : Op (List UInt8) := do
  StringFormat.writeString (fun _ _ => 0) .F32 []
  write (fun _ _ => 0) []
  setPosition 0
  StringFormat.readString .F32

/-- With blocks of four bytes an empty string behind a `uint32_t` fills its block, and reading it
back goes through a null cursor. -/
theorem empty_string_at_block_end :
    ¬ ∀ (mem : Nat → Nat → UInt8) (base : Nat), 0 < base → ∀ (calls : List Call) (b : ByteArray),
      performAll mem calls (new mem base) = some b →
      ∀ (f : StringFormat) (s after : List UInt8), Restores mem f b s after := by
  intro h
  obtain ⟨b1, b2, b3, b4, hw, ha, hs, hread, _⟩ :=
    h (fun _ _ => 0) 4 (by decide) [] (new (fun _ _ => 0) 4) rfl .F32 [] []
  have hlast : rereadEmpty (new (fun _ _ => 0) 4) = .ok [] b4 := by
    rw [rereadEmpty, bind_ok hw, bind_ok ha]
    exact (bind_ok hs).trans hread
  have hrun : EStateM.run' rereadEmpty (new (fun _ _ => 0) 4) = some [] := by
    delta EStateM.run' EStateM.run
    rw [hlast]
  exact absurd hrun (by decide)

end ByteArray
end HCServer
