import HCServer.ByteArray.Iovecs

/-! The overloads of `read` and `getReadBuffers` that take a position of their own. Both still
consult the cursor, the first for the block it starts in and the second for the length it allows:
here is what that leaves of their contracts. -/
namespace HCServer
open Lib

theorem readLoop_overrun {s : Nat} {nodes : List Node} (npos size : Nat) (hu : Uniform s nodes)
    (hn : npos ≤ s) (hover : s * nodes.length < npos + size) :
    ByteArray.readLoop nodes npos size = none := by
  induction nodes generalizing npos size with
  | nil => rfl
  | cons n next ih =>
      have hsize : n.size = s := hu.head
      rw [List.length_cons, Nat.mul_succ] at hover
      have hshort : ¬ n.size - npos ≥ size := by omega
      have hrec := ih 0 (size - (n.size - npos)) hu.tail (Nat.zero_le s) (by omega)
      have h0 : size ≠ 0 := by omega
      simp [ByteArray.readLoop, h0, hshort, hrec]

/-- Two slices of one list agree when they agree byte for byte. -/
theorem slice_eq_iff {α : Type*} (l : List α) (p q n : Nat) :
    (l.drop p).take n = (l.drop q).take n ↔ ∀ i < n, l[p + i]? = l[q + i]? := by
  constructor
  · intro h i hi
    have hi' := congrArg (·[i]?) h
    simpa [List.getElem?_take, hi] using hi'
  · intro h
    apply List.ext_getElem?
    intro i
    by_cases hi : i < n
    · simpa [List.getElem?_take, hi] using h i hi
    · simp [hi]

namespace ByteArray

/-- The positional `read` as it is meant: a check against the data, then the bytes asked for. -/
def ReadsAddressed (b : ByteArray) (size position : Nat) : Prop :=
  b.readAt size position =
    if b.size < position + size then .error (.outOfRange "not enough len")
    else .ok ((b.content.drop position).take size)

/-- The place where the copy starts: the offset of `position` in the block of the cursor. -/
def copyStart (b : ByteArray) (position : Nat) : Nat :=
  b.baseSize * (b.position / b.baseSize) + position % b.baseSize

/-- There is a block at the cursor, and the bytes from the copy's start on happen to be those at
`position`. -/
structure CursorServes (b : ByteArray) (size position : Nat) : Prop where
  on_node : b.position < b.capacity
  same : ∀ i < size, (bytesOf b.root)[b.copyStart position + i]? = (bytesOf b.root)[position + i]?

theorem CursorServes.of_same_block {b : ByteArray} {size position : Nat}
    (hnode : b.position < b.capacity) (hblock : position / b.baseSize = b.position / b.baseSize) :
    b.CursorServes size position where
  on_node := hnode
  same := by
    intro i _
    rw [copyStart, ← hblock, Nat.div_add_mod]

/-- The copy runs from its start, or off the end of the list. -/
theorem Rep.readLoop_from_cursor {b : ByteArray} (h : Rep b) (hnode : b.position < b.capacity)
    (size position : Nat) :
    (readLoop (nodesFrom b.root b.cur) (position % b.baseSize) size).map Prod.fst =
      if b.copyStart position + size ≤ b.capacity then
        some (((bytesOf b.root).drop (b.copyStart position)).take size)
      else none := by
  obtain ⟨-, hu, -, hne, hrest⟩ := h.split hnode
  have hmod := Nat.mod_lt position h.base_pos
  have hdm := Nat.div_add_mod b.position b.baseSize
  rw [h.cur_of_lt hnode, nodesFrom]
  by_cases hfit : b.copyStart position + size ≤ b.capacity
  · have hloop := readLoop_spec h.base_pos (position % b.baseSize) size hu hmod hne
      (by rw [copyStart] at hfit; omega)
    rw [if_pos hfit, hloop, h.bytesOf_drop]
    rfl
  · have hloop := readLoop_overrun (position % b.baseSize) size hu hmod.le
      (by rw [copyStart] at hfit; omega)
    rw [if_neg hfit, hloop]
    rfl

theorem readAt_of_le {b : ByteArray} {size position : Nat} (hsize : size ≤ sizeSub b.size position) :
    b.readAt size position =
      match (readLoop (nodesFrom b.root b.cur) (position % b.baseSize) size).map Prod.fst with
      | none => .error .fault
      | some bytes => .ok bytes := by
  rw [readAt, if_neg (by omega)]
  cases readLoop (nodesFrom b.root b.cur) (position % b.baseSize) size <;> rfl

theorem readAt_throws {b : ByteArray} {size position : Nat} (hsize : sizeSub b.size position < size) :
    b.readAt size position = .error (.outOfRange "not enough len") := by
  rw [readAt, if_pos hsize]

/-- Past the data the unsigned difference decides. -/
theorem Rep.readAt_past {b : ByteArray} (size position : Nat)
    (hpast : b.size < position + size) :
    b.ReadsAddressed size position ↔
      position ≤ b.size ∨ 2 ^ 64 - (position - b.size) < size := by
  rw [ReadsAddressed, if_pos hpast]
  by_cases hle : position ≤ b.size
  · have hshort : sizeSub b.size position < size := by
      rw [sizeSub_of_le hle]
      omega
    have hthrow := readAt_throws hshort
    exact ⟨fun _ => .inl hle, fun _ => hthrow⟩
  · have hsub : sizeSub b.size position = 2 ^ 64 - (position - b.size) := if_neg hle
    constructor
    · intro heq
      by_contra hno
      rw [readAt_of_le (by omega)] at heq
      split at heq <;> cases heq
    · intro hwrap
      exact readAt_throws (by omega)

theorem Rep.readAt_inside {b : ByteArray} (h : Rep b) (size position : Nat)
    (hfit : position + size ≤ b.size) :
    b.ReadsAddressed size position ↔ b.CursorServes size position := by
  have hcap := h.size_le
  have hlen := h.length_bytes
  rw [ReadsAddressed, if_neg (by omega), take_content hfit,
    readAt_of_le (by rw [sizeSub_of_le (by omega)]; omega)]
  by_cases hnode : b.position < b.capacity
  · rw [h.readLoop_from_cursor hnode]
    by_cases hroom : b.copyStart position + size ≤ b.capacity
    · rw [if_pos hroom]
      constructor
      · intro heq
        exact ⟨hnode, (slice_eq_iff _ _ _ _).mp (Except.ok.inj heq)⟩
      · intro hserves
        exact congrArg Except.ok ((slice_eq_iff _ _ _ _).mpr hserves.same)
    · rw [if_neg hroom]
      constructor
      · intro heq
        cases heq
      · -- the last byte asked for exists, the last one copied would not
        intro hserves
        have hstart : b.copyStart position < b.capacity := by
          have hdm := Nat.div_add_mod b.position b.baseSize
          obtain ⟨-, -, -, hne, hrest⟩ := h.split hnode
          have hpos := List.length_pos_of_ne_nil hne
          have hmod := Nat.mod_lt position h.base_pos
          have hblock : b.baseSize * 1 ≤
              b.baseSize * (b.root.drop (b.position / b.baseSize)).length :=
            Nat.mul_le_mul_left _ hpos
          rw [copyStart]
          omega
        have hlast := hserves.same (size - 1) (by omega)
        rw [List.getElem?_eq_none (by omega), List.getElem?_eq_getElem (by omega)] at hlast
        cases hlast
  · have hnull : nodesFrom b.root b.cur = [] := by
      rw [h.cur_eq, if_pos (by have := h.position_le; omega), nodesFrom]
    rw [hnull]
    constructor
    · intro heq
      cases heq
    · intro hserves
      exact absurd hserves.on_node hnode

/-- The positional read does what it is for exactly when the check is not fooled by the unsigned
difference and, inside the data, the cursor's block serves the request. -/
theorem readAt_addressed_iff (mem : Nat → Nat → UInt8) {base : Nat} (hb : 0 < base)
    (calls : List Call) {b : ByteArray} (hc : performAll mem calls (new mem base) = some b)
    (size position : Nat) :
    b.ReadsAddressed size position ↔
      if b.size < position + size then
        position ≤ b.size ∨ 2 ^ 64 - (position - b.size) < size
      else b.CursorServes size position := by
  obtain ⟨h, -⟩ := (rep_new mem hb).performAll mem calls hc
  by_cases hpast : b.size < position + size
  · rw [if_pos hpast]
    exact Rep.readAt_past size position hpast
  · rw [if_neg hpast]
    exact h.readAt_inside size position (by omega)

/-- Four bytes in blocks of three. -/
def fourBytes : List Call := [.write [1, 2, 3, 4]]

theorem readAt_addressed_iff_run :
    0 < 3 ∧ ∃ b, performAll (fun _ _ => 0xcd) fourBytes (new (fun _ _ => 0xcd) 3) = some b ∧
      (b.ReadsAddressed 1 3 ↔
        if b.size < 3 + 1 then 3 ≤ b.size ∨ 2 ^ 64 - (3 - b.size) < 1
        else b.CursorServes 1 3) := by
  have hrun : (performAll (fun _ _ => 0xcd) fourBytes (new (fun _ _ => 0xcd) 3)).isSome := by
    decide
  obtain ⟨b, hb⟩ := Option.isSome_iff_exists.mp hrun
  exact ⟨by decide, b, hb, readAt_addressed_iff _ (by decide) _ hb 1 3⟩

/-- The first byte is asked for and the fourth one comes back. -/
theorem readAt_ignores_block : ¬ ∀ (mem : Nat → Nat → UInt8) (base : Nat), 0 < base →
    ∀ (calls : List Call) (b : ByteArray), performAll mem calls (new mem base) = some b →
      ∀ size position, b.ReadsAddressed size position := by
  intro h
  have hread := h (fun _ _ => 0xcd) 3 (by decide) fourBytes _ rfl 1 0
  have hbytes : (Except.ok [4] : Except Exn (List UInt8)) = .ok [1] := hread
  cases hbytes

/-- The node walk of the positional `getReadBuffers`: the nodes from the one it stops at on. -/
def walkLoop : List Node → Nat → Option (List Node)
  | nodes, 0 => some nodes
  | [], _ + 1 => none
  | _ :: next, count + 1 => walkLoop next count

/-- The positional overload. Its clamp is the one of the cursor. -/
def getReadBuffersAt (b : ByteArray) (buffers : List Iovec) (len position : Nat) :
    Except Exn (Nat × List Iovec) :=
  let len := if len > b.getReadSize then b.getReadSize else len
  if len = 0 then .ok (0, buffers)
  else
    let count := position / b.baseSize
    match (walkLoop b.root count).bind fun nodes =>
        iovecLoop nodes count (position % b.baseSize) len with
    | none => .error .fault
    | some iovs => .ok (len, buffers ++ iovs)

theorem walkLoop_eq {nodes : List Node} {count : Nat} (h : count ≤ nodes.length) :
    walkLoop nodes count = some (nodes.drop count) := by
  induction nodes generalizing count with
  | nil =>
      rw [Nat.le_zero.mp h]
      rfl
  | cons n next ih =>
      cases count with
      | zero => rfl
      | succ count => exact ih (Nat.le_of_succ_le_succ h)

/-- The positional `getReadBuffers` as it is meant: the stored bytes from `position` on. -/
def OffersAddressed (b : ByteArray) (before : List Iovec) (len position : Nat) : Prop :=
  ∃ iovs, b.getReadBuffersAt before len position =
      .ok (min len (b.size - position), before ++ iovs) ∧
    gather b.root iovs = some ((b.content.drop position).take (min len (b.size - position)))

theorem Rep.offered_length {b : ByteArray} (h : Rep b) {before iovs : List Iovec}
    {len position n : Nat} (hok : b.getReadBuffersAt before len position = .ok (n, iovs)) :
    n = min len (b.size - b.position) := by
  unfold getReadBuffersAt at hok
  rw [h.clamp_eq] at hok
  dsimp only at hok
  split at hok
  · case isTrue h0 =>
      rw [h0]
      exact (congrArg Prod.fst (Except.ok.inj hok)).symm
  · split at hok
    · cases hok
    · exact (congrArg Prod.fst (Except.ok.inj hok)).symm

theorem Rep.offers {b : ByteArray} (h : Rep b) (before : List Iovec) {len position : Nat}
    (hclamp : min len (b.size - b.position) = min len (b.size - position)) :
    b.OffersAddressed before len position := by
  have hcap := h.size_le
  unfold OffersAddressed getReadBuffersAt
  rw [h.clamp_eq, hclamp]
  dsimp only
  by_cases h0 : min len (b.size - position) = 0
  · exact ⟨[], by rw [if_pos h0, h0, List.append_nil], by rw [h0, List.take_zero, gather]⟩
  · have hfit : position + min len (b.size - position) ≤ b.capacity := by omega
    obtain ⟨iovs, hloop, -, hgather, -⟩ := h.iovecs_at (by omega) hfit
    have hwalk : position / b.baseSize ≤ b.root.length := by
      rw [Nat.div_le_iff_le_mul_add_pred h.base_pos, ← h.capacity_eq]
      omega
    rw [if_neg h0, walkLoop_eq hwalk, Option.bind_some, hloop]
    exact ⟨iovs, rfl, by rw [hgather, take_content (by omega)]⟩

/-- The positional overload offers the data from `position` on exactly when the cursor's clamp is
the right one: at the cursor itself, or for a length that both positions have left. -/
theorem getReadBuffersAt_offers_iff (mem : Nat → Nat → UInt8) {base : Nat} (hb : 0 < base)
    (calls : List Call) {b : ByteArray} (hc : performAll mem calls (new mem base) = some b)
    (before : List Iovec) (len : Nat) {position : Nat} (hp : position ≤ b.getSize) :
    b.OffersAddressed before len position ↔
      position = b.position ∨ len ≤ b.size - max position b.position := by
  obtain ⟨h, -⟩ := (rep_new mem hb).performAll mem calls hc
  have hpos := h.position_le
  rw [getSize] at hp
  constructor
  · rintro ⟨iovs, hok, -⟩
    have hn := h.offered_length hok
    omega
  · intro hcond
    exact h.offers before (by omega)

theorem getReadBuffersAt_offers_iff_run :
    0 < 3 ∧ ∃ b, performAll (fun _ _ => 0xcd) fourBytes (new (fun _ _ => 0xcd) 3) = some b ∧
      2 ≤ b.getSize ∧ (b.OffersAddressed [] 5 2 ↔ 2 = b.position ∨ 5 ≤ b.size - max 2 b.position) := by
  have hrun : ((performAll (fun _ _ => 0xcd) fourBytes (new (fun _ _ => 0xcd) 3)).map getSize) =
      some 4 := by
    decide
  obtain ⟨b, hb, hsize⟩ := Option.map_eq_some_iff.mp hrun
  have hle : 2 ≤ b.getSize := by
    rw [hsize]
    decide
  exact ⟨by decide, b, hb, hle, getReadBuffersAt_offers_iff _ (by decide) _ hb [] 5 hle⟩

/-- With the cursor at the end of the data, nothing is offered from its start. -/
theorem getReadBuffersAt_clamps_wrongly :
    ¬ ∀ (mem : Nat → Nat → UInt8) (base : Nat), 0 < base → ∀ (calls : List Call) (b : ByteArray),
      performAll mem calls (new mem base) = some b → ∀ (before : List Iovec) (len position : Nat),
        position ≤ b.getSize → b.OffersAddressed before len position := by
  intro h
  obtain ⟨iovs, hok, -⟩ := h (fun _ _ => 0xcd) 3 (by decide) fourBytes _ rfl [] 4 0 (by decide)
  have hlen : 0 = 4 := congrArg Prod.fst (Except.ok.inj hok)
  cases hlen

end ByteArray
end HCServer
