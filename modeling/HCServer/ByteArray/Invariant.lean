import HCServer.ByteArray.Loops

/-! The representation invariant of `ByteArray` and what each operation does under it, said of
the flat sequence of stored bytes. Only `read(buf, 0)` at the very end of the capacity can fault:
it looks at the current node before it sees that there is nothing to copy. -/
namespace HCServer
open Lib

namespace ByteArray
variable (mem : Nat → Nat → UInt8)

structure Rep (b : ByteArray) : Prop where
  base_pos : 0 < b.baseSize
  root_ne : b.root ≠ []
  position_le : b.position ≤ b.size
  size_le : b.size ≤ b.capacity
  capacity_eq : b.capacity = b.baseSize * b.root.length
  node_size : ∀ n ∈ b.root, n.size = b.baseSize
  cur_eq : b.cur = if b.position = b.capacity then none else some (b.position / b.baseSize)

/-- The stored data: the first `m_size` bytes of the node list. -/
def content (b : ByteArray) : List UInt8 := (bytesOf b.root).take b.size

theorem Rep.length_bytes {b : ByteArray} (h : Rep b) : (bytesOf b.root).length = b.capacity :=
  (length_bytesOf h.node_size).trans h.capacity_eq.symm

theorem Rep.length_content {b : ByteArray} (h : Rep b) : b.content.length = b.size := by
  rw [content, List.length_take, h.length_bytes, Nat.min_eq_left h.size_le]

theorem Rep.readSize {b : ByteArray} (h : Rep b) : b.getReadSize = b.size - b.position :=
  sizeSub_of_le h.position_le

/-- Where the cursor belongs: at the node that holds the position, null at the end. -/
theorem nodeAt_div {s : Nat} (p : Nat) (root : List Node) (hs : 0 < s) (hp : p ≤ s * root.length) :
    nodeAt root (p / s) = if p = s * root.length then none else some (p / s) := by
  by_cases h : p = s * root.length
  · simp [nodeAt, h, Nat.mul_div_cancel_left _ hs]
  · have hlt : p / s < root.length := (Nat.div_lt_iff_lt_mul hs).mpr (by rw [Nat.mul_comm]; omega)
    simp [nodeAt, h, hlt]

/-- A position strictly inside the capacity splits the list at its node. -/
theorem node_of_position {s : Nat} (p len : Nat) (hs : 0 < s) (hp : p < s * len) :
    p / s < len ∧ s * (p / s) + p % s = p ∧ s * len = s * (p / s) + s * (len - p / s) := by
  have hlt : p / s < len := (Nat.div_lt_iff_lt_mul hs).mpr (by rwa [Nat.mul_comm])
  refine ⟨hlt, Nat.div_add_mod p s, ?_⟩
  rw [← Nat.mul_add, Nat.add_sub_cancel' hlt.le]

theorem rep_new {base : Nat} (hb : 0 < base) : Rep (new mem base) where
  base_pos := hb
  root_ne := List.cons_ne_nil _ _
  position_le := Nat.le_refl 0
  size_le := Nat.zero_le _
  capacity_eq := (Nat.mul_one base).symm
  node_size := by
    intro n hn
    rw [List.mem_singleton.mp hn]
    rfl
  cur_eq := by
    have h0 : ¬ 0 = base := by omega
    simp [new, h0]

theorem appendNodes_spec (count : Nat) (b : ByteArray) :
    ∃ fresh, fresh.length = count ∧ Uniform b.baseSize fresh ∧
      appendNodes mem count b =
        { b with
          root := b.root ++ fresh
          capacity := b.capacity + b.baseSize * count
          allocs := b.allocs + count } := by
  induction count generalizing b with
  | zero => exact ⟨[], rfl, by simp [Uniform], by simp [appendNodes]⟩
  | succ count ih =>
      rw [appendNodes]
      obtain ⟨fresh, hlen, hu, heq⟩ := ih
        { b with
          root := b.root ++ [Node.new (mem b.allocs) b.baseSize]
          capacity := b.capacity + b.baseSize
          allocs := b.allocs + 1 }
      refine ⟨Node.new (mem b.allocs) b.baseSize :: fresh, by simp [hlen], hu.cons rfl, ?_⟩
      rw [heq]
      congr 1
      · dsimp only
        rw [Nat.mul_succ]
        omega
      · simp
      · dsimp only
        omega

/-- After `addCapacity(n)` there is room for `n` bytes and the cursor is on a node; the old
nodes, the size and the position are untouched. -/
theorem addCapacity_eq {b : ByteArray} (h : Rep b) {n : Nat} (hn : 0 < n) :
    ∃ fresh, Uniform b.baseSize fresh ∧ ∃ allocs, addCapacity mem n b =
        { b with
          root := b.root ++ fresh
          capacity := b.baseSize * (b.root ++ fresh).length
          cur := some (b.position / b.baseSize)
          allocs := allocs } ∧
      b.position + n ≤ b.baseSize * (b.root ++ fresh).length := by
  have hcap : b.getCapacity = b.capacity - b.position :=
    sizeSub_of_le (h.position_le.trans h.size_le)
  have hle : b.position ≤ b.capacity := h.position_le.trans h.size_le
  unfold addCapacity
  rw [if_neg (by omega)]
  dsimp only
  by_cases hroom : b.getCapacity ≥ n
  · have hcur : b.cur = some (b.position / b.baseSize) := by
      rw [h.cur_eq, if_neg (by omega)]
    refine ⟨[], by simp [Uniform], b.allocs, ?_, ?_⟩
    · rw [if_pos hroom, List.append_nil, ← h.capacity_eq, ← hcur]
    · rw [List.append_nil, ← h.capacity_eq]
      omega
  · rw [if_neg hroom]
    obtain ⟨fresh, hlen, hu, heq⟩ := appendNodes_spec mem
      ((n - b.getCapacity + b.baseSize - 1) / b.baseSize) b
    have hceil : n - b.getCapacity ≤ b.baseSize * fresh.length := by
      have hdm := Nat.div_add_mod (n - b.getCapacity + b.baseSize - 1) b.baseSize
      have hmod := Nat.mod_lt (n - b.getCapacity + b.baseSize - 1) h.base_pos
      rw [hlen]
      omega
    have hnew : b.capacity + b.baseSize * fresh.length = b.baseSize * (b.root ++ fresh).length := by
      rw [List.length_append, Nat.mul_add, h.capacity_eq]
    have hcount : (n - b.getCapacity + b.baseSize - 1) / b.baseSize ≠ 0 := by
      intro h0
      rw [hlen, h0, Nat.mul_zero] at hceil
      omega
    refine ⟨fresh, hu, b.allocs + fresh.length, ?_, by omega⟩
    rw [heq, ← hlen, hnew, hlen, if_neg hcount]
    by_cases h0 : b.getCapacity = 0
    · have hpos : b.position / b.baseSize = b.root.length := by
        rw [show b.position = b.baseSize * b.root.length by rw [← h.capacity_eq]; omega,
          Nat.mul_div_cancel_left _ h.base_pos]
      rw [if_pos h0, hpos]
    · rw [if_neg h0]
      have hcur : b.cur = some (b.position / b.baseSize) := by
        rw [h.cur_eq, if_neg (by omega)]
      rw [hcur]

/-- A node list, a size and a position in order make a well-formed array once the cursor is put
where the position says. -/
theorem Rep.of_parts {b : ByteArray} (hb : 0 < b.baseSize) (hu : Uniform b.baseSize b.root)
    (hne : b.root ≠ []) (hcap : b.capacity = b.baseSize * b.root.length) (hp : b.position ≤ b.size)
    (hsize : b.size ≤ b.capacity) (hcur : b.cur = nodeAt b.root (b.position / b.baseSize)) :
    Rep b where
  base_pos := hb
  root_ne := hne
  position_le := hp
  size_le := hsize
  capacity_eq := hcap
  node_size := hu
  cur_eq := by rw [hcur, nodeAt_div _ _ hb (by omega), hcap]

theorem Rep.cur_of_lt {b : ByteArray} (h : Rep b) (hlt : b.position < b.capacity) :
    b.cur = some (b.position / b.baseSize) := by
  rw [h.cur_eq, if_neg (by omega)]

/-- The cursor after a transfer of `k` bytes that fits the capacity. -/
theorem Rep.advance_eq {b : ByteArray} (h : Rep b) (hlt : b.position < b.capacity) (k : Nat) :
    b.advance ((b.position % b.baseSize + k) / b.baseSize) =
      nodeAt b.root ((b.position + k) / b.baseSize) := by
  have hdiv : b.position / b.baseSize + (b.position % b.baseSize + k) / b.baseSize =
      (b.position + k) / b.baseSize := by
    rw [Nat.add_comm, ← Nat.add_mul_div_right _ _ h.base_pos, Nat.mul_comm _ b.baseSize,
      Nat.add_right_comm, Nat.mod_add_div]
  rw [advance, h.cur_of_lt hlt, Option.bind_some, hdiv]

/-- Everything about the stored data is as before. -/
structure SameData (b b' : ByteArray) : Prop where
  baseSize : b'.baseSize = b.baseSize
  position : b'.position = b.position
  size : b'.size = b.size
  endian : b'.endian = b.endian
  content : b'.content = b.content

theorem addCapacity_spec {b : ByteArray} (h : Rep b) {n : Nat} (hn : 0 < n) :
    Rep (addCapacity mem n b) ∧ SameData b (addCapacity mem n b) ∧
      b.position + n ≤ (addCapacity mem n b).capacity := by
  obtain ⟨fresh, hfresh, allocs, heq, hroom⟩ := addCapacity_eq mem h hn
  have hold : b.capacity ≤ b.baseSize * (b.root ++ fresh).length := by
    rw [h.capacity_eq, List.length_append, Nat.mul_add]
    omega
  have hdiv := nodeAt_div b.position (b.root ++ fresh) h.base_pos (by omega)
  rw [if_neg (by omega)] at hdiv
  rw [heq]
  refine ⟨Rep.of_parts h.base_pos (Uniform.append h.node_size hfresh) (by simp [h.root_ne]) rfl
    h.position_le (h.size_le.trans hold) hdiv.symm, ⟨rfl, rfl, rfl, rfl, ?_⟩, hroom⟩
  rw [content, content, bytesOf_append,
    List.take_append_of_le_length (by rw [h.length_bytes]; exact h.size_le)]

/-- Only the bytes that are kept matter to a store that reaches the end of the data. -/
theorem take_overwrite_max {α : Type*} {l s : List α} {p n : Nat} (hp : p ≤ n) (hn : n ≤ l.length) :
    (overwrite l p s).take (max n (p + s.length)) = overwrite (l.take n) p s := by
  rw [take_overwrite (by omega) (Nat.le_max_right _ _)]
  by_cases h : p + s.length ≤ n
  · rw [Nat.max_eq_left h]
  · rw [overwrite, overwrite, List.take_take, List.take_take, Nat.min_eq_left hp,
      Nat.min_eq_left (hp.trans (Nat.le_max_left _ _)),
      List.drop_eq_nil_of_le (by rw [List.length_take]; omega),
      List.drop_eq_nil_of_le (by rw [List.length_take]; omega)]

/-- The copy loop of `write`, once there is room: one overwrite of the node bytes. -/
theorem store_spec {b : ByteArray} (h : Rep b) {buf : List UInt8} (h0 : 0 < buf.length)
    (hroom : b.position + buf.length ≤ b.capacity) :
    ∃ nodes, writeLoop (nodesFrom b.root b.cur) (b.position % b.baseSize) buf =
        some (nodes, (b.position % b.baseSize + buf.length) / b.baseSize) ∧
      Uniform b.baseSize (b.storeFrom nodes) ∧ (b.storeFrom nodes).length = b.root.length ∧
      bytesOf (b.storeFrom nodes) = overwrite (bytesOf b.root) b.position buf := by
  have hs := h.base_pos
  have hu : Uniform b.baseSize b.root := h.node_size
  have hcap := h.capacity_eq
  obtain ⟨hi, hpos, hsplit⟩ := node_of_position b.position b.root.length hs (by omega)
  obtain ⟨nodes, hloop, hunodes, hlen, hbytes⟩ := writeLoop_spec hs _ _
    (hu.drop (b.position / b.baseSize)) (Nat.mod_lt b.position hs) h0 (by rw [List.length_drop]; omega)
  have htake : (bytesOf (b.root.take (b.position / b.baseSize))).length =
      b.baseSize * (b.position / b.baseSize) := by
    rw [length_bytesOf (hu.take _), List.length_take_of_le hi.le]
  refine ⟨nodes, ?_⟩
  rw [h.cur_of_lt (by omega), nodesFrom, storeFrom, h.cur_of_lt (by omega)]
  refine ⟨hloop, (hu.take _).append hunodes, ?_, ?_⟩
  · rw [List.length_append, hlen, List.length_take_of_le hi.le, List.length_drop]
    omega
  · have hright := overwrite_append_right (bytesOf (b.root.take (b.position / b.baseSize)))
      (bytesOf (b.root.drop (b.position / b.baseSize))) buf (b.position % b.baseSize)
    rw [htake, hpos, ← bytesOf_append, List.take_append_drop] at hright
    rw [bytesOf_append, hbytes, hright]

theorem write_spec {b : ByteArray} (h : Rep b) (buf : List UInt8) :
    ∃ b', write mem buf b = .ok () b' ∧ Rep b' ∧ b'.content = overwrite b.content b.position buf ∧
      b'.position = b.position + buf.length ∧ b'.baseSize = b.baseSize ∧ b'.endian = b.endian := by
  by_cases h0 : buf.length = 0
  · have hnil : buf = [] := List.length_eq_zero_iff.mp h0
    exact ⟨b, by simp [write, h0], h, by simp [hnil], by simp [h0], rfl, rfl⟩
  obtain ⟨h1, hsame, hroom⟩ := addCapacity_spec mem h (n := buf.length) (by omega)
  rw [← hsame.content, ← hsame.position, ← hsame.baseSize, ← hsame.endian]
  rw [← hsame.position] at hroom
  unfold write
  rw [if_neg h0]
  dsimp only
  generalize addCapacity mem buf.length b = b1 at h1 hroom ⊢
  obtain ⟨nodes, hloop, hu, hlen, hbytes⟩ := store_spec h1 (by omega) hroom
  have hmax : (if b1.position + buf.length > b1.size then b1.position + buf.length else b1.size) =
      max b1.size (b1.position + buf.length) := by
    split <;> omega
  rw [hloop]
  dsimp only
  rw [hmax, h1.advance_eq (by omega)]
  refine ⟨_, rfl, ?_, ?_, rfl, rfl, rfl⟩
  · have hcap := h1.capacity_eq
    have hsize := h1.size_le
    have hne : 0 < b1.root.length := List.length_pos_of_ne_nil h1.root_ne
    refine Rep.of_parts h1.base_pos hu (List.ne_nil_of_length_pos (by rw [hlen]; exact hne))
      (by rw [hlen]; exact hcap)
      (Nat.le_max_right _ _) (Nat.max_le.mpr ⟨hsize, hroom⟩) ?_
    simp only [nodeAt, hlen]
  · rw [content, hbytes, content]
    exact take_overwrite_max h1.position_le (by rw [h1.length_bytes]; exact h1.size_le)

theorem read_throws {b : ByteArray} (h : Rep b) {n : Nat} (hn : b.size - b.position < n) :
    read n b = .error (.outOfRange "not enough len") b := by
  rw [read, h.readSize, if_pos hn]

/-- The copy loop of `read` on a cursor that is on a node: one slice of the data. -/
theorem Rep.readLoop_eq {b : ByteArray} (h : Rep b) {n : Nat} (hn : n ≤ b.size - b.position)
    (hcur : b.position < b.capacity) :
    readLoop (nodesFrom b.root b.cur) (b.position % b.baseSize) n =
      some ((b.content.drop b.position).take n, (b.position % b.baseSize + n) / b.baseSize) := by
  have hs := h.base_pos
  have hu : Uniform b.baseSize b.root := h.node_size
  have hcap := h.capacity_eq
  have hsize := h.size_le
  have hpos := h.position_le
  obtain ⟨hi, hdm, hsplit⟩ := node_of_position b.position b.root.length hs (by omega)
  have hloop := readLoop_spec hs _ n (hu.drop (b.position / b.baseSize)) (Nat.mod_lt b.position hs)
    (by simp only [ne_eq, List.drop_eq_nil_iff]; omega) (by rw [List.length_drop]; omega)
  rw [h.cur_of_lt hcur, nodesFrom, hloop, bytesOf_drop hu, List.drop_drop, hdm, content,
    List.drop_take, List.take_take, Nat.min_eq_left hn]

theorem read_spec {b : ByteArray} (h : Rep b) {n : Nat} (hn : n ≤ b.size - b.position)
    (hcur : b.position < b.capacity) :
    ∃ b', read n b = .ok ((b.content.drop b.position).take n) b' ∧ Rep b' ∧ b'.content = b.content ∧
      b'.position = b.position + n ∧ b'.baseSize = b.baseSize ∧ b'.endian = b.endian := by
  have hpos := h.position_le
  unfold read
  rw [h.readSize, if_neg (by omega), h.readLoop_eq hn hcur]
  dsimp only
  rw [h.advance_eq hcur]
  exact ⟨_, rfl, Rep.of_parts h.base_pos h.node_size h.root_ne h.capacity_eq (by dsimp only; omega)
    h.size_le rfl, rfl, rfl, rfl, rfl⟩

/-- A read that copies at least one byte is never at the null cursor. -/
theorem Rep.position_lt {b : ByteArray} (h : Rep b) {n : Nat} (h0 : 0 < n)
    (hn : n ≤ b.size - b.position) : b.position < b.capacity := by
  have := h.size_le
  omega

theorem setPosition_throws {b : ByteArray} {v : Nat} (hv : b.capacity < v) :
    setPosition v b = .error (.outOfRange "set_position out of range") b := by
  rw [setPosition, if_pos hv]

theorem setPosition_spec {b : ByteArray} (h : Rep b) {v : Nat} (hv : v ≤ b.capacity) :
    ∃ b', setPosition v b = .ok () b' ∧ Rep b' ∧ b'.position = v ∧ b'.size = max b.size v ∧
      b'.root = b.root ∧ b'.baseSize = b.baseSize ∧ b'.endian = b.endian := by
  have hcap := h.capacity_eq
  have hsize := h.size_le
  have hseek := seekLoop_spec h.base_pos h.node_size h.root_ne (v := v) (by omega)
  have hmax : (if v > b.size then v else b.size) = max b.size v := by
    split <;> omega
  unfold setPosition
  rw [if_neg (by omega)]
  dsimp only
  rw [hseek, hmax]
  exact ⟨_, rfl, Rep.of_parts h.base_pos h.node_size h.root_ne hcap (Nat.le_max_right _ _)
    (Nat.max_le.mpr ⟨hsize, hv⟩) rfl, rfl, rfl, rfl, rfl, rfl⟩

theorem clear_spec {b : ByteArray} (h : Rep b) :
    ∃ b', clear b = .ok () b' ∧ Rep b' ∧ b'.position = 0 ∧ b'.size = 0 ∧
      b'.baseSize = b.baseSize ∧ b'.endian = b.endian := by
  have hne := h.root_ne
  unfold clear
  cases hroot : b.root with
  | nil => exact absurd hroot hne
  | cons first rest =>
      refine ⟨_, rfl, Rep.of_parts h.base_pos ?_ (List.cons_ne_nil _ _) (Nat.mul_one _).symm
        (Nat.le_refl 0) (Nat.zero_le _) ?_, rfl, rfl, rfl, rfl⟩
      · intro n hn
        rw [List.mem_singleton.mp hn]
        exact h.node_size first (by rw [hroot]; exact List.mem_cons_self)
      · simp [nodeAt]

theorem getWriteBuffers_spec {b : ByteArray} (h : Rep b) (len : Nat) :
    ∃ buffers b', getWriteBuffers mem len b = .ok (len, buffers) b' ∧ Rep b' ∧ SameData b b' := by
  by_cases h0 : len = 0
  · exact ⟨[], b, by simp [getWriteBuffers, h0], h, ⟨rfl, rfl, rfl, rfl, rfl⟩⟩
  obtain ⟨h1, hsame, hroom⟩ := addCapacity_spec mem h (n := len) (by omega)
  rw [← hsame.position] at hroom
  unfold getWriteBuffers
  rw [if_neg h0]
  dsimp only
  generalize addCapacity mem len b = b1 at h1 hsame hroom ⊢
  have hcap := h1.capacity_eq
  have hs := h1.base_pos
  have hu : Uniform b1.baseSize b1.root := h1.node_size
  obtain ⟨hi, hdm, hsplit⟩ := node_of_position b1.position b1.root.length hs (by omega)
  obtain ⟨buffers, hloop⟩ := iovecLoop_isSome hs (b1.cur.getD 0) _ len
    (hu.drop (b1.position / b1.baseSize)) (Nat.mod_lt b1.position hs)
    (by simp only [ne_eq, List.drop_eq_nil_iff]; omega) (by rw [List.length_drop]; omega)
  have hfrom : nodesFrom b1.root b1.cur = b1.root.drop (b1.position / b1.baseSize) := by
    rw [h1.cur_of_lt (by omega), nodesFrom]
  rw [hfrom, hloop]
  exact ⟨buffers, b1, rfl, h1, hsame⟩

theorem bind_ok {α β : Type} {x : Op α} {f : α → Op β} {b b' : ByteArray} {a : α}
    (h : x b = .ok a b') : (x >>= f) b = f a b' := by
  change EStateM.bind x f b = f a b'
  rw [EStateM.bind, h]

/-- The blocks of the file end up one behind the other, and the loop runs to its end. -/
theorem readFileLoop_spec {b : ByteArray} (h : Rep b) {rounds : Nat} (file : List UInt8)
    (hr : file.length < rounds) :
    ∃ b', readFileLoop mem rounds file b = .ok () b' ∧ Rep b' ∧
      b'.content = overwrite b.content b.position file ∧ b'.position = b.position + file.length ∧
      b'.baseSize = b.baseSize ∧ b'.endian = b.endian := by
  induction rounds generalizing b file with
  | zero => omega
  | succ rounds ih =>
      obtain ⟨b1, hw, h1, hc, hp, hbase, hend⟩ := write_spec mem h (file.take b.baseSize)
      have hround : readFileLoop mem (rounds + 1) file b =
          (if file.length < b.baseSize then pure ()
            else readFileLoop mem rounds (file.drop b.baseSize) : Op Unit) b1 := by
        rw [readFileLoop]
        exact (bind_ok (x := (get : Op ByteArray)) rfl).trans (bind_ok hw)
      rw [hround]
      by_cases hlast : file.length < b.baseSize
      · rw [if_pos hlast]
        rw [List.take_of_length_le hlast.le] at hc hp
        exact ⟨b1, rfl, h1, hc, hp, hbase, hend⟩
      · rw [if_neg hlast]
        have hb := h.base_pos
        obtain ⟨b2, hloop, h2, hc2, hp2, hbase2, hend2⟩ := ih h1 (file.drop b.baseSize)
          (by rw [List.length_drop]; omega)
        have htake : (file.take b.baseSize).length = b.baseSize :=
          List.length_take_of_le (by omega)
        refine ⟨b2, hloop, h2, ?_, ?_, hbase2.trans hbase, hend2.trans hend⟩
        · rw [hc2, hc, hp, overwrite_overwrite (by rw [h.length_content]; exact h.position_le),
            List.take_append_drop]
        · rw [hp2, hp, htake, List.length_drop]
          omega

theorem readFromFile_spec {b : ByteArray} (h : Rep b) (file : List UInt8) :
    ∃ b', readFromFile mem (some file) b = .ok true b' ∧ Rep b' ∧
      b'.content = overwrite b.content b.position file ∧ b'.position = b.position + file.length ∧
      b'.baseSize = b.baseSize ∧ b'.endian = b.endian := by
  obtain ⟨b', hloop, hrest⟩ := readFileLoop_spec mem h file (Nat.lt_succ_self file.length)
  exact ⟨b', bind_ok hloop, hrest⟩

/-- The operations a caller drives a `ByteArray` with. -/
inductive Call
  | write (buf : List UInt8)
  | read (size : Nat)
  | setPosition (v : Nat)
  | clear
  | readFromFile (file : Option (List UInt8))
  | getWriteBuffers (len : Nat)

/-- The state a completed operation leaves, whether it returned or threw. -/
def settled {α : Type} : EStateM.Result Exn ByteArray α → Option ByteArray
  | .ok _ b => some b
  | .error (.outOfRange _) b => some b
  | .error .fault _ => none

def Call.perform (mem : Nat → Nat → UInt8) (b : ByteArray) : Call → Option ByteArray
  | .write buf => settled (ByteArray.write mem buf b)
  | .read size => settled (ByteArray.read size b)
  | .setPosition v => settled (ByteArray.setPosition v b)
  | .clear => settled (ByteArray.clear b)
  | .readFromFile file => settled (ByteArray.readFromFile mem file b)
  | .getWriteBuffers len => settled (ByteArray.getWriteBuffers mem len b)

def performAll (mem : Nat → Nat → UInt8) : List Call → ByteArray → Option ByteArray
  | [], b => some b
  | call :: calls, b => (call.perform mem b).bind (performAll mem calls)

/-- One completed operation keeps the representation and the block size. -/
theorem Rep.perform {b b' : ByteArray} (h : Rep b) (call : Call) (hc : call.perform mem b = some b') :
    Rep b' ∧ b'.baseSize = b.baseSize := by
  cases call with
  | write buf =>
      obtain ⟨b1, hw, h1, _, _, hbase, _⟩ := write_spec mem h buf
      rw [Call.perform, hw] at hc
      cases hc
      exact ⟨h1, hbase⟩
  | read size =>
      rw [Call.perform] at hc
      by_cases hn : size ≤ b.size - b.position
      · by_cases hcur : b.position < b.capacity
        · obtain ⟨b1, hr, h1, _, _, hbase, _⟩ := read_spec h hn hcur
          rw [hr] at hc
          cases hc
          exact ⟨h1, hbase⟩
        · -- the cursor is null: the call does not complete
          have hle := h.position_le.trans h.size_le
          have hnull : read size b = .error .fault b := by
            rw [read, h.readSize, if_neg (by omega), h.cur_eq, if_pos (by omega)]
            rfl
          rw [hnull] at hc
          cases hc
      · rw [read_throws h (by omega)] at hc
        cases hc
        exact ⟨h, rfl⟩
  | setPosition v =>
      rw [Call.perform] at hc
      by_cases hv : v ≤ b.capacity
      · obtain ⟨b1, hs, h1, _, _, _, hbase, _⟩ := setPosition_spec h hv
        rw [hs] at hc
        cases hc
        exact ⟨h1, hbase⟩
      · rw [setPosition_throws (by omega)] at hc
        cases hc
        exact ⟨h, rfl⟩
  | clear =>
      obtain ⟨b1, hs, h1, _, _, hbase, _⟩ := clear_spec h
      rw [Call.perform, hs] at hc
      cases hc
      exact ⟨h1, hbase⟩
  | readFromFile file =>
      cases file with
      | none =>
          cases hc
          exact ⟨h, rfl⟩
      | some file =>
          obtain ⟨b1, hs, h1, _, _, hbase, _⟩ := readFromFile_spec mem h file
          rw [Call.perform, hs] at hc
          cases hc
          exact ⟨h1, hbase⟩
  | getWriteBuffers len =>
      obtain ⟨buffers, b1, hs, h1, hsame⟩ := getWriteBuffers_spec mem h len
      rw [Call.perform, hs] at hc
      cases hc
      exact ⟨h1, hsame.baseSize⟩

theorem Rep.performAll {b b' : ByteArray} (h : Rep b) (calls : List Call)
    (hc : performAll mem calls b = some b') : Rep b' ∧ b'.baseSize = b.baseSize := by
  induction calls generalizing b with
  | nil =>
      cases hc
      exact ⟨h, rfl⟩
  | cons call calls ih =>
      obtain ⟨b1, h1, hrest⟩ := Option.bind_eq_some_iff.mp hc
      obtain ⟨hrep, hbase⟩ := h.perform mem call h1
      obtain ⟨hrep', hbase'⟩ := ih hrep hrest
      exact ⟨hrep', hbase'.trans hbase⟩

/-- Every sequence of completed operations keeps the positions ordered, the capacity a whole
number of equal nodes, and the cursor on the node of the position. -/
theorem representation_invariant (mem : Nat → Nat → UInt8) {base : Nat} (hb : 0 < base)
    (calls : List Call) {b : ByteArray} (hc : performAll mem calls (new mem base) = some b) :
    b.position ≤ b.size ∧ b.size ≤ b.capacity ∧ b.baseSize = base ∧
      b.capacity = b.baseSize * b.root.length ∧ (∀ n ∈ b.root, n.size = b.baseSize) ∧
      b.cur = (if b.position = b.capacity then none else some (b.position / b.baseSize)) := by
  obtain ⟨h, hbase⟩ := (rep_new mem hb).performAll mem calls hc
  exact ⟨h.position_le, h.size_le, hbase, h.capacity_eq, h.node_size, h.cur_eq⟩

/-- Blocks of three bytes, filled over a border, read past the end, sought and cleared. -/
def sampleCalls : List Call :=
  [.write [1, 2, 3, 4], .setPosition 0, .read 9, .read 3, .setPosition 6, .setPosition 7,
    .getWriteBuffers 4, .readFromFile (some [5, 6, 7, 8]), .clear, .write [9]]

theorem representation_invariant_run :
    0 < 3 ∧ ∃ b, performAll (fun _ _ => 0xcd) sampleCalls (new (fun _ _ => 0xcd) 3) = some b ∧
      b.position ≤ b.size ∧ b.size ≤ b.capacity ∧ b.baseSize = 3 ∧
      b.capacity = b.baseSize * b.root.length ∧ (∀ n ∈ b.root, n.size = b.baseSize) ∧
      b.cur = (if b.position = b.capacity then none else some (b.position / b.baseSize)) := by
  have hrun : (performAll (fun _ _ => 0xcd) sampleCalls (new (fun _ _ => 0xcd) 3)).isSome := by
    decide +kernel
  obtain ⟨b, hb⟩ := Option.isSome_iff_exists.mp hrun
  exact ⟨by decide, b, hb, representation_invariant _ (by decide) _ hb⟩

end ByteArray
end HCServer
