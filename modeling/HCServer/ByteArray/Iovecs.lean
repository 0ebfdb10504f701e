import HCServer.ByteArray.Invariant

/-! What the `iovec` arrays that `ByteArray` hands out stand for: the bytes a gathering call takes
from them and the nodes a scattering call leaves behind. -/
namespace HCServer
open Lib

namespace ByteArray

/-- Where an `iovec` points, none where it leaves its node. -/
def Iovec.bytes (root : List Node) (v : Iovec) : Option (List UInt8) :=
  root[v.node]?.bind fun n =>
    if v.base + v.len ≤ n.size then some ((n.ptr.drop v.base).take v.len) else none

/-- What `sendmsg` is offered. -/
def gather (root : List Node) : List Iovec → Option (List UInt8)
  | [] => some []
  | v :: vs => do
      let bytes ← v.bytes root
      let rest ← gather root vs
      some (bytes ++ rest)

/-- How many bytes an array of `iovec` can take. -/
def room (buffers : List Iovec) : Nat := (buffers.map Iovec.len).sum

/-- What `recvmsg` does with the bytes it has, each `iovec` being filled before the next one. -/
def scatter : List Iovec → List UInt8 → List Node → Option (List Node)
  | [], data, root => if data = [] then some root else none
  | v :: vs, data, root => do
      let n ← root[v.node]?
      let n' ← n.memcpy v.base (data.take v.len)
      scatter vs (data.drop v.len) (root.set v.node n')

/-- `getReadBuffers` at the cursor. It does not touch a node when there is nothing to offer. -/
def getReadBuffers (b : ByteArray) (buffers : List Iovec) (len : Nat) :
    Except Exn (Nat × List Iovec) :=
  let len := if len > b.getReadSize then b.getReadSize else len
  if len = 0 then .ok (0, buffers)
  else
    match iovecLoop (nodesFrom b.root b.cur) (b.cur.getD 0) (b.position % b.baseSize) len with
    | none => .error .fault
    | some iovs => .ok (len, buffers ++ iovs)

theorem Iovec.bytes_eq {root : List Node} {v : Iovec} {n : Node} (hn : root[v.node]? = some n)
    (hfit : v.base + v.len ≤ n.size) : v.bytes root = some ((n.ptr.drop v.base).take v.len) := by
  rw [Iovec.bytes, hn, Option.bind_some, if_pos hfit]

theorem gather_cons {root : List Node} {v : Iovec} {vs : List Iovec} {x xs : List UInt8}
    (hv : v.bytes root = some x) (hvs : gather root vs = some xs) :
    gather root (v :: vs) = some (x ++ xs) := by
  rw [gather, hv, hvs]
  rfl

/-- The node behind a prefix of the list. -/
theorem node_after (before : List Node) (n : Node) (next : List Node) :
    (before ++ n :: next)[before.length]? = some n := by
  rw [List.getElem?_append_right (Nat.le_refl _), Nat.sub_self, List.getElem?_cons_zero]

/-- The gathering loop covers the `len` bytes from `npos` on, and nothing else. -/
theorem iovecLoop_spec {s : Nat} (hs : 0 < s) {nodes : List Node} (before : List Node)
    (npos len : Nat) (hu : Uniform s nodes) (hn : npos < s) (hne : nodes ≠ [])
    (hfit : npos + len ≤ s * nodes.length) :
    ∃ buffers, iovecLoop nodes before.length npos len = some buffers ∧ room buffers = len ∧
      gather (before ++ nodes) buffers = some (((bytesOf nodes).drop npos).take len) := by
  induction nodes generalizing before npos len with
  | nil => exact absurd rfl hne
  | cons n next ih =>
      have hsize : n.size = s := hu.head
      have hptr : n.ptr.length = s := n.alloc.trans hsize
      have hnode := node_after before n next
      have hdrop : (n.ptr.drop npos).length = s - npos := by rw [List.length_drop, hptr]
      unfold iovecLoop
      rw [bytesOf_cons, List.drop_append_of_le_length (by omega)]
      by_cases h0 : len = 0
      · exact ⟨[], by simp [h0], by simp [room, h0], by simp [gather, h0]⟩
      by_cases hcap : n.size - npos ≥ len
      · -- the rest lies in this node
        refine ⟨[⟨before.length, npos, len⟩], by simp [h0, hcap], by simp [room], ?_⟩
        have hbytes := Iovec.bytes_eq (v := ⟨before.length, npos, len⟩) hnode (by dsimp only; omega)
        rw [gather_cons hbytes (gather.eq_1 _), List.append_nil,
          List.take_append_of_le_length (by omega)]
      · rw [List.length_cons, Nat.mul_succ] at hfit
        have hnext : next ≠ [] := by
          rintro rfl
          simp only [List.length_nil, Nat.mul_zero] at hfit
          omega
        obtain ⟨buffers, hrec, hroom, hrest⟩ := ih (before ++ [n]) 0 (len - (n.size - npos))
          hu.tail hs hnext (by omega)
        rw [List.length_append, List.length_singleton] at hrec
        rw [List.append_assoc, List.singleton_append, List.drop_zero] at hrest
        have hbytes := Iovec.bytes_eq (v := ⟨before.length, npos, n.size - npos⟩) hnode
          (by dsimp only; omega)
        refine ⟨⟨before.length, npos, n.size - npos⟩ :: buffers, by simp [h0, hcap, hrec], ?_, ?_⟩
        · rw [room, List.map_cons, List.sum_cons, ← room, hroom]
          dsimp only
          omega
        · have hleft : (n.ptr.drop npos).take (s - npos) = n.ptr.drop npos :=
            List.take_of_length_le hdrop.le
          have hright : (n.ptr.drop npos).take len = n.ptr.drop npos :=
            List.take_of_length_le (by omega)
          rw [gather_cons hbytes hrest, List.take_append, hdrop, hsize, hleft, hright]

/-- Filling what the loop offers, as far as the data goes, is one overwrite. -/
theorem scatter_spec {s : Nat} (hs : 0 < s) {nodes : List Node} (before : List Node)
    (npos len : Nat) (data : List UInt8) {buffers : List Iovec} (hu : Uniform s nodes)
    (hn : npos < s) (hloop : iovecLoop nodes before.length npos len = some buffers)
    (hdata : data.length ≤ len) :
    ∃ nodes', scatter buffers data (before ++ nodes) = some (before ++ nodes') ∧
      Uniform s nodes' ∧ nodes'.length = nodes.length ∧
      bytesOf nodes' = overwrite (bytesOf nodes) npos data := by
  induction nodes generalizing before npos len data buffers with
  | nil => cases hloop
  | cons n next ih =>
      have hsize : n.size = s := hu.head
      have hptr : n.ptr.length = s := n.alloc.trans hsize
      unfold iovecLoop at hloop
      by_cases h0 : len = 0
      · have hnil : data = [] := List.length_eq_zero_iff.mp (by omega)
        simp only [h0, if_true, Option.some.injEq] at hloop
        exact ⟨n :: next, by simp [scatter, ← hloop, hnil], hu, rfl, by simp [hnil]⟩
      by_cases hcap : n.size - npos ≥ len
      · simp only [h0, if_false, hcap, if_true, Option.some.injEq] at hloop
        obtain ⟨n', hn', hsize', hptr'⟩ := n.memcpy_eq npos data (by omega)
        refine ⟨n' :: next, ?_, hu.tail.cons (hsize'.trans hsize), rfl, ?_⟩
        · simp [scatter, ← hloop, List.take_of_length_le hdata, hn', List.drop_eq_nil_of_le hdata]
        · rw [bytesOf_cons, bytesOf_cons, hptr', overwrite_append_left (by omega)]
      · simp only [h0, if_false, hcap] at hloop
        obtain ⟨rest, hrec, rfl⟩ := Option.map_eq_some_iff.mp hloop
        obtain ⟨n', hn', hsize', hptr'⟩ := n.memcpy_eq npos (data.take (n.size - npos))
          (by rw [List.length_take]; omega)
        rw [show before.length + 1 = (before ++ [n']).length by simp] at hrec
        obtain ⟨nodes', hscatter, hu', hlen', hbytes'⟩ := ih (before ++ [n']) 0
          (len - (n.size - npos)) (data.drop (n.size - npos)) hu.tail hs hrec
          (by rw [List.length_drop]; omega)
        refine ⟨n' :: nodes', ?_, hu'.cons (hsize'.trans hsize), by simp [hlen'], ?_⟩
        · rw [List.append_assoc, List.singleton_append, List.append_assoc,
            List.singleton_append] at hscatter
          simp [scatter, hn', hscatter]
        · rw [bytesOf_cons, bytesOf_cons, hptr', hbytes']
          by_cases hshort : npos + data.length ≤ s
          · rw [List.take_of_length_le (by omega), List.drop_eq_nil_of_le (by omega), overwrite_nil,
              overwrite_append_left (by omega)]
          · rw [overwrite_append_cross (bytesOf next) (by omega) (by omega), hptr, hsize]

/-- A position inside the capacity splits the nodes into those before its node and the rest. -/
theorem Rep.split {b : ByteArray} (h : Rep b) {p : Nat} (hp : p < b.capacity) :
    (b.root.take (p / b.baseSize)).length = p / b.baseSize ∧
      Uniform b.baseSize (b.root.drop (p / b.baseSize)) ∧ p % b.baseSize < b.baseSize ∧
      b.root.drop (p / b.baseSize) ≠ [] ∧
      p % b.baseSize + (b.capacity - p) = b.baseSize * (b.root.drop (p / b.baseSize)).length := by
  have hs := h.base_pos
  have hcap := h.capacity_eq
  obtain ⟨hi, hdm, hsplit⟩ := node_of_position p b.root.length hs (by omega)
  refine ⟨List.length_take_of_le hi.le, Uniform.drop h.node_size _, Nat.mod_lt p hs, ?_, ?_⟩
  · simp only [ne_eq, List.drop_eq_nil_iff]
    omega
  · rw [List.length_drop]
    omega

/-- The bytes from an offset of the node of `p` on are those from that place of the whole list. -/
theorem Rep.bytesOf_drop {b : ByteArray} (h : Rep b) (p o : Nat) :
    (bytesOf (b.root.drop (p / b.baseSize))).drop o =
      (bytesOf b.root).drop (b.baseSize * (p / b.baseSize) + o) := by
  rw [HCServer.bytesOf_drop h.node_size, List.drop_drop]

/-- The gathering loop from the node of a position: it offers the bytes from there on. -/
theorem Rep.iovecs_at {b : ByteArray} (h : Rep b) {p len : Nat} (hlen : 0 < len)
    (hfit : p + len ≤ b.capacity) :
    ∃ buffers, iovecLoop (b.root.drop (p / b.baseSize)) (p / b.baseSize) (p % b.baseSize) len =
        some buffers ∧ room buffers = len ∧
      gather b.root buffers = some (((bytesOf b.root).drop p).take len) ∧
      ∀ data : List UInt8, data.length ≤ len → ∃ root', scatter buffers data b.root = some root' ∧
        Uniform b.baseSize root' ∧ root'.length = b.root.length ∧
        bytesOf root' = overwrite (bytesOf b.root) p data := by
  obtain ⟨htake, hu, hmod, hne, hrest⟩ := h.split (p := p) (by omega)
  have hdm := Nat.div_add_mod p b.baseSize
  obtain ⟨buffers, hloop, hroom, hgather⟩ := iovecLoop_spec h.base_pos
    (b.root.take (p / b.baseSize)) (p % b.baseSize) len hu hmod hne (by omega)
  rw [List.take_append_drop, h.bytesOf_drop, hdm] at hgather
  refine ⟨buffers, by rw [htake] at hloop; exact hloop, hroom, hgather, ?_⟩
  intro data hdata
  obtain ⟨nodes', hscatter, hu', hlen', hbytes'⟩ := scatter_spec h.base_pos
    (b.root.take (p / b.baseSize)) (p % b.baseSize) len data hu hmod hloop hdata
  rw [List.take_append_drop] at hscatter
  have hbefore : (bytesOf (b.root.take (p / b.baseSize))).length = b.baseSize * (p / b.baseSize) := by
    rw [length_bytesOf (Uniform.take h.node_size _), htake]
  refine ⟨_, hscatter, (Uniform.take h.node_size _).append hu', ?_, ?_⟩
  · rw [List.length_append, hlen', ← List.length_append, List.take_append_drop]
  · rw [bytesOf_append, hbytes', ← overwrite_append_right, ← bytesOf_append,
      List.take_append_drop, hbefore, hdm]

/-- Inside the data the bytes of the node list are the stored ones. -/
theorem take_content {b : ByteArray} {p len : Nat} (hfit : p + len ≤ b.size) :
    (b.content.drop p).take len = ((bytesOf b.root).drop p).take len := by
  rw [content, List.drop_take, List.take_take, Nat.min_eq_left (by omega)]

/-- What `getWriteBuffers` hands out takes `len` bytes at the position, however few are filled. -/
theorem getWriteBuffers_room (mem : Nat → Nat → UInt8) {b : ByteArray} (h : Rep b) {len : Nat}
    (hlen : 0 < len) :
    ∃ buffers b', getWriteBuffers mem len b = .ok (len, buffers) b' ∧ Rep b' ∧ SameData b b' ∧
      room buffers = len ∧ b'.position + len ≤ b'.capacity ∧
      ∀ data : List UInt8, data.length ≤ len → ∃ root', scatter buffers data b'.root = some root' ∧
        Uniform b'.baseSize root' ∧ root'.length = b'.root.length ∧
        bytesOf root' = overwrite (bytesOf b'.root) b'.position data := by
  obtain ⟨h1, hsame, hroom⟩ := addCapacity_spec mem h hlen
  rw [← hsame.position] at hroom
  unfold getWriteBuffers
  rw [if_neg (by omega)]
  dsimp only
  generalize addCapacity mem len b = b1 at h1 hsame hroom ⊢
  obtain ⟨buffers, hloop, hlength, -, hscatter⟩ := h1.iovecs_at hlen hroom
  rw [h1.cur_of_lt (by omega), nodesFrom, Option.getD_some, hloop]
  exact ⟨buffers, b1, rfl, h1, hsame, hlength, hroom, hscatter⟩

/-- Other bytes in as many blocks of the same size. -/
theorem Rep.with_root {b : ByteArray} (h : Rep b) {root : List Node} (hu : Uniform b.baseSize root)
    (hlen : root.length = b.root.length) : Rep { b with root := root } := by
  have hcap := h.capacity_eq
  have hle := h.position_le.trans h.size_le
  have hne : root ≠ [] :=
    List.ne_nil_of_length_pos (by rw [hlen]; exact List.length_pos_of_ne_nil h.root_ne)
  have hcur : b.cur = nodeAt root (b.position / b.baseSize) := by
    rw [nodeAt_div _ _ h.base_pos (by rw [hlen]; omega), hlen, ← hcap]
    exact h.cur_eq
  exact Rep.of_parts h.base_pos hu hne (by dsimp only; rw [hlen]; exact hcap) h.position_le h.size_le
    hcur

/-- Bytes put into the blocks behind the position count as written once the position has moved over
them. -/
theorem Rep.filled {b : ByteArray} (h : Rep b) {data : List UInt8} {root : List Node}
    (hu : Uniform b.baseSize root) (hlen : root.length = b.root.length)
    (hbytes : bytesOf root = overwrite (bytesOf b.root) b.position data)
    (hroom : b.position + data.length ≤ b.capacity) :
    ∃ b', setPosition (b.position + data.length) { b with root := root } = .ok () b' ∧ Rep b' ∧
      b'.content = overwrite b.content b.position data ∧
      b'.position = b.position + data.length := by
  obtain ⟨b', hset, h', hpos, hmax, hroot, -⟩ := setPosition_spec (h.with_root hu hlen) hroom
  refine ⟨b', hset, h', ?_, hpos⟩
  rw [content, hroot, hmax, hbytes, content]
  exact take_overwrite_max h.position_le (by rw [h.length_bytes]; exact h.size_le)

theorem Rep.clamp_eq {b : ByteArray} (h : Rep b) (len : Nat) :
    (if len > b.getReadSize then b.getReadSize else len) = min len (b.size - b.position) := by
  rw [h.readSize]
  split <;> omega

theorem getReadBuffers_spec {b : ByteArray} (h : Rep b) (before : List Iovec) (len : Nat) :
    ∃ iovs, b.getReadBuffers before len = .ok (min len (b.size - b.position), before ++ iovs) ∧
      room iovs = min len (b.size - b.position) ∧
      gather b.root iovs = some ((b.content.drop b.position).take len) := by
  have hsize := h.size_le
  have hpos := h.position_le
  unfold getReadBuffers
  rw [h.clamp_eq]
  dsimp only
  by_cases h0 : min len (b.size - b.position) = 0
  · refine ⟨[], by rw [if_pos h0, h0, List.append_nil], by simp [room, h0], ?_⟩
    have hnil : (b.content.drop b.position).take len = [] :=
      List.eq_nil_of_length_eq_zero (by rw [List.length_take, List.length_drop, h.length_content, h0])
    rw [hnil, gather]
  · have hfit : b.position + min len (b.size - b.position) ≤ b.capacity := by omega
    obtain ⟨iovs, hloop, hroom, hgather, -⟩ := h.iovecs_at (by omega) hfit
    rw [if_neg h0, h.cur_of_lt (by omega), nodesFrom, Option.getD_some, hloop]
    refine ⟨iovs, rfl, hroom, ?_⟩
    have hrest : (b.content.drop b.position).length = b.size - b.position := by
      rw [List.length_drop, h.length_content]
    rw [hgather, ← take_content (by omega), ← hrest, ← List.take_eq_take_min]

end ByteArray
end HCServer
