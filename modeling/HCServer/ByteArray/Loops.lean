import HCServer.ByteArray.Model
import Mathlib.Algebra.Order.Group.Nat

/-! What the node loops do to a list of equally sized nodes, seen as the flat sequence of its
bytes: a write is one overwrite, a read is one slice, a seek is one division. -/
namespace HCServer
open Lib

def Uniform (s : Nat) (nodes : List Node) : Prop := ∀ n ∈ nodes, n.size = s

/-- All bytes of a node list, in order. -/
def bytesOf (nodes : List Node) : List UInt8 := nodes.flatMap Node.ptr

@[simp] theorem bytesOf_nil : bytesOf [] = [] := rfl

@[simp] theorem bytesOf_cons (n : Node) (ns : List Node) : bytesOf (n :: ns) = n.ptr ++ bytesOf ns :=
  rfl

@[simp] theorem bytesOf_append (ns ms : List Node) : bytesOf (ns ++ ms) = bytesOf ns ++ bytesOf ms :=
  List.flatMap_append

theorem Uniform.head {s : Nat} {n : Node} {ns : List Node} (h : Uniform s (n :: ns)) : n.size = s :=
  h n List.mem_cons_self

theorem Uniform.tail {s : Nat} {n : Node} {ns : List Node} (h : Uniform s (n :: ns)) : Uniform s ns :=
  fun m hm => h m (List.mem_cons_of_mem n hm)

theorem Uniform.cons {s : Nat} {n : Node} {ns : List Node} (hn : n.size = s) (h : Uniform s ns) :
    Uniform s (n :: ns) := by
  intro m hm
  rcases List.mem_cons.mp hm with rfl | hm
  · exact hn
  · exact h m hm

theorem Uniform.append {s : Nat} {ns ms : List Node} (hn : Uniform s ns) (hm : Uniform s ms) :
    Uniform s (ns ++ ms) := by
  intro m h
  rcases List.mem_append.mp h with h | h
  · exact hn m h
  · exact hm m h

theorem Uniform.take {s : Nat} {ns : List Node} (h : Uniform s ns) (i : Nat) : Uniform s (ns.take i) :=
  fun n hn => h n (List.mem_of_mem_take hn)

theorem Uniform.drop {s : Nat} {ns : List Node} (h : Uniform s ns) (i : Nat) : Uniform s (ns.drop i) :=
  fun n hn => h n (List.mem_of_mem_drop hn)

theorem length_bytesOf {s : Nat} {ns : List Node} (h : Uniform s ns) :
    (bytesOf ns).length = s * ns.length := by
  induction ns with
  | nil => rfl
  | cons n ns ih =>
      rw [bytesOf_cons, List.length_append, n.alloc, h.head, ih h.tail, List.length_cons, Nat.mul_succ,
        Nat.add_comm]

theorem bytesOf_drop {s : Nat} {ns : List Node} (h : Uniform s ns) (i : Nat) :
    bytesOf (ns.drop i) = (bytesOf ns).drop (s * i) := by
  induction ns generalizing i with
  | nil => simp
  | cons n ns ih =>
      cases i with
      | zero => simp
      | succ i =>
          have hn : n.ptr.length = s := n.alloc.trans h.head
          rw [List.drop_succ_cons, bytesOf_cons, ih h.tail, Nat.mul_succ, Nat.add_comm, ← hn,
            List.drop_length_add_append]

theorem Node.memcpy_eq (n : Node) (off : Nat) (src : List UInt8) (h : off + src.length ≤ n.size) :
    ∃ n', n.memcpy off src = some n' ∧ n'.size = n.size ∧ n'.ptr = overwrite n.ptr off src :=
  ⟨_, dif_pos h, rfl, rfl⟩

/-- Leaving a full node and then moving `k` bytes further on crosses `k / s` more borders. -/
theorem div_succ_of_cross {s a b : Nat} (hs : 0 < s) (h : a = s + b) : b / s + 1 = a / s := by
  rw [h, Nat.add_div_left b hs]

/-- The loops step to the next node exactly when the transfer ends on the border. -/
theorem step_at_border {s a : Nat} (hs : 0 < s) (ha : a ≤ s) : (if s = a then 1 else 0) = a / s := by
  by_cases h : s = a
  · rw [if_pos h, ← h, Nat.div_self hs]
  · rw [if_neg h, Nat.div_eq_of_lt (by omega)]

theorem writeLoop_spec {s : Nat} (hs : 0 < s) {nodes : List Node} (npos : Nat) (buf : List UInt8)
    (hu : Uniform s nodes) (hn : npos < s) (hb : 0 < buf.length)
    (hfit : npos + buf.length ≤ s * nodes.length) :
    ∃ nodes', ByteArray.writeLoop nodes npos buf = some (nodes', (npos + buf.length) / s) ∧
      Uniform s nodes' ∧ nodes'.length = nodes.length ∧
      bytesOf nodes' = overwrite (bytesOf nodes) npos buf := by
  induction nodes generalizing npos buf with
  | nil =>
      simp only [List.length_nil, Nat.mul_zero] at hfit
      omega
  | cons n next ih =>
      have hsize : n.size = s := hu.head
      have hptr : n.ptr.length = s := n.alloc.trans hsize
      unfold ByteArray.writeLoop
      by_cases hcap : n.size - npos ≥ buf.length
      · -- the rest of the buffer ends in this node
        obtain ⟨n', hn', hsize', hptr'⟩ := n.memcpy_eq npos buf (by omega)
        refine ⟨n' :: next, ?_, hu.tail.cons (hsize'.trans hsize), rfl, ?_⟩
        · dsimp only
          rw [if_pos hcap, hn', hsize, step_at_border hs (by omega)]
          rfl
        · rw [bytesOf_cons, bytesOf_cons, hptr', overwrite_append_left (by omega)]
      · -- this node is filled and the loop goes on at offset 0 of the next one
        obtain ⟨n', hn', hsize', hptr'⟩ := n.memcpy_eq npos
          (buf.take (n.size - npos)) (by rw [List.length_take]; omega)
        have hrest : (buf.drop (n.size - npos)).length = buf.length - (s - npos) := by
          rw [List.length_drop, hsize]
        rw [List.length_cons, Nat.mul_succ] at hfit
        obtain ⟨rest, hloop, hu', hlen', hbytes'⟩ := ih 0 (buf.drop (n.size - npos))
          hu.tail hs (by omega) (by omega)
        refine ⟨n' :: rest, ?_, hu'.cons (hsize'.trans hsize), by simp [hlen'], ?_⟩
        · have hk : (0 + (buf.drop (n.size - npos)).length) / s + 1 = (npos + buf.length) / s :=
            div_succ_of_cross hs (by omega)
          simp [hcap, hn', hloop, ← hk]
        · rw [bytesOf_cons, bytesOf_cons, hptr', hbytes',
            overwrite_append_cross (bytesOf next) (by omega) (by omega), hptr, hsize]

theorem readLoop_spec {s : Nat} (hs : 0 < s) {nodes : List Node} (npos size : Nat)
    (hu : Uniform s nodes) (hn : npos < s) (hne : nodes ≠ [])
    (hfit : npos + size ≤ s * nodes.length) :
    ByteArray.readLoop nodes npos size =
      some (((bytesOf nodes).drop npos).take size, (npos + size) / s) := by
  induction nodes generalizing npos size with
  | nil => exact absurd rfl hne
  | cons n next ih =>
      have hsize : n.size = s := hu.head
      have hptr : n.ptr.length = s := n.alloc.trans hsize
      have hdrop : (n.ptr.drop npos).length = s - npos := by rw [List.length_drop, hptr]
      unfold ByteArray.readLoop
      rw [bytesOf_cons, List.drop_append_of_le_length (by omega)]
      by_cases h0 : size = 0
      · simp [h0, Nat.div_eq_of_lt hn]
      by_cases hcap : n.size - npos ≥ size
      · rw [List.take_append_of_le_length (by omega)]
        dsimp only
        rw [if_neg h0, if_pos hcap, hsize, step_at_border hs (by omega)]
      · rw [List.length_cons, Nat.mul_succ] at hfit
        have hnext : next ≠ [] := by
          rintro rfl
          simp only [List.length_nil, Nat.mul_zero] at hfit
          omega
        have hk : (0 + (size - (n.size - npos))) / s + 1 = (npos + size) / s :=
          div_succ_of_cross hs (by omega)
        simp only [h0, if_false, hcap,
          ih 0 _ hu.tail hs hnext (by omega : 0 + (size - (n.size - npos)) ≤ _), List.drop_zero]
        rw [List.take_append, hdrop, hsize, List.take_of_length_le (by omega : _ ≤ s - npos),
          List.take_of_length_le (by omega : _ ≤ size), ← hk, hsize]
        rfl

theorem seekLoop_spec {s : Nat} (hs : 0 < s) {nodes : List Node} {v : Nat} (hu : Uniform s nodes)
    (hne : nodes ≠ []) (hv : v ≤ s * nodes.length) : ByteArray.seekLoop nodes v = some (v / s) := by
  induction nodes generalizing v with
  | nil => exact absurd rfl hne
  | cons n next ih =>
      have hsize : n.size = s := hu.head
      unfold ByteArray.seekLoop
      by_cases hgt : v > n.size
      · rw [List.length_cons, Nat.mul_succ] at hv
        have hnext : next ≠ [] := by
          rintro rfl
          simp only [List.length_nil, Nat.mul_zero] at hv
          omega
        have hk : (v - n.size) / s + 1 = v / s := div_succ_of_cross hs (by omega)
        simp only [hgt, if_true, ih hu.tail hnext (by omega : v - n.size ≤ s * next.length),
          Option.map_some, hk]
      · by_cases heq : v = n.size
        · simp [heq, hsize, Nat.div_self hs]
        · simp [hgt, heq, Nat.div_eq_of_lt (by omega : v < s)]

theorem iovecLoop_isSome {s : Nat} (hs : 0 < s) {nodes : List Node} (i npos len : Nat)
    (hu : Uniform s nodes) (hn : npos < s) (hne : nodes ≠ [])
    (hfit : npos + len ≤ s * nodes.length) :
    ∃ buffers, ByteArray.iovecLoop nodes i npos len = some buffers := by
  induction nodes generalizing i npos len with
  | nil => exact absurd rfl hne
  | cons n next ih =>
      have hsize : n.size = s := hu.head
      unfold ByteArray.iovecLoop
      by_cases h0 : len = 0
      · exact ⟨[], by simp [h0]⟩
      by_cases hcap : n.size - npos ≥ len
      · exact ⟨[⟨i, npos, len⟩], by simp [h0, hcap]⟩
      · rw [List.length_cons, Nat.mul_succ] at hfit
        have hnext : next ≠ [] := by
          rintro rfl
          simp only [List.length_nil, Nat.mul_zero] at hfit
          omega
        obtain ⟨buffers, hrec⟩ := ih (i + 1) 0 (len - (n.size - npos))
          hu.tail hs hnext (by omega)
        exact ⟨⟨i, npos, n.size - npos⟩ :: buffers, by simp [h0, hcap, hrec]⟩

end HCServer
