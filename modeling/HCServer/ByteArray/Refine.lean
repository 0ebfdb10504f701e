import HCServer.ByteArray.Invariant

/-! The purpose of `ByteArray`, stated without blocks: a byte vector with a cursor. The block
list is indistinguishable from it, so the block size never shows. -/
namespace HCServer
open Lib

/-- A byte vector with a cursor that never leaves it. -/
structure FlatBuffer where
  data : List UInt8
  pos : Nat
  pos_le : pos ≤ data.length

/-- What a caller sees of one operation. -/
inductive Obs
  | done
  | bytes (l : List UInt8)
  | number (n : Nat)
  | threw (what : String)
  deriving DecidableEq, Repr

inductive Request
  | write (buf : List UInt8)
  | read (n : Nat)
  | setPosition (v : Nat)
  | clear
  | toString
  | getPosition
  | getSize
  | getReadSize
  deriving DecidableEq, Repr

namespace FlatBuffer

def empty : FlatBuffer := ⟨[], 0, Nat.le_refl 0⟩

def write (f : FlatBuffer) (buf : List UInt8) : FlatBuffer where
  data := overwrite f.data f.pos buf
  pos := f.pos + buf.length
  pos_le := by
    rw [length_overwrite f.pos_le]
    exact Nat.le_max_right _ _

/-- A read past the end throws and changes nothing. -/
def read (f : FlatBuffer) (n : Nat) : Obs × FlatBuffer :=
  if h : f.pos + n ≤ f.data.length then
    (.bytes ((f.data.drop f.pos).take n), ⟨f.data, f.pos + n, h⟩)
  else (.threw "not enough len", f)

def seek (f : FlatBuffer) (v : Nat) : Obs × FlatBuffer :=
  if h : v ≤ f.data.length then (.done, ⟨f.data, v, h⟩)
  else (.threw "set_position out of range", f)

def serve (f : FlatBuffer) : Request → Obs × FlatBuffer
  | .write buf => (.done, f.write buf)
  | .read n => f.read n
  | .setPosition v => f.seek v
  | .clear => (.done, empty)
  | .toString => (.bytes (f.data.drop f.pos), f)
  | .getPosition => (.number f.pos, f)
  | .getSize => (.number f.data.length, f)
  | .getReadSize => (.number (f.data.length - f.pos), f)

def observe (f : FlatBuffer) : List Request → List Obs
  | [] => []
  | r :: rs => (f.serve r).1 :: (f.serve r).2.observe rs

/-- The requests are made within their contract: reads of at least one byte, seeks inside the
data. -/
def Legal (f : FlatBuffer) : List Request → Prop
  | [] => True
  | r :: rs =>
      (match r with
        | .read n => 1 ≤ n
        | .setPosition v => v ≤ f.data.length
        | _ => True) ∧ (f.serve r).2.Legal rs

end FlatBuffer

namespace ByteArray
variable (mem : Nat → Nat → UInt8)

def seen {α : Type} (view : α → Obs) : EStateM.Result Exn ByteArray α → Option (Obs × ByteArray)
  | .ok a b => some (view a, b)
  | .error (.outOfRange what) b => some (.threw what, b)
  | .error .fault _ => none

def shown (b : ByteArray) : Except Exn (List UInt8) → Option (Obs × ByteArray)
  | .ok l => some (.bytes l, b)
  | .error (.outOfRange what) => some (.threw what, b)
  | .error .fault => none

/-- `none` is undefined behaviour. -/
def serve (mem : Nat → Nat → UInt8) (b : ByteArray) : Request → Option (Obs × ByteArray)
  | .write buf => seen (fun _ => .done) (write mem buf b)
  | .read n => seen .bytes (read n b)
  | .setPosition v => seen (fun _ => .done) (setPosition v b)
  | .clear => seen (fun _ => .done) (clear b)
  | .toString => shown b b.toString
  | .getPosition => some (.number b.getPosition, b)
  | .getSize => some (.number b.getSize, b)
  | .getReadSize => some (.number b.getReadSize, b)

def observe (mem : Nat → Nat → UInt8) : ByteArray → List Request → Option (List Obs)
  | _, [] => some []
  | b, r :: rs => do
      let (o, b') ← b.serve mem r
      let os ← observe mem b' rs
      some (o :: os)

/-- The block list stores this vector and stands at its cursor. -/
structure Sim (b : ByteArray) (f : FlatBuffer) : Prop where
  rep : Rep b
  data : b.content = f.data
  pos : b.position = f.pos

theorem Sim.size {b : ByteArray} {f : FlatBuffer} (h : Sim b f) : b.size = f.data.length := by
  rw [← h.data, h.rep.length_content]

theorem content_of_size_zero {b : ByteArray} (h : b.size = 0) : b.content = [] := by
  rw [content, h, List.take_zero]

theorem sim_new {base : Nat} (hb : 0 < base) : Sim (new mem base) FlatBuffer.empty :=
  ⟨rep_new mem hb, content_of_size_zero rfl, rfl⟩

theorem toString_spec {b : ByteArray} (h : Rep b) :
    b.toString = .ok (b.content.drop b.position) := by
  rw [toString]
  have hlen : (b.content.drop b.position).length = b.size - b.position := by
    rw [List.length_drop, h.length_content]
  by_cases h0 : b.getReadSize = 0
  · rw [if_pos h0]
    rw [h.readSize] at h0
    rw [List.eq_nil_of_length_eq_zero (hlen.trans h0)]
  · rw [if_neg h0]
    rw [h.readSize] at h0 ⊢
    rw [readAt, sizeSub_of_le h.position_le, if_neg (Nat.lt_irrefl _),
      h.readLoop_eq (Nat.le_refl _) (h.position_lt (by omega) (Nat.le_refl _))]
    dsimp only
    rw [List.take_of_length_le hlen.le]

/-- One request: the same observation, and the two sides stay together. -/
theorem Sim.serve {b : ByteArray} {f : FlatBuffer} (h : Sim b f) (r : Request)
    (hread : ∀ n, r = .read n → 1 ≤ n) (hseek : ∀ v, r = .setPosition v → v ≤ f.data.length) :
    ∃ b', b.serve mem r = some ((f.serve r).1, b') ∧ Sim b' (f.serve r).2 := by
  have hsize := h.size
  have hpos := h.pos
  cases r with
  | write buf =>
      obtain ⟨b', hw, h1, hc, hp, -⟩ := write_spec mem h.rep buf
      refine ⟨b', by rw [ByteArray.serve, hw]; rfl, h1, ?_, ?_⟩
      · rw [hc, h.data, hpos]
        rfl
      · rw [hp, hpos]
        rfl
  | read n =>
      have h1n := hread n rfl
      rw [FlatBuffer.serve, FlatBuffer.read]
      by_cases hn : f.pos + n ≤ f.data.length
      · have hn' : n ≤ b.size - b.position := by omega
        obtain ⟨b', hr, h1, hc, hp, -⟩ := read_spec h.rep hn' (h.rep.position_lt h1n hn')
        rw [dif_pos hn]
        refine ⟨b', ?_, h1, hc.trans h.data, by rw [hp, hpos]⟩
        rw [ByteArray.serve, hr, seen, h.data, hpos]
      · rw [dif_neg hn]
        refine ⟨b, ?_, h⟩
        rw [ByteArray.serve, read_throws h.rep (by omega)]
        rfl
  | setPosition v =>
      have hv := hseek v rfl
      have hcap := h.rep.size_le
      obtain ⟨b', hs, h1, hp, hmax, hroot, -⟩ := setPosition_spec h.rep (v := v) (by omega)
      rw [FlatBuffer.serve, FlatBuffer.seek, dif_pos hv]
      refine ⟨b', by rw [ByteArray.serve, hs]; rfl, h1, ?_, hp⟩
      rw [content, hroot, hmax, Nat.max_eq_left (by omega)]
      exact h.data
  | clear =>
      obtain ⟨b', hs, h1, hp, hz, -⟩ := clear_spec h.rep
      exact ⟨b', by rw [ByteArray.serve, hs]; rfl, h1, content_of_size_zero hz, hp⟩
  | toString =>
      refine ⟨b, ?_, h⟩
      rw [ByteArray.serve, toString_spec h.rep, shown, h.data, hpos]
      rfl
  | getPosition => exact ⟨b, by rw [ByteArray.serve, getPosition, hpos]; rfl, h⟩
  | getSize => exact ⟨b, by rw [ByteArray.serve, getSize, hsize]; rfl, h⟩
  | getReadSize =>
      refine ⟨b, ?_, h⟩
      rw [ByteArray.serve, h.rep.readSize, hsize, hpos]
      rfl

theorem Sim.observe {b : ByteArray} {f : FlatBuffer} (h : Sim b f) (rs : List Request)
    (hl : f.Legal rs) : b.observe mem rs = some (f.observe rs) := by
  induction rs generalizing b f with
  | nil => rfl
  | cons r rs ih =>
      obtain ⟨hr, hrest⟩ := hl
      obtain ⟨b', hs, h'⟩ := h.serve mem r
        (fun n hn => by rw [hn] at hr; exact hr) (fun v hv => by rw [hv] at hr; exact hr)
      rw [ByteArray.observe, hs]
      change (ByteArray.observe mem b' rs).bind _ = _
      rw [ih h' hrest]
      rfl

/-- Whatever the block size and whatever fresh memory holds, callers see a flat vector with a
cursor; hence they cannot tell two block sizes apart. -/
theorem observes_as_flat_buffer (mem : Nat → Nat → UInt8) {base : Nat} (hb : 0 < base)
    (rs : List Request) (hl : FlatBuffer.empty.Legal rs) :
    (new mem base).observe mem rs = some (FlatBuffer.empty.observe rs) ∧
      ∀ (mem' : Nat → Nat → UInt8) (base' : Nat), 0 < base' →
        (new mem' base').observe mem' rs = (new mem base).observe mem rs := by
  have hflat := (sim_new mem hb).observe mem rs hl
  refine ⟨hflat, ?_⟩
  intro mem' base' hb'
  rw [hflat]
  exact (sim_new mem' hb').observe mem' rs hl

def sampleRequests : List Request :=
  [.write [1, 2, 3, 4, 5], .setPosition 1, .write [9, 9], .toString, .read 2, .read 1, .getReadSize,
    .setPosition 0, .read 5, .getPosition, .clear, .getSize]

theorem observes_as_flat_buffer_run :
    0 < 2 ∧ FlatBuffer.empty.Legal sampleRequests ∧
      (new (fun _ _ => 0xcd) 2).observe (fun _ _ => 0xcd) sampleRequests =
        some (FlatBuffer.empty.observe sampleRequests) ∧
      ∀ (mem' : Nat → Nat → UInt8) (base' : Nat), 0 < base' →
        (new mem' base').observe mem' sampleRequests =
          (new (fun _ _ => 0xcd) 2).observe (fun _ _ => 0xcd) sampleRequests := by
  have hl : FlatBuffer.empty.Legal sampleRequests := by
    simp [sampleRequests, FlatBuffer.Legal, FlatBuffer.serve, FlatBuffer.write, FlatBuffer.seek,
      FlatBuffer.read, FlatBuffer.empty, overwrite]
  exact ⟨by decide, hl, observes_as_flat_buffer _ (by decide) _ hl⟩

end ByteArray
end HCServer
