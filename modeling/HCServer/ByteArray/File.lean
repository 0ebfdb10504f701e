import HCServer.ByteArray.Refine
import HCServer.ByteArray.Iovecs
import HCServer.Http.Socket

/-! `writeToFile`, one `ofs.write` for each block, and the way back through `readFromFile`. The
length of a write takes the offset in the first block off whatever remains, so a cursor inside a
block is only served when a whole block's worth of data follows it. -/
namespace HCServer
open Lib
open Http (toInt toInt_of_lt)

/-- The addresses `a`, `a + 1`, ..., `n` of them. -/
def placesFrom (a : Int) (n : Nat) : List Int := (List.range n).map fun j : Nat => a + j

theorem placesFrom_succ (a : Int) (n : Nat) : placesFrom a (n + 1) = a :: placesFrom (a + 1) n := by
  rw [placesFrom, List.range_succ_eq_map, List.map_cons, List.map_map, placesFrom]
  congr 1
  · simp
  · apply List.map_congr_left
    intro j _
    simp only [Function.comp_apply, Nat.succ_eq_add_one, Nat.cast_add, Nat.cast_one]
    omega

theorem placesFrom_add (a : Int) (m n : Nat) :
    placesFrom a (m + n) = placesFrom a m ++ placesFrom (a + m) n := by
  rw [placesFrom, List.range_add, List.map_append, List.map_map, placesFrom, placesFrom]
  congr 1
  apply List.map_congr_left
  intro j _
  simp only [Function.comp_apply, Nat.cast_add]
  omega

@[simp] theorem length_placesFrom (a : Int) (n : Nat) : (placesFrom a n).length = n := by
  simp [placesFrom]

/-- A run of addresses that begins with a nonempty one begins where it does. -/
theorem placesFrom_split {a pos : Int} {m n : Nat} {rest : List Int} (hm : 0 < m)
    (h : placesFrom a m ++ rest = placesFrom pos n) :
    a = pos ∧ m ≤ n ∧ rest = placesFrom (pos + m) (n - m) := by
  have hlen := congrArg List.length h
  rw [List.length_append, length_placesFrom, length_placesFrom] at hlen
  obtain ⟨k, rfl⟩ := Nat.exists_eq_add_of_le' hm
  obtain ⟨l, rfl⟩ : ∃ l, n = l + 1 := ⟨n - 1, by omega⟩
  have hhead : a = pos := by
    rw [placesFrom_succ, placesFrom_succ, List.cons_append] at h
    exact (List.cons.inj h).1
  refine ⟨hhead, by omega, ?_⟩
  have hsplit := placesFrom_add pos (k + 1) (l + 1 - (k + 1))
  rw [Nat.add_sub_cancel' (by omega), ← h, hhead] at hsplit
  exact List.append_cancel_left hsplit

namespace ByteArray

/-- One `ofs.write(cur->ptr + diff, len)`. -/
structure FileWrite where
  node : Nat
  diff : Int
  len : Int
  deriving DecidableEq, Repr

/-- The addresses a write covers, counted along the blocks. -/
def FileWrite.places (base : Nat) (w : FileWrite) : List Int :=
  placesFrom (base * w.node + w.diff) w.len.toNat

/-- What a write hands to the file, none where it is not a range of its node. -/
def FileWrite.bytes (root : List Node) (w : FileWrite) : Option (List UInt8) :=
  if 0 ≤ w.diff ∧ 0 ≤ w.len then Iovec.bytes root ⟨w.node, w.diff.toNat, w.len.toNat⟩ else none

/-- The file behind a sequence of writes. -/
def fileBytes (root : List Node) : List FileWrite → Option (List UInt8)
  | [] => some []
  | w :: ws => do
      let bytes ← w.bytes root
      let rest ← fileBytes root ws
      some (bytes ++ rest)

/-- The loop of `writeToFile` from node `i` on. `diff` is an `int`; `pos` is never negative. The
null node is dereferenced where the nodes end before the data does. -/
def fileLoop (base : Nat) : List Node → Nat → Int → Int → Option (List FileWrite)
  | [], _, _, read_size => if read_size > 0 then none else some []
  | _ :: next, i, pos, read_size =>
      if read_size > 0 then
        let diff := toInt (pos.toNat % base)
        let len := (if read_size > base then (base : Int) else read_size) - diff
        (fileLoop base next (i + 1) (pos + len) (read_size - len)).map (⟨i, diff, len⟩ :: ·)
      else some []

/-- `opened` tells whether `ofs.open` has succeeded. -/
def writeToFile (b : ByteArray) (opened : Bool) : Option (Bool × List FileWrite) :=
  if opened then
    (fileLoop b.baseSize (nodesFrom b.root b.cur) (b.cur.getD 0) b.position b.getReadSize).map
      (true, ·)
  else some (false, [])

/-- The writes cover the next `n` addresses from `pos` on, each with a length that is none below
zero. -/
structure Covers (base : Nat) (pos n : Int) (writes : List FileWrite) : Prop where
  inside : ∀ w ∈ writes, 0 ≤ w.diff ∧ 0 ≤ w.len
  places : writes.flatMap (FileWrite.places base) = placesFrom pos n.toNat

/-- A write of nothing changes neither variable, so the walk ends at the null node. -/
theorem fileLoop_stuck {base : Nat} {pos n : Int} (hn : 0 < n)
    (hzero : (if n > base then (base : Int) else n) - toInt (pos.toNat % base) = 0)
    (nodes : List Node) (i : Nat) : fileLoop base nodes i pos n = none := by
  induction nodes generalizing i with
  | nil => simp [fileLoop, hn]
  | cons m next ih =>
      rw [fileLoop, if_pos hn]
      dsimp only
      rw [hzero, Int.add_zero, Int.sub_zero, ih, Option.map_none]

/-- A covering run writes to the right place first and covers what is left with the rest. -/
theorem fileLoop_covers_head {base : Nat} {nodes : List Node} {i : Nat} {pos n : Int}
    {writes : List FileWrite} (hn : 0 < n) (hloop : fileLoop base nodes i pos n = some writes)
    (hcov : Covers base pos n writes) :
    ∃ m next rest len, nodes = m :: next ∧ 0 ≤ toInt (pos.toNat % base) ∧
      base * i + toInt (pos.toNat % base) = pos ∧
      len = (if n > base then (base : Int) else n) - toInt (pos.toNat % base) ∧ len ≤ n ∧
      fileLoop base next (i + 1) (pos + len) (n - len) = some rest ∧
      Covers base (pos + len) (n - len) rest := by
  cases nodes with
  | nil => simp [fileLoop, hn] at hloop
  | cons m next =>
      by_cases hzero : (if n > base then (base : Int) else n) - toInt (pos.toNat % base) = 0
      · rw [fileLoop_stuck hn hzero] at hloop
        cases hloop
      rw [fileLoop, if_pos hn] at hloop
      dsimp only at hloop
      generalize (if n > base then (base : Int) else n) - toInt (pos.toNat % base) = len
        at hloop hzero ⊢
      obtain ⟨rest, hrec, rfl⟩ := Option.map_eq_some_iff.mp hloop
      have hhead := hcov.inside _ List.mem_cons_self
      dsimp only at hhead
      have hplaces := hcov.places
      rw [List.flatMap_cons, FileWrite.places] at hplaces
      dsimp only at hplaces
      obtain ⟨hstart, hle, hrest⟩ := placesFrom_split (by omega) hplaces
      refine ⟨m, next, rest, len, rfl, hhead.1, hstart, rfl, by omega, hrec,
        fun w hw => hcov.inside w (List.mem_cons_of_mem _ hw), ?_⟩
      rw [hrest, Int.toNat_of_nonneg hhead.2]
      congr 1
      omega

/-- The condition under which the first write is right, and with it the others. -/
def Served (base o n : Nat) : Prop := n = 0 ∨ o < 2 ^ 31 ∧ (o = 0 ∨ base ≤ n)

instance (base o n : Nat) : Decidable (Served base o n) := by
  unfold Served
  infer_instance

theorem toInt_lt (n : Nat) : toInt n < 2 ^ 31 := by
  have h := BitVec.toInt_lt (x := BitVec.ofNat 32 n)
  rw [toInt]
  omega

theorem served_of_covers {base : Nat} {nodes : List Node} {p n : Nat} {writes : List FileWrite}
    (hloop : fileLoop base nodes (p / base) p n = some writes)
    (hcov : Covers base p n writes) : Served base (p % base) n := by
  by_cases h0 : n = 0
  · exact .inl h0
  obtain ⟨m, next, rest, len, -, -, hstart, hlen, -, hrec, hrest⟩ :=
    fileLoop_covers_head (by omega) hloop hcov
  have hdm : (base : Int) * ((p / base : Nat) : Int) + ((p % base : Nat) : Int) = p := by
    exact_mod_cast Nat.div_add_mod p base
  rw [Int.toNat_natCast] at hstart hlen
  have hdiff : toInt (p % base) = ((p % base : Nat) : Int) := by omega
  have hsmall := toInt_lt (p % base)
  rw [hdiff] at hsmall hlen
  refine .inr ⟨by omega, ?_⟩
  by_cases hdone : (n : Int) - len ≤ 0
  · -- one write has covered everything
    left
    split at hlen <;> omega
  · right
    obtain ⟨m', next', rest', len', -, hnonneg, hstart', -⟩ :=
      fileLoop_covers_head (by omega) hrec hrest
    have hnext : (base : Int) * ((p / base + 1 : Nat) : Int) =
        base * ((p / base : Nat) : Int) + base := by
      rw [Nat.cast_add, Nat.cast_one, mul_add, mul_one]
    rw [hnext] at hstart'
    split at hlen <;> omega

/-- A run over blocks whose first write is right covers what is asked for. -/
theorem fileLoop_covers {s : Nat} (hs : 0 < s) {nodes : List Node} (before : List Node)
    (o n : Nat) (hu : Uniform s nodes) (ho : o < s) (hserved : Served s o n)
    (hfit : o + n ≤ s * nodes.length) :
    ∃ writes, fileLoop s nodes before.length ((s * before.length + o : Nat) : Int) n = some writes ∧
      Covers s ((s * before.length + o : Nat) : Int) n writes ∧
      fileBytes (before ++ nodes) writes = some (((bytesOf nodes).drop o).take n) := by
  induction nodes generalizing before o n with
  | nil =>
      have h0 : n = 0 := by
        simp only [List.length_nil, Nat.mul_zero] at hfit
        omega
      exact ⟨[], by simp [fileLoop, h0], ⟨by simp, by simp [h0, placesFrom]⟩, by simp [fileBytes]⟩
  | cons m next ih =>
      by_cases h0 : n = 0
      · exact ⟨[], by simp [fileLoop, h0], ⟨by simp, by simp [h0, placesFrom]⟩,
          by simp [fileBytes, h0]⟩
      obtain ⟨hsmall, hwhole⟩ := hserved.resolve_left h0
      have hsize : m.size = s := hu.head
      have hptr : m.ptr.length = s := m.alloc.trans hsize
      rw [List.length_cons, Nat.mul_succ] at hfit
      have hmod : (s * before.length + o) % s = o := by
        rw [Nat.mul_add_mod, Nat.mod_eq_of_lt ho]
      have hlen : (if (n : Int) > s then (s : Int) else n) - (o : Int) = ((min s n - o : Nat) : Int) := by
        split <;> omega
      -- the rest of the loop starts at the next block, or has nothing left to do
      have hrest : ∃ rest, fileLoop s next (before.length + 1)
            ((s * before.length + o : Nat) + (min s n - o : Nat) : Int) (n - (min s n - o : Nat) : Int) =
            some rest ∧
          Covers s ((s * before.length + o : Nat) + (min s n - o : Nat) : Int)
            (n - (min s n - o : Nat) : Int) rest ∧
          fileBytes (before ++ m :: next) rest =
            some ((bytesOf next).take (n - (min s n - o))) := by
        by_cases hdone : n - (min s n - o) = 0
        · have hzero : (n : Int) - (min s n - o : Nat) = 0 := by omega
          refine ⟨[], ?_, ⟨by simp, by simp [hzero, placesFrom]⟩, by simp [fileBytes, hdone]⟩
          rw [hzero]
          cases next <;> simp [fileLoop]
        · obtain ⟨rest, hloop, hcov, hbytes⟩ := ih (before ++ [m]) 0 (n - (min s n - o)) hu.tail hs
            (.inr ⟨by decide, .inl rfl⟩) (by omega)
          rw [List.length_append, List.length_singleton, Nat.mul_succ] at hloop hcov
          rw [List.append_assoc, List.singleton_append, List.drop_zero] at hbytes
          have hpos : ((s * before.length + o : Nat) + (min s n - o : Nat) : Int) =
              ((s * before.length + s + 0 : Nat) : Int) := by
            omega
          have hleft : (n : Int) - (min s n - o : Nat) = ((n - (min s n - o) : Nat) : Int) := by omega
          rw [hpos, hleft]
          exact ⟨rest, hloop, hcov, hbytes⟩
      obtain ⟨rest, hloop, hcov, hbytes⟩ := hrest
      have hwrite : FileWrite.bytes (before ++ m :: next) ⟨before.length, o, (min s n - o : Nat)⟩ =
          some ((m.ptr.drop o).take (min s n - o)) := by
        rw [FileWrite.bytes, if_pos ⟨Int.natCast_nonneg _, Int.natCast_nonneg _⟩]
        exact Iovec.bytes_eq (node_after before m next)
          (by simp only [Int.toNat_natCast]; omega)
      refine ⟨⟨before.length, o, (min s n - o : Nat)⟩ :: rest, ?_, ⟨?_, ?_⟩, ?_⟩
      · rw [fileLoop, if_pos (by omega)]
        dsimp only
        rw [Int.toNat_natCast, hmod, toInt_of_lt hsmall, hlen, hloop, Option.map_some]
      · intro w hw
        rcases List.mem_cons.mp hw with rfl | hw
        · exact ⟨Int.natCast_nonneg _, Int.natCast_nonneg _⟩
        · exact hcov.inside w hw
      · rw [List.flatMap_cons, hcov.places, FileWrite.places]
        dsimp only
        have htotal : (n : Int).toNat = (min s n - o) + (n - (min s n - o : Nat) : Int).toNat := by
          omega
        rw [htotal, placesFrom_add, Int.toNat_natCast]
        push_cast
        rfl
      · have hfile : fileBytes (before ++ m :: next)
            (⟨before.length, o, (min s n - o : Nat)⟩ :: rest) =
            some ((m.ptr.drop o).take (min s n - o) ++ (bytesOf next).take (n - (min s n - o))) := by
          rw [fileBytes, hwrite, hbytes]
          rfl
        have hdrop : (m.ptr.drop o).length = s - o := by rw [List.length_drop, hptr]
        rw [hfile, bytesOf_cons, List.drop_append_of_le_length (by omega), List.take_append, hdrop]
        congr 2
        · by_cases hfull : s ≤ n
          · rw [Nat.min_eq_left hfull, List.take_of_length_le hdrop.le,
              List.take_of_length_le (by omega)]
          · rw [Nat.min_eq_right (by omega), (by omega : n - o = n)]
        · congr 1
          omega

/-- The file holds what lay between the cursor and the end of the data, and reading it back into a
fresh array of any block size gives the same string. -/
structure RoundTrips (b : ByteArray) (writes : List FileWrite) (file : List UInt8) : Prop where
  done : b.writeToFile true = some (true, writes)
  covers : Covers b.baseSize b.position b.getReadSize writes
  written : fileBytes b.root writes = some file
  back : ∀ (mem : Nat → Nat → UInt8) (base : Nat), 0 < base → ∃ b1 b2,
    readFromFile mem (some file) (new mem base) = .ok true b1 ∧ setPosition 0 b1 = .ok () b2 ∧
      b2.toString = b.toString

theorem readFromFile_back (mem : Nat → Nat → UInt8) {base : Nat} (hb : 0 < base)
    (file : List UInt8) :
    ∃ b1 b2, readFromFile mem (some file) (new mem base) = .ok true b1 ∧
      setPosition 0 b1 = .ok () b2 ∧ b2.toString = .ok file := by
  obtain ⟨b1, hread, h1, hc1, -⟩ := readFromFile_spec mem (rep_new mem hb) file
  obtain ⟨b2, hseek, h2, hp2, hmax, hroot, -⟩ := setPosition_spec h1 (Nat.zero_le b1.capacity)
  refine ⟨b1, b2, hread, hseek, ?_⟩
  have hempty : (new mem base).content = [] := content_of_size_zero rfl
  have hsame : b2.content = b1.content := by
    rw [content, hroot, hmax, Nat.max_eq_left (Nat.zero_le _), content]
  rw [toString_spec h2, hp2, List.drop_zero, hsame, hc1, hempty]
  simp [overwrite, new]

/-- Saving and reading back works exactly when nothing is left to save, or the offset of the cursor
in its block fits an `int` and is zero or followed by at least a block's worth of data. -/
theorem writeToFile_roundTrips_iff (mem : Nat → Nat → UInt8) {base : Nat} (hb : 0 < base)
    (calls : List Call) {b : ByteArray} (hc : performAll mem calls (new mem base) = some b) :
    (∃ writes file, b.RoundTrips writes file ∧ file = b.content.drop b.position) ↔
      Served b.baseSize (b.position % b.baseSize) b.getReadSize := by
  obtain ⟨h, -⟩ := (rep_new mem hb).performAll mem calls hc
  have hsize := h.size_le
  have hpos := h.position_le
  have hread := h.readSize
  constructor
  · rintro ⟨writes, file, htrip, -⟩
    by_cases h0 : b.getReadSize = 0
    · exact .inl h0
    obtain ⟨writes', hloop, heq⟩ := Option.map_eq_some_iff.mp htrip.done
    have hwrites : writes' = writes := congrArg Prod.snd heq
    rw [h.cur_of_lt (by omega), Option.getD_some, hwrites] at hloop
    exact served_of_covers hloop htrip.covers
  · intro hserved
    have hfile : ∃ writes, b.writeToFile true = some (true, writes) ∧
        Covers b.baseSize b.position b.getReadSize writes ∧
        fileBytes b.root writes = some (b.content.drop b.position) := by
      by_cases h0 : b.getReadSize = 0
      · refine ⟨[], ?_, ⟨by simp, by simp [h0, placesFrom]⟩, ?_⟩
        · rw [writeToFile, if_pos rfl, h0]
          cases nodesFrom b.root b.cur <;> rfl
        · rw [List.drop_eq_nil_of_le (by rw [h.length_content]; omega), fileBytes]
      · obtain ⟨htake, hu, hmod, -, hrest⟩ := h.split (p := b.position) (by omega)
        have hdm := Nat.div_add_mod b.position b.baseSize
        obtain ⟨writes, hloop, hcov, hbytes⟩ := fileLoop_covers h.base_pos
          (b.root.take (b.position / b.baseSize)) (b.position % b.baseSize) b.getReadSize hu hmod
          hserved (by omega)
        rw [htake, hdm] at hloop hcov
        rw [List.take_append_drop, h.bytesOf_drop, hdm, ← take_content (by omega),
          List.take_of_length_le (by rw [List.length_drop, h.length_content]; omega)] at hbytes
        refine ⟨writes, ?_, hcov, hbytes⟩
        rw [writeToFile, if_pos rfl, h.cur_of_lt (by omega), nodesFrom, Option.getD_some, hloop]
        rfl
    obtain ⟨writes, hdone, hcov, hbytes⟩ := hfile
    refine ⟨writes, _, ⟨hdone, hcov, hbytes, ?_⟩, rfl⟩
    intro mem' base' hb'
    rw [toString_spec h]
    exact readFromFile_back mem' hb' _

/-- Five bytes in blocks of three, the cursor on the second one. -/
def savedCalls : List Call := [.write [1, 2, 3, 4, 5], .setPosition 1]

theorem writeToFile_roundTrips_iff_run :
    0 < 3 ∧ ∃ b, performAll (fun _ _ => 0xcd) savedCalls (new (fun _ _ => 0xcd) 3) = some b ∧
      ((∃ writes file, b.RoundTrips writes file ∧ file = b.content.drop b.position) ↔
        Served b.baseSize (b.position % b.baseSize) b.getReadSize) := by
  have hrun : (performAll (fun _ _ => 0xcd) savedCalls (new (fun _ _ => 0xcd) 3)).isSome := by
    decide
  obtain ⟨b, hb⟩ := Option.isSome_iff_exists.mp hrun
  exact ⟨by decide, b, hb, writeToFile_roundTrips_iff _ (by decide) _ hb⟩

/-- Three bytes in a block of four, the cursor on the last one: the write has length minus one, and
the loop goes on to the null node. -/
theorem writeToFile_negative : ¬ ∀ (mem : Nat → Nat → UInt8) (base : Nat), 0 < base →
    ∀ (calls : List Call) (b : ByteArray), performAll mem calls (new mem base) = some b →
      ∃ writes file, b.RoundTrips writes file ∧ file = b.content.drop b.position := by
  intro h
  obtain ⟨writes, file, htrip, -⟩ :=
    h (fun _ _ => 0xcd) 4 (by decide) [.write [1, 2, 3], .setPosition 2] _ rfl
  have hfault : (none : Option (Bool × List FileWrite)) = some (true, writes) := htrip.done
  cases hfault

end ByteArray
end HCServer
