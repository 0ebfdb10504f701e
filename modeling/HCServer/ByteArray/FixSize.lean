import HCServer.ByteArray.Stream

/-! The counters of `Stream::readFixSize` and `writeFixSize` in their own types: `length` and `offset`
are `size_t`, `left` and `len` are `int64_t`, and what the calls and the functions return is an `int`.
`read` and `write` are pure virtual, and any that keep to what the class says of them will do. -/
namespace HCServer.FixSize

/-- A `read` or `write` of at most `length` bytes at `offset`. Where it returns a positive number it has
moved as many bytes, and otherwise none. `moved` counts the bytes moved so far. -/
structure Primitive (σ : Type) where
  call : BitVec 64 → BitVec 64 → σ → BitVec 32 × σ
  moved : σ → Nat
  moves : ∀ offset length s, 0 < (call offset length s).1.toInt →
    (call offset length s).1.toInt ≤ length.toNat ∧
      (moved (call offset length s).2 : Int) = moved s + (call offset length s).1.toInt
  stops : ∀ offset length s, (call offset length s).1.toInt ≤ 0 →
    moved (call offset length s).2 = moved s

variable {σ : Type}

/-- The loop, with the counters at each of its tests. A round that goes on has moved a byte. -/
def loop (p : Primitive σ) (length : BitVec 64) :
    Nat → BitVec 64 → BitVec 64 → σ → List (BitVec 64 × BitVec 64) × Option (BitVec 32 × σ)
  | 0, _, _, _ => ([], none)
  | rounds + 1, offset, left, s =>
      if 0 < left.toInt then
        let (rt, s) := p.call offset left s
        let len : BitVec 64 := rt.signExtend 64
        if len.toInt ≤ 0 then ([(offset, left)], some (len.setWidth 32, s))
        else
          let r := loop p length rounds (offset + len) (left - len) s
          ((offset, left) :: r.1, r.2)
      else ([(offset, left)], some (length.setWidth 32, s))

/-- The body of the four functions; those for a `ByteArray` have no `offset`, and what they call
looks at none. -/
def fixSize (p : Primitive σ) (length : BitVec 64) (s : σ) :
    List (BitVec 64 × BitVec 64) × Option (BitVec 32 × σ) :=
  loop p length (length.toNat + 1) 0#64 length s

/-- Some call ends the transfer with `left` bytes still to be moved. -/
inductive Short (p : Primitive σ) : Nat → Nat → σ → Prop
  | stop {offset left : Nat} {s : σ} (hleft : 0 < left)
      (h : (p.call (BitVec.ofNat 64 offset) (BitVec.ofNat 64 left) s).1.toInt ≤ 0) : Short p offset left s
  | move {offset left k : Nat} {s s' : σ} {rt : BitVec 32} (hleft : 0 < left)
      (hcall : p.call (BitVec.ofNat 64 offset) (BitVec.ofNat 64 left) s = (rt, s'))
      (hrt : rt.toInt = k) (hk : 0 < k) (h : Short p (offset + k) (left - k) s') : Short p offset left s

/-- The counters at a test: neither is negative, and together they make the length. -/
def InRange (length : BitVec 64) (c : BitVec 64 × BitVec 64) : Prop :=
  0 ≤ c.1.toInt ∧ 0 ≤ c.2.toInt ∧ c.1.toNat + c.2.toNat = length.toNat

/-- The loop ends with its counters in range all the way, and a positive value says that all bytes
were moved. -/
def Truthful (p : Primitive σ) (length : BitVec 64) (s : σ) : Prop :=
  ∃ counters rt s', fixSize p length s = (counters, some (rt, s')) ∧
    (∀ c ∈ counters, InRange length c) ∧
    (0 < rt.toInt ↔ p.moved s' = p.moved s + length.toNat)

/-- How the loop ends from a state of the counters on. -/
structure Ends (p : Primitive σ) (length : BitVec 64) (offset left : Nat) (s : σ)
    (r : List (BitVec 64 × BitVec 64) × Option (BitVec 32 × σ)) : Prop where
  counters : ∀ c ∈ r.1, InRange length c
  outcome : ∃ rt s', r.2 = some (rt, s') ∧
    (Short p offset left s ∧ rt.toInt ≤ 0 ∧ p.moved s' < p.moved s + left ∨
      ¬ Short p offset left s ∧ rt = length.setWidth 32 ∧ p.moved s' = p.moved s + left)

theorem toNat_ofNat {n : Nat} (h : n < 2 ^ 63) : (BitVec.ofNat 64 n).toNat = n := by
  rw [BitVec.toNat_ofNat]
  omega

theorem toInt_ofNat {n : Nat} (h : n < 2 ^ 63) : (BitVec.ofNat 64 n).toInt = n := by
  rw [BitVec.toInt_eq_toNat_of_lt (by rw [toNat_ofNat h]; omega), toNat_ofNat h]

theorem inRange_ofNat {length : BitVec 64} {offset left : Nat} (hlength : length.toNat < 2 ^ 63)
    (h : offset + left = length.toNat) : InRange length (BitVec.ofNat 64 offset, BitVec.ofNat 64 left) := by
  refine ⟨?_, ?_, ?_⟩
  · rw [toInt_ofNat (by omega)]
    omega
  · rw [toInt_ofNat (by omega)]
    omega
  · rw [toNat_ofNat (by omega), toNat_ofNat (by omega)]
    exact h

theorem signExtend_int {rt : BitVec 32} : (rt.signExtend 64).toInt = rt.toInt :=
  BitVec.toInt_signExtend_of_le (by decide)

/-- A positive `int` keeps its value as an `int64_t` and a `size_t`. -/
theorem signExtend_ofNat {rt : BitVec 32} {k : Nat} (h : rt.toInt = k) :
    rt.signExtend 64 = BitVec.ofNat 64 k := by
  have hk : k < 2 ^ 31 := by
    have hle := BitVec.toInt_lt (x := rt)
    omega
  apply BitVec.eq_of_toInt_eq
  rw [signExtend_int, h, toInt_ofNat (by omega)]

theorem narrow_int (rt : BitVec 32) : (rt.signExtend 64).setWidth 32 = rt := by
  apply BitVec.eq_of_getLsbD_eq
  intro i hi
  have hwide : i < 64 := by omega
  rw [BitVec.getLsbD_setWidth, BitVec.getLsbD_signExtend, if_pos hi]
  simp [hi, hwide]

theorem not_short_zero {p : Primitive σ} {offset : Nat} {s : σ} : ¬ Short p offset 0 s := by
  intro h
  cases h with
  | stop hleft => exact absurd hleft (Nat.lt_irrefl 0)
  | move hleft => exact absurd hleft (Nat.lt_irrefl 0)

/-- After a call that moved something the transfer ends short exactly if the rest of it does. -/
theorem short_move_iff {p : Primitive σ} {offset left k : Nat} {s s' : σ} {rt : BitVec 32}
    (hleft : 0 < left) (hcall : p.call (BitVec.ofNat 64 offset) (BitVec.ofNat 64 left) s = (rt, s'))
    (hrt : rt.toInt = k) (hk : 0 < k) : Short p offset left s ↔ Short p (offset + k) (left - k) s' := by
  constructor
  · intro h
    cases h with
    | stop _ hstop =>
      rw [hcall] at hstop
      dsimp only at hstop
      omega
    | move _ hcall' hrt' _ h =>
      obtain ⟨rfl, rfl⟩ := Prod.mk.inj (hcall.symm.trans hcall')
      obtain rfl := Int.ofNat_inj.mp (hrt.symm.trans hrt')
      exact h
  · exact Short.move hleft hcall hrt hk

theorem add_ofNat (offset k : Nat) :
    BitVec.ofNat 64 offset + BitVec.ofNat 64 k = BitVec.ofNat 64 (offset + k) :=
  (BitVec.ofNat_add _ _).symm

theorem sub_ofNat {left k : Nat} (hle : k ≤ left) (hleft : left < 2 ^ 64) :
    BitVec.ofNat 64 left - BitVec.ofNat 64 k = BitVec.ofNat 64 (left - k) := by
  apply BitVec.eq_of_toNat_eq
  bv_omega

/-- Induction on the rounds: the counters stay in range while their sum is the length. -/
theorem loop_ends (p : Primitive σ) {length : BitVec 64} (hlength : length.toNat < 2 ^ 63)
    {rounds offset left : Nat} {s : σ} (hrounds : left < rounds) (hsum : offset + left = length.toNat) :
    Ends p length offset left s
      (loop p length rounds (BitVec.ofNat 64 offset) (BitVec.ofNat 64 left) s) := by
  induction rounds generalizing offset left s with
  | zero => omega
  | succ rounds ih =>
    have hhead : InRange length (BitVec.ofNat 64 offset, BitVec.ofNat 64 left) :=
      inRange_ofNat hlength hsum
    have hleft : (BitVec.ofNat 64 left).toInt = left := toInt_ofNat (by omega)
    have hnat : (BitVec.ofNat 64 left).toNat = left := toNat_ofNat (by omega)
    rw [loop, hleft]
    by_cases hpos : 0 < left
    · rw [if_pos (by omega)]
      have hmoves := p.moves (BitVec.ofNat 64 offset) (BitVec.ofNat 64 left) s
      have hstops := p.stops (BitVec.ofNat 64 offset) (BitVec.ofNat 64 left) s
      obtain ⟨rt, s', hcall⟩ :
          ∃ rt s', p.call (BitVec.ofNat 64 offset) (BitVec.ofNat 64 left) s = (rt, s') :=
        ⟨_, _, rfl⟩
      rw [hcall, hnat] at hmoves
      rw [hcall] at hstops
      rw [hcall]
      dsimp only at hmoves hstops ⊢
      rw [signExtend_int]
      by_cases hstop : rt.toInt ≤ 0
      · rw [if_pos hstop, narrow_int]
        refine ⟨List.forall_mem_singleton.mpr hhead, rt, s', rfl, .inl ⟨?_, hstop, ?_⟩⟩
        · exact .stop hpos (by rw [hcall]; exact hstop)
        · rw [hstops hstop]
          omega
      · obtain ⟨k, hk⟩ := Int.eq_ofNat_of_zero_le (by omega : 0 ≤ rt.toInt)
        obtain ⟨hle, hmoved⟩ := hmoves (by omega)
        have hkpos : 0 < k := by omega
        have hends : Ends p length (offset + k) (left - k) s' _ := ih (by omega) (by omega)
        rw [if_neg hstop, signExtend_ofNat hk, add_ofNat, sub_ofNat (by omega) (by omega)]
        obtain ⟨rt', s'', hr, hout⟩ := hends.outcome
        refine ⟨List.forall_mem_cons.mpr ⟨hhead, hends.counters⟩, rt', s'', hr, ?_⟩
        have hsame : p.moved s + left = p.moved s' + (left - k) := by omega
        rw [short_move_iff hpos hcall hk hkpos, hsame]
        exact hout
    · obtain rfl : left = 0 := by omega
      rw [if_neg (by omega)]
      exact ⟨List.forall_mem_singleton.mpr hhead, _, s, rfl, .inr ⟨not_short_zero, rfl, rfl⟩⟩

/-- A call with counters that are natural numbers. -/
def natTransfer (p : Primitive σ) (left : Nat) (x : Nat × σ) : Except Exn (Int × Nat × σ) :=
  let r := p.call (BitVec.ofNat 64 x.1) (BitVec.ofNat 64 left) x.2
  .ok (r.1.toInt, x.1 + r.1.toInt.toNat, r.2)

/-- Below `2 ^ 63` the loop is the one over natural numbers. -/
theorem loop_eq_fixLoop (p : Primitive σ) {length : BitVec 64} (hlength : length.toNat < 2 ^ 63)
    {rounds offset left : Nat} {s : σ} (hsum : offset + left = length.toNat) :
    ((loop p length rounds (BitVec.ofNat 64 offset) (BitVec.ofNat 64 left) s).2.map
        fun r => (r.1.toInt, r.2)) =
      (Stream.fixLoop (natTransfer p) length.toNat rounds left (offset, s)).toOption.map
        fun r => (r.1, r.2.2) := by
  induction rounds generalizing offset left s with
  | zero => rfl
  | succ rounds ih =>
    have hleft : (BitVec.ofNat 64 left).toInt = left := toInt_ofNat (by omega)
    have hnat : (BitVec.ofNat 64 left).toNat = left := toNat_ofNat (by omega)
    rw [loop, Stream.fixLoop, hleft]
    by_cases hpos : 0 < left
    · have hmoves := p.moves (BitVec.ofNat 64 offset) (BitVec.ofNat 64 left) s
      obtain ⟨rt, s', hcall⟩ :
          ∃ rt s', p.call (BitVec.ofNat 64 offset) (BitVec.ofNat 64 left) s = (rt, s') :=
        ⟨_, _, rfl⟩
      have hcall' : natTransfer p left (offset, s) = .ok (rt.toInt, offset + rt.toInt.toNat, s') := by
        rw [natTransfer, hcall]
      rw [hcall, hnat] at hmoves
      rw [if_pos (by omega), if_pos hpos, hcall, hcall']
      dsimp only at hmoves ⊢
      rw [signExtend_int]
      by_cases hstop : rt.toInt ≤ 0
      · rw [if_pos hstop, if_pos hstop, narrow_int]
        rfl
      · obtain ⟨k, hk⟩ := Int.eq_ofNat_of_zero_le (by omega : 0 ≤ rt.toInt)
        obtain ⟨hle, -⟩ := hmoves (by omega)
        rw [if_neg hstop, if_neg hstop, hk, Int.toNat_natCast, signExtend_ofNat hk, add_ofNat,
          sub_ofNat (by omega) (by omega)]
        exact ih (by omega)
    · rw [if_neg (by omega), if_neg hpos]
      have hvalue : (length.setWidth 32).toInt = Http.toInt length.toNat := rfl
      simp only [Option.map_some, hvalue, Except.toOption]

theorem fixSize_ends (p : Primitive σ) {length : BitVec 64} (hlength : length.toNat < 2 ^ 63) (s : σ) :
    Ends p length 0 length.toNat s (fixSize p length s) := by
  have hends := loop_ends p hlength (s := s) (Nat.lt_succ_self length.toNat) (Nat.zero_add _)
  rwa [BitVec.ofNat_toNat, BitVec.setWidth_eq] at hends

/-- Of a transfer that ends short they say so. -/
theorem truthful_of_short {p : Primitive σ} {length : BitVec 64} (hlength : length.toNat < 2 ^ 63)
    {s : σ} (h : Short p 0 length.toNat s) : Truthful p length s := by
  have hends := fixSize_ends p hlength s
  obtain ⟨rt, s', hr, hout⟩ := hends.outcome
  refine ⟨_, rt, s', Prod.ext rfl hr, hends.counters, ?_⟩
  rcases hout with ⟨-, hrt, hmoved⟩ | ⟨hshort, -, -⟩
  · omega
  · exact absurd h hshort

/-- Of a complete transfer they return the length as an `int`. -/
theorem truthful_of_complete {p : Primitive σ} {length : BitVec 64} (hlength : length.toNat < 2 ^ 63)
    {s : σ} (h : ¬ Short p 0 length.toNat s) :
    Truthful p length s ↔ 0 < (length.setWidth 32).toInt := by
  have hends := fixSize_ends p hlength s
  obtain ⟨rt, s', hr, hout⟩ := hends.outcome
  have hrun : fixSize p length s = ((fixSize p length s).1, some (rt, s')) := Prod.ext rfl hr
  obtain ⟨-, rfl, hmoved⟩ := hout.resolve_left fun hshort => h hshort.1
  constructor
  · rintro ⟨counters, rt', s'', hrun', -, htruth⟩
    obtain ⟨rfl, rfl⟩ := Prod.mk.inj (Option.some.inj (Prod.mk.inj (hrun.symm.trans hrun')).2)
    exact htruth.mpr hmoved
  · intro hpos
    exact ⟨_, _, s', hrun, hends.counters, iff_of_true hpos hmoved⟩

theorem truthful_iff (p : Primitive σ) {length : BitVec 64} (hlength : length.toNat < 2 ^ 63) (s : σ) :
    Truthful p length s ↔ 0 < (length.setWidth 32).toInt ∨ Short p 0 length.toNat s := by
  by_cases hshort : Short p 0 length.toNat s
  · exact iff_of_true (truthful_of_short hlength hshort) (.inr hshort)
  · rw [truthful_of_complete hlength hshort]
    exact (or_iff_left hshort).symm

/-- A peer with so many bytes ready at each call, and then gone. The kernel moves at most
`MAX_RW_COUNT` of them. -/
def scripted : Primitive (List Nat × Nat) where
  call _ length s :=
    match s.1 with
    | [] => (0#32, s)
    | ready :: rest =>
        let n := min (min ready length.toNat) Http.Socket.maxRead
        (BitVec.ofNat 32 n, (rest, s.2 + n))
  moved s := s.2
  moves := by
    rintro - length ⟨script, moved⟩ hpos
    cases script with
    | nil => exact absurd hpos (Int.lt_irrefl 0)
    | cons ready rest =>
      have hsmall : min (min ready length.toNat) Http.Socket.maxRead < 2 ^ 31 :=
        Nat.lt_of_le_of_lt (Nat.min_le_right _ _) (by decide)
      have hvalue := Http.toInt_of_lt hsmall
      rw [Http.toInt] at hvalue
      dsimp only
      rw [hvalue]
      omega
  stops := by
    rintro - length ⟨script, moved⟩ hstop
    cases script with
    | nil => rfl
    | cons ready rest =>
      have hsmall : min (min ready length.toNat) Http.Socket.maxRead < 2 ^ 31 :=
        Nat.lt_of_le_of_lt (Nat.min_le_right _ _) (by decide)
      have hvalue := Http.toInt_of_lt hsmall
      rw [Http.toInt] at hvalue
      dsimp only at hstop ⊢
      rw [hvalue] at hstop
      omega

theorem truthful_five : Truthful scripted 5#64 ([2, 9], 0) :=
  (truthful_iff scripted (by decide) ([2, 9], 0)).mpr (.inl (by decide))

/-- A body of `2 ^ 32` bytes arrives in three pieces, and `0` says that the peer has closed. -/
theorem complete_reported_closed :
    ¬ ∀ (length : BitVec 64), 1 ≤ length.toNat → length.toNat < 2 ^ 63 →
      ∀ s, Truthful scripted length s := by
  intro hall
  have hcomplete : ¬ Short scripted 0 4294967296 ([4294967296, 4294967296, 4294967296], 0) := by
    rw [short_move_iff (k := 2147479552) (by decide) rfl (by decide) (by decide)]
    rw [short_move_iff (k := 2147479552) (by decide) rfl (by decide) (by decide)]
    rw [short_move_iff (k := 8192) (by decide) rfl (by decide) (by decide)]
    exact not_short_zero
  have htruth := hall 4294967296#64 (by decide) (by decide) ([4294967296, 4294967296, 4294967296], 0)
  rw [truthful_of_complete (by decide) hcomplete] at htruth
  exact absurd htruth (by decide)

end HCServer.FixSize
