import HCServer.Lib.Numeral

/-! The textual representation of IPv6 addresses of RFC 4291, section 2.2: eight groups of up to four
hexadecimal digits, where `::` may stand for one or more groups of zeros and the last two groups may
be written as a dotted quad. -/
namespace HCServer.Lib.Ipv6Text

def colon : UInt8 := 58
def dot : UInt8 := 46

def hexDigit (d : Nat) : UInt8 := UInt8.ofNat (if d < 10 then 48 + d else 87 + d)

def hexValue (b : UInt8) : Nat :=
  if 48 ≤ b.toNat ∧ b.toNat ≤ 57 then b.toNat - 48
  else if 65 ≤ b.toNat ∧ b.toNat ≤ 70 then b.toNat - 55
  else if 97 ≤ b.toNat ∧ b.toNat ≤ 102 then b.toNat - 87
  else 16

/-- A group: one to four hexadecimal digits. -/
def readGroup (field : List UInt8) : Option Nat :=
  if 1 ≤ field.length ∧ field.length ≤ 4 ∧ field.all (fun b => decide (hexValue b < 16)) then
    some (numeralValue 16 hexValue field)
  else none

def readOctet (field : List UInt8) : Option Nat :=
  let v := numeralValue 10 hexValue field
  if 1 ≤ field.length ∧ field.length ≤ 3 ∧ field.all (fun b => decide (hexValue b < 10)) ∧ v < 256
  then some v
  else none

/-- A dotted quad, as the two groups it stands for. -/
def readQuad (field : List UInt8) : Option (List Nat) :=
  match (field.splitOn dot).map readOctet with
  | [some a, some b, some c, some d] => some [a * 256 + b, c * 256 + d]
  | _ => none

/-- Groups separated by colons; where `quad` is set the last of them may be a dotted quad. -/
def readGroups (quad : Bool) : List (List UInt8) → Option (List Nat)
  | [] => some []
  | [field] =>
      match readGroup field with
      | some g => some [g]
      | none => if quad then readQuad field else none
  | field :: fields => do
      let g ← readGroup field
      let gs ← readGroups quad fields
      some (g :: gs)

/-- One side of `::`, which may be empty. -/
def readSide (quad : Bool) (text : List UInt8) : Option (List Nat) :=
  if text = [] then some [] else readGroups quad (text.splitOn colon)

def atDouble (a : UInt8) (text : List UInt8) : Prop := a = colon ∧ text.head? = some colon

instance (a : UInt8) (text : List UInt8) : Decidable (atDouble a text) :=
  inferInstanceAs (Decidable (_ ∧ _))

/-- The text before and behind the first `::`. -/
def cutDouble : List UInt8 → Option (List UInt8 × List UInt8)
  | [] => none
  | a :: text =>
      if atDouble a text then some ([], text.tail)
      else (cutDouble text).map fun cut => (a :: cut.1, cut.2)

/-- The places at which `::` stands. -/
def countDouble : List UInt8 → Nat
  | [] => 0
  | a :: text => (if atDouble a text then 1 else 0) + countDouble text

/-- The eight groups of an address text. -/
def parse (text : List UInt8) : Option (List Nat) :=
  match cutDouble text with
  | none => do
      let gs ← readGroups true (text.splitOn colon)
      if gs.length = 8 then some gs else none
  | some (left, right) => do
      let before ← readSide false left
      let behind ← readSide true right
      if before.length + behind.length < 8 then
        some (before ++ List.replicate (8 - (before.length + behind.length)) 0 ++ behind)
      else none

/-- A group without leading zeros, in lower case. -/
def hexText (g : Nat) : List UInt8 := numeral 16 hexDigit g

def join (gs : List Nat) : List UInt8 := List.intercalate [colon] (gs.map hexText)

theorem digit_facts : ∀ d < 16, hexValue (hexDigit d) = d ∧ hexDigit d ≠ colon := by decide

theorem mem_hexText {g : Nat} {b : UInt8} (hb : b ∈ hexText g) : hexValue b < 16 ∧ b ≠ colon := by
  obtain ⟨d, hd, rfl⟩ := mem_numeral (by decide) hb
  refine ⟨?_, (digit_facts d hd).2⟩
  rw [(digit_facts d hd).1]
  exact hd

theorem hexText_ne_nil (g : Nat) : hexText g ≠ [] := numeral_ne_nil _ _ _

theorem readGroup_hexText {g : Nat} (hg : g < 65536) : readGroup (hexText g) = some g := by
  have hpos : 1 ≤ (hexText g).length := List.length_pos_of_ne_nil (hexText_ne_nil g)
  have hle : (hexText g).length ≤ 4 := length_numeral_le (by decide) (by decide) hg
  have hall : (hexText g).all (fun b => decide (hexValue b < 16)) = true :=
    List.all_eq_true.mpr fun b hb => decide_eq_true (mem_hexText hb).1
  have hvalue : numeralValue 16 hexValue (hexText g) = g :=
    numeralValue_numeral (by decide) (fun d hd => (digit_facts d hd).1) g
  rw [readGroup, if_pos ⟨hpos, hle, hall⟩, hvalue]

theorem readGroups_hexText (quad : Bool) {gs : List Nat} (hgs : ∀ g ∈ gs, g < 65536) :
    readGroups quad (gs.map hexText) = some gs := by
  induction gs with
  | nil => rfl
  | cons g gs ih =>
    have hhead : readGroup (hexText g) = some g := readGroup_hexText (hgs g List.mem_cons_self)
    have htail := ih fun g hg => hgs g (List.mem_cons_of_mem _ hg)
    cases gs with
    | nil => simp only [List.map_cons, List.map_nil, readGroups, hhead]
    | cons g' gs =>
      rw [List.map_cons] at htail
      simp only [List.map_cons, readGroups, hhead, htail, Option.bind_eq_bind, Option.bind_some]

theorem splitOn_join {gs : List Nat} (hne : gs ≠ []) :
    (join gs).splitOn colon = gs.map hexText := by
  apply List.splitOn_intercalate
  · intro field hfield hcolon
    obtain ⟨g, hg, rfl⟩ := List.mem_map.mp hfield
    exact (mem_hexText hcolon).2 rfl
  · exact fun h => hne (List.map_eq_nil_iff.mp h)

theorem colon_not_mem_hexText (g : Nat) : colon ∉ hexText g := fun h => (mem_hexText h).2 rfl

theorem head?_hexText (g : Nat) (text : List UInt8) : (hexText g ++ text).head? ≠ some colon := by
  intro h
  rw [List.head?_append_of_ne_nil _ (hexText_ne_nil g)] at h
  exact colon_not_mem_hexText g (List.mem_of_mem_head? h)

section
variable {field text : List UInt8}

theorem cutDouble_append (h : colon ∉ field) :
    cutDouble (field ++ text) = (cutDouble text).map fun cut => (field ++ cut.1, cut.2) := by
  induction field with
  | nil => simp
  | cons a field ih =>
    have hrest : colon ∉ field := fun hm => h (List.mem_cons_of_mem a hm)
    have hplain : ¬ atDouble a (field ++ text) := fun hd => h (hd.1 ▸ List.mem_cons_self)
    rw [List.cons_append, cutDouble, if_neg hplain, ih hrest, Option.map_map]
    rfl

theorem countDouble_append (h : colon ∉ field) :
    countDouble (field ++ text) = countDouble text := by
  induction field with
  | nil => rfl
  | cons a field ih =>
    have hrest : colon ∉ field := fun hm => h (List.mem_cons_of_mem a hm)
    have hplain : ¬ atDouble a (field ++ text) := fun hd => h (hd.1 ▸ List.mem_cons_self)
    rw [List.cons_append, countDouble, if_neg hplain, ih hrest, Nat.zero_add]

theorem cutDouble_colon (h : text.head? ≠ some colon) :
    cutDouble (colon :: text) = (cutDouble text).map fun cut => (colon :: cut.1, cut.2) := by
  rw [cutDouble, if_neg fun hd => h hd.2]

theorem countDouble_colon (h : text.head? ≠ some colon) :
    countDouble (colon :: text) = countDouble text := by
  rw [countDouble, if_neg fun hd => h hd.2, Nat.zero_add]

end

@[simp] theorem join_nil : join [] = [] := rfl

@[simp] theorem join_singleton (g : Nat) : join [g] = hexText g := List.intercalate_singleton

@[simp] theorem join_cons_cons (g g' : Nat) (gs : List Nat) :
    join (g :: g' :: gs) = hexText g ++ colon :: join (g' :: gs) := by
  rw [join, List.map_cons, List.map_cons, List.intercalate_cons_cons, List.append_assoc]
  rfl

theorem head?_join (g : Nat) (gs : List Nat) (text : List UInt8) :
    (join (g :: gs) ++ text).head? ≠ some colon := by
  cases gs with
  | nil =>
    rw [join_singleton]
    exact head?_hexText g text
  | cons g' gs =>
    rw [join_cons_cons, List.append_assoc]
    exact head?_hexText g _

/-- No `::` begins among groups separated by single colons. -/
theorem cutDouble_join (gs : List Nat) (text : List UInt8) :
    cutDouble (join gs ++ text) = (cutDouble text).map fun cut => (join gs ++ cut.1, cut.2) := by
  induction gs with
  | nil => simp
  | cons g gs ih =>
    cases gs with
    | nil =>
      rw [join_singleton]
      exact cutDouble_append (colon_not_mem_hexText g)
    | cons g' gs =>
      rw [join_cons_cons, List.append_assoc, cutDouble_append (colon_not_mem_hexText g),
        List.cons_append, cutDouble_colon (head?_join g' gs text), ih, Option.map_map, Option.map_map]
      simp only [Function.comp_def, List.append_assoc, List.cons_append]

theorem countDouble_join (gs : List Nat) (text : List UInt8) :
    countDouble (join gs ++ text) = countDouble text := by
  induction gs with
  | nil => rfl
  | cons g gs ih =>
    cases gs with
    | nil =>
      rw [join_singleton]
      exact countDouble_append (colon_not_mem_hexText g)
    | cons g' gs =>
      rw [join_cons_cons, List.append_assoc, countDouble_append (colon_not_mem_hexText g),
        List.cons_append, countDouble_colon (head?_join g' gs text), ih]

theorem cutDouble_join_self (gs : List Nat) : cutDouble (join gs) = none := by
  have h := cutDouble_join gs []
  rwa [List.append_nil] at h

theorem countDouble_join_self (gs : List Nat) : countDouble (join gs) = 0 := by
  have h := countDouble_join gs []
  rwa [List.append_nil] at h

theorem readSide_join (quad : Bool) {gs : List Nat} (hgs : ∀ g ∈ gs, g < 65536) :
    readSide quad (join gs) = some gs := by
  cases gs with
  | nil => rfl
  | cons g gs =>
    have hne : join (g :: gs) ≠ [] := by
      intro h
      have hfields := splitOn_join (List.cons_ne_nil g gs)
      rw [h] at hfields
      exact hexText_ne_nil g (List.cons.inj hfields).1.symm
    rw [readSide, if_neg hne, splitOn_join (List.cons_ne_nil g gs), readGroups_hexText quad hgs]

def isZero (g : Nat) : Bool := decide (g = 0)
def isNonzero (g : Nat) : Bool := decide (g ≠ 0)

/-- The groups with the first run of zeros written as `::`. -/
def compress (gs : List Nat) : List UInt8 :=
  let rest := gs.dropWhile isNonzero
  if rest = [] then join gs
  else
    join (gs.takeWhile isNonzero) ++
      colon :: colon :: join (rest.dropWhile isZero)

theorem head?_join_self (gs : List Nat) : (join gs).head? ≠ some colon := by
  cases gs with
  | nil => exact Option.some_ne_none _ ∘ Eq.symm
  | cons g gs =>
    have h := head?_join g gs []
    rwa [List.append_nil] at h

theorem cutDouble_compressed (pre post : List Nat) :
    cutDouble (join pre ++ colon :: colon :: join post) = some (join pre, join post) := by
  have htail : cutDouble (colon :: colon :: join post) = some ([], join post) :=
    if_pos ⟨rfl, rfl⟩
  rw [cutDouble_join, htail, Option.map_some, List.append_nil]

theorem countDouble_compressed (pre post : List Nat) :
    countDouble (join pre ++ colon :: colon :: join post) = 1 := by
  have hdouble : atDouble colon (colon :: join post) := ⟨rfl, rfl⟩
  rw [countDouble_join, countDouble, if_pos hdouble, countDouble_colon (head?_join_self post),
    countDouble_join_self]

theorem countDouble_compress_le (gs : List Nat) : countDouble (compress gs) ≤ 1 := by
  unfold compress
  dsimp only
  split
  · rw [countDouble_join_self]
    exact Nat.zero_le 1
  · exact (countDouble_compressed _ _).le

/-- The groups that `::` stands for: a run of zeros, and at least one. -/
theorem zeros_of_rest {gs rest : List Nat} (hrest : gs.dropWhile isNonzero = rest)
    (hne : rest ≠ []) :
    ∃ k, 0 < k ∧
      gs = gs.takeWhile isNonzero ++
        List.replicate k 0 ++ rest.dropWhile isZero := by
  have hzeros : ∀ g ∈ rest.takeWhile isZero, g = 0 :=
    fun g hg => of_decide_eq_true (List.all_eq_true.mp List.all_takeWhile g hg)
  have hpos : 0 < (rest.takeWhile isZero).length := by
    cases rest with
    | nil => exact absurd rfl hne
    | cons g rest =>
      have hzero : g = 0 := by
        have h := List.head?_dropWhile_not isNonzero gs
        rw [hrest] at h
        simpa [isNonzero] using h
      rw [hzero]
      exact Nat.zero_lt_succ _
  refine ⟨_, hpos, ?_⟩
  rw [← List.eq_replicate_of_mem hzeros, List.append_assoc, List.takeWhile_append_dropWhile, ← hrest,
    List.takeWhile_append_dropWhile]

theorem parse_compress {gs : List Nat} (hlength : gs.length = 8) (hgs : ∀ g ∈ gs, g < 65536) :
    parse (compress gs) = some gs := by
  unfold compress
  dsimp only
  split
  next hrest =>
    have hne : gs ≠ [] := by
      rintro rfl
      cases hlength
    simp only [parse, cutDouble_join_self, splitOn_join hne, readGroups_hexText true hgs,
      Option.bind_eq_bind, Option.bind_some, if_pos hlength]
  next hrest =>
    obtain ⟨k, hk, hsplit⟩ := zeros_of_rest rfl hrest
    generalize gs.takeWhile isNonzero = pre at *
    generalize (gs.dropWhile isNonzero).dropWhile isZero = post at *
    have hsum : pre.length + k + post.length = 8 := by
      rw [← hlength, hsplit, List.length_append, List.length_append, List.length_replicate]
    have hbefore : readSide false (join pre) = some pre := readSide_join false fun g hg =>
      hgs g (by rw [hsplit]; exact List.mem_append_left _ (List.mem_append_left _ hg))
    have hbehind : readSide true (join post) = some post := readSide_join true fun g hg =>
      hgs g (by rw [hsplit]; exact List.mem_append_right _ hg)
    have hroom : pre.length + post.length < 8 := by omega
    have hmissing : 8 - (pre.length + post.length) = k := by omega
    simp only [parse, cutDouble_compressed, hbefore, hbehind, Option.bind_eq_bind, Option.bind_some,
      if_pos hroom, hmissing, ← hsplit]

end HCServer.Lib.Ipv6Text
