import Mathlib.Data.List.Basic
import Mathlib.Tactic.NormNum

/-! The bytes that a peer sends, cut into the arrivals that `recv` sees: one call returns bytes of
one arrival, at most as many as it asks for, and nothing once the peer has closed. -/
namespace HCServer.Http

abbrev Bytes := List UInt8

/-- A size stored in an `int`. -/
def toInt (n : Nat) : Int := (BitVec.ofNat 32 n).toInt

theorem toInt_of_lt {n : Nat} (h : n < 2 ^ 31) : toInt n = n := by
  have hnat : (BitVec.ofNat 32 n).toNat = n := by
    rw [BitVec.toNat_ofNat]
    omega
  rw [toInt, BitVec.toInt_eq_toNat_of_lt (by rw [hnat]; omega), hnat]

structure Arrival where
  bytes : Bytes
  ne : bytes ≠ []
  deriving DecidableEq

theorem Arrival.length_pos (a : Arrival) : 0 < a.bytes.length := List.length_pos_of_ne_nil a.ne

abbrev Socket := List Arrival

/-- How a receiving function ends: with the connection closed and a null result, with an exception,
or with a result and what is still to be read. -/
inductive Received (α : Type)
  | closed
  | thrown
  | got (a : α) (sock : Socket)
  deriving DecidableEq

def Received.bind {α β : Type} (r : Received α) (f : α → Socket → Received β) : Received β :=
  match r with
  | .closed => .closed
  | .thrown => .thrown
  | .got a sock => f a sock

theorem Received.bind_eq_got {α β : Type} {r : Received α} {f : α → Socket → Received β} {b : β}
    {sock' : Socket} (h : r.bind f = .got b sock') :
    ∃ a sock, r = .got a sock ∧ f a sock = .got b sock' := by
  cases r with
  | closed => cases h
  | thrown => cases h
  | got a sock => exact ⟨a, sock, rfl, h⟩

namespace Socket

def bytes (sock : Socket) : Bytes := sock.flatMap Arrival.bytes

/-- Linux hands at most `MAX_RW_COUNT` bytes to one call. -/
def maxRead : Nat := 0x7ffff000

def skip : Nat → Socket → Socket
  | _, [] => []
  | n, a :: sock =>
    if h : n < a.bytes.length then
      ⟨a.bytes.drop n, List.ne_nil_of_length_pos (by rw [List.length_drop]; omega)⟩ :: sock
    else skip (n - a.bytes.length) sock

/-- The number of bytes that `recv` returns when asked for `n`. -/
def ready (n : Nat) : Socket → Nat
  | [] => 0
  | a :: _ => min (min n maxRead) a.bytes.length

def recv (n : Nat) (sock : Socket) : Bytes × Socket :=
  (sock.bytes.take (ready n sock), sock.skip (ready n sock))

@[simp] theorem bytes_nil : bytes [] = [] := rfl

@[simp] theorem bytes_cons (a : Arrival) (sock : Socket) :
    bytes (a :: sock) = a.bytes ++ bytes sock := rfl

@[simp] theorem bytes_append (xs ys : Socket) : bytes (xs ++ ys) = bytes xs ++ bytes ys :=
  List.flatMap_append

theorem bytes_cons_ne_nil (a : Arrival) (sock : Socket) : bytes (a :: sock) ≠ [] :=
  fun hnil => a.ne (List.append_eq_nil_iff.mp hnil).1

theorem eq_nil_of_bytes {sock : Socket} (h : sock.bytes = []) : sock = [] := by
  cases sock with
  | nil => rfl
  | cons a sock => exact absurd h (bytes_cons_ne_nil a sock)

theorem bytes_skip (n : Nat) (sock : Socket) : (sock.skip n).bytes = sock.bytes.drop n := by
  induction sock generalizing n with
  | nil => simp [skip]
  | cons a sock ih =>
      simp only [skip, bytes_cons, List.drop_append]
      split
      · case isTrue h => simp [Nat.sub_eq_zero_of_le (Nat.le_of_lt h)]
      · case isFalse h => simp [ih, List.drop_eq_nil_of_le (Nat.le_of_not_lt h)]

@[simp] theorem skip_zero (sock : Socket) : sock.skip 0 = sock := by
  cases sock with
  | nil => rfl
  | cons a sock => simp [skip, a.length_pos]

theorem skip_skip (m n : Nat) (sock : Socket) : (sock.skip m).skip n = sock.skip (m + n) := by
  induction sock generalizing m n with
  | nil => rfl
  | cons a sock ih =>
      by_cases hm : m < a.bytes.length
      · by_cases hn : m + n < a.bytes.length
        · have hn' : n < a.bytes.length - m := by omega
          simp [skip, hm, hn, hn']
        · have hn' : ¬ n < a.bytes.length - m := by omega
          have hsub : n - (a.bytes.length - m) = m + n - a.bytes.length := by omega
          simp [skip, hm, hn, hn', hsub]
      · have hmn : ¬ m + n < a.bytes.length := by omega
        have hsub : m - a.bytes.length + n = m + n - a.bytes.length := by omega
        simp [skip, hm, hmn, ih, hsub]

theorem skip_append (xs ys : Socket) : skip (bytes xs).length (xs ++ ys) = ys := by
  induction xs with
  | nil => exact skip_zero ys
  | cons x xs ih =>
      have hlong : ¬ x.bytes.length + (bytes xs).length < x.bytes.length := by omega
      simpa [skip, hlong] using ih

theorem skip_append_of_le {n : Nat} {xs : Socket} (h : n ≤ xs.bytes.length) (ys : Socket) :
    skip n (xs ++ ys) = xs.skip n ++ ys := by
  induction xs generalizing n with
  | nil =>
      have hzero : n = 0 := Nat.le_zero.mp h
      subst hzero
      exact skip_zero ys
  | cons a xs ih =>
      rw [bytes_cons, List.length_append] at h
      by_cases hn : n < a.bytes.length
      · simp [skip, hn]
      · simpa [skip, hn] using ih (by omega)

theorem ready_append {xs : Socket} (h : xs ≠ []) (n : Nat) (ys : Socket) :
    ready n (xs ++ ys) = xs.ready n := by
  cases xs with
  | nil => exact absurd rfl h
  | cons a xs => rfl

theorem ready_le (n : Nat) (sock : Socket) : ready n sock ≤ n := by
  cases sock with
  | nil => exact Nat.zero_le n
  | cons a sock => exact (Nat.min_le_left _ _).trans (Nat.min_le_left _ _)

theorem ready_le_length (n : Nat) (sock : Socket) : ready n sock ≤ sock.bytes.length := by
  cases sock with
  | nil => exact Nat.zero_le 0
  | cons a sock =>
      have ha : ready n (a :: sock) ≤ a.bytes.length := Nat.min_le_right _ _
      rw [bytes_cons, List.length_append]
      omega

theorem ready_pos {n : Nat} (hn : 0 < n) {sock : Socket} (hsock : sock ≠ []) : 0 < ready n sock := by
  cases sock with
  | nil => exact absurd rfl hsock
  | cons a sock =>
      have ha := a.length_pos
      simp only [ready, maxRead]
      omega

theorem length_recv (n : Nat) (sock : Socket) : (sock.recv n).1.length = ready n sock :=
  List.length_take_of_le (ready_le_length n sock)

theorem skip_cons (a : Arrival) (sock : Socket) : skip a.bytes.length (a :: sock) = sock := by
  have hskip := skip_append [a] sock
  simpa using hskip

/-- What `recv` returns is no longer there. -/
theorem length_recv_lt {n : Nat} {sock : Socket} (h : (sock.recv n).1 ≠ []) :
    (sock.recv n).2.bytes.length < sock.bytes.length := by
  have hpos := List.length_pos_of_ne_nil h
  have hle := ready_le_length n sock
  rw [length_recv] at hpos
  rw [recv, bytes_skip, List.length_drop]
  omega

end Socket

/-- Reads `left` bytes, asking for `piece n` of the `n` that are missing; `none` when the peer
closes before they have come. -/
def readPieces (piece : Nat → Nat) (left : Nat) (sock : Socket) : Option (Bytes × Socket) :=
  if left = 0 then some ([], sock)
  else if (sock.recv (piece left)).1 = [] then none
  else
    (readPieces piece (left - (sock.recv (piece left)).1.length) (sock.recv (piece left)).2).map
      fun r => ((sock.recv (piece left)).1 ++ r.1, r.2)
termination_by left
decreasing_by
  have hpos := List.length_pos_of_ne_nil ‹(sock.recv (piece left)).1 ≠ []›
  omega

theorem length_readPieces_le {piece : Nat → Nat} {left : Nat} {sock : Socket}
    {r : Bytes × Socket} (h : readPieces piece left sock = some r) :
    r.2.bytes.length ≤ sock.bytes.length := by
  induction left using Nat.strongRecOn generalizing sock r with
  | ind left ih =>
      rw [readPieces] at h
      split at h
      · cases h
        exact le_refl _
      · split at h
        · cases h
        · case isFalse.isFalse hne =>
            obtain ⟨r', hr', rfl⟩ := Option.map_eq_some_iff.mp h
            have hpos := List.length_pos_of_ne_nil hne
            have hlt := Socket.length_recv_lt hne
            exact (ih _ (by omega) hr').trans hlt.le

/-- `Stream::readFixSize`, short of the `int` it makes of `left`. -/
def readFixSize (left : Nat) (sock : Socket) : Option (Bytes × Socket) := readPieces id left sock

open Socket in
theorem readPieces_eq {piece : Nat → Nat} (hpos : ∀ n, 0 < n → 0 < piece n)
    (hle : ∀ n, piece n ≤ n) (left : Nat) (sock : Socket) :
    readPieces piece left sock =
      if left ≤ sock.bytes.length then some (sock.bytes.take left, sock.skip left) else none := by
  induction left using Nat.strongRecOn generalizing sock with
  | ind left ih =>
      rw [readPieces]
      by_cases hzero : left = 0
      · subst hzero
        simp
      · rw [if_neg hzero]
        have hask := hpos left (Nat.pos_of_ne_zero hzero)
        by_cases hsock : sock = []
        · subst hsock
          simp [recv, hzero]
        · have hready := ready_pos hask hsock
          have hleft := (ready_le (piece left) sock).trans (hle left)
          have hlength := ready_le_length (piece left) sock
          have hlen := length_recv (piece left) sock
          have hne : (sock.recv (piece left)).1 ≠ [] := List.ne_nil_of_length_pos (by omega)
          rw [if_neg hne, ih _ (by omega), hlen]
          generalize hk : ready (piece left) sock = k at hready hleft hlength
          simp only [recv, hk, bytes_skip, List.length_drop, skip_skip]
          have htotal : k + (left - k) = left := by omega
          by_cases hall : left ≤ sock.bytes.length
          · have hrest : left - k ≤ sock.bytes.length - k := by omega
            rw [if_pos hall, if_pos hrest, Option.map_some, ← List.take_add, htotal]
          · have hrest : ¬ left - k ≤ sock.bytes.length - k := by omega
            rw [if_neg hall, if_neg hrest, Option.map_none]

theorem readFixSize_eq (left : Nat) (sock : Socket) :
    readFixSize left sock =
      if left ≤ sock.bytes.length then some (sock.bytes.take left, sock.skip left) else none :=
  readPieces_eq (fun _ h => h) (fun _ => le_refl _) left sock

/-- A parser that is fed what has arrived so far and hands back what it has not consumed. `none`
is an exception. -/
structure Incremental (P : Type) where
  execute : P → Bytes → Option (P × Bytes)
  hasError : P → Bool
  isFinished : P → Bool

section
variable {P : Type} (I : Incremental P) (buffSize : Nat)

/-- The reading loop: the parser when it is finished, and the bytes it has left. -/
def recvLoop (parser : P) (pending : Bytes) (sock : Socket) : Received (P × Bytes) :=
  let r := sock.recv (buffSize - pending.length)
  if r.1 = [] then .closed
  else
    match I.execute parser (pending ++ r.1) with
    | none => .thrown
    | some (parser', rest) =>
      if I.hasError parser' then .closed
      else if (rest.length : Int) = toInt buffSize then .closed
      else if I.isFinished parser' then .got (parser', rest) r.2
      else recvLoop parser' rest r.2
termination_by sock.bytes.length
decreasing_by exact Socket.length_recv_lt ‹_›

variable {I buffSize}

theorem length_recvLoop_lt {parser : P} {pending : Bytes} {sock sock' : Socket} {r : P × Bytes}
    (h : recvLoop I buffSize parser pending sock = .got r sock') :
    sock'.bytes.length < sock.bytes.length := by
  fun_induction recvLoop I buffSize parser pending sock with
  | case1 => cases h
  | case2 => cases h
  | case3 => cases h
  | case4 => cases h
  | case5 parser pending sock r hread =>
      cases h
      exact Socket.length_recv_lt hread
  | case6 parser pending sock r hread parser' rest hexec _ _ _ ih =>
      exact (ih h).trans (Socket.length_recv_lt hread)

/-- A parser that never hands back more than it is given, and less when it is finished, leaves
fewer bytes than there were. -/
theorem length_recvLoop_rest {parser parser' : P} {pending rest : Bytes} {sock sock' : Socket}
    (hle : ∀ p data p' rest, I.execute p data = some (p', rest) → rest.length ≤ data.length)
    (hlt : ∀ p data p' rest, I.execute p data = some (p', rest) → I.hasError p' = false →
      I.isFinished p' = true → rest.length < data.length)
    (h : recvLoop I buffSize parser pending sock = .got (parser', rest) sock') :
    rest.length + sock'.bytes.length < pending.length + sock.bytes.length := by
  have htotal (n : Nat) (sock : Socket) :
      (sock.recv n).1.length + (sock.recv n).2.bytes.length = sock.bytes.length := by
    rw [Socket.recv, ← List.length_append, Socket.bytes_skip, List.take_append_drop]
  fun_induction recvLoop I buffSize parser pending sock with
  | case1 => cases h
  | case2 => cases h
  | case3 => cases h
  | case4 => cases h
  | case5 parser pending sock r hread p rest' hexec herror hfull hfinished =>
      cases h
      have hrest := hlt _ _ _ _ hexec (Bool.eq_false_of_not_eq_true herror) hfinished
      have hr : r.1.length + r.2.bytes.length = sock.bytes.length := htotal _ _
      rw [List.length_append] at hrest
      omega
  | case6 parser pending sock r hread p rest' hexec _ _ _ ih =>
      have hrest := hle _ _ _ _ hexec
      have hr : r.1.length + r.2.bytes.length = sock.bytes.length := htotal _ _
      have hih := ih h
      rw [List.length_append] at hrest
      omega

/-- How the loop has ended, and what it keeps. -/
theorem recvLoop_got {K : P → Prop}
    (hkeep : ∀ p data p' rest, K p → I.execute p data = some (p', rest) → K p')
    (hle : ∀ p data p' rest, I.execute p data = some (p', rest) → rest.length ≤ data.length)
    {parser parser' : P} {pending rest : Bytes} {sock sock' : Socket} (hparser : K parser)
    (hpending : pending.length ≤ buffSize)
    (h : recvLoop I buffSize parser pending sock = .got (parser', rest) sock') :
    K parser' ∧ I.hasError parser' = false ∧ rest.length ≤ buffSize := by
  have hround (pending : Bytes) (hpending : pending.length ≤ buffSize) (sock : Socket) :
      (pending ++ (sock.recv (buffSize - pending.length)).1).length ≤ buffSize := by
    have hready := Socket.ready_le (buffSize - pending.length) sock
    rw [List.length_append, Socket.length_recv]
    omega
  fun_induction recvLoop I buffSize parser pending sock with
  | case1 => cases h
  | case2 => cases h
  | case3 => cases h
  | case4 => cases h
  | case5 parser pending sock r hread p rest' hexec herror hfull hfinished =>
      cases h
      exact ⟨hkeep _ _ _ _ hparser hexec, Bool.eq_false_of_not_eq_true herror,
        (hle _ _ _ _ hexec).trans (hround pending hpending sock)⟩
  | case6 parser pending sock r hread p rest' hexec _ _ _ ih =>
      exact ih (hkeep _ _ _ _ hparser hexec)
        ((hle _ _ _ _ hexec).trans (hround pending hpending sock)) h

/-- The first round, with nothing pending. -/
theorem recvLoop_start {sock : Socket} (hsock : 0 < sock.ready buffSize) (parser : P) :
    recvLoop I buffSize parser [] sock =
      match I.execute parser (sock.bytes.take (sock.ready buffSize)) with
      | none => .thrown
      | some (parser', rest) =>
        if I.hasError parser' then .closed
        else if (rest.length : Int) = toInt buffSize then .closed
        else if I.isFinished parser' then .got (parser', rest) (sock.skip (sock.ready buffSize))
        else recvLoop I buffSize parser' rest (sock.skip (sock.ready buffSize)) := by
  have hlen := Socket.length_recv buffSize sock
  have hne : sock.bytes.take (sock.ready buffSize) ≠ [] :=
    List.ne_nil_of_length_pos (hlen.symm ▸ hsock)
  rw [recvLoop]
  simp only [List.length_nil, Nat.sub_zero, Socket.recv, hne, if_false, List.nil_append]

/-- An arrival that fits is taken whole. -/
theorem recvLoop_cons {a : Arrival} (h : Socket.ready buffSize [a] = a.bytes.length) (parser : P)
    (sock : Socket) :
    recvLoop I buffSize parser [] (a :: sock) =
      match I.execute parser a.bytes with
      | none => .thrown
      | some (parser', rest) =>
        if I.hasError parser' then .closed
        else if (rest.length : Int) = toInt buffSize then .closed
        else if I.isFinished parser' then .got (parser', rest) sock
        else recvLoop I buffSize parser' rest sock := by
  have hready : Socket.ready buffSize (a :: sock) = a.bytes.length := h
  have htake : (Socket.bytes (a :: sock)).take a.bytes.length = a.bytes := List.take_left
  have hstart := recvLoop_start (I := I) (hready.symm ▸ a.length_pos) parser
  rw [hready, htake, Socket.skip_cons] at hstart
  exact hstart

end
end HCServer.Http
