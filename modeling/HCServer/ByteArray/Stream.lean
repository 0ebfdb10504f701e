import HCServer.ByteArray.Iovecs
import HCServer.Http.Socket

/-! `Stream::readFixSize` and `writeFixSize` over a `SocketStream`: the loops that repeat a
transfer until a fixed number of bytes has passed. A `ByteArray` goes through `recvmsg` and
`sendmsg` on its blocks, a plain buffer through `recv` and `send`; whatever the socket makes of
each call, the two end alike. -/
namespace HCServer.Stream
open Lib
open Http (toInt toInt_of_lt)

/-- What becomes of one call on the socket. The kernel moves at least one byte and at most what it
is offered, here as near to `k` as that allows. -/
inductive Transfer
  | moves (k : Nat)
  | fails (rt : Int) (le : rt ≤ 0)
  | unconnected

/-- The bytes still to be received, those sent so far, and what becomes of the next calls; after
the last of them the peer has closed. -/
structure Socket where
  incoming : List UInt8
  outgoing : List UInt8
  calls : List Transfer

namespace Socket

def next (sock : Socket) : Socket := { sock with calls := sock.calls.tail }

def isConnected (sock : Socket) : Bool :=
  match sock.calls with
  | .unconnected :: _ => false
  | _ => true

/-- The number of bytes a call moves when `available` of them could be, and the value it returns
where it moves none. -/
def moved (available : Nat) (sock : Socket) : Int × Nat :=
  match sock.calls with
  | [] => (0, 0)
  | .unconnected :: _ => (-1, 0)
  | .fails rt _ :: _ => (rt, 0)
  | .moves k :: _ =>
      if available = 0 then (0, 0)
      else
        let count := max 1 (min k available)
        (toInt count, count)

/-- `recv` into a buffer of `length` bytes, and `recvmsg` into as much room: the bytes. -/
def recv (length : Nat) (sock : Socket) : Int × List UInt8 × Socket :=
  let (rt, count) := sock.moved (min length sock.incoming.length)
  (rt, sock.incoming.take count, { sock.next with incoming := sock.incoming.drop count })

/-- `send` of a buffer, and `sendmsg` of the same bytes in pieces: how many went. -/
def send (buffer : List UInt8) (sock : Socket) : Int × Nat × Socket :=
  let (rt, count) := sock.moved buffer.length
  (rt, count, { sock.next with outgoing := sock.outgoing ++ buffer.take count })

/-- Either some bytes move and their number is returned, or none do and it is not positive. -/
theorem moved_cases (available : Nat) (sock : Socket) (hlt : available < 2 ^ 31) :
    ∃ rt count, sock.moved available = (rt, count) ∧
      (0 < count ∧ count ≤ available ∧ rt = count ∨ count = 0 ∧ rt ≤ 0) := by
  rw [moved]
  split
  · exact ⟨0, 0, rfl, .inr ⟨rfl, le_refl 0⟩⟩
  · exact ⟨-1, 0, rfl, .inr ⟨rfl, by decide⟩⟩
  · exact ⟨_, 0, rfl, .inr ⟨rfl, by assumption⟩⟩
  · by_cases h0 : available = 0
    · exact ⟨0, 0, by rw [if_pos h0], .inr ⟨rfl, le_refl 0⟩⟩
    · rw [if_neg h0]
      exact ⟨_, _, rfl, .inl ⟨by omega, by omega, toInt_of_lt (by omega)⟩⟩

/-- The next calls all move something, `n` of them or more. -/
def Reliable (n : Nat) (sock : Socket) : Prop :=
  n ≤ sock.calls.length ∧ ∀ t ∈ sock.calls.take n, ∃ k, t = .moves k

theorem Reliable.head {n : Nat} {sock : Socket} (h : sock.Reliable n) (hn : 0 < n) :
    ∃ k rest, sock.calls = .moves k :: rest := by
  obtain ⟨hlen, hall⟩ := h
  cases hcalls : sock.calls with
  | nil =>
      rw [hcalls, List.length_nil] at hlen
      omega
  | cons t rest =>
      obtain ⟨m, rfl⟩ : ∃ m, n = m + 1 := ⟨n - 1, by omega⟩
      rw [hcalls, List.take_succ_cons] at hall
      obtain ⟨k, rfl⟩ := hall t List.mem_cons_self
      exact ⟨k, rest, rfl⟩

theorem Reliable.tail {n m : Nat} {sock : Socket} (h : sock.Reliable n) (hm : m < n) :
    m ≤ sock.calls.tail.length ∧ ∀ t ∈ sock.calls.tail.take m, ∃ k, t = .moves k := by
  obtain ⟨hlen, hall⟩ := h
  refine ⟨by rw [List.length_tail]; omega, ?_⟩
  intro t ht
  cases hcalls : sock.calls with
  | nil => simp [hcalls] at ht
  | cons u rest =>
      rw [hcalls, List.tail_cons] at ht
      rw [hcalls] at hall
      obtain ⟨l, rfl⟩ : ∃ l, n = l + 1 := ⟨n - 1, by omega⟩
      rw [List.take_succ_cons] at hall
      exact hall t (List.mem_cons_of_mem u ((List.take_subset_take_left rest (by omega)) ht))

theorem Reliable.moved {n available : Nat} {sock : Socket} (h : sock.Reliable n) (hn : 0 < n)
    (ha : 0 < available) : 0 < (sock.moved available).2 := by
  obtain ⟨k, rest, hcalls⟩ := h.head hn
  rw [Socket.moved, hcalls]
  dsimp only
  rw [if_neg (by omega)]
  exact Nat.lt_of_lt_of_le Nat.one_pos (Nat.le_max_left _ _)

end Socket

/-- The loop that the four functions share, over one call of `read` or `write`. Each round that
goes on has moved a byte, so there are no more than `length` of them. -/
def fixLoop {σ : Type} (transfer : Nat → σ → Except Exn (Int × σ)) (length : Nat) :
    Nat → Nat → σ → Except Exn (Int × σ)
  | 0, _, _ => .error .fault
  | rounds + 1, left, s =>
      if left > 0 then
        match transfer left s with
        | .error e => .error e
        | .ok (len, s) =>
            if len ≤ 0 then .ok (len, s)
            else fixLoop transfer length rounds (left - len.toNat) s
      else .ok (toInt length, s)

def fixSize {σ : Type} (transfer : Nat → σ → Except Exn (Int × σ)) (length : Nat) (s : σ) :
    Except Exn (Int × σ) :=
  fixLoop transfer length (length + 1) length s

/-- Two transfers in step keep their loops in step: both stop with the same value, at the end or
where the socket stopped. -/
theorem fixLoop_simulates {σ τ : Type} {f : Nat → σ → Except Exn (Int × σ)}
    {g : Nat → τ → Except Exn (Int × τ)} (R : Nat → σ → τ → Prop)
    (hstep : ∀ left s t, 0 < left → R left s t → ∃ rt s' t', f left s = .ok (rt, s') ∧
      g left t = .ok (rt, t') ∧ rt ≤ left ∧ R (left - rt.toNat) s' t')
    (length : Nat) {rounds left : Nat} {s : σ} {t : τ} (hr : left < rounds) (h : R left s t) :
    ∃ rt s' t' left', fixLoop f length rounds left s = .ok (rt, s') ∧
      fixLoop g length rounds left t = .ok (rt, t') ∧ R left' s' t' ∧
      (0 < left' ∧ rt ≤ 0 ∨ left' = 0 ∧ rt = toInt length) := by
  induction rounds generalizing left s t with
  | zero => omega
  | succ rounds ih =>
      rw [fixLoop, fixLoop]
      by_cases h0 : left > 0
      · obtain ⟨rt, s', t', hf, hg, hle, h'⟩ := hstep left s t h0 h
        rw [if_pos h0, if_pos h0, hf, hg]
        dsimp only
        by_cases hstop : rt ≤ 0
        · rw [if_pos hstop, if_pos hstop]
          rw [Int.toNat_of_nonpos hstop, Nat.sub_zero] at h'
          exact ⟨rt, s', t', left, rfl, rfl, h', .inl ⟨h0, hstop⟩⟩
        · rw [if_neg hstop, if_neg hstop]
          exact ih (by omega) h'
      · rw [if_neg h0, if_neg h0]
        exact ⟨_, s, t, left, rfl, rfl, h, .inr ⟨by omega, rfl⟩⟩

/-- A transfer that never stops short brings the loop to its end. -/
theorem fixLoop_completes {σ : Type} {f : Nat → σ → Except Exn (Int × σ)} (I : Nat → σ → Prop)
    (hstep : ∀ left s, 0 < left → I left s →
      ∃ rt s', f left s = .ok (rt, s') ∧ 0 < rt ∧ rt ≤ left ∧ I (left - rt.toNat) s')
    (length : Nat) {rounds left : Nat} {s : σ} (hr : left < rounds) (h : I left s) :
    ∃ s', fixLoop f length rounds left s = .ok (toInt length, s') := by
  induction rounds generalizing left s with
  | zero => omega
  | succ rounds ih =>
      rw [fixLoop]
      by_cases h0 : left > 0
      · obtain ⟨rt, s', hf, hpos, hle, h'⟩ := hstep left s h0 h
        rw [if_pos h0, hf]
        dsimp only
        rw [if_neg (by omega)]
        exact ih (by omega) h'
      · rw [if_neg h0]
        exact ⟨s, rfl⟩

/-- `SocketStream::read(void*, size_t)`: the bytes received so far, and the socket. -/
def readBuffer (length : Nat) : List UInt8 × Socket → Except Exn (Int × List UInt8 × Socket)
  | (buffer, sock) =>
      if ¬ sock.isConnected then .ok (-1, buffer, sock.next)
      else
        let (rt, bytes, sock) := sock.recv length
        .ok (rt, buffer ++ bytes, sock)

/-- `SocketStream::write(const void*, size_t)`: how much of `buffer` has been sent so far. -/
def writeBuffer (buffer : List UInt8) (length : Nat) :
    Nat × Socket → Except Exn (Int × Nat × Socket)
  | (offset, sock) =>
      if ¬ sock.isConnected then .ok (-1, offset, sock.next)
      else
        let (rt, count, sock) := sock.send ((buffer.drop offset).take length)
        .ok (rt, offset + count, sock)

/-- `ba->setPosition(ba->getPosition() + rt)` after a call that moved something. -/
def advance (rt : Int) (ba : ByteArray) (sock : Socket) :
    Except Exn (Int × ByteArray × Socket) :=
  if rt > 0 then
    match ByteArray.setPosition (ba.getPosition + rt.toNat) ba with
    | .error e _ => .error e
    | .ok _ ba => .ok (rt, ba, sock)
  else .ok (rt, ba, sock)

/-- `SocketStream::read(ByteArray::ptr, size_t)`. -/
def read (mem : Nat → Nat → UInt8) (length : Nat) :
    ByteArray × Socket → Except Exn (Int × ByteArray × Socket)
  | (ba, sock) =>
      if ¬ sock.isConnected then .ok (-1, ba, sock.next)
      else
        match ByteArray.getWriteBuffers mem length ba with
        | .error e _ => .error e
        | .ok (_, iovs) ba =>
            let (rt, bytes, sock) := sock.recv (ByteArray.room iovs)
            match ByteArray.scatter iovs bytes ba.root with
            | none => .error .fault
            | some root => advance rt { ba with root := root } sock

/-- `SocketStream::write(ByteArray::ptr, size_t)`. -/
def write (length : Nat) : ByteArray × Socket → Except Exn (Int × ByteArray × Socket)
  | (ba, sock) =>
      if ¬ sock.isConnected then .ok (-1, ba, sock.next)
      else
        match ba.getReadBuffers [] length with
        | .error e => .error e
        | .ok (_, iovs) =>
            match ByteArray.gather ba.root iovs with
            | none => .error .fault
            | some bytes =>
                let (rt, _, sock) := sock.send bytes
                advance rt ba sock

def readFixSizeBuffer (length : Nat) (sock : Socket) : Except Exn (Int × List UInt8 × Socket) :=
  fixSize readBuffer length ([], sock)

def readFixSize (mem : Nat → Nat → UInt8) (ba : ByteArray) (length : Nat) (sock : Socket) :
    Except Exn (Int × ByteArray × Socket) :=
  fixSize (read mem) length (ba, sock)

def writeFixSizeBuffer (buffer : List UInt8) (length : Nat) (sock : Socket) :
    Except Exn (Int × Nat × Socket) :=
  fixSize (writeBuffer buffer) length (0, sock)

def writeFixSize (ba : ByteArray) (length : Nat) (sock : Socket) :
    Except Exn (Int × ByteArray × Socket) :=
  fixSize write length (ba, sock)

/-- The array holds, from where it stood, the bytes that the plain buffer holds, and these are the
first ones received; `left` of the `n` are still to come. -/
structure Received (ba0 : ByteArray) (sock0 : Socket) (n left : Nat) (x : ByteArray × Socket)
    (y : List UInt8 × Socket) : Prop where
  sock : x.2 = y.2
  rep : ByteArray.Rep x.1
  content : x.1.content = overwrite ba0.content ba0.position y.1
  position : x.1.position = ba0.position + y.1.length
  incoming : sock0.incoming = y.1 ++ y.2.incoming
  moved : y.1.length + left = n

theorem advance_of_nonpos {rt : Int} (h : rt ≤ 0) (ba : ByteArray) (sock : Socket) :
    advance rt ba sock = .ok (rt, ba, sock) := by
  rw [advance, if_neg (by omega)]

/-- One `read` on either side: the same value, and as many more bytes on both. -/
theorem Received.step (mem : Nat → Nat → UInt8) {ba0 : ByteArray} {sock0 : Socket} {n : Nat}
    (hn : n < 2 ^ 31) (hpos0 : ba0.position ≤ ba0.content.length) (left : Nat)
    (x : ByteArray × Socket) (y : List UInt8 × Socket) (h0 : 0 < left)
    (h : Received ba0 sock0 n left x y) :
    ∃ rt x' y', read mem left x = .ok (rt, x') ∧ readBuffer left y = .ok (rt, y') ∧ rt ≤ left ∧
      Received ba0 sock0 n (left - rt.toNat) x' y' := by
  obtain ⟨ba, sock⟩ := x
  obtain ⟨buffer, sock'⟩ := y
  obtain ⟨rfl, hrep, hcontent, hposition, hincoming, hmoved⟩ := h
  dsimp only at hrep hcontent hposition hincoming hmoved
  rw [read, readBuffer]
  by_cases hconn : sock.isConnected = false
  · exact ⟨-1, (ba, sock.next), (buffer, sock.next), by simp [hconn], by simp [hconn], by omega, rfl,
      hrep, hcontent, hposition, hincoming, by simpa using hmoved⟩
  · obtain ⟨iovs, ba1, hget, h1, hsame, hroom, hfit, hscatter⟩ :=
      ByteArray.getWriteBuffers_room mem hrep h0
    obtain ⟨rt, count, hcall, hcount⟩ := sock.moved_cases (min left sock.incoming.length) (by omega)
    have hlen : (sock.incoming.take count).length = count := by
      rw [List.length_take]
      omega
    obtain ⟨root, hfilled, hu, hnodes, hbytes⟩ := hscatter (sock.incoming.take count) (by omega)
    have hadvance : ∀ s, ∃ ba2, advance rt { ba1 with root := root } s = .ok (rt, ba2, s) ∧
        ByteArray.Rep ba2 ∧
        ba2.content = overwrite ba1.content ba1.position (sock.incoming.take count) ∧
        ba2.position = ba1.position + count := by
      intro s
      rcases hcount with ⟨hsome, hle, hrt⟩ | ⟨hnone, hrt⟩
      · obtain ⟨ba2, hset, h2, hc2, hp2⟩ := h1.filled hu hnodes hbytes (by omega)
        rw [hlen] at hset hp2
        refine ⟨ba2, ?_, h2, hc2, hp2⟩
        rw [advance, if_pos (by omega), hrt, Int.toNat_natCast, ByteArray.getPosition, hset]
      · refine ⟨_, advance_of_nonpos hrt _ _, h1.with_root hu hnodes, ?_, by simp [hnone]⟩
        rw [hnone, List.take_zero, overwrite_nil] at hbytes
        rw [hnone, List.take_zero, overwrite_nil, ByteArray.content, hbytes, ByteArray.content]
    obtain ⟨sock2, hread, hin⟩ : ∃ sock2, sock.recv left = (rt, sock.incoming.take count, sock2) ∧
        sock2.incoming = sock.incoming.drop count :=
      ⟨_, by rw [Socket.recv, hcall], rfl⟩
    obtain ⟨ba2, hadv, h2, hc2, hp2⟩ := hadvance sock2
    refine ⟨rt, (ba2, sock2), (buffer ++ sock.incoming.take count, sock2), ?_, ?_, ?_, rfl, h2, ?_, ?_,
      ?_, ?_⟩
    · rw [if_neg (by simpa using hconn), hget]
      dsimp only
      rw [hroom, hread]
      dsimp only
      rw [hfilled]
      exact hadv
    · rw [if_neg (by simpa using hconn), hread]
    · omega
    · dsimp only
      rw [hc2, hsame.content, hsame.position, hcontent, hposition, overwrite_overwrite hpos0]
    · dsimp only
      rw [hp2, hsame.position, hposition, List.length_append, hlen, Nat.add_assoc]
    · dsimp only
      rw [hincoming, hin, List.append_assoc, List.take_append_drop]
    · dsimp only
      rw [List.length_append, hlen]
      omega

/-- The array stands as far behind its old position as bytes have been sent, which are those of the
plain buffer. -/
structure Sent (ba0 : ByteArray) (sock0 : Socket) (buffer : List UInt8) (n left : Nat)
    (x : ByteArray × Socket) (y : Nat × Socket) : Prop where
  sock : x.2 = y.2
  rep : ByteArray.Rep x.1
  content : x.1.content = ba0.content
  size : x.1.size = ba0.size
  position : x.1.position = ba0.position + y.1
  outgoing : y.2.outgoing = sock0.outgoing ++ buffer.take y.1
  moved : y.1 + left = n

theorem Sent.step {ba0 : ByteArray} {sock0 : Socket} {n : Nat} (hn : n < 2 ^ 31)
    (hfit : ba0.position + n ≤ ba0.size) (left : Nat) (x : ByteArray × Socket) (y : Nat × Socket)
    (h0 : 0 < left)
    (h : Sent ba0 sock0 ((ba0.content.drop ba0.position).take n) n left x y) :
    ∃ rt x' y', write left x = .ok (rt, x') ∧
      writeBuffer ((ba0.content.drop ba0.position).take n) left y = .ok (rt, y') ∧ rt ≤ left ∧
      Sent ba0 sock0 ((ba0.content.drop ba0.position).take n) n (left - rt.toNat) x' y' := by
  obtain ⟨ba, sock⟩ := x
  obtain ⟨offset, sock'⟩ := y
  obtain ⟨rfl, hrep, hcontent, hsize, hposition, houtgoing, hmoved⟩ := h
  dsimp only at hrep hcontent hsize hposition houtgoing hmoved
  rw [write, writeBuffer]
  by_cases hconn : sock.isConnected = false
  · exact ⟨-1, (ba, sock.next), (offset, sock.next), by simp [hconn], by simp [hconn], by omega, rfl,
      hrep, hcontent, hsize, hposition, houtgoing, by simpa using hmoved⟩
  · obtain ⟨iovs, hget, -, hgather⟩ := ByteArray.getReadBuffers_spec hrep [] left
    -- both sides offer the same bytes
    have hpiece : (ba.content.drop ba.position).take left =
        (((ba0.content.drop ba0.position).take n).drop offset).take left := by
      rw [hcontent, hposition, List.drop_take, List.drop_drop, List.take_take,
        Nat.min_eq_left (by omega)]
    have hplen : ((ba.content.drop ba.position).take left).length = left := by
      rw [List.length_take, List.length_drop, hrep.length_content]
      omega
    obtain ⟨rt, count, hcall, hcount⟩ := sock.moved_cases left (by omega)
    obtain ⟨sock2, hsend, hout⟩ : ∃ sock2,
        sock.send ((ba.content.drop ba.position).take left) = (rt, count, sock2) ∧
        sock2.outgoing = sock.outgoing ++ ((ba.content.drop ba.position).take left).take count :=
      ⟨_, by rw [Socket.send, hplen, hcall], rfl⟩
    have hadvance : ∀ s, ∃ ba2, advance rt ba s = .ok (rt, ba2, s) ∧ ByteArray.Rep ba2 ∧
        ba2.content = ba.content ∧ ba2.size = ba.size ∧ ba2.position = ba.position + count := by
      intro s
      rcases hcount with ⟨hsome, hle, hrt⟩ | ⟨hnone, hrt⟩
      · have hcap := hrep.size_le
        obtain ⟨ba2, hset, h2, hp2, hmax, hroot, -⟩ :=
          ByteArray.setPosition_spec hrep (v := ba.position + count) (by omega)
        rw [Nat.max_eq_left (by omega)] at hmax
        refine ⟨ba2, ?_, h2, by rw [ByteArray.content, hroot, hmax, ByteArray.content], hmax, hp2⟩
        rw [advance, if_pos (by omega), hrt, Int.toNat_natCast, ByteArray.getPosition, hset]
      · exact ⟨ba, advance_of_nonpos hrt _ _, hrep, rfl, rfl, by rw [hnone, Nat.add_zero]⟩
    obtain ⟨ba2, hadv, h2, hc2, hs2, hp2⟩ := hadvance sock2
    refine ⟨rt, (ba2, sock2), (offset + count, sock2), ?_, ?_, ?_, rfl, h2, hc2.trans hcontent,
      hs2.trans hsize, ?_, ?_, ?_⟩
    · rw [if_neg (by simpa using hconn), hget]
      dsimp only
      rw [List.nil_append, hgather]
      dsimp only
      rw [hsend]
      exact hadv
    · rw [if_neg (by simpa using hconn), ← hpiece, hsend]
    · omega
    · dsimp only
      rw [hp2, hposition, Nat.add_assoc]
    · dsimp only
      have hsome : ((((ba0.content.drop ba0.position).take n).drop offset).take left).take count =
          (((ba0.content.drop ba0.position).take n).drop offset).take count := by
        rw [List.take_take, Nat.min_eq_left (by omega)]
      rw [hout, houtgoing, hpiece, hsome, List.append_assoc, ← List.take_add]
    · dsimp only
      omega

theorem Socket.Reliable.connected {n : Nat} {sock : Socket} (h : sock.Reliable n) (hn : 0 < n) :
    sock.isConnected = true := by
  obtain ⟨k, rest, hcalls⟩ := h.head hn
  rw [Socket.isConnected, hcalls]

theorem readBuffer_reliable (left : Nat) (y : List UInt8 × Socket) (h0 : 0 < left)
    (hlt : left < 2 ^ 31) (h : y.2.Reliable left ∧ left ≤ y.2.incoming.length) :
    ∃ rt y', readBuffer left y = .ok (rt, y') ∧ 0 < rt ∧ rt ≤ left ∧
      y'.2.Reliable (left - rt.toNat) ∧ left - rt.toNat ≤ y'.2.incoming.length := by
  obtain ⟨buffer, sock⟩ := y
  obtain ⟨hrel, hin⟩ := h
  dsimp only at hrel hin
  obtain ⟨rt, count, hcall, hcount⟩ := sock.moved_cases (min left sock.incoming.length) (by omega)
  have hroom : 0 < min left sock.incoming.length := by omega
  have hsome := hrel.moved h0 hroom
  rw [hcall] at hsome
  dsimp only at hsome
  rw [readBuffer, if_neg (by simp [hrel.connected h0]), Socket.recv, hcall]
  refine ⟨rt, _, rfl, by omega, by omega, hrel.tail (by omega), ?_⟩
  dsimp only
  rw [List.length_drop]
  omega

theorem writeBuffer_reliable (buffer : List UInt8) (left : Nat) (y : Nat × Socket) (h0 : 0 < left)
    (hlt : left < 2 ^ 31) (h : y.2.Reliable left ∧ y.1 + left = buffer.length) :
    ∃ rt y', writeBuffer buffer left y = .ok (rt, y') ∧ 0 < rt ∧ rt ≤ left ∧
      y'.2.Reliable (left - rt.toNat) ∧ y'.1 + (left - rt.toNat) = buffer.length := by
  obtain ⟨offset, sock⟩ := y
  obtain ⟨hrel, hoff⟩ := h
  dsimp only at hrel hoff
  have hplen : ((buffer.drop offset).take left).length = left := by
    rw [List.length_take, List.length_drop]
    omega
  obtain ⟨rt, count, hcall, hcount⟩ := sock.moved_cases left (by omega)
  have hsome := hrel.moved h0 h0
  rw [hcall] at hsome
  dsimp only at hsome
  rw [writeBuffer, if_neg (by simp [hrel.connected h0]), Socket.send, hplen, hcall]
  exact ⟨rt, _, rfl, by omega, by omega, hrel.tail (by omega), by dsimp only; omega⟩

/-- Receiving `n` bytes into an array: the value and the bytes of the plain overload, left as one
`write` of them would have left them. -/
structure ReadsLikeBuffer (mem : Nat → Nat → UInt8) (ba : ByteArray) (n : Nat) (sock : Socket)
    (rt : Int) (ba' w : ByteArray) (bytes : List UInt8) (sock' : Socket) : Prop where
  array : readFixSize mem ba n sock = .ok (rt, ba', sock')
  buffer : readFixSizeBuffer n sock = .ok (rt, bytes, sock')
  received : sock.incoming = bytes ++ sock'.incoming
  written : ByteArray.write mem bytes ba = .ok () w
  content : ba'.content = w.content
  position : ba'.position = w.position
  size : ba'.size = w.size
  advanced : ba'.position = ba.position + bytes.length
  ends : bytes.length = n ∧ rt = n ∨ bytes.length < n ∧ rt ≤ 0
  complete : sock.Reliable n → n ≤ sock.incoming.length → bytes.length = n

theorem readFixSize_spec (mem : Nat → Nat → UInt8) {ba : ByteArray} (h : ByteArray.Rep ba) {n : Nat}
    (hn : n < 2 ^ 31) (sock : Socket) :
    ∃ rt ba' w bytes sock', ReadsLikeBuffer mem ba n sock rt ba' w bytes sock' := by
  have hpos : ba.position ≤ ba.content.length := by
    rw [h.length_content]
    exact h.position_le
  have hstart : Received ba sock n n (ba, sock) ([], sock) :=
    ⟨rfl, h, (overwrite_nil _ _).symm, rfl, rfl, Nat.zero_add n⟩
  obtain ⟨rt, ⟨ba', sock1⟩, ⟨bytes, sock'⟩, left, hf, hg, hend, hstop⟩ :=
    fixLoop_simulates (Received ba sock n) (Received.step mem hn hpos) n (Nat.lt_succ_self n) hstart
  obtain ⟨rfl, h', hcontent, hposition, hincoming, hmoved⟩ := hend
  dsimp only at h' hcontent hposition hincoming hmoved hf hg
  obtain ⟨w, hw, hwrep, hwc, hwp, -⟩ := ByteArray.write_spec mem h bytes
  rw [toInt_of_lt hn] at hstop
  refine ⟨rt, ba', w, bytes, sock1, hf, hg, hincoming, hw, hcontent.trans hwc.symm,
    hposition.trans hwp.symm, ?_, hposition, by omega, ?_⟩
  · rw [← h'.length_content, ← hwrep.length_content, hcontent, hwc]
  · intro hrel hin
    obtain ⟨y, hy⟩ := fixLoop_completes
      (fun left (y : List UInt8 × Socket) =>
        left < 2 ^ 31 ∧ y.2.Reliable left ∧ left ≤ y.2.incoming.length)
      (fun left y h0 hI => by
        obtain ⟨rt, y', hok, hrt, hle, hrest⟩ := readBuffer_reliable left y h0 hI.1 hI.2
        exact ⟨rt, y', hok, hrt, hle, by omega, hrest⟩)
      n (Nat.lt_succ_self n) (s := (([], sock) : List UInt8 × Socket)) ⟨hn, hrel, hin⟩
    have hrt : rt = n := by
      rw [← toInt_of_lt hn]
      exact congrArg Prod.fst (Except.ok.inj (hg.symm.trans hy))
    omega

/-- Sending the next `n` bytes of an array: the value of the plain overload and the bytes it sends,
with the position moved over them and nothing else changed. -/
structure WritesLikeBuffer (ba : ByteArray) (n : Nat) (sock : Socket) (rt : Int) (ba' : ByteArray)
    (k : Nat) (sock' : Socket) : Prop where
  array : writeFixSize ba n sock = .ok (rt, ba', sock')
  buffer : writeFixSizeBuffer ((ba.content.drop ba.position).take n) n sock = .ok (rt, k, sock')
  sent : sock'.outgoing = sock.outgoing ++ (ba.content.drop ba.position).take k
  content : ba'.content = ba.content
  size : ba'.size = ba.size
  advanced : ba'.position = ba.position + k
  ends : k = n ∧ rt = n ∨ k < n ∧ rt ≤ 0
  complete : sock.Reliable n → k = n

theorem writeFixSize_spec {ba : ByteArray} (h : ByteArray.Rep ba) {n : Nat} (hn : n < 2 ^ 31)
    (hread : n ≤ ba.getReadSize) (sock : Socket) :
    ∃ rt ba' k sock', WritesLikeBuffer ba n sock rt ba' k sock' := by
  have hpos := h.position_le
  rw [h.readSize] at hread
  have hlen : ((ba.content.drop ba.position).take n).length = n := by
    rw [List.length_take, List.length_drop, h.length_content]
    omega
  have hstart : Sent ba sock ((ba.content.drop ba.position).take n) n n (ba, sock) (0, sock) :=
    ⟨rfl, h, rfl, rfl, rfl, by simp, Nat.zero_add n⟩
  obtain ⟨rt, ⟨ba', sock1⟩, ⟨k, sock'⟩, left, hf, hg, hend, hstop⟩ :=
    fixLoop_simulates (Sent ba sock ((ba.content.drop ba.position).take n) n)
      (Sent.step hn (by omega)) n (Nat.lt_succ_self n) hstart
  obtain ⟨rfl, h', hcontent, hsize, hposition, houtgoing, hmoved⟩ := hend
  dsimp only at h' hcontent hsize hposition houtgoing hmoved hf hg
  rw [toInt_of_lt hn] at hstop
  refine ⟨rt, ba', k, sock1, hf, hg, ?_, hcontent, hsize, hposition, by omega, ?_⟩
  · rw [houtgoing, List.take_take, Nat.min_eq_left (by omega)]
  · intro hrel
    obtain ⟨y, hy⟩ := fixLoop_completes
      (fun left (y : Nat × Socket) => left < 2 ^ 31 ∧ y.2.Reliable left ∧
        y.1 + left = ((ba.content.drop ba.position).take n).length)
      (fun left y h0 hI => by
        obtain ⟨rt, y', hok, hrt, hle, hrest⟩ := writeBuffer_reliable _ left y h0 hI.1 hI.2
        exact ⟨rt, y', hok, hrt, hle, by omega, hrest⟩)
      n (Nat.lt_succ_self n) (s := ((0, sock) : Nat × Socket))
      ⟨hn, hrel, (Nat.zero_add n).trans hlen.symm⟩
    have hrt : rt = n := by
      rw [← toInt_of_lt hn]
      exact congrArg Prod.fst (Except.ok.inj (hg.symm.trans hy))
    omega

/-- Whatever the socket makes of each call, fixed-size input and output over the blocks is that
over a plain buffer. -/
theorem fixSize_like_buffer (mem : Nat → Nat → UInt8) {base : Nat} (hb : 0 < base)
    (calls : List ByteArray.Call) {ba : ByteArray}
    (hc : ByteArray.performAll mem calls (ByteArray.new mem base) = some ba) {n : Nat}
    (hn : n < 2 ^ 31) (sock : Socket) :
    (∃ rt ba' w bytes sock', ReadsLikeBuffer mem ba n sock rt ba' w bytes sock') ∧
      (n ≤ ba.getReadSize → ∃ rt ba' k sock', WritesLikeBuffer ba n sock rt ba' k sock') := by
  obtain ⟨h, -⟩ := (ByteArray.rep_new mem hb).performAll mem calls hc
  exact ⟨readFixSize_spec mem h hn sock, fun hread => writeFixSize_spec h hn hread sock⟩

/-- Blocks of three bytes, the cursor inside the second one. -/
def sampleCalls : List ByteArray.Call := [.write [1, 2, 3, 4, 5, 6, 7], .setPosition 4]

/-- Two short transfers, an interrupted call, and more that will do. -/
def sampleSocket : Socket where
  incoming := [10, 11, 12, 13, 14, 15]
  outgoing := []
  calls := [.moves 1, .moves 2, .fails (-1) (by decide), .moves 9]

theorem fixSize_like_buffer_run :
    0 < 3 ∧ 3 < 2 ^ 31 ∧ ∃ ba, ByteArray.performAll (fun _ _ => 0xcd) sampleCalls
        (ByteArray.new (fun _ _ => 0xcd) 3) = some ba ∧
      (∃ rt ba' w bytes sock', ReadsLikeBuffer (fun _ _ => 0xcd) ba 3 sampleSocket rt ba' w bytes
        sock') ∧ ∃ rt ba' k sock', WritesLikeBuffer ba 3 sampleSocket rt ba' k sock' := by
  have hrun : (ByteArray.performAll (fun _ _ => 0xcd) sampleCalls
      (ByteArray.new (fun _ _ => 0xcd) 3)).map ByteArray.getReadSize = some 3 := by
    decide
  obtain ⟨ba, hba, hsize⟩ := Option.map_eq_some_iff.mp hrun
  have hboth := fixSize_like_buffer (fun _ _ => 0xcd) (by decide) sampleCalls hba (n := 3)
    (by decide) sampleSocket
  exact ⟨by decide, by decide, ba, hba, hboth.1, hboth.2 hsize.ge⟩

end HCServer.Stream
