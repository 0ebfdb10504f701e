import HCServer.Lib.Parties
import HCServer.Lib.Transition
import Mathlib.Data.List.Nodup

/-! The objects of class `Socket` and the descriptors in their hands. `A` are the addresses; what the kernel
answers to a call is part of the action. -/
namespace HCServer.Tcp
open Lib

inductive SocketType
  | TCP
  | UDP
  deriving DecidableEq, Repr

/-- `sock` is `none` for the code's `-1`. -/
structure Socket (A : Type) where
  sock : Option Nat
  family : Nat
  type : SocketType
  isConnected : Bool
  localAddress : Option A
  remoteAddress : Option A
  deriving DecidableEq, Repr

/-- What became of descriptors: handed to `::close`, or left by an `accept` that returned no socket. -/
structure Ledger where
  given : List Nat
  closed : List Nat
  lost : List Nat
  deriving DecidableEq, Repr

/-- The answers of `socket`, `bind` or `connect`, `getsockname` and `getpeername`. -/
structure Kernel (A : Type) where
  socket : Option Nat
  ok : Bool
  sockname : Option A
  peername : Option A
  deriving DecidableEq, Repr

namespace Socket
variable {A : Type} (getFamily : A → Nat) (k : Kernel A) (addr : A) (s : Socket A) (b : Ledger)

def new (family : Nat) (type : SocketType) : Socket A := ⟨none, family, type, false, none, none⟩

def isValid : Bool := s.sock.isSome

def newSock : Socket A × Ledger :=
  ({ s with sock := k.socket }, { b with given := b.given ++ k.socket.toList })

/-- `CreateUDP`, `CreateUDPSocket` and `CreateUDPSocket6`. -/
def createUDP (family : Nat) : Socket A × Ledger :=
  let r := (new family .UDP).newSock k b
  ({ r.1 with isConnected := true }, r.2)

def getLocalAddress : Socket A :=
  if s.localAddress.isSome then s else { s with localAddress := k.sockname }

def getRemoteAddress : Socket A :=
  if s.remoteAddress.isSome then s else { s with remoteAddress := k.peername }

/-- How `bind` and `connect` begin. -/
def makeValid : Socket A × Ledger := if s.isValid then (s, b) else s.newSock k b

def bind : Bool × Socket A × Ledger :=
  let (s, b) := s.makeValid k b
  if s.isValid = false then (false, s, b)
  else if getFamily addr ≠ s.family then (false, s, b)
  else if k.ok = false then (false, s, b)
  else (true, s.getLocalAddress k, b)

/-- `::close` gets the descriptor, if there is one. -/
def close : Bool × Socket A × Ledger :=
  if s.isConnected = false ∧ s.sock = none then (true, s, b)
  else (false, { s with isConnected := false, sock := none },
    { b with closed := b.closed ++ s.sock.toList })

def connect : Bool × Socket A × Ledger :=
  let s := { s with remoteAddress := some addr }
  let (s, b) := s.makeValid k b
  if s.isValid = false then (false, s, b)
  else if getFamily addr ≠ s.family then (false, s, b)
  else if k.ok = false then (false, (s.close b).2)
  else (true, ({ s with isConnected := true }.getRemoteAddress k).getLocalAddress k, b)

def reconnect : Bool × Socket A × Ledger :=
  match s.remoteAddress with
  | none => (false, s, b)
  | some addr => { s with localAddress := none }.connect getFamily k addr b

/-- `accept`, with `init` told what `FdManager` knows: a socket that is not closed. -/
def accept (known : Bool) : Option (Socket A) × Ledger :=
  match k.socket with
  | none => (none, b)
  | some fd =>
      let b := { b with given := b.given ++ [fd] }
      if known then
        let s : Socket A := { new s.family s.type with sock := some fd, isConnected := true }
        (some ((s.getLocalAddress k).getRemoteAddress k), b)
      else (none, { b with lost := b.lost ++ [fd] })

end Socket

namespace Socket
variable {A : Type} {getFamily : A → Nat} {k : Kernel A} {s s' : Socket A} {b b' : Ledger}

/-- A TCP socket that calls itself connected has a descriptor. -/
def Sound (s : Socket A) : Prop := s.type = .TCP → s.isConnected = true → s.isValid = true

/-- What a call on a socket may do: it takes at most the descriptor `answer` and hands on what it no
longer has. -/
structure Exchange (answer : Option Nat) (s s' : Socket A) (b b' : Ledger) : Prop where
  books : ∃ got out, b'.given = b.given ++ got ∧ b'.closed = b.closed ++ out ∧ b'.lost = b.lost ∧
    s.sock.toList ++ got = out ++ s'.sock.toList ∧ (got = [] ∨ got = answer.toList)
  sound : s.Sound → s'.Sound

theorem Exchange.refl {answer : Option Nat} (hsock : s'.sock = s.sock) (hsound : s.Sound → s'.Sound) :
    Exchange answer s s' b b :=
  ⟨⟨[], [], (List.append_nil _).symm, (List.append_nil _).symm, rfl, by simp [hsock], Or.inl rfl⟩,
    hsound⟩

@[simp] theorem getLocalAddress_sock : (s.getLocalAddress k).sock = s.sock := by
  unfold getLocalAddress
  split <;> rfl

@[simp] theorem getRemoteAddress_sock : (s.getRemoteAddress k).sock = s.sock := by
  unfold getRemoteAddress
  split <;> rfl

@[simp] theorem getLocalAddress_isConnected : (s.getLocalAddress k).isConnected = s.isConnected := by
  unfold getLocalAddress
  split <;> rfl

@[simp] theorem getRemoteAddress_isConnected :
    (s.getRemoteAddress k).isConnected = s.isConnected := by
  unfold getRemoteAddress
  split <;> rfl

theorem sound_of_valid (h : s.sock.isSome = true) : s.Sound := fun _ _ => h

theorem sound_of_idle (h : s.isConnected = false) : s.Sound := by
  intro _ hconnected
  rw [h] at hconnected
  cases hconnected

theorem exchange_makeValid : Exchange k.socket s (s.makeValid k b).1 b (s.makeValid k b).2 := by
  cases hvalid : s.isValid with
  | true =>
      rw [makeValid, if_pos hvalid]
      exact .refl rfl id
  | false =>
      have hnone : s.sock = none := by simpa [isValid] using hvalid
      rw [makeValid, if_neg (by simp [hvalid])]
      refine ⟨⟨k.socket.toList, [], rfl, (List.append_nil _).symm, rfl, ?_, Or.inr rfl⟩, ?_⟩
      · simp [newSock, hnone]
      · intro hsound htype hconnected
        have hold : s.isValid = true := hsound htype hconnected
        rw [hvalid] at hold
        cases hold

/-- The socket may change after it, but for its descriptor. -/
theorem Exchange.keep {answer : Option Nat} {t : Socket A} (h : Exchange answer s s' b b')
    (hsock : t.sock = s'.sock) (hsound : s'.Sound → t.Sound) : Exchange answer s t b b' := by
  obtain ⟨⟨got, out, hgiven, hclosed, hlost, hbalance, hgot⟩, hs⟩ := h
  exact ⟨⟨got, out, hgiven, hclosed, hlost, by rw [hsock, hbalance], hgot⟩, fun hold => hsound (hs hold)⟩

/-- The descriptor that the socket has now goes to `::close`. -/
theorem Exchange.close {answer : Option Nat} (h : Exchange answer s s' b b') :
    Exchange answer s (s'.close b').2.1 b (s'.close b').2.2 := by
  obtain ⟨⟨got, out, hgiven, hclosed, hlost, hbalance, hgot⟩, -⟩ := h
  unfold Socket.close
  split
  · case isTrue hidle =>
      exact ⟨⟨got, out, hgiven, hclosed, hlost, hbalance, hgot⟩, fun _ => sound_of_idle hidle.1⟩
  · refine ⟨⟨got, out ++ s'.sock.toList, hgiven, ?_, hlost, ?_, hgot⟩, fun _ => sound_of_idle rfl⟩
    · simp [hclosed]
    · simp [hbalance]

theorem close_sock : (s.close b).2.1.sock = none := by
  unfold close
  split
  · case isTrue hidle => exact hidle.2
  · rfl

theorem exchange_close : Exchange none s (s.close b).2.1 b (s.close b).2.2 :=
  Exchange.close (.refl rfl id)

theorem exchange_bind (addr : A) :
    Exchange k.socket s (s.bind getFamily k addr b).2.1 b (s.bind getFamily k addr b).2.2 := by
  have hvalid := exchange_makeValid (k := k) (s := s) (b := b)
  simp only [bind]
  split
  · exact hvalid
  · split
    · exact hvalid
    · split
      · exact hvalid
      · case isFalse hopen _ _ =>
          refine hvalid.keep getLocalAddress_sock fun _ => ?_
          refine sound_of_valid ?_
          rw [getLocalAddress_sock]
          simpa [isValid, Option.isSome_iff_ne_none] using hopen

theorem exchange_connect (getFamily : A → Nat) (addr : A) :
    Exchange k.socket s (s.connect getFamily k addr b).2.1 b (s.connect getFamily k addr b).2.2 := by
  have hvalid := exchange_makeValid (k := k) (s := { s with remoteAddress := some addr }) (b := b)
  have hstart : Exchange k.socket s (makeValid k { s with remoteAddress := some addr } b).1 b
      (makeValid k { s with remoteAddress := some addr } b).2 := ⟨hvalid.books, hvalid.sound⟩
  simp only [connect]
  split
  · exact hstart
  · split
    · exact hstart
    · split
      · exact hstart.close
      · case isFalse hopen _ _ =>
          refine hstart.keep (by simp) fun _ => ?_
          refine sound_of_valid ?_
          simpa [isValid, Option.isSome_iff_ne_none] using hopen

theorem exchange_reconnect :
    Exchange k.socket s (s.reconnect getFamily k b).2.1 b (s.reconnect getFamily k b).2.2 := by
  unfold reconnect
  split
  · exact .refl rfl id
  · case h_2 addr _ =>
      have hconnect := exchange_connect getFamily (k := k) (s := { s with localAddress := none })
        (b := b) addr
      exact ⟨hconnect.books, hconnect.sound⟩

end Socket

/-- `none` is an object that has been destroyed. -/
structure Sockets (A : Type) where
  objects : List (Option (Socket A))
  ledger : Ledger

/-- Of an object, `i` is its place among the objects. -/
inductive Call (A : Type)
  | create (family : Nat) (type : SocketType)
  | createUDP (family : Nat) (k : Kernel A)
  | bind (i : Nat) (addr : A) (k : Kernel A)
  | connect (i : Nat) (addr : A) (k : Kernel A)
  | reconnect (i : Nat) (k : Kernel A)
  | accept (i : Nat) (k : Kernel A) (known : Bool)
  | close (i : Nat)
  | destroy (i : Nat)

/-- The descriptor that the kernel gives, if the call asks for one. -/
def Call.answer {A : Type} : Call A → Option Nat
  | .createUDP _ k | .bind _ _ k | .connect _ _ k | .reconnect _ k | .accept _ k _ => k.socket
  | _ => none

namespace Sockets
variable {A : Type} (getFamily : A → Nat)

def new : Sockets A := ⟨[], ⟨[], [], []⟩⟩

/-- The descriptors of the objects. -/
def held (s : Sockets A) : List Nat := s.objects.filterMap fun o => o.bind Socket.sock

def add (s : Sockets A) (r : Socket A × Ledger) : Sockets A := ⟨s.objects ++ [some r.1], r.2⟩

def write (s : Sockets A) (i : Nat) (o : Option (Socket A)) (b : Ledger) : Sockets A :=
  ⟨s.objects.set i o, b⟩

/-- One call. The kernel gives no descriptor that is open, and an object that was destroyed takes no
calls. -/
def step (s : Sockets A) (c : Call A) : Option (Sockets A) :=
  if ∃ fd ∈ c.answer, fd ∈ s.held ++ s.ledger.lost then none
  else match c with
    | .create family type => some (s.add (.new family type, s.ledger))
    | .createUDP family k => some (s.add (Socket.createUDP k s.ledger family))
    | .bind i addr k => do
        let sock ← s.objects[i]?.join
        let r := sock.bind getFamily k addr s.ledger
        some (s.write i (some r.2.1) r.2.2)
    | .connect i addr k => do
        let sock ← s.objects[i]?.join
        let r := sock.connect getFamily k addr s.ledger
        some (s.write i (some r.2.1) r.2.2)
    | .reconnect i k => do
        let sock ← s.objects[i]?.join
        let r := sock.reconnect getFamily k s.ledger
        some (s.write i (some r.2.1) r.2.2)
    | .accept i k known => do
        let sock ← s.objects[i]?.join
        let r := sock.accept k s.ledger known
        some ⟨s.objects ++ r.1.toList.map some, r.2⟩
    | .close i => do
        let sock ← s.objects[i]?.join
        let r := sock.close s.ledger
        some (s.write i (some r.2.1) r.2.2)
    | .destroy i => do
        let sock ← s.objects[i]?.join
        some (s.write i none (sock.close s.ledger).2.2)

/-- Every descriptor that was given is with one object, with `::close` or lost. -/
structure Accounts (s : Sockets A) : Prop where
  books : s.ledger.given.Perm (s.held ++ s.ledger.closed ++ s.ledger.lost)
  single : (s.held ++ s.ledger.lost).Nodup
  sound : ∀ sock, some sock ∈ s.objects → sock.Sound

variable {getFamily} {s s' : Sockets A} {c : Call A} {answer : Option Nat}

theorem count_toList_le (o : Option Nat) (n : Nat) : o.toList.count n ≤ 1 := by
  cases o with
  | none => exact Nat.zero_le _
  | some x => exact List.nodup_iff_count_le_one.mp (List.nodup_singleton x) n

/-- What is got is not yet anybody's, and what is handed on was somebody's. -/
theorem Accounts.balance (h : Accounts s) (held got out lost : List Nat) {b : Ledger}
    (hgiven : b.given = s.ledger.given ++ got) (hclosed : b.closed = s.ledger.closed ++ out)
    (hlost : b.lost = s.ledger.lost ++ lost)
    (hheld : ∀ n, held.count n + out.count n + lost.count n = s.held.count n + got.count n)
    (hgot : got = [] ∨ got = answer.toList)
    (hfresh : ∀ fd ∈ answer, fd ∉ s.held ++ s.ledger.lost) :
    b.given.Perm (held ++ b.closed ++ b.lost) ∧ (held ++ b.lost).Nodup := by
  have hbooks := List.perm_iff_count.mp h.books
  have hsingle := List.nodup_iff_count_le_one.mp h.single
  refine ⟨List.perm_iff_count.mpr fun n => ?_, List.nodup_iff_count_le_one.mpr fun n => ?_⟩
  · have hn := hbooks n
    have hm := hheld n
    simp only [hgiven, hclosed, hlost, List.count_append] at hn ⊢
    omega
  · have hn := hsingle n
    have hm := hheld n
    simp only [hlost, List.count_append] at hn ⊢
    have hnew : got.count n = 0 ∨ s.held.count n + s.ledger.lost.count n = 0 ∧ got.count n ≤ 1 := by
      rcases hgot with rfl | rfl
      · exact Or.inl rfl
      · by_cases hin : n ∈ answer
        · refine Or.inr ⟨?_, count_toList_le answer n⟩
          rw [← List.count_append]
          exact List.count_eq_zero.mpr (hfresh n hin)
        · exact Or.inl (List.count_eq_zero.mpr (by simpa using hin))
    omega

/-- A call on one object. -/
theorem Accounts.write (h : Accounts s) {i : Nat} {sock sock' : Socket A} {b : Ledger}
    (hi : s.objects[i]? = some (some sock)) (hexchange : sock.Exchange answer sock' s.ledger b)
    (hfresh : ∀ fd ∈ answer, fd ∉ s.held ++ s.ledger.lost) {o : Option (Socket A)}
    (ho : o = some sock' ∨ o = none ∧ sock'.sock = none) : Accounts (s.write i o b) := by
  obtain ⟨got, out, hgiven, hclosed, hlost, hbalance, hgot⟩ := hexchange.books
  have hsock : o.bind Socket.sock = sock'.sock := by
    rcases ho with rfl | ⟨rfl, hnone⟩
    · rfl
    · exact hnone.symm
  have hmove := List.perm_iff_count.mp
    (perm_filterMap_set (y := o) (fun o : Option (Socket A) => o.bind Socket.sock) hi)
  have hall := h.balance (s.write i o b).held got out [] hgiven hclosed
    (hlost.trans (List.append_nil _).symm) ?_ hgot hfresh
  · refine ⟨hall.1, hall.2, ?_⟩
    intro x hx
    rcases List.mem_or_eq_of_mem_set hx with hold | hnew
    · exact h.sound x hold
    · rcases ho with rfl | ⟨rfl, -⟩
      · cases hnew
        exact hexchange.sound (h.sound sock (List.mem_of_getElem? hi))
      · cases hnew
  · intro n
    have hn := hmove n
    have hcount := congrArg (List.count n) hbalance
    simp only [hsock, Option.bind_some, List.count_append] at hn hcount
    simp only [held, Sockets.write, List.count_nil]
    omega

/-- A new object. -/
theorem Accounts.add (h : Accounts s) (answer : Option Nat) {sock : Socket A} {b : Ledger} (hsound : sock.Sound)
    (hgiven : b.given = s.ledger.given ++ sock.sock.toList) (hclosed : b.closed = s.ledger.closed)
    (hlost : b.lost = s.ledger.lost) (hanswer : sock.sock = none ∨ sock.sock = answer)
    (hfresh : ∀ fd ∈ answer, fd ∉ s.held ++ s.ledger.lost) : Accounts (s.add (sock, b)) := by
  have hheld : (s.add (sock, b)).held = s.held ++ sock.sock.toList := by
    rw [held, Sockets.add, List.filterMap_append]
    cases hsock : sock.sock <;> simp [hsock, held]
  have hall := h.balance (s.add (sock, b)).held sock.sock.toList [] [] hgiven
    (hclosed.trans (List.append_nil _).symm) (hlost.trans (List.append_nil _).symm) ?_ ?_ hfresh
  · refine ⟨hall.1, hall.2, ?_⟩
    intro x hx
    rcases List.mem_append.mp hx with hold | hnew
    · exact h.sound x hold
    · cases List.mem_singleton.mp hnew
      exact hsound
  · intro n
    rw [hheld, List.count_append]
    rfl
  · rcases hanswer with hnone | hsome
    · exact Or.inl (by rw [hnone]; rfl)
    · exact Or.inr (by rw [hsome])

/-- `accept` gives a new object the descriptor, or loses it. -/
theorem Accounts.accept (h : Accounts s) {sock : Socket A} {k : Kernel A} {known : Bool}
    (hfresh : ∀ fd ∈ k.socket, fd ∉ s.held ++ s.ledger.lost) :
    Accounts ⟨s.objects ++ (sock.accept k s.ledger known).1.toList.map some,
      (sock.accept k s.ledger known).2⟩ := by
  unfold Socket.accept
  cases hanswer : k.socket with
  | none => simpa using h
  | some fd =>
      rw [hanswer] at hfresh
      cases known with
      | true =>
          refine h.add (some fd) ?_ ?_ rfl rfl (Or.inr (by simp)) hfresh
          · exact Socket.sound_of_valid (by simp)
          · simp
      | false =>
          have hall := h.balance s.held [fd] [] [fd] (b := { s.ledger with
              given := s.ledger.given ++ [fd]
              lost := s.ledger.lost ++ [fd] }) rfl (List.append_nil _).symm rfl
            (fun n => by simp) (Or.inr rfl) hfresh
          refine ⟨?_, ?_, ?_⟩
          · simpa [held] using hall.1
          · simpa [held] using hall.2
          · simpa using h.sound

theorem Accounts.step (h : Accounts s) (hs : s.step getFamily c = some s') : Accounts s' := by
  simp only [Sockets.step] at hs
  split at hs
  · cases hs
  case isFalse hopen =>
    have hfresh : ∀ fd ∈ c.answer, fd ∉ s.held ++ s.ledger.lost :=
      fun fd hfd hin => hopen ⟨fd, hfd, hin⟩
    have hobject : ∀ {i : Nat} {sock : Socket A}, s.objects[i]?.join = some sock →
        s.objects[i]? = some (some sock) := by
      intro i sock hi
      simpa using Option.join_eq_some_iff.mp hi
    cases c with
    | create family type =>
        cases hs
        exact h.add none (fun _ hconnected => by cases hconnected) (List.append_nil _).symm
          rfl rfl (Or.inl rfl) (fun _ hfd => by cases hfd)
    | createUDP family k =>
        cases hs
        exact h.add k.socket (fun htype => by cases htype) rfl rfl rfl (Or.inr rfl) hfresh
    | bind i addr k =>
        obtain ⟨sock, hi, hs⟩ := Option.bind_eq_some_iff.mp hs
        cases hs
        exact h.write (hobject hi) (Socket.exchange_bind addr) hfresh (Or.inl rfl)
    | connect i addr k =>
        obtain ⟨sock, hi, hs⟩ := Option.bind_eq_some_iff.mp hs
        cases hs
        exact h.write (hobject hi) (Socket.exchange_connect getFamily addr) hfresh (Or.inl rfl)
    | reconnect i k =>
        obtain ⟨sock, hi, hs⟩ := Option.bind_eq_some_iff.mp hs
        cases hs
        exact h.write (hobject hi) Socket.exchange_reconnect hfresh (Or.inl rfl)
    | accept i k known =>
        obtain ⟨sock, hi, hs⟩ := Option.bind_eq_some_iff.mp hs
        cases hs
        exact h.accept hfresh
    | close i =>
        obtain ⟨sock, hi, hs⟩ := Option.bind_eq_some_iff.mp hs
        cases hs
        exact h.write (hobject hi) Socket.exchange_close hfresh (Or.inl rfl)
    | destroy i =>
        obtain ⟨sock, hi, hs⟩ := Option.bind_eq_some_iff.mp hs
        cases hs
        exact h.write (hobject hi) Socket.exchange_close hfresh (Or.inr ⟨rfl, Socket.close_sock⟩)

/-- No descriptor is held twice, closed by two objects or forgotten by anything but an `accept` that fails,
and a TCP socket that is connected has one. -/
theorem sockets_own_descriptors (getFamily : A → Nat) (cs : List (Call A)) :
    Always (Sockets.step getFamily) Accounts (new : Sockets A) cs := by
  refine always_of_invariant (fun _ _ _ h hs => Accounts.step h hs) (fun _ h => h) ?_ cs
  refine ⟨List.Perm.refl _, List.nodup_nil, ?_⟩
  intro sock hsock
  exact absurd hsock List.not_mem_nil

/-- A UDP socket that the kernel refused calls itself connected. -/
example : (Socket.createUDP ⟨none, true, none, none⟩ ⟨[], [], []⟩ 2 : Socket Nat × Ledger).1 =
    ⟨none, 2, .UDP, true, none, none⟩ := rfl

end Sockets
end HCServer.Tcp
