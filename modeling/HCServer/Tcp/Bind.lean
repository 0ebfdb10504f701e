import HCServer.Address.Order

/-! `TcpServer::bind`, whose verdict is read off the list of failed addresses that the caller hands
in. -/
namespace HCServer

/-- What the system calls made for one address give: the descriptor or `-1`, and whether `bind` and
`listen` succeed. -/
structure Attempt where
  socket : Int
  bind : Bool
  listen : Bool
  deriving DecidableEq, Repr

structure Socket where
  sock : Int := -1
  family : BitVec 16
  bound : Option Address := none
  listening : Bool := false

namespace Socket

def createTCP (address : Address) : Socket := { family := address.getFamily }

def isValid (s : Socket) : Bool := s.sock ≠ -1

def newSock (t : Attempt) (s : Socket) : Socket := { s with sock := t.socket }

def bind (t : Attempt) (addr : Address) (s : Socket) : Bool × Socket :=
  let s := if s.isValid then s else s.newSock t
  if s.isValid = false then (false, s)
  else if addr.getFamily ≠ s.family then (false, s)
  else if t.bind = false then (false, s)
  else (true, { s with bound := some addr })

def listen (t : Attempt) (s : Socket) : Bool × Socket :=
  if s.isValid = false then (false, s)
  else if t.listen = false then (false, s)
  else (true, { s with listening := true })

end Socket

structure TcpServer where
  socks : List Socket := []
  ssl : Bool := false

namespace TcpServer

/-- The loop over the addresses, with `m_socks` and `fails` so far; `i` counts the addresses. -/
def bindLoop (attempt : Nat → Attempt) :
    Nat → List Address → List Socket → List Address → List Socket × List Address
  | _, [], socks, fails => (socks, fails)
  | i, addr :: addrs, socks, fails =>
      let (bound, sock) := (Socket.createTCP addr).bind (attempt i) addr
      if bound = false then bindLoop attempt (i + 1) addrs socks (fails ++ [addr])
      else
        let (listening, sock) := sock.listen (attempt i)
        if listening = false then bindLoop attempt (i + 1) addrs socks (fails ++ [addr])
        else bindLoop attempt (i + 1) addrs (socks ++ [sock]) fails

/-- The verdict, `fails` and the server. -/
def bind (attempt : Nat → Attempt) (addrs fails : List Address) (ssl : Bool) (s : TcpServer) :
    Bool × List Address × TcpServer :=
  let (socks, fails) := bindLoop attempt 0 addrs s.socks fails
  if fails ≠ [] then (false, fails, { socks := [], ssl })
  else (true, fails, { socks, ssl })

/-- The overload for one address, with a list of its own. -/
def bindOne (attempt : Nat → Attempt) (addr : Address) (ssl : Bool) (s : TcpServer) :
    Bool × TcpServer :=
  let (verdict, _, s) := s.bind attempt [addr] [] ssl
  (verdict, s)

/-- `while(!bind(addrs, fails))`: the server once a call succeeds. -/
def retry (addrs : List Address) (ssl : Bool) :
    List (Nat → Attempt) → List Address → TcpServer → Option TcpServer
  | [], _, _ => none
  | attempt :: tries, fails, s =>
      match s.bind attempt addrs fails ssl with
      | (true, _, s) => some s
      | (false, fails, s) => retry addrs ssl tries fails s

end TcpServer

/-- The address was bound, and its socket is listening. -/
def Attempt.succeeds (t : Attempt) : Bool := t.socket ≠ -1 && t.bind && t.listen

/-- The socket that a successful attempt leaves. -/
def Attempt.opened (t : Attempt) (addr : Address) : Socket :=
  { sock := t.socket, family := addr.getFamily, bound := some addr, listening := true }

namespace TcpServer
variable (attempt : Nat → Attempt) (addrs fails : List Address) (ssl : Bool) (s : TcpServer)

/-- The sockets of the addresses that succeed, from the `i`-th on. -/
def opened (i : Nat) : List Socket :=
  (addrs.zipIdx i).filterMap fun p =>
    if (attempt p.2).succeeds then some ((attempt p.2).opened p.1) else none

/-- The addresses that fail, from the `i`-th on. -/
def failed (i : Nat) : List Address :=
  (addrs.zipIdx i).filterMap fun p => if (attempt p.2).succeeds then none else some p.1

/-- Every address of the call was bound and is listening. -/
def AllListen : Prop := ∀ p ∈ addrs.zipIdx, (attempt p.2).succeeds = true

/-- The verdict is that of this call, and a call that fails leaves the sockets alone. -/
def Reports : Prop :=
  let r := s.bind attempt addrs fails ssl
  (r.1 = true ↔ AllListen attempt addrs) ∧
  (r.1 = true → r.2.2.socks = s.socks ++ opened attempt addrs 0) ∧
  (r.1 = false → r.2.1 = fails ++ failed attempt addrs 0 ∧ r.2.2.socks = s.socks)

section
variable {attempt addrs fails ssl s}

/-- One address: either its socket is opened or it has failed. -/
theorem bindLoop_cons (i : Nat) (addr : Address) (socks : List Socket) :
    bindLoop attempt i (addr :: addrs) socks fails =
      if (attempt i).succeeds then
        bindLoop attempt (i + 1) addrs (socks ++ [(attempt i).opened addr]) fails
      else bindLoop attempt (i + 1) addrs socks (fails ++ [addr]) := by
  have hfresh : (Socket.createTCP addr).isValid = false := rfl
  by_cases hsock : (attempt i).socket = -1
  · simp [bindLoop, Socket.bind, Socket.createTCP, Socket.newSock, Socket.isValid, Attempt.succeeds,
      hsock]
  · cases hbind : (attempt i).bind with
    | false =>
      simp [bindLoop, Socket.bind, Socket.createTCP, Socket.newSock, Socket.isValid, Attempt.succeeds,
        hsock, hbind]
    | true =>
      cases hlisten : (attempt i).listen with
      | false =>
        simp [bindLoop, Socket.bind, Socket.listen, Socket.createTCP, Socket.newSock, Socket.isValid,
          Attempt.succeeds, hsock, hbind, hlisten]
      | true =>
        simp [bindLoop, Socket.bind, Socket.listen, Socket.createTCP, Socket.newSock, Socket.isValid,
          Attempt.succeeds, Attempt.opened, hsock, hbind, hlisten]

/-- The loop adds what was opened and what failed. -/
theorem bindLoop_eq (i : Nat) (socks : List Socket) :
    bindLoop attempt i addrs socks fails =
      (socks ++ opened attempt addrs i, fails ++ failed attempt addrs i) := by
  induction addrs generalizing i socks fails with
  | nil => simp [bindLoop, opened, failed]
  | cons addr addrs ih =>
    rw [bindLoop_cons]
    split
    next hok =>
      rw [ih]
      simp [opened, failed, List.zipIdx_cons, hok]
    next hfail =>
      rw [ih]
      simp [opened, failed, List.zipIdx_cons, hfail]

theorem bind_eq :
    s.bind attempt addrs fails ssl =
      if fails ++ failed attempt addrs 0 ≠ [] then
        (false, fails ++ failed attempt addrs 0, { socks := [], ssl })
      else (true, [], { socks := s.socks ++ opened attempt addrs 0, ssl }) := by
  rw [bind, bindLoop_eq]
  dsimp only
  by_cases hfails : fails ++ failed attempt addrs 0 = []
  · rw [hfails, if_neg (not_not.mpr rfl)]
  · rw [if_pos hfails, if_pos hfails]

theorem bind_of_fails (h : fails ≠ []) :
    s.bind attempt addrs fails ssl =
      (false, fails ++ failed attempt addrs 0, { socks := [], ssl }) := by
  rw [bind_eq, if_pos (List.append_ne_nil_of_left_ne_nil h _)]

theorem failed_eq_nil_iff : failed attempt addrs 0 = [] ↔ AllListen attempt addrs := by
  rw [failed, List.filterMap_eq_nil_iff]
  simp only [ite_eq_left_iff, reduceCtorEq, imp_false, not_not]
  rfl

theorem reports_iff :
    Reports attempt addrs fails ssl s ↔
      AllListen attempt addrs ∧ fails = [] ∨ ¬ AllListen attempt addrs ∧ s.socks = [] := by
  rw [Reports, bind_eq, ← failed_eq_nil_iff]
  by_cases hfailed : failed attempt addrs 0 = []
  · by_cases hfails : fails = []
    · simp [hfailed, hfails]
    · simp [hfailed, hfails]
  · have hnot : fails ++ failed attempt addrs 0 ≠ [] := List.append_ne_nil_of_right_ne_nil _ hfailed
    rw [if_pos hnot]
    simp only [hfailed, false_and, false_or, not_false_eq_true, true_and, Bool.false_eq_true,
      false_imp_iff, true_imp_iff]
    exact eq_comm

/-- After one failure the list is never empty again. -/
theorem retry_of_fails {tries : List (Nat → Attempt)} (h : fails ≠ []) :
    retry addrs ssl tries fails s = none := by
  induction tries generalizing fails s with
  | nil => rfl
  | cons attempt tries ih =>
    rw [retry, bind_of_fails h]
    exact ih (List.append_ne_nil_of_left_ne_nil h _)

/-- A list of its own for each call, as for one address, makes the retry succeed. -/
theorem bindOne_verdict (addr : Address) :
    (s.bindOne attempt addr ssl).1 = (attempt 0).succeeds := by
  rw [bindOne, bind_eq]
  cases hok : (attempt 0).succeeds with
  | false => simp [failed, hok]
  | true => simp [failed, hok]

end

/-- `0.0.0.0:8033`. -/
def anyAddress : Address := .ipv4 ⟨{ sinPort := 0x611f }⟩

/-- The port is in use, and then free. -/
def inUse : Nat → Attempt := fun _ => { socket := 5, bind := false, listen := true }
def free : Nat → Attempt := fun _ => { socket := 5, bind := true, listen := true }

/-- The second call of the loop fails although the address is bound and listening. -/
theorem retry_after_failure :
    ¬ ∀ (attempt : Nat → Attempt) (addrs fails : List Address) (ssl : Bool) (s : TcpServer),
      Reports attempt addrs fails ssl s := by
  intro hall
  have hfirst : (bind inUse [anyAddress] [] false {}).2.1 = [anyAddress] := rfl
  have hverdict := (hall free [anyAddress] (bind inUse [anyAddress] [] false {}).2.1 false {}).1
  rw [hfirst, bind_of_fails (List.cons_ne_nil _ _)] at hverdict
  have hlisten : AllListen free [anyAddress] := fun _ _ => rfl
  exact absurd (hverdict.mpr hlisten) Bool.false_ne_true

end TcpServer
end HCServer
