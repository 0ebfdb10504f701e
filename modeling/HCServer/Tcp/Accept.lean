import HCServer.Lib.Parties
import HCServer.Lib.Transition
import Mathlib

/-! A server after `bind`: `start`, `stop` and the fibers of `startAccept`, whose steps come in any order.
A listening socket is its place among the sockets that were bound, a client is the number of its
`accept`. -/
namespace HCServer.Tcp
open Lib

/-- Where a fiber of `startAccept` is. It goes from `accepted` to `limited` with `setRecvTimeout`. -/
inductive Pc
  | test
  | accept
  | accepted (client : Nat)
  | limited (client : Nat)
  | done
  deriving DecidableEq, Repr

def Pc.client : Pc → Option Nat
  | .accepted client | .limited client => some client
  | _ => none

/-- The steps a fiber can still make on a server that has been stopped. -/
def Pc.work : Pc → Nat
  | .test => 1
  | .accept => 4
  | .accepted _ => 3
  | .limited _ => 2
  | .done => 0

structure Loop where
  sock : Nat
  pc : Pc
  deriving DecidableEq, Repr

/-- `valid` are the listening sockets that have not been closed, `closing` counts the jobs of `stop` that
have not run. `tasks` are the calls of `handleClient` in the queue of `m_ioWorker`, `timeout` is what was
set for each client, and `clients` counts the connections. -/
structure TcpServer where
  socks : List Nat
  isStop : Bool
  recvTimeout : Nat
  valid : Nat → Bool
  loops : List Loop
  closing : Nat
  clients : Nat
  timeout : Nat → Option Nat
  tasks : List Nat

/-- Of a fiber, `i` is its place in `loops`. -/
inductive Action
  | start
  | stop
  | close
  | setRecvTimeout (v : Nat)
  | test (i : Nat)
  | accept (i : Nat) (ok : Bool)
  | limit (i : Nat)
  | schedule (i : Nat)
  deriving DecidableEq, Repr

def Action.newTimeout : Action → Option Nat
  | .setRecvTimeout v => some v
  | _ => none

namespace TcpServer

/-- What `bind` leaves. -/
def new (socks : List Nat) (recvTimeout : Nat) : TcpServer where
  socks := socks
  isStop := true
  recvTimeout := recvTimeout
  valid := fun n => decide (n ∈ socks)
  loops := []
  closing := 0
  clients := 0
  timeout := fun _ => none
  tasks := []

def goto (s : TcpServer) (i : Nat) (l : Loop) (pc : Pc) : TcpServer :=
  { s with loops := s.loops.set i { l with pc } }

def start (s : TcpServer) : TcpServer :=
  if s.isStop = false then s
  else { s with isStop := false, loops := s.loops ++ s.socks.map (⟨·, .test⟩) }

def stop (s : TcpServer) : TcpServer := { s with isStop := true, closing := s.closing + 1 }

/-- The job that `stop` schedules: `cancelAll`, `close`, `m_socks.clear()`. -/
def close (s : TcpServer) : TcpServer :=
  { s with
    socks := []
    valid := fun n => s.valid n && decide (n ∉ s.socks)
    closing := s.closing - 1 }

/-- One step. A socket that has been closed gives no connection; `accept` fails for other reasons as
well. -/
def step (s : TcpServer) : Action → Option TcpServer
  | .start => some s.start
  | .stop => some s.stop
  | .close => if 0 < s.closing then some s.close else none
  | .setRecvTimeout v => some { s with recvTimeout := v }
  | .test i => do
      let l ← s.loops[i]?
      if l.pc = .test then some (s.goto i l (if s.isStop then .done else .accept)) else none
  | .accept i ok => do
      let l ← s.loops[i]?
      if l.pc ≠ .accept then none
      else if ok = false then some (s.goto i l .test)
      else if s.valid l.sock then
        some ({ s with clients := s.clients + 1 }.goto i l (.accepted s.clients))
      else none
  | .limit i => do
      let l ← s.loops[i]?
      match l.pc with
      | .accepted client =>
          some ({ s with timeout := Function.update s.timeout client (some s.recvTimeout) }.goto i l
            (.limited client))
      | _ => none
  | .schedule i => do
      let l ← s.loops[i]?
      match l.pc with
      | .limited client => some ({ s with tasks := s.tasks ++ [client] }.goto i l .test)
      | _ => none

/-- What each step does and what has let it happen. -/
inductive Rule (s : TcpServer) : Action → TcpServer → Prop
  | start : Rule s .start s.start
  | stop : Rule s .stop s.stop
  | close (hclosing : 0 < s.closing) : Rule s .close s.close
  | setRecvTimeout {v} : Rule s (.setRecvTimeout v) { s with recvTimeout := v }
  | leave {i l} (hl : s.loops[i]? = some l) (hpc : l.pc = .test) (hstop : s.isStop = true) :
      Rule s (.test i) (s.goto i l .done)
  | again {i l} (hl : s.loops[i]? = some l) (hpc : l.pc = .test) (hstop : s.isStop = false) :
      Rule s (.test i) (s.goto i l .accept)
  | failed {i l} (hl : s.loops[i]? = some l) (hpc : l.pc = .accept) :
      Rule s (.accept i false) (s.goto i l .test)
  | accepted {i l} (hl : s.loops[i]? = some l) (hpc : l.pc = .accept) (hvalid : s.valid l.sock = true) :
      Rule s (.accept i true) ({ s with clients := s.clients + 1 }.goto i l (.accepted s.clients))
  | limit {i l client} (hl : s.loops[i]? = some l) (hpc : l.pc = .accepted client) :
      Rule s (.limit i)
        ({ s with timeout := Function.update s.timeout client (some s.recvTimeout) }.goto i l
          (.limited client))
  | schedule {i l client} (hl : s.loops[i]? = some l) (hpc : l.pc = .limited client) :
      Rule s (.schedule i) ({ s with tasks := s.tasks ++ [client] }.goto i l .test)

variable {s s' t u : TcpServer} {a : Action}

theorem step_rule (hs : s.step a = some s') : Rule s a s' := by
  cases a with
  | start =>
      cases hs
      exact .start
  | stop =>
      cases hs
      exact .stop
  | close =>
      simp only [step, Option.ite_none_right_eq_some, Option.some.injEq] at hs
      obtain ⟨hclosing, rfl⟩ := hs
      exact .close hclosing
  | setRecvTimeout v =>
      cases hs
      exact .setRecvTimeout
  | test i =>
      obtain ⟨l, hl, hs⟩ := Option.bind_eq_some_iff.mp hs
      simp only [Option.ite_none_right_eq_some, Option.some.injEq] at hs
      obtain ⟨hpc, rfl⟩ := hs
      cases hstop : s.isStop with
      | true => exact .leave hl hpc hstop
      | false => exact .again hl hpc hstop
  | accept i ok =>
      obtain ⟨l, hl, hs⟩ := Option.bind_eq_some_iff.mp hs
      split at hs
      case isTrue => cases hs
      case isFalse hpc =>
        have hpc := Decidable.not_not.mp hpc
        cases ok with
        | false =>
            cases hs
            exact .failed hl hpc
        | true =>
            simp only [Bool.true_eq_false, if_false, Option.ite_none_right_eq_some,
              Option.some.injEq] at hs
            obtain ⟨hvalid, rfl⟩ := hs
            exact .accepted hl hpc hvalid
  | limit i =>
      obtain ⟨l, hl, hs⟩ := Option.bind_eq_some_iff.mp hs
      split at hs
      case h_1 client hpc =>
        cases hs
        exact .limit hl hpc
      case h_2 => cases hs
  | schedule i =>
      obtain ⟨l, hl, hs⟩ := Option.bind_eq_some_iff.mp hs
      split at hs
      case h_1 client hpc =>
        cases hs
        exact .schedule hl hpc
      case h_2 => cases hs

@[simp] theorem goto_loops (s : TcpServer) (i : Nat) (l : Loop) (pc : Pc) :
    (s.goto i l pc).loops = s.loops.set i { l with pc } := rfl

/-- The clients in the hands of the fibers. -/
def held (s : TcpServer) : List Nat := s.loops.filterMap fun l => l.pc.client

/-- Each client is in one fiber's hands or has been scheduled, once. -/
def Handed (s : TcpServer) : Prop := (s.tasks ++ s.held).Perm (List.range s.clients)

/-- A fiber's step takes the client `got` into its hands and lets go of `lost`. -/
theorem Handed.move (h : Handed s) (lost got : List Nat) {i : Nat} {l : Loop} {pc : Pc}
    (hl : s.loops[i]? = some l) (hloops : t.loops = s.loops.set i { l with pc })
    (htasks : t.tasks = s.tasks ++ lost) (hpc : lost ++ pc.client.toList = l.pc.client.toList ++ got)
    (hrange : List.range t.clients = List.range s.clients ++ got) : Handed t := by
  have hmove := perm_filterMap_set (y := { l with pc }) (fun l => l.pc.client) hl
  have hheld : (lost ++ t.held).Perm (s.held ++ got) := by
    rw [← List.perm_append_left_iff l.pc.client.toList]
    rw [held, hloops, held]
    have hout := hmove.append_left lost
    rw [← List.append_assoc lost pc.client.toList, hpc, List.append_assoc] at hout
    refine ((List.perm_append_comm_assoc _ _ _).trans hout).trans ?_
    exact List.perm_append_comm.append_left _
  rw [Handed, htasks, hrange, List.append_assoc]
  refine (hheld.append_left s.tasks).trans ?_
  rw [← List.append_assoc]
  exact h.append_right got

theorem Handed.step (h : Handed s) (hs : s.step a = some s') : Handed s' := by
  cases step_rule hs with
  | start =>
      rw [start]
      split
      · exact h
      · have hnew : (s.socks.map (⟨·, .test⟩)).filterMap (fun l : Loop => l.pc.client) = [] := by
          rw [List.filterMap_map]
          exact List.filterMap_eq_nil_iff.mpr fun _ _ => rfl
        simp only [Handed, held, List.filterMap_append, hnew, List.append_nil]
        exact h
  | stop => exact h
  | close hclosing => exact h
  | setRecvTimeout => exact h
  | leave hl hpc hstop =>
      exact h.move [] [] hl rfl (List.append_nil _).symm (by simp [hpc, Pc.client])
        (List.append_nil _).symm
  | again hl hpc hstop =>
      exact h.move [] [] hl rfl (List.append_nil _).symm (by simp [hpc, Pc.client])
        (List.append_nil _).symm
  | failed hl hpc =>
      exact h.move [] [] hl rfl (List.append_nil _).symm (by simp [hpc, Pc.client])
        (List.append_nil _).symm
  | accepted hl hpc hvalid =>
      exact h.move [] [s.clients] hl rfl (List.append_nil _).symm
        (by simp [hpc, Pc.client]) List.range_succ
  | limit hl hpc =>
      exact h.move [] [] hl rfl (List.append_nil _).symm (by simp [hpc, Pc.client])
        (List.append_nil _).symm
  | @schedule i l client hl hpc =>
      exact h.move [client] [] hl rfl rfl (by simp [hpc, Pc.client])
        (List.append_nil _).symm

/-- A receive timeout that meets `P` is set before a client is handed on. -/
structure Limited (P : Nat → Prop) (s : TcpServer) : Prop where
  server : P s.recvTimeout
  loops : ∀ l ∈ s.loops, ∀ client, l.pc = .limited client → ∃ v, s.timeout client = some v ∧ P v
  tasks : ∀ client ∈ s.tasks, ∃ v, s.timeout client = some v ∧ P v

variable {P : Nat → Prop}

theorem mem_goto {l m : Loop} {i : Nat} {pc : Pc} (hm : m ∈ (s.goto i l pc).loops) :
    m = { l with pc } ∨ m ∈ s.loops := (List.mem_or_eq_of_mem_set hm).symm

/-- A fiber's step that leaves the clients' timeouts alone. -/
theorem Limited.move (h : Limited P s) {i : Nat} {l : Loop} {pc : Pc}
    (hpc : ∀ client, pc ≠ .limited client) (hloops : t.loops = (s.goto i l pc).loops)
    (hserver : t.recvTimeout = s.recvTimeout) (htimeout : t.timeout = s.timeout)
    (htasks : ∀ client ∈ t.tasks, ∃ v, s.timeout client = some v ∧ P v) : Limited P t := by
  refine ⟨hserver ▸ h.server, ?_, by rwa [htimeout]⟩
  rw [htimeout, hloops]
  intro m hm client hclient
  rcases mem_goto hm with rfl | hold
  · exact absurd hclient (hpc client)
  · exact h.loops m hold client hclient

theorem Limited.step (h : Limited P s) (hs : s.step a = some s') (hnew : ∀ v ∈ a.newTimeout, P v) :
    Limited P s' := by
  cases step_rule hs with
  | start =>
      rw [start]
      split
      · exact h
      · refine ⟨h.server, ?_, h.tasks⟩
        intro l hl client hclient
        rcases List.mem_append.mp hl with hold | hnew
        · exact h.loops l hold client hclient
        · obtain ⟨n, -, rfl⟩ := List.mem_map.mp hnew
          cases hclient
  | stop => exact ⟨h.server, h.loops, h.tasks⟩
  | close hclosing => exact ⟨h.server, h.loops, h.tasks⟩
  | setRecvTimeout => exact ⟨hnew _ rfl, h.loops, h.tasks⟩
  | leave hl hpc hstop => exact h.move (by simp) rfl rfl rfl h.tasks
  | again hl hpc hstop => exact h.move (by simp) rfl rfl rfl h.tasks
  | failed hl hpc => exact h.move (by simp) rfl rfl rfl h.tasks
  | accepted hl hpc hvalid => exact h.move (by simp) rfl rfl rfl h.tasks
  | @limit i l client hl hpc =>
      have hset : ∀ c, (∃ v, s.timeout c = some v ∧ P v) →
          ∃ v, Function.update s.timeout client (some s.recvTimeout) c = some v ∧ P v := by
        intro c hc
        by_cases he : c = client
        · subst he
          exact ⟨s.recvTimeout, Function.update_self _ _ _, h.server⟩
        · rw [Function.update_of_ne he]
          exact hc
      refine ⟨h.server, ?_, fun c hc => hset c (h.tasks c hc)⟩
      intro m hm c hc
      rcases mem_goto hm with rfl | hold
      · cases hc
        exact ⟨s.recvTimeout, Function.update_self _ _ _, h.server⟩
      · exact hset c (h.loops m hold c hc)
  | @schedule i l client hl hpc =>
      refine h.move (by simp) rfl rfl rfl ?_
      intro c hc
      rcases List.mem_append.mp hc with hold | hlast
      · exact h.tasks c hold
      · rw [List.mem_singleton.mp hlast]
        exact h.loops l (List.mem_of_getElem? hl) client hpc

/-- A socket is in `m_socks` until it is closed, and a server that runs has a fiber on each. -/
structure Served (s : TcpServer) : Prop where
  place : ∀ l ∈ s.loops, l.sock ∈ s.socks ∨ s.valid l.sock = false
  opened : ∀ n ∈ s.socks, s.valid n = true
  acceptors : s.isStop = false → ∀ n ∈ s.socks, ∃ l ∈ s.loops, l.sock = n ∧ l.pc ≠ .done
  pending : s.isStop = true → s.loops = [] ∨ 0 < s.closing ∨ s.socks = []

/-- A fiber's step. Only a server that has been stopped lets it end. -/
theorem Served.move (h : Served s) {i : Nat} {l : Loop} {pc : Pc} (hl : s.loops[i]? = some l)
    (hpc : s.isStop = false → pc ≠ .done) (hloops : t.loops = (s.goto i l pc).loops)
    (hsocks : t.socks = s.socks) (hstop : t.isStop = s.isStop) (hvalid : t.valid = s.valid)
    (hclosing : t.closing = s.closing) : Served t := by
  obtain ⟨front, back, hold, hnew⟩ := split_set (y := { l with pc }) hl
  refine ⟨?_, by rw [hsocks, hvalid]; exact h.opened, ?_, ?_⟩
  · rw [hloops, hsocks, hvalid]
    intro m hm
    rcases mem_goto hm with rfl | hm
    · exact h.place l (List.mem_of_getElem? hl)
    · exact h.place m hm
  · rw [hstop, hsocks, hloops, goto_loops, hnew]
    intro hrunning n hn
    obtain ⟨m, hm, hsock, hlive⟩ := h.acceptors hrunning n hn
    rw [hold] at hm
    rcases List.mem_append.mp hm with hm | hm
    · exact ⟨m, List.mem_append_left _ hm, hsock, hlive⟩
    · rcases List.mem_cons.mp hm with rfl | hm
      · exact ⟨{ m with pc }, by simp, hsock, hpc hrunning⟩
      · exact ⟨m, List.mem_append_right _ (List.mem_cons_of_mem _ hm), hsock, hlive⟩
  · rw [hstop, hsocks, hclosing, hloops, goto_loops, hnew]
    intro hstopped
    refine (h.pending hstopped).imp_left ?_
    intro hnil
    rw [hold] at hnil
    exact absurd hnil (by simp)

theorem Served.step (h : Served s) (hs : s.step a = some s') : Served s' := by
  cases step_rule hs with
  | start =>
      rw [start]
      split
      · exact h
      · refine ⟨?_, h.opened, ?_, ?_⟩
        · intro l hl
          rcases List.mem_append.mp hl with hold | hnew
          · exact h.place l hold
          · obtain ⟨n, hn, rfl⟩ := List.mem_map.mp hnew
            exact Or.inl hn
        · intro _ n hn
          refine ⟨⟨n, .test⟩, List.mem_append_right _ (List.mem_map.mpr ⟨n, hn, rfl⟩), rfl, ?_⟩
          exact Pc.noConfusion
        · intro hstop
          cases hstop
  | stop =>
      refine ⟨h.place, h.opened, ?_, fun _ => Or.inr (Or.inl (Nat.succ_pos _))⟩
      intro hstop
      cases hstop
  | close hclosing =>
      refine ⟨?_, ?_, ?_, fun _ => Or.inr (Or.inr rfl)⟩
      · intro l hl
        right
        rcases h.place l hl with hin | hclosed
        · simp [close, hin]
        · simp [close, hclosed]
      · intro n hn
        exact absurd hn List.not_mem_nil
      · intro _ n hn
        exact absurd hn List.not_mem_nil
  | setRecvTimeout => exact ⟨h.place, h.opened, h.acceptors, h.pending⟩
  | leave hl hpc hstop =>
      refine h.move hl ?_ rfl rfl rfl rfl rfl
      intro hrunning
      rw [hstop] at hrunning
      cases hrunning
  | again hl hpc hstop => exact h.move hl (by simp) rfl rfl rfl rfl rfl
  | failed hl hpc => exact h.move hl (by simp) rfl rfl rfl rfl rfl
  | accepted hl hpc hvalid => exact h.move hl (by simp) rfl rfl rfl rfl rfl
  | limit hl hpc => exact h.move hl (by simp) rfl rfl rfl rfl rfl
  | schedule hl hpc => exact h.move hl (by simp) rfl rfl rfl rfl rfl

/-- The steps that the fibers of a stopped server have left. -/
def work (s : TcpServer) : Nat := (s.loops.map fun l => l.pc.work).sum

end TcpServer
end HCServer.Tcp
