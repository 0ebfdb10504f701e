import HCServer.Lib.Transition
import HCServer.Lib.Ownership

/-! `HttpConnectionPool`: `getConnection` and `ReleasePtr`, one action for each access to the list, the
counter or a connection. Connections are numbered as they are made; whether a socket is still connected
and what the clock shows is part of the action. `m_createTime` is never set. -/
namespace HCServer.Pool
open Lib

structure HttpConnection where
  createTime : Nat := 0
  request : Nat := 0
  deriving DecidableEq, Repr

def HttpConnection.use (c : HttpConnection) : HttpConnection := { c with request := c.request + 1 }

structure HttpConnectionPool where
  maxSize : Nat
  maxAliveTime : Nat
  maxRequest : Nat
  conns : List Nat := []
  total : BitVec 32 := 0
  deriving DecidableEq, Repr

/-- The loop of `getConnection`: `invalid_conns`, the connection it ends with, and what stays in the
list. -/
def takeLoop (maxAliveTime now_ms : Nat) (heap : Nat → HttpConnection) (connected : Nat → Bool) :
    List Nat → List Nat × Option Nat × List Nat
  | [] => ([], none, [])
  | conn :: conns =>
      if !connected conn || decide ((heap conn).createTime + maxAliveTime > now_ms) then
        let r := takeLoop maxAliveTime now_ms heap connected conns
        (conn :: r.1, r.2)
      else ([], some conn, conns)

theorem takeLoop_split (maxAliveTime now_ms : Nat) (heap : Nat → HttpConnection)
    (connected : Nat → Bool) (conns : List Nat) :
    (takeLoop maxAliveTime now_ms heap connected conns).1 ++
      ((takeLoop maxAliveTime now_ms heap connected conns).2.1.toList ++
        (takeLoop maxAliveTime now_ms heap connected conns).2.2) = conns := by
  induction conns with
  | nil => rfl
  | cons conn conns ih =>
      rw [takeLoop]
      split
      · exact congrArg (conn :: ·) ih
      · rfl

/-- The test of `ReleasePtr`. -/
def expired (maxAliveTime maxRequest now : Nat) (connected : Bool) (c : HttpConnection) : Bool :=
  !connected || (decide (c.createTime + maxAliveTime ≥ now) || decide (c.request ≥ maxRequest))

/-- Where a thread is in `getConnection` or `ReleasePtr`. `taken` has the rest of `invalid_conns` and
its size. -/
inductive Pc
  | outside
  | entered (now_ms : Nat)
  | taken (invalid : List Nat) (size : Nat) (ptr : Option Nat)
  | empty
  | made (ptr : Nat)
  | found (ptr : Nat)
  | released (ptr : Nat)
  | discarding (ptr : Nat)
  | discarded
  | keeping (ptr : Nat)
  deriving DecidableEq, Repr

/-- The connections that the thread alone has a pointer to. -/
def Pc.owns : Pc → List Nat
  | .taken invalid _ ptr => invalid ++ ptr.toList
  | .made ptr | .found ptr | .released ptr | .discarding ptr | .keeping ptr => [ptr]
  | _ => []

/-- How many connections `m_total` counts for what the thread is at. -/
def Pc.counted : Pc → Nat
  | .taken _ size ptr => size + ptr.toList.length
  | .found _ | .released _ | .discarding _ | .discarded | .keeping _ => 1
  | _ => 0

/-- What becomes of a connection, with its age and its use. `reused` is one of the list that a caller
gets. -/
inductive Event
  | reused (created now_ms : Nat)
  | dropped (connected : Bool) (created now request : Nat)
  deriving DecidableEq, Repr

/-- `held` are the connections that callers have. `created` is the clock when a connection was made,
`handed` counts how often callers got it, and `dangling` is set when a deleted one is used. -/
structure Clients (θ : Type) where
  pool : HttpConnectionPool
  heap : Nat → Option HttpConnection
  size : Nat
  pc : θ → Pc
  held : List Nat
  dangling : Bool
  created : Nat → Nat
  handed : Nat → Nat
  log : List Event

inductive Action (θ : Type)
  | getConnection (t : θ) (now_ms : Nat)
  | take (t : θ) (connected : Nat → Bool)
  | delete (t : θ)
  | subtract (t : θ)
  | fail (t : θ)
  | create (t : θ) (now : Nat)
  | count (t : θ)
  | hand (t : θ)
  | use (ptr : Nat)
  | releasePtr (t : θ) (ptr : Nat)
  | judge (t : θ) (connected : Bool) (now : Nat)
  | discard (t : θ)
  | uncount (t : θ)
  | push (t : θ)

namespace Clients
variable {θ : Type} [DecidableEq θ]

def new (maxSize maxAliveTime maxRequest : Nat) : Clients θ where
  pool := { maxSize, maxAliveTime, maxRequest }
  heap := fun _ => none
  size := 0
  pc := fun _ => .outside
  held := []
  dangling := false
  created := fun _ => 0
  handed := fun _ => 0
  log := []

def goto (s : Clients θ) (t : θ) (p : Pc) : Clients θ := { s with pc := Function.update s.pc t p }

def conn (s : Clients θ) (ptr : Nat) : HttpConnection := (s.heap ptr).getD {}

/-- The pointers are followed. -/
def touch (s : Clients θ) (ptrs : List Nat) : Clients θ :=
  { s with dangling := s.dangling || ptrs.any fun ptr => (s.heap ptr).isNone }

/-- `delete ptr` -/
def free (s : Clients θ) (ptr : Nat) : Clients θ :=
  { s.touch [ptr] with heap := Function.update s.heap ptr none }

def dropped (s : Clients θ) (connected : Bool) (now ptr : Nat) : Event :=
  .dropped connected (s.created ptr) now (s.conn ptr).request

/-- `getConnection` under the lock. -/
def take (s : Clients θ) (t : θ) (now_ms : Nat) (connected : Nat → Bool) : Clients θ :=
  let r := takeLoop s.pool.maxAliveTime now_ms s.conn connected s.pool.conns
  { (s.touch (r.1 ++ r.2.1.toList)).goto t (.taken r.1 r.1.length r.2.1) with
    pool := { s.pool with conns := r.2.2 }
    log := s.log ++ (r.1.map fun ptr => s.dropped (connected ptr) now_ms ptr) ++
      r.2.1.toList.map fun ptr => .reused (s.created ptr) now_ms }

def step (s : Clients θ) : Action θ → Option (Clients θ)
  | .getConnection t now_ms => if s.pc t = .outside then some (s.goto t (.entered now_ms)) else none
  | .take t connected =>
      match s.pc t with
      | .entered now_ms => some (s.take t now_ms connected)
      | _ => none
  | .delete t =>
      match s.pc t with
      | .taken (ptr :: invalid) size found => some ((s.free ptr).goto t (.taken invalid size found))
      | _ => none
  | .subtract t =>
      match s.pc t with
      | .taken [] size found =>
          some ({ s with pool := { s.pool with total := s.pool.total - BitVec.ofNat 32 size } }.goto t
            (found.elim .empty .found))
      | _ => none
  | .fail t => if s.pc t = .empty then some (s.goto t .outside) else none
  | .create t now =>
      if s.pc t = .empty then
        some ({ s with
          heap := Function.update s.heap s.size (some {})
          size := s.size + 1
          created := Function.update s.created s.size now }.goto t (.made s.size))
      else none
  | .count t =>
      match s.pc t with
      | .made ptr =>
          some ({ s with pool := { s.pool with total := s.pool.total + 1 } }.goto t (.found ptr))
      | _ => none
  | .hand t =>
      match s.pc t with
      | .found ptr =>
          some ({ s with
            held := ptr :: s.held
            handed := Function.update s.handed ptr (s.handed ptr + 1) }.goto t .outside)
      | _ => none
  | .use ptr => if ptr ∈ s.held then some (s.touch [ptr]) else none
  | .releasePtr t ptr =>
      if s.pc t = .outside ∧ ptr ∈ s.held then
        some ({ s.touch [ptr] with
          heap := Function.update s.heap ptr ((s.heap ptr).map HttpConnection.use)
          held := s.held.erase ptr }.goto t (.released ptr))
      else none
  | .judge t connected now =>
      match s.pc t with
      | .released ptr =>
          if expired s.pool.maxAliveTime s.pool.maxRequest now connected (s.conn ptr) then
            some ({ s.touch [ptr] with
              log := s.log ++ [s.dropped connected now ptr] }.goto t (.discarding ptr))
          else some ((s.touch [ptr]).goto t (.keeping ptr))
      | _ => none
  | .discard t =>
      match s.pc t with
      | .discarding ptr => some ((s.free ptr).goto t .discarded)
      | _ => none
  | .uncount t =>
      match s.pc t with
      | .discarded =>
          some ({ s with pool := { s.pool with total := s.pool.total - 1 } }.goto t .outside)
      | _ => none
  | .push t =>
      match s.pc t with
      | .keeping ptr =>
          some ({ s with pool := { s.pool with conns := s.pool.conns ++ [ptr] } }.goto t .outside)
      | _ => none

/-- What one action can do. -/
inductive Rule (s : Clients θ) : Action θ → Clients θ → Prop
  | getConnection {t now_ms} (hpc : s.pc t = .outside) :
      Rule s (.getConnection t now_ms) (s.goto t (.entered now_ms))
  | take {t connected now_ms} (hpc : s.pc t = .entered now_ms) :
      Rule s (.take t connected) (s.take t now_ms connected)
  | delete {t ptr invalid size found} (hpc : s.pc t = .taken (ptr :: invalid) size found) :
      Rule s (.delete t) ((s.free ptr).goto t (.taken invalid size found))
  | subtract {t size found} (hpc : s.pc t = .taken [] size found) :
      Rule s (.subtract t)
        ({ s with pool := { s.pool with total := s.pool.total - BitVec.ofNat 32 size } }.goto t
          (found.elim .empty .found))
  | fail {t} (hpc : s.pc t = .empty) : Rule s (.fail t) (s.goto t .outside)
  | create {t now} (hpc : s.pc t = .empty) :
      Rule s (.create t now) ({ s with
        heap := Function.update s.heap s.size (some {})
        size := s.size + 1
        created := Function.update s.created s.size now }.goto t (.made s.size))
  | count {t ptr} (hpc : s.pc t = .made ptr) :
      Rule s (.count t)
        ({ s with pool := { s.pool with total := s.pool.total + 1 } }.goto t (.found ptr))
  | hand {t ptr} (hpc : s.pc t = .found ptr) :
      Rule s (.hand t) ({ s with
        held := ptr :: s.held
        handed := Function.update s.handed ptr (s.handed ptr + 1) }.goto t .outside)
  | use {ptr} (hheld : ptr ∈ s.held) : Rule s (.use ptr) (s.touch [ptr])
  | releasePtr {t ptr} (hpc : s.pc t = .outside) (hheld : ptr ∈ s.held) :
      Rule s (.releasePtr t ptr) ({ s.touch [ptr] with
        heap := Function.update s.heap ptr ((s.heap ptr).map HttpConnection.use)
        held := s.held.erase ptr }.goto t (.released ptr))
  | drop {t connected now ptr} (hpc : s.pc t = .released ptr)
      (hexpired : expired s.pool.maxAliveTime s.pool.maxRequest now connected (s.conn ptr) = true) :
      Rule s (.judge t connected now) ({ s.touch [ptr] with
        log := s.log ++ [s.dropped connected now ptr] }.goto t (.discarding ptr))
  | keep {t connected now ptr} (hpc : s.pc t = .released ptr)
      (hexpired : expired s.pool.maxAliveTime s.pool.maxRequest now connected (s.conn ptr) = false) :
      Rule s (.judge t connected now) ((s.touch [ptr]).goto t (.keeping ptr))
  | discard {t ptr} (hpc : s.pc t = .discarding ptr) :
      Rule s (.discard t) ((s.free ptr).goto t .discarded)
  | uncount {t} (hpc : s.pc t = .discarded) :
      Rule s (.uncount t)
        ({ s with pool := { s.pool with total := s.pool.total - 1 } }.goto t .outside)
  | push {t ptr} (hpc : s.pc t = .keeping ptr) :
      Rule s (.push t)
        ({ s with pool := { s.pool with conns := s.pool.conns ++ [ptr] } }.goto t .outside)

theorem step_rule {s s' : Clients θ} {a : Action θ} (hs : s.step a = some s') : Rule s a s' := by
  cases a with
  | getConnection t now_ms =>
      simp only [step, Option.ite_none_right_eq_some] at hs
      obtain ⟨hpc, hs⟩ := hs
      cases hs
      exact .getConnection hpc
  | take t connected =>
      simp only [step] at hs
      split at hs
      case h_1 now_ms hpc =>
        cases hs
        exact .take hpc
      case h_2 => cases hs
  | delete t =>
      simp only [step] at hs
      split at hs
      case h_1 ptr invalid size found hpc =>
        cases hs
        exact .delete hpc
      case h_2 => cases hs
  | subtract t =>
      simp only [step] at hs
      split at hs
      case h_1 size found hpc =>
        cases hs
        exact .subtract hpc
      case h_2 => cases hs
  | fail t =>
      simp only [step, Option.ite_none_right_eq_some] at hs
      obtain ⟨hpc, hs⟩ := hs
      cases hs
      exact .fail hpc
  | create t now =>
      simp only [step, Option.ite_none_right_eq_some] at hs
      obtain ⟨hpc, hs⟩ := hs
      cases hs
      exact .create hpc
  | count t =>
      simp only [step] at hs
      split at hs
      case h_1 ptr hpc =>
        cases hs
        exact .count hpc
      case h_2 => cases hs
  | hand t =>
      simp only [step] at hs
      split at hs
      case h_1 ptr hpc =>
        cases hs
        exact .hand hpc
      case h_2 => cases hs
  | use ptr =>
      simp only [step, Option.ite_none_right_eq_some] at hs
      obtain ⟨hheld, hs⟩ := hs
      cases hs
      exact .use hheld
  | releasePtr t ptr =>
      simp only [step, Option.ite_none_right_eq_some] at hs
      obtain ⟨⟨hpc, hheld⟩, hs⟩ := hs
      cases hs
      exact .releasePtr hpc hheld
  | judge t connected now =>
      simp only [step] at hs
      split at hs
      case h_1 ptr hpc =>
        split at hs
        case isTrue hexpired =>
          cases hs
          exact .drop hpc hexpired
        case isFalse hexpired =>
          cases hs
          exact .keep hpc (eq_false_of_ne_true hexpired)
      case h_2 => cases hs
  | discard t =>
      simp only [step] at hs
      split at hs
      case h_1 ptr hpc =>
        cases hs
        exact .discard hpc
      case h_2 => cases hs
  | uncount t =>
      simp only [step] at hs
      split at hs
      case h_1 hpc =>
        cases hs
        exact .uncount hpc
      case h_2 => cases hs
  | push t =>
      simp only [step] at hs
      split at hs
      case h_1 ptr hpc =>
        cases hs
        exact .push hpc
      case h_2 => cases hs

/-- Each connection is in one place, none is used after its deletion or handed out too often, and
between the calls `m_total` counts them. -/
structure Accounted (s : Clients θ) : Prop where
  stored : s.pool.conns.Nodup
  held : s.held.Nodup
  apart : s.pool.conns.Disjoint s.held
  alive : s.dangling = false
  uses : ∀ ptr, s.handed ptr ≤ max 1 s.pool.maxRequest
  total : (∀ t, s.pc t = .outside) →
    s.pool.total = BitVec.ofNat 32 (s.pool.conns.length + s.held.length)

end Clients

namespace Clients
variable {θ : Type}

/-- What is in the list and what the callers have. -/
def store (s : Clients θ) : List Nat := s.pool.conns ++ s.held

variable [Fintype θ]

/-- All the connections that someone can still reach. -/
def owned (s : Clients θ) : Multiset Nat := estate (fun p => (p.owns : Multiset Nat)) s.store s.pc

structure Owned (s : Clients θ) : Prop where
  distinct : s.owned.Nodup
  alive : ∀ ptr, ptr ∈ s.owned ↔ (s.heap ptr).isSome
  made : ∀ ptr, (s.heap ptr).isSome → ptr < s.size
  sound : s.dangling = false

variable {s s' : Clients θ} {a : Action θ} {t : θ} {p : Pc} {ptr : Nat}

theorem mem_owned_of_owns (h : ptr ∈ (s.pc t).owns) : ptr ∈ s.owned :=
  mem_estate.mpr (Or.inr ⟨t, Multiset.mem_coe.mpr h⟩)

theorem mem_owned_of_conns (h : ptr ∈ s.pool.conns) : ptr ∈ s.owned :=
  mem_estate.mpr (Or.inl (List.mem_append_left s.held h))

theorem mem_owned_of_held (h : ptr ∈ s.held) : ptr ∈ s.owned :=
  mem_estate.mpr (Or.inl (List.mem_append_right s.pool.conns h))

variable [DecidableEq θ]

theorem owned_move (hpc : s'.pc = Function.update s.pc t p)
    (h : (s.store ++ (s.pc t).owns).Perm (s'.store ++ p.owns)) : s'.owned = s.owned := by
  rw [owned, hpc]
  exact estate_move (Multiset.coe_eq_coe.mpr h)

theorem owned_gain (hpc : s'.pc = Function.update s.pc t p)
    (h : (ptr :: (s.store ++ (s.pc t).owns)).Perm (s'.store ++ p.owns)) :
    s'.owned = ptr ::ₘ s.owned := by
  rw [owned, hpc]
  exact estate_gain (Multiset.coe_eq_coe.mpr h)

theorem owned_lose (hpc : s'.pc = Function.update s.pc t p)
    (h : (s.store ++ (s.pc t).owns).Perm (ptr :: (s'.store ++ p.owns))) :
    s.owned = ptr ::ₘ s'.owned := by
  rw [owned, owned, hpc]
  exact estate_lose (Multiset.coe_eq_coe.mpr h)

theorem isSome_use (heap : Nat → Option HttpConnection) (ptr x : Nat) :
    (Function.update heap ptr ((heap ptr).map HttpConnection.use) x).isSome = (heap x).isSome := by
  rw [Function.update_apply]
  split
  case isTrue heq => rw [heq, Option.isSome_map]
  case isFalse => rfl

/-- The connections stay, or one is made, or one is deleted. -/
theorem owned_rule (h : Rule s a s') :
    (s'.owned = s.owned ∧ s'.size = s.size ∧ ∀ ptr, (s'.heap ptr).isSome = (s.heap ptr).isSome) ∨
    (s'.owned = s.size ::ₘ s.owned ∧ s'.size = s.size + 1 ∧
      ∃ c, s'.heap = Function.update s.heap s.size (some c)) ∨
    ∃ ptr, s.owned = ptr ::ₘ s'.owned ∧ s'.size = s.size ∧
      s'.heap = Function.update s.heap ptr none := by
  cases h with
  | getConnection hpc => exact Or.inl ⟨owned_move rfl (by rw [hpc]; rfl), rfl, fun _ => rfl⟩
  | @take t connected now_ms hpc =>
      refine Or.inl ⟨owned_move rfl ?_, rfl, fun _ => rfl⟩
      have hsplit := takeLoop_split s.pool.maxAliveTime now_ms s.conn connected s.pool.conns
      rw [hpc, store]
      conv_lhs => rw [← hsplit]
      simp only [List.perm_iff_count, Pc.owns, store, take, goto, touch, List.count_append,
        List.count_nil]
      omega
  | @delete t ptr invalid size found hpc =>
      refine Or.inr (Or.inr ⟨ptr, owned_lose rfl ?_, rfl, rfl⟩)
      rw [hpc]
      exact List.perm_middle
  | @subtract t size found hpc =>
      refine Or.inl ⟨owned_move rfl ?_, rfl, fun _ => rfl⟩
      rw [hpc]
      cases found <;> rfl
  | fail hpc => exact Or.inl ⟨owned_move rfl (by rw [hpc]; rfl), rfl, fun _ => rfl⟩
  | @create t now hpc =>
      refine Or.inr (Or.inl ⟨owned_gain rfl ?_, rfl, {}, rfl⟩)
      rw [hpc]
      exact List.perm_middle.symm
  | count hpc => exact Or.inl ⟨owned_move rfl (by rw [hpc]; rfl), rfl, fun _ => rfl⟩
  | @hand t ptr hpc =>
      refine Or.inl ⟨owned_move rfl ?_, rfl, fun _ => rfl⟩
      rw [hpc]
      simp only [List.perm_iff_count, Pc.owns, store, goto, List.count_append, List.count_cons,
        List.count_nil]
      omega
  | use hheld => exact Or.inl ⟨rfl, rfl, fun _ => rfl⟩
  | @releasePtr t ptr hpc hheld =>
      refine Or.inl ⟨owned_move rfl ?_, rfl, isSome_use s.heap ptr⟩
      rw [hpc]
      change (s.pool.conns ++ s.held ++ []).Perm (s.pool.conns ++ s.held.erase ptr ++ [ptr])
      rw [List.append_nil, List.append_assoc]
      exact ((List.perm_cons_erase hheld).trans (List.perm_append_singleton _ _).symm).append_left _
  | drop hpc hexpired => exact Or.inl ⟨owned_move rfl (by rw [hpc]; rfl), rfl, fun _ => rfl⟩
  | keep hpc hexpired => exact Or.inl ⟨owned_move rfl (by rw [hpc]; rfl), rfl, fun _ => rfl⟩
  | @discard t ptr hpc =>
      refine Or.inr (Or.inr ⟨ptr, owned_lose rfl ?_, rfl, rfl⟩)
      rw [hpc]
      exact List.perm_middle
  | uncount hpc => exact Or.inl ⟨owned_move rfl (by rw [hpc]; rfl), rfl, fun _ => rfl⟩
  | @push t ptr hpc =>
      refine Or.inl ⟨owned_move rfl ?_, rfl, fun _ => rfl⟩
      rw [hpc]
      simp only [List.perm_iff_count, Pc.owns, store, goto, List.count_append, List.count_cons,
        List.count_nil]
      omega

omit [DecidableEq θ] in
/-- Every pointer that is followed leads to a connection. -/
theorem Owned.touch (h : Owned s) {ptrs : List Nat} (hptrs : ∀ ptr ∈ ptrs, ptr ∈ s.owned) :
    (s.touch ptrs).dangling = false := by
  rw [Clients.touch, h.sound, Bool.false_or, List.any_eq_false]
  intro ptr hptr
  simp [Option.isSome_iff_ne_none.mp ((h.alive ptr).mp (hptrs ptr hptr))]

omit [DecidableEq θ] in
theorem Owned.touch_one (h : Owned s) (hptr : ptr ∈ s.owned) : (s.touch [ptr]).dangling = false :=
  h.touch fun _ hx => List.mem_singleton.mp hx ▸ hptr

theorem Owned.dangling (h : Owned s) (hrule : Rule s a s') : s'.dangling = false := by
  have howns {t : θ} {p : Pc} {ptr : Nat} (hpc : s.pc t = p) (hptr : ptr ∈ p.owns) :
      (s.touch [ptr]).dangling = false := h.touch_one (mem_owned_of_owns (hpc ▸ hptr))
  cases hrule with
  | @take t connected now_ms hpc =>
      refine h.touch ?_
      intro ptr hptr
      refine mem_owned_of_conns ?_
      rw [← takeLoop_split s.pool.maxAliveTime now_ms s.conn connected s.pool.conns,
        ← List.append_assoc]
      exact List.mem_append_left _ hptr
  | use hheld => exact h.touch_one (mem_owned_of_held hheld)
  | releasePtr hpc hheld => exact h.touch_one (mem_owned_of_held hheld)
  | delete hpc => exact howns hpc List.mem_cons_self
  | drop hpc hexpired => exact howns hpc List.mem_cons_self
  | keep hpc hexpired => exact howns hpc List.mem_cons_self
  | discard hpc => exact howns hpc List.mem_cons_self
  | _ => exact h.sound

theorem Owned.rule (h : Owned s) (hrule : Rule s a s') : Owned s' := by
  have hsound := h.dangling hrule
  rcases owned_rule hrule with ⟨howned, hsize, hheap⟩ | ⟨howned, hsize, c, hheap⟩ |
    ⟨ptr, howned, hsize, hheap⟩
  · refine ⟨howned ▸ h.distinct, ?_, ?_, hsound⟩
    · intro ptr
      rw [howned, hheap]
      exact h.alive ptr
    · intro ptr hptr
      rw [hsize]
      exact h.made ptr (hheap ptr ▸ hptr)
  · have hfresh : s.size ∉ s.owned :=
      fun hin => absurd (h.made _ ((h.alive _).mp hin)) (Nat.lt_irrefl _)
    refine ⟨howned ▸ Multiset.nodup_cons.mpr ⟨hfresh, h.distinct⟩, ?_, ?_, hsound⟩
    · intro ptr
      rw [howned, hheap, Multiset.mem_cons, h.alive, Function.update_apply]
      split
      case isTrue heq => simp [heq]
      case isFalse hne => simp [hne]
    · intro ptr hptr
      rw [hheap, Function.update_apply] at hptr
      rw [hsize]
      split at hptr
      case isTrue heq => exact heq ▸ Nat.lt_succ_self _
      case isFalse => exact Nat.lt_succ_of_lt (h.made ptr hptr)
  · have hdistinct := h.distinct
    rw [howned, Multiset.nodup_cons] at hdistinct
    refine ⟨hdistinct.2, ?_, ?_, hsound⟩
    · intro x
      have halive := h.alive x
      rw [howned, Multiset.mem_cons] at halive
      rw [hheap, Function.update_apply]
      split
      case isTrue heq =>
        subst heq
        simp [hdistinct.1]
      case isFalse hne =>
        rw [← halive]
        simp [hne]
    · intro x hx
      rw [hheap, Function.update_apply] at hx
      rw [hsize]
      split at hx
      · cases hx
      · exact h.made x hx

/-- `m_total` counts what is stored, what callers have and what the calls in progress are at. -/
def Balanced (s : Clients θ) : Prop :=
  s.pool.total = BitVec.ofNat 32 (s.store.length + ∑ t, (s.pc t).counted)

theorem Balanced.move (h : Balanced s) (up down : Nat) (hpc : s'.pc = Function.update s.pc t p)
    (hcount : s'.store.length + p.counted + down = s.store.length + (s.pc t).counted + up)
    (htotal : s'.pool.total + BitVec.ofNat 32 down = s.pool.total + BitVec.ofNat 32 up) :
    Balanced s' := by
  have hsum := sum_update Pc.counted s.pc t p
  rw [← hpc] at hsum
  have hnat : s'.store.length + ∑ u, (s'.pc u).counted + down =
      s.store.length + ∑ u, (s.pc u).counted + up := by omega
  have hwords := congrArg (BitVec.ofNat 32) hnat
  rw [BitVec.ofNat_add, BitVec.ofNat_add _ up, ← h, ← htotal] at hwords
  exact (BitVec.add_left_inj _).mp hwords.symm

theorem Balanced.rule (h : Balanced s) (hrule : Rule s a s') : Balanced s' := by
  cases hrule with
  | use hheld => exact h
  | @take t connected now_ms hpc =>
      refine h.move 0 0 rfl ?_ rfl
      have hsplit := congrArg List.length
        (takeLoop_split s.pool.maxAliveTime now_ms s.conn connected s.pool.conns)
      rw [List.length_append, List.length_append] at hsplit
      simp only [store, take, goto, touch, hpc, Pc.counted, List.length_append]
      omega
  | @subtract t size found hpc =>
      refine h.move 0 size rfl ?_ ?_
      · rw [hpc]
        cases found with
        | none => rfl
        | some ptr => exact Nat.add_right_comm _ 1 size
      · exact (BitVec.sub_add_cancel _ _).trans (BitVec.add_zero _).symm
  | count hpc => exact h.move 1 0 rfl (by rw [hpc]; rfl) (BitVec.add_zero _)
  | hand hpc =>
      refine h.move 0 0 rfl ?_ rfl
      simp only [hpc, Pc.counted, store, goto, List.length_append, List.length_cons]
      omega
  | @releasePtr t ptr hpc hheld =>
      refine h.move 0 0 rfl ?_ rfl
      have hlength := List.length_erase_of_mem hheld
      have hpos := List.length_pos_of_mem hheld
      simp only [hpc, Pc.counted, store, goto, touch, List.length_append]
      omega
  | uncount hpc =>
      refine h.move 0 1 rfl (by rw [hpc]; rfl) ?_
      exact (BitVec.sub_add_cancel _ _).trans (BitVec.add_zero _).symm
  | push hpc =>
      refine h.move 0 0 rfl ?_ rfl
      simp only [hpc, Pc.counted, store, goto, List.length_append, List.length_singleton]
      omega
  | _ hpc => exact h.move 0 0 rfl (by rw [hpc]; rfl) rfl

/-- What is known of the connection that a thread is to hand out, to judge or to put back. -/
def Fits (s : Clients θ) : Pc → Prop
  | .taken _ _ (some ptr) | .keeping ptr =>
      (s.conn ptr).request = s.handed ptr ∧ s.handed ptr < s.pool.maxRequest
  | .made ptr | .found ptr =>
      (s.conn ptr).request = s.handed ptr ∧ s.handed ptr < max 1 s.pool.maxRequest
  | .released ptr => (s.conn ptr).request = s.handed ptr
  | _ => True

/-- A connection has been handed out once for each release, and once more while a caller has it. -/
structure Used (s : Clients θ) : Prop where
  createTime : ∀ ptr, (s.conn ptr).createTime = 0
  fresh : ∀ ptr, s.size ≤ ptr → s.handed ptr = 0
  bounded : ∀ ptr, s.handed ptr ≤ max 1 s.pool.maxRequest
  stored : ∀ ptr ∈ s.pool.conns, (s.conn ptr).request = s.handed ptr ∧
    s.handed ptr < s.pool.maxRequest
  held : ∀ ptr ∈ s.held, (s.conn ptr).request + 1 = s.handed ptr
  calls : ∀ t, s.Fits (s.pc t)

/-- The record of no connection but `x` has changed. -/
structure Same (s s' : Clients θ) (x : Nat) : Prop where
  pool : s'.pool.maxRequest = s.pool.maxRequest
  conn : ∀ ptr, ptr ≠ x → s'.conn ptr = s.conn ptr
  handed : ∀ ptr, ptr ≠ x → s'.handed ptr = s.handed ptr

omit [Fintype θ] [DecidableEq θ] in
theorem Fits.congr {x : Nat} (h : s.Fits p) (hsame : Same s s' x) (hx : x ∉ p.owns) :
    s'.Fits p := by
  have hrecord {ptr : Nat} (hptr : ptr ∈ p.owns) : ptr ≠ x := by
    rintro rfl
    exact hx hptr
  cases p with
  | taken invalid size found =>
      cases found with
      | none => trivial
      | some ptr =>
          have hne : ptr ≠ x := hrecord (by simp [Pc.owns])
          simpa only [Fits, hsame.conn ptr hne, hsame.handed ptr hne, hsame.pool] using h
  | made ptr | found ptr | keeping ptr | released ptr =>
      have hne : ptr ≠ x := hrecord List.mem_cons_self
      simpa only [Fits, hsame.conn ptr hne, hsame.handed ptr hne, hsame.pool] using h
  | _ => trivial

omit [DecidableEq θ] in
theorem Owned.apart (h : Owned s) (hptr : ptr ∈ (s.pc t).owns) :
    ptr ∉ s.pool.conns ∧ ptr ∉ s.held ∧ ∀ u, ptr ∈ (s.pc u).owns → u = t := by
  obtain ⟨hstore, hothers⟩ := estate_apart h.distinct (Multiset.mem_coe.mpr hptr)
  exact ⟨fun hin => hstore (List.mem_append_left _ hin),
    fun hin => hstore (List.mem_append_right _ hin), hothers⟩

omit [DecidableEq θ] in
theorem Owned.store_nodup (h : Owned s) : s.store.Nodup :=
  Multiset.coe_nodup.mp (Multiset.nodup_add.mp h.distinct).1

omit [Fintype θ] in
/-- Only `x`, which no other thread has, changes its record, and the thread moves on to `p`. -/
theorem Used.calls_update {x : Nat} (h : Used s) (hpc : s'.pc = Function.update s.pc t p)
    (hsame : Same s s' x) (hx : ∀ u, x ∈ (s.pc u).owns → u = t) (hp : s'.Fits p) :
    ∀ u, s'.Fits (s'.pc u) := by
  intro u
  rw [hpc, Function.update_apply]
  split
  case isTrue => exact hp
  case isFalse hne => exact (h.calls u).congr hsame fun hin => hne (hx u hin)

omit [Fintype θ] in
/-- No record changes. -/
theorem Used.move (h : Used s) (hpc : s'.pc = Function.update s.pc t p)
    (hpool : s'.pool.maxRequest = s.pool.maxRequest) (hheap : s'.heap = s.heap)
    (hhanded : s'.handed = s.handed) (hsize : s'.size = s.size) (hheld : s'.held = s.held)
    (hconns : ∀ ptr ∈ s'.pool.conns, ptr ∈ s.pool.conns ∨
      (s.conn ptr).request = s.handed ptr ∧ s.handed ptr < s.pool.maxRequest)
    (hp : s.Fits p) : Used s' := by
  have hconn : s'.conn = s.conn := by
    funext ptr
    rw [conn, conn, hheap]
  have hfits (q : Pc) (hq : s.Fits q) : s'.Fits q := by
    unfold Fits at hq ⊢
    rw [hconn, hhanded, hpool]
    exact hq
  refine ⟨?_, ?_, ?_, ?_, ?_, ?_⟩
  · rw [hconn]
    exact h.createTime
  · rw [hhanded, hsize]
    exact h.fresh
  · rw [hhanded, hpool]
    exact h.bounded
  · rw [hconn, hhanded, hpool]
    intro ptr hptr
    rcases hconns ptr hptr with hold | hnew
    · exact h.stored ptr hold
    · exact hnew
  · rw [hconn, hhanded, hheld]
    exact h.held
  · intro u
    rw [hpc, Function.update_apply]
    split
    · exact hfits p hp
    · exact hfits _ (h.calls u)

omit [Fintype θ] in
theorem Used.change {x : Nat} (h : Used s) (hpc : s'.pc = Function.update s.pc t p)
    (hsame : Same s s' x) (hx : ∀ u, x ∈ (s.pc u).owns → u = t)
    (hcreate : (s'.conn x).createTime = 0) (hsize : s.size ≤ s'.size)
    (hfresh : s'.size ≤ x → s'.handed x = 0) (hbounded : s'.handed x ≤ max 1 s.pool.maxRequest)
    (hconns : s'.pool.conns = s.pool.conns) (hstored : x ∉ s.pool.conns)
    (hheld : ∀ ptr ∈ s'.held, ptr ≠ x ∧ ptr ∈ s.held ∨
      ptr = x ∧ (s'.conn x).request + 1 = s'.handed x) (hp : s'.Fits p) : Used s' := by
  refine ⟨?_, ?_, ?_, ?_, ?_, h.calls_update hpc hsame hx hp⟩
  · intro ptr
    by_cases hptr : ptr = x
    · exact hptr ▸ hcreate
    · rw [hsame.conn ptr hptr]
      exact h.createTime ptr
  · intro ptr hle
    by_cases hptr : ptr = x
    · subst hptr
      exact hfresh hle
    · rw [hsame.handed ptr hptr]
      exact h.fresh ptr (hsize.trans hle)
  · intro ptr
    rw [hsame.pool]
    by_cases hptr : ptr = x
    · exact hptr ▸ hbounded
    · rw [hsame.handed ptr hptr]
      exact h.bounded ptr
  · intro ptr hptr
    rw [hconns] at hptr
    have hne : ptr ≠ x := by
      rintro rfl
      exact hstored hptr
    rw [hsame.conn ptr hne, hsame.handed ptr hne, hsame.pool]
    exact h.stored ptr hptr
  · intro ptr hptr
    rcases hheld ptr hptr with ⟨hne, hold⟩ | ⟨rfl, hnew⟩
    · rw [hsame.conn ptr hne, hsame.handed ptr hne]
      exact h.held ptr hold
    · exact hnew

theorem Used.free (h : Used s) (ho : Owned s) (hptr : ptr ∈ (s.pc t).owns)
    (hp : ((s.free ptr).goto t p).Fits p) : Used ((s.free ptr).goto t p) := by
  obtain ⟨hstored, hheld, halone⟩ := ho.apart hptr
  refine h.change rfl ⟨rfl, ?_, fun _ _ => rfl⟩ halone ?_ le_rfl (fun hle => h.fresh ptr hle)
    (h.bounded ptr) rfl hstored ?_ hp
  · intro x hx
    simp only [conn, Clients.free, goto, Function.update_of_ne hx]
  · simp only [conn, Clients.free, goto, Function.update_self]
    rfl
  · intro x hx
    refine Or.inl ⟨?_, hx⟩
    rintro rfl
    exact hheld hx

theorem Used.rule (h : Used s) (ho : Owned s) (hrule : Rule s a s') : Used s' := by
  cases hrule with
  | getConnection hpc => exact h.move rfl rfl rfl rfl rfl rfl (fun _ hptr => Or.inl hptr) trivial
  | @take t connected now_ms hpc =>
      have hsplit := takeLoop_split s.pool.maxAliveTime now_ms s.conn connected s.pool.conns
      have hrest {ptr : Nat} (hptr : ptr ∈
          (takeLoop s.pool.maxAliveTime now_ms s.conn connected s.pool.conns).2.1.toList ++
          (takeLoop s.pool.maxAliveTime now_ms s.conn connected s.pool.conns).2.2) :
          ptr ∈ s.pool.conns := hsplit ▸ List.mem_append_right _ hptr
      refine h.move rfl rfl rfl rfl rfl rfl ?_ ?_
      · exact fun ptr hptr => Or.inl (hrest (List.mem_append_right _ hptr))
      · cases hfound : (takeLoop s.pool.maxAliveTime now_ms s.conn connected s.pool.conns).2.1 with
        | none => trivial
        | some ptr => exact h.stored ptr (hrest (by simp [hfound]))
  | @subtract t size found hpc =>
      have hfits := h.calls t
      rw [hpc] at hfits
      refine h.move rfl rfl rfl rfl rfl rfl (fun _ hptr => Or.inl hptr) ?_
      cases found with
      | none => trivial
      | some ptr => exact ⟨hfits.1, hfits.2.trans_le (Nat.le_max_right _ _)⟩
  | fail hpc => exact h.move rfl rfl rfl rfl rfl rfl (fun _ hptr => Or.inl hptr) trivial
  | @count t ptr hpc =>
      have hfits := h.calls t
      rw [hpc] at hfits
      exact h.move rfl rfl rfl rfl rfl rfl (fun _ hptr => Or.inl hptr) hfits
  | use hheld => exact ⟨h.createTime, h.fresh, h.bounded, h.stored, h.held, h.calls⟩
  | drop hpc hexpired =>
      exact h.move rfl rfl rfl rfl rfl rfl (fun _ hptr => Or.inl hptr) trivial
  | @keep t connected now ptr hpc hexpired =>
      have hfits := h.calls t
      rw [hpc] at hfits
      refine h.move rfl rfl rfl rfl rfl rfl (fun _ hptr => Or.inl hptr) ⟨hfits, ?_⟩
      simp only [expired, Bool.or_eq_false_iff, decide_eq_false_iff_not, not_le] at hexpired
      exact hfits ▸ hexpired.2.2
  | uncount hpc => exact h.move rfl rfl rfl rfl rfl rfl (fun _ hptr => Or.inl hptr) trivial
  | @push t ptr hpc =>
      have hfits := h.calls t
      rw [hpc] at hfits
      refine h.move rfl rfl rfl rfl rfl rfl ?_ trivial
      intro x hx
      rcases List.mem_append.mp hx with hold | hnew
      · exact Or.inl hold
      · exact Or.inr (List.mem_singleton.mp hnew ▸ hfits)
  | @delete t ptr invalid size found hpc =>
      have hptr : ptr ∈ (s.pc t).owns := hpc ▸ List.mem_cons_self
      refine h.free ho hptr ?_
      cases found with
      | none => trivial
      | some y =>
          have hfits := h.calls t
          rw [hpc] at hfits
          have hnodup := Multiset.coe_nodup.mp (estate_party ho.distinct t)
          rw [hpc] at hnodup
          have hne : y ≠ ptr := by
            rintro rfl
            exact (List.nodup_cons.mp hnodup).1 (by simp)
          simpa [Fits, conn, Clients.free, touch, goto, Function.update_of_ne hne] using hfits
  | @create t now hpc =>
      have hnobody {q : Pc} (u : θ) (hu : s.pc u = q) : s.size ∉ q.owns := by
        intro hin
        have halive := (ho.alive _).mp (mem_owned_of_owns (hu ▸ hin))
        exact absurd (ho.made _ halive) (Nat.lt_irrefl _)
      have hgone {x : Nat} (hx : x ∈ s.owned) : x ≠ s.size := by
        rintro rfl
        exact absurd (ho.made _ ((ho.alive _).mp hx)) (Nat.lt_irrefl _)
      have hzero := h.fresh s.size le_rfl
      refine h.change (x := s.size) rfl ⟨rfl, ?_, fun _ _ => rfl⟩
        (fun u hu => absurd hu (hnobody u rfl)) ?_ (Nat.le_succ _)
        (fun hle => absurd hle (Nat.not_succ_le_self _)) ?_ rfl ?_ ?_ ⟨?_, ?_⟩
      · intro x hx
        simp only [conn, goto, Function.update_of_ne hx]
      · simp only [conn, goto, Function.update_self]
        rfl
      · exact h.bounded s.size
      · exact fun hin => absurd rfl (hgone (mem_owned_of_conns hin))
      · exact fun x hx => Or.inl ⟨hgone (mem_owned_of_held hx), hx⟩
      · simp only [conn, goto, Function.update_self, hzero]
        rfl
      · change s.handed s.size < max 1 s.pool.maxRequest
        rw [hzero]
        exact lt_max_of_lt_left Nat.one_pos
  | @hand t ptr hpc =>
      have hfits := h.calls t
      rw [hpc] at hfits
      have hptr : ptr ∈ (s.pc t).owns := hpc ▸ List.mem_cons_self
      obtain ⟨hstored, hheld, halone⟩ := ho.apart hptr
      have hmade := ho.made _ ((ho.alive _).mp (mem_owned_of_owns hptr))
      refine h.change (x := ptr) rfl ⟨rfl, fun _ _ => rfl, ?_⟩ halone (h.createTime ptr) le_rfl
        (fun hle => absurd hle (Nat.not_le.mpr hmade)) ?_ rfl hstored ?_ trivial
      · exact fun x hx => Function.update_of_ne hx _ _
      · change Function.update s.handed ptr (s.handed ptr + 1) ptr ≤ max 1 s.pool.maxRequest
        rw [Function.update_self]
        exact hfits.2
      · intro x hx
        rcases List.mem_cons.mp hx with rfl | hold
        · refine Or.inr ⟨rfl, ?_⟩
          change (s.conn x).request + 1 = Function.update s.handed x (s.handed x + 1) x
          rw [Function.update_self, hfits.1]
        · refine Or.inl ⟨?_, hold⟩
          rintro rfl
          exact hheld hold
  | @releasePtr t ptr hpc hheld =>
      obtain ⟨c, hc⟩ := Option.isSome_iff_exists.mp ((ho.alive ptr).mp (mem_owned_of_held hheld))
      have hcount := h.held ptr hheld
      obtain ⟨-, hnodup, hdisjoint⟩ := List.nodup_append'.mp ho.store_nodup
      have hconn : Clients.conn ({ s.touch [ptr] with
          heap := Function.update s.heap ptr ((s.heap ptr).map HttpConnection.use)
          held := s.held.erase ptr }.goto t (.released ptr)) ptr = c.use := by
        simp only [conn, goto, Function.update_self, hc]
        rfl
      have hold : s.conn ptr = c := by
        rw [conn, hc]
        rfl
      refine h.change (x := ptr) rfl ⟨rfl, ?_, fun _ _ => rfl⟩ ?_ ?_ le_rfl
        (fun hle => h.fresh ptr hle) (h.bounded ptr) rfl (fun hin => hdisjoint hin hheld) ?_ ?_
      · intro x hx
        simp only [conn, goto, Function.update_of_ne hx]
      · intro u hu
        exact absurd hheld (ho.apart hu).2.1
      · rw [hconn]
        exact hold ▸ h.createTime ptr
      · intro x hx
        refine Or.inl ⟨?_, List.mem_of_mem_erase hx⟩
        rintro rfl
        exact absurd hx hnodup.not_mem_erase
      · change (Clients.conn _ ptr).request = s.handed ptr
        rw [hconn, ← hcount, hold]
        rfl
  | @discard t ptr hpc =>
      have hptr : ptr ∈ (s.pc t).owns := hpc ▸ List.mem_cons_self
      exact h.free ho hptr trivial

structure Inv (s : Clients θ) : Prop where
  owned : Owned s
  balanced : Balanced s
  used : Used s

theorem Inv.rule (h : Inv s) (hrule : Rule s a s') : Inv s' :=
  ⟨h.owned.rule hrule, h.balanced.rule hrule, h.used.rule h.owned hrule⟩

omit [DecidableEq θ] in
theorem Inv.accounted (h : Inv s) : Accounted s := by
  obtain ⟨hstored, hheld, hdisjoint⟩ := List.nodup_append'.mp h.owned.store_nodup
  refine ⟨hstored, hheld, hdisjoint, h.owned.sound, h.used.bounded, ?_⟩
  intro hidle
  have htotal : s.pool.total = _ := h.balanced
  simpa [store, hidle, Pc.counted] using htotal

omit [DecidableEq θ] in
theorem new_inv (maxSize maxAliveTime maxRequest : Nat) :
    Inv (new maxSize maxAliveTime maxRequest : Clients θ) := by
  have hempty : (new maxSize maxAliveTime maxRequest : Clients θ).owned = 0 := by
    simp [owned, estate, store, new, Pc.owns]
  refine ⟨⟨?_, ?_, ?_, rfl⟩, ?_, ?_⟩
  · rw [hempty]
    exact Multiset.nodup_zero
  · intro ptr
    rw [hempty]
    simp [new]
  · intro ptr hptr
    cases hptr
  · simp [Balanced, store, new, Pc.counted]
  · exact ⟨fun _ => rfl, fun _ _ => rfl, fun _ => Nat.zero_le _, by simp [new], by simp [new],
      fun _ => trivial⟩

/-- Each connection has one owner and is not handed out too often, over every interleaving. -/
theorem pool_accounting (maxSize maxAliveTime maxRequest : Nat) (as : List (Action θ)) :
    Always step Accounted (new maxSize maxAliveTime maxRequest) as :=
  always_of_invariant (fun _ _ _ h hs => h.rule (step_rule hs)) (fun _ h => h.accounted)
    (new_inv maxSize maxAliveTime maxRequest) as

end Clients
end HCServer.Pool
