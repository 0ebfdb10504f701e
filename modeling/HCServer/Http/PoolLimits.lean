import HCServer.Http.Pool

/-! What the pool is to keep to: its size, and the age and use of the connections that it hands out
again or drops. -/
namespace HCServer.Pool
open Lib

/-- A connection that is used again is young enough; one that is dropped has to go. -/
def Event.Allowed (maxAliveTime maxRequest : Nat) : Event → Prop
  | .reused created now_ms => now_ms < created + maxAliveTime
  | .dropped connected created now request =>
      ¬ (connected = true ∧ now < created + maxAliveTime ∧ request < maxRequest)

section
variable {maxAliveTime now_ms : Nat} {heap : Nat → HttpConnection} (connected : Nat → Bool)
  (hcreate : ∀ ptr, (heap ptr).createTime = 0)
include hcreate

/-- Before the clock reaches `m_maxAliveTime` every connection is taken for an old one. -/
theorem takeLoop_early (hnow : now_ms < maxAliveTime) (conns : List Nat) :
    takeLoop maxAliveTime now_ms heap connected conns = (conns, none, []) := by
  induction conns with
  | nil => rfl
  | cons conn conns ih =>
      have hold : (heap conn).createTime + maxAliveTime > now_ms := by
        rw [hcreate, zero_add]
        exact hnow
      rw [takeLoop, decide_eq_true hold, Bool.or_true, if_pos rfl, ih]

/-- Afterwards none is. -/
theorem takeLoop_late (hnow : maxAliveTime ≤ now_ms) (conns : List Nat) :
    (∀ conn ∈ (takeLoop maxAliveTime now_ms heap connected conns).1, connected conn = false) ∧
      (takeLoop maxAliveTime now_ms heap connected conns).2.1 = conns.find? connected := by
  induction conns with
  | nil => exact ⟨fun _ h => absurd h List.not_mem_nil, rfl⟩
  | cons conn conns ih =>
      have hyoung : ¬ (heap conn).createTime + maxAliveTime > now_ms := by
        rw [hcreate, zero_add]
        exact Nat.not_lt.mpr hnow
      rw [takeLoop, decide_eq_false hyoung, Bool.or_false]
      cases hconn : connected conn with
      | true => simp [hconn]
      | false =>
          rw [Bool.not_false, if_pos rfl, List.find?_cons_of_neg (by simp [hconn])]
          refine ⟨?_, ih.2⟩
          intro x hx
          rcases List.mem_cons.mp hx with rfl | hrest
          · exact hconn
          · exact ih.1 x hrest

end

namespace Clients
variable {θ : Type}

structure Limited (s : Clients θ) : Prop where
  stored : s.pool.conns.length ≤ s.pool.maxSize
  allowed : ∀ e ∈ s.log, e.Allowed s.pool.maxAliveTime s.pool.maxRequest

/-- `getConnection` is called once the clock is past `m_maxAliveTime`, or when nothing stored is
connected, and finds a young connection; one that is good is released after `m_maxAliveTime` too, and
there is room for it. -/
def Within (s : Clients θ) : Action θ → Prop
  | .take t connected => ∀ now_ms, s.pc t = .entered now_ms →
      (now_ms < s.pool.maxAliveTime → ∀ ptr ∈ s.pool.conns, connected ptr = false) ∧
      (s.pool.maxAliveTime ≤ now_ms → ∀ ptr, s.pool.conns.find? connected = some ptr →
        now_ms < s.created ptr + s.pool.maxAliveTime)
  | .judge t connected now => ∀ ptr, s.pc t = .released ptr → connected = true →
      (s.conn ptr).request < s.pool.maxRequest → now ≤ s.pool.maxAliveTime →
        s.created ptr + s.pool.maxAliveTime ≤ now
  | .push _ => s.pool.conns.length < s.pool.maxSize
  | _ => True

variable [Fintype θ] [DecidableEq θ] {s s' : Clients θ} {a : Action θ} {t : θ}

omit [DecidableEq θ] in
/-- What `getConnection` drops, and which connection it hands out again. -/
theorem Inv.take_log (h : Inv s) (now_ms : Nat) (connected : Nat → Bool)
    {r : List Nat × Option Nat × List Nat}
    (hr : takeLoop s.pool.maxAliveTime now_ms s.conn connected s.pool.conns = r) :
    (now_ms < s.pool.maxAliveTime → r.1 = s.pool.conns ∧ r.2.1 = none) ∧
    (s.pool.maxAliveTime ≤ now_ms → (∀ conn ∈ r.1, connected conn = false) ∧
      r.2.1 = s.pool.conns.find? connected) := by
  subst hr
  refine ⟨?_, fun hnow => takeLoop_late connected h.used.createTime hnow _⟩
  intro hnow
  rw [takeLoop_early connected h.used.createTime hnow]
  exact ⟨rfl, rfl⟩

theorem Limited.rule (h : Limited s) (hi : Inv s) (hrule : Rule s a s') (hwithin : s.Within a) :
    Limited s' := by
  cases hrule with
  | @take t connected now_ms hpc =>
      obtain ⟨hearly, hlate⟩ := hi.take_log now_ms connected rfl
      obtain ⟨hnone, hyoung⟩ := hwithin now_ms hpc
      have hsplit := takeLoop_split s.pool.maxAliveTime now_ms s.conn connected s.pool.conns
      refine ⟨?_, ?_⟩
      · have hlength := congrArg List.length hsplit
        rw [List.length_append, List.length_append] at hlength
        have hstored := h.stored
        change (takeLoop _ _ _ _ _).2.2.length ≤ s.pool.maxSize
        omega
      · intro e he
        rw [take, List.mem_append, List.mem_append] at he
        rcases he with (hold | hdropped) | hreused
        · exact h.allowed e hold
        · obtain ⟨ptr, hptr, rfl⟩ := List.mem_map.mp hdropped
          rintro ⟨hconnected, -⟩
          rcases Nat.lt_or_ge now_ms s.pool.maxAliveTime with hnow | hnow
          · rw [(hearly hnow).1] at hptr
            cases (hnone hnow ptr hptr).symm.trans hconnected
          · cases ((hlate hnow).1 ptr hptr).symm.trans hconnected
        · obtain ⟨ptr, hptr, rfl⟩ := List.mem_map.mp hreused
          rw [Option.mem_toList] at hptr
          rcases Nat.lt_or_ge now_ms s.pool.maxAliveTime with hnow | hnow
          · cases (hearly hnow).2.symm.trans hptr
          · exact hyoung hnow ptr ((hlate hnow).2.symm.trans hptr)
  | @drop t connected now ptr hpc hexpired =>
      refine ⟨h.stored, ?_⟩
      intro e he
      rcases List.mem_append.mp he with hold | hnew
      · exact h.allowed e hold
      · rw [List.mem_singleton.mp hnew]
        rintro ⟨hconnected, hage, huse⟩
        have hkept := hwithin ptr hpc hconnected huse
        simp only [expired, hi.used.createTime, zero_add, hconnected, Bool.not_true, Bool.false_or,
          Bool.or_eq_true, decide_eq_true_eq] at hexpired
        rcases hexpired with hnow | hrequest
        · exact absurd hage (Nat.not_lt.mpr (hkept hnow))
        · exact absurd huse (Nat.not_lt.mpr hrequest)
  | @push t ptr hpc =>
      refine ⟨?_, h.allowed⟩
      change (s.pool.conns ++ [ptr]).length ≤ s.pool.maxSize
      rw [List.length_append]
      exact hwithin
  | _ => exact ⟨h.stored, h.allowed⟩

theorem Limited.broken (hi : Inv s) (hrule : Rule s a s') (hwithin : ¬ s.Within a) :
    ¬ Limited s' := by
  intro h'
  cases hrule with
  | @take t connected now_ms hpc =>
      obtain ⟨hearly, hlate⟩ := hi.take_log now_ms connected rfl
      refine hwithin ?_
      intro now hnow_pc
      cases hpc.symm.trans hnow_pc
      refine ⟨?_, ?_⟩
      · intro hnow ptr hptr
        by_contra hconnected
        refine h'.allowed (s.dropped (connected ptr) now_ms ptr) ?_ ?_
        · refine List.mem_append_left _ (List.mem_append_right _ (List.mem_map.mpr ⟨ptr, ?_, rfl⟩))
          rw [(hearly hnow).1]
          exact hptr
        · refine ⟨by simpa using hconnected, hnow.trans_le (Nat.le_add_left _ _), ?_⟩
          obtain ⟨hrequest, hlt⟩ := hi.used.stored ptr hptr
          rw [hrequest]
          exact hlt
      · intro hnow ptr hfind
        refine h'.allowed (.reused (s.created ptr) now_ms) (List.mem_append_right _ ?_)
        refine List.mem_map.mpr ⟨ptr, ?_, rfl⟩
        rw [(hlate hnow).2, Option.mem_toList]
        exact hfind
  | @drop t connected now ptr hpc hexpired =>
      refine hwithin ?_
      intro x hx hconnected huse hnow
      cases hpc.symm.trans hx
      by_contra hage
      have hmem : s.dropped connected now ptr ∈ s.log ++ [s.dropped connected now ptr] :=
        List.mem_append_right _ List.mem_cons_self
      exact h'.allowed _ hmem ⟨hconnected, Nat.not_le.mp hage, huse⟩
  | @keep t connected now ptr hpc hexpired =>
      refine hwithin ?_
      intro x hx hconnected huse hnow
      cases hpc.symm.trans hx
      simp only [expired, hi.used.createTime, zero_add, Bool.or_eq_false_iff,
        decide_eq_false_iff_not] at hexpired
      exact absurd hnow hexpired.2.1
  | @push t ptr hpc =>
      have hstored : (s.pool.conns ++ [ptr]).length ≤ s.pool.maxSize := h'.stored
      rw [List.length_append] at hstored
      exact hwithin hstored
  | _ => exact hwithin trivial

/-- The limits are kept exactly as long as the clock stays away from the wrong comparisons, no old
connection is found and there is room for what is put back. -/
theorem pool_limits (maxSize maxAliveTime maxRequest : Nat) (as : List (Action θ)) :
    Always step Limited (new maxSize maxAliveTime maxRequest) as ↔
      Each step Within (new maxSize maxAliveTime maxRequest) as :=
  always_iff_each (I := fun s => Inv s ∧ Limited s)
    (fun _ _ _ h hs hwithin =>
      ⟨h.1.rule (step_rule hs), h.2.rule h.1 (step_rule hs) hwithin⟩)
    (fun _ _ _ h hs hwithin => Limited.broken h.1 (step_rule hs) hwithin) (fun _ h => h.2)
    ⟨new_inv maxSize maxAliveTime maxRequest, Nat.zero_le _, by simp [new]⟩ as

/-- A connection made at 1000 is handed out again at 5000, although it may live for 100 only. -/
theorem old_connection_reused : ¬ ∀ (maxSize maxAliveTime maxRequest : Nat)
    (as : List (Action Unit)), Always step Limited (new maxSize maxAliveTime maxRequest) as := by
  intro h
  let as : List (Action Unit) := [.getConnection () 1000, .take () fun _ => true, .subtract (),
    .create () 1000, .count (), .hand (), .releasePtr () 0, .judge () true 1001, .push (),
    .getConnection () 5000, .take () fun _ => true]
  have hrun : (exec step (new 10 100 5) as).map (fun s => (s.pool.maxAliveTime, s.log)) =
      some (100, [.reused 1000 5000]) := rfl
  obtain ⟨s, hs, heq⟩ := Option.map_eq_some_iff.mp hrun
  obtain ⟨hmax, hlog⟩ := Prod.mk.inj heq
  have hyoung := (always_end (h 10 100 5 as) hs).allowed (.reused 1000 5000)
    (hlog ▸ List.mem_cons_self)
  rw [hmax] at hyoung
  exact absurd hyoung (Nat.not_lt.mpr (by decide))

end Clients
end HCServer.Pool
