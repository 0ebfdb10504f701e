import HCServer.Timer.Model
import Mathlib.Data.List.Perm.Subperm

/-! What each critical section does to the set. `Held m out` says that the set is in order and that
the timers `out`, which some call has in its hands, are apart from it. -/
namespace HCServer.Timers
open Lib
variable {κ : Type}

structure Held (m : TimerManager κ) (out : List Nat) : Prop where
  sorted : m.timers.Pairwise m.before
  apart : (m.timers ++ out).Nodup
  address : ∀ x ∈ m.timers ++ out, ∀ y ∈ m.timers ++ out,
    (m.heap x).addr = (m.heap y).addr → x = y

/-- What the last loop of `listExpiredCb` makes of a timer. -/
def Timer.expired (now_ms : Nat) (t : Timer κ) : Timer κ :=
  if t.recurring then { t with next := add64 now_ms t.ms } else { t with cb := none }

theorem Timer.expired_addr (now_ms : Nat) (t : Timer κ) : (t.expired now_ms).addr = t.addr := by
  unfold Timer.expired
  split <;> rfl

theorem Timer.expired_recurring (now_ms : Nat) (t : Timer κ) :
    (t.expired now_ms).recurring = t.recurring := by
  unfold Timer.expired
  split <;> rfl

theorem Timer.expired_ms (now_ms : Nat) (t : Timer κ) : (t.expired now_ms).ms = t.ms := by
  unfold Timer.expired
  split <;> rfl

theorem Timer.expired_cb (now_ms : Nat) (t : Timer κ) :
    (t.expired now_ms).cb = if t.recurring then t.cb else none := by
  unfold Timer.expired
  split <;> rfl

namespace TimerManager
variable (m : TimerManager κ) (id : Nat) (t : Timer κ)

@[simp] theorem setTimer_timers : (m.setTimer id t).timers = m.timers := rfl
@[simp] theorem setTimer_heap : (m.setTimer id t).heap = Function.update m.heap id t := rfl
@[simp] theorem setTimer_tickled : (m.setTimer id t).tickled = m.tickled := rfl
@[simp] theorem erase_timers : (m.erase id).timers = m.timers.erase id := rfl
@[simp] theorem erase_heap : (m.erase id).heap = m.heap := rfl
@[simp] theorem erase_tickled : (m.erase id).tickled = m.tickled := rfl
@[simp] theorem insert_heap : (m.insert id).heap = m.heap := rfl
@[simp] theorem insert_tickled : (m.insert id).tickled = m.tickled := rfl
@[simp] theorem isaddTimer_heap : (m.isaddTimer id).1.heap = m.heap := rfl
@[simp] theorem isaddTimer_timers : (m.isaddTimer id).1.timers = (m.insert id).timers := rfl
@[simp] theorem getNextTimer_heap (now : Nat) : (m.getNextTimer now).1.heap = m.heap := rfl
@[simp] theorem getNextTimer_timers (now : Nat) : (m.getNextTimer now).1.timers = m.timers := rfl

theorem expire_eq (now_ms : Nat) : m.expire now_ms id =
    if (m.heap id).recurring then (m.setTimer id ((m.heap id).expired now_ms)).insert id
    else m.setTimer id ((m.heap id).expired now_ms) := by
  dsimp only [expire, Timer.expired]
  split <;> rfl

/-- The comparator looks at two members of a timer. -/
theorem before_setTimer {m : TimerManager κ} {id : Nat} {t : Timer κ}
    (hnext : t.next = (m.heap id).next) (haddr : t.addr = (m.heap id).addr) :
    (m.setTimer id t).before = m.before := by
  have hkeep : ∀ x, ((m.setTimer id t).heap x).next = (m.heap x).next ∧
      ((m.setTimer id t).heap x).addr = (m.heap x).addr := by
    intro x
    by_cases hx : x = id
    · subst hx
      simp [hnext, haddr]
    · simp [Function.update_of_ne hx]
  funext x y
  simp only [before, Timer.before, (hkeep x).1, (hkeep x).2, (hkeep y).1, (hkeep y).2]

theorem before_setTimer_of_ne {m : TimerManager κ} {id : Nat} {t : Timer κ} {x y : Nat} (hx : x ≠ id)
    (hy : y ≠ id) :
    (m.setTimer id t).before x y ↔ m.before x y := by
  simp [before, Function.update_of_ne hx, Function.update_of_ne hy]

end TimerManager

namespace Held
variable {m : TimerManager κ} {out : List Nat} {id : Nat} {t : Timer κ}

theorem orders (h : Held m out) : OrderedSet.Orders m.before (· ∈ m.timers ++ out) where
  irrefl x _ := by
    intro hx
    simp [TimerManager.before, Timer.before] at hx
  trans x y z _ _ _ := by
    intro hxy hyz
    simp only [TimerManager.before, Timer.before] at *
    omega
  total x y hx hy hne := by
    have haddr : (m.heap x).addr ≠ (m.heap y).addr := fun he => hne (h.address x hx y hy he)
    simp only [TimerManager.before, Timer.before]
    omega

theorem not_mem (h : Held m (id :: out)) : id ∉ m.timers := by
  intro hid
  exact List.disjoint_of_nodup_append h.apart hid List.mem_cons_self

theorem nodup (h : Held m out) : m.timers.Nodup := (List.nodup_append.mp h.apart).1

theorem find (h : Held m out) (hid : id ∈ m.timers) : m.find id = some id :=
  OrderedSet.find_of_mem h.orders h.sorted (fun _ hz => List.mem_append_left _ hz) hid

/-- Other parts of the same timers. -/
theorem regroup {m' : TimerManager κ} {out' : List Nat} (h : Held m out) (hheap : m'.heap = m.heap)
    (hall : (m'.timers ++ out').Subperm (m.timers ++ out)) (hsorted : m'.timers.Pairwise m.before) :
    Held m' out' := by
  have hbefore : m'.before = m.before := by
    funext x y
    simp only [TimerManager.before, hheap]
  have hmem : ∀ x ∈ m'.timers ++ out', x ∈ m.timers ++ out := fun x hx => hall.subset hx
  obtain ⟨l, hl, hsub⟩ := hall
  refine ⟨hbefore ▸ hsorted, hl.nodup_iff.mp (hsub.nodup h.apart), ?_⟩
  intro x hx y hy
  rw [hheap]
  exact h.address x (hmem x hx) y (hmem y hy)

theorem perm {out' : List Nat} (h : Held m out) (hout : out.Perm out') : Held m out' :=
  h.regroup rfl (hout.symm.append_left m.timers).subperm h.sorted

theorem drop (h : Held m (id :: out)) : Held m out :=
  h.regroup rfl ((List.sublist_cons_self id out).append_left m.timers).subperm h.sorted

theorem take (h : Held m out) (hid : id ∈ m.timers) : Held (m.erase id) (id :: out) := by
  refine h.regroup rfl ?_ (h.sorted.sublist List.erase_sublist)
  have hback : m.timers.Perm (id :: m.timers.erase id) := List.perm_cons_erase hid
  exact (List.perm_middle.trans (hback.symm.append_right out)).subperm

theorem put (h : Held m (id :: out)) : Held (m.insert id) out := by
  have hmem : ∀ z ∈ m.timers, z ∈ m.timers ++ id :: out := fun z hz => List.mem_append_left _ hz
  have hid : id ∈ m.timers ++ id :: out := by simp
  refine h.regroup rfl ?_ (OrderedSet.pairwise_insert h.orders h.sorted hmem hid h.not_mem)
  have hin := OrderedSet.insert_perm h.orders h.sorted hmem hid h.not_mem
  exact ((hin.append_right out).trans List.perm_middle.symm).subperm

theorem mem_put (h : Held m (id :: out)) (y : Nat) :
    y ∈ (m.insert id).timers ↔ y = id ∨ y ∈ m.timers :=
  OrderedSet.mem_insert h.orders h.sorted (fun _ hz => List.mem_append_left _ hz) (by simp) h.not_mem

/-- A timer that is not in the set may get another deadline. -/
theorem store (h : Held m (id :: out)) (haddr : t.addr = (m.heap id).addr) :
    Held (m.setTimer id t) (id :: out) := by
  have hne : ∀ x ∈ m.timers, x ≠ id := by
    rintro x hx rfl
    exact h.not_mem hx
  have hkeep : ∀ x, ((m.setTimer id t).heap x).addr = (m.heap x).addr := by
    intro x
    by_cases hx : x = id
    · subst hx
      simp [haddr]
    · simp [Function.update_of_ne hx]
  refine ⟨?_, h.apart, ?_⟩
  · exact h.sorted.imp_of_mem fun hx hy hxy =>
      (TimerManager.before_setTimer_of_ne (hne _ hx) (hne _ hy)).mpr hxy
  · intro x hx y hy hxy
    rw [hkeep, hkeep] at hxy
    exact h.address x hx y hy hxy

/-- A timer that stays where it is keeps its deadline. -/
theorem mark (h : Held m out) (hnext : t.next = (m.heap id).next)
    (haddr : t.addr = (m.heap id).addr) : Held (m.setTimer id t) out := by
  have hkeep : ∀ x, ((m.setTimer id t).heap x).addr = (m.heap x).addr := by
    intro x
    by_cases hx : x = id
    · subst hx
      simp [haddr]
    · simp [Function.update_of_ne hx]
  refine ⟨?_, h.apart, ?_⟩
  · rw [TimerManager.before_setTimer hnext haddr]
    exact h.sorted
  · intro x hx y hy hxy
    rw [hkeep, hkeep] at hxy
    exact h.address x hx y hy hxy

theorem build (h : Held m out) (hid : id ∉ m.timers ++ out)
    (hfree : ∀ x ∈ m.timers ++ out, (m.heap x).addr ≠ t.addr) :
    Held (m.setTimer id t) (id :: out) := by
  have hne : ∀ x ∈ m.timers ++ out, x ≠ id := by
    rintro x hx rfl
    exact hid hx
  have hkeep : ∀ x ∈ m.timers ++ out, (m.setTimer id t).heap x = m.heap x := fun x hx =>
    Function.update_of_ne (hne x hx) _ _
  have hmem : ∀ x ∈ m.timers ++ id :: out, x = id ∨ x ∈ m.timers ++ out := by
    intro x hx
    simpa [or_left_comm] using hx
  refine ⟨?_, ?_, ?_⟩
  · refine h.sorted.imp_of_mem ?_
    intro x y hx hy hxy
    exact (TimerManager.before_setTimer_of_ne (hne x (List.mem_append_left _ hx))
      (hne y (List.mem_append_left _ hy))).mpr hxy
  · have hnodup : (id :: (m.timers ++ out)).Nodup := List.nodup_cons.mpr ⟨hid, h.apart⟩
    exact (List.perm_middle.nodup_iff).mpr hnodup
  · intro x hx y hy hxy
    have hself : (m.setTimer id t).heap id = t := Function.update_self _ _ _
    rcases hmem x hx with hx | hx <;> rcases hmem y hy with hy | hy
    · rw [hx, hy]
    · rw [hx, hself, hkeep y hy] at hxy
      exact absurd hxy.symm (hfree y hy)
    · rw [hy, hself, hkeep x hx] at hxy
      exact absurd hxy (hfree x hx)
    · rw [hkeep x hx, hkeep y hy] at hxy
      exact h.address x hx y hy hxy

theorem split {a b : List Nat} (h : Held m out) (hab : m.timers = a ++ b) (m' : TimerManager κ)
    (hheap : m'.heap = m.heap) (htimers : m'.timers = b) : Held m' (a ++ out) := by
  refine h.regroup hheap ?_ ?_
  · rw [htimers, hab, List.append_assoc]
    exact (List.perm_append_comm_assoc b a out).subperm
  · rw [htimers]
    exact (List.pairwise_append.mp (hab ▸ h.sorted)).2.1

/-- Out of the set, a new deadline, into the set again. -/
theorem rekey (h : Held m out) (hid : id ∈ m.timers) (haddr : t.addr = (m.heap id).addr) :
    Held (((m.erase id).setTimer id t).insert id) out ∧
      ∀ y, y ∈ (((m.erase id).setTimer id t).insert id).timers ↔ y ∈ m.timers := by
  have hout : Held ((m.erase id).setTimer id t) (id :: out) := (h.take hid).store haddr
  refine ⟨hout.put, ?_⟩
  intro y
  have hback : m.timers.Perm (id :: m.timers.erase id) := List.perm_cons_erase hid
  rw [hout.mem_put y, hback.mem_iff, List.mem_cons]
  rfl

theorem expire (h : Held m (id :: out)) (now_ms : Nat) :
    Held (m.expire now_ms id) out ∧
      (m.expire now_ms id).heap = Function.update m.heap id ((m.heap id).expired now_ms) ∧
      ∀ y, y ∈ (m.expire now_ms id).timers ↔ y ∈ m.timers ∨ y = id ∧ (m.heap id).recurring := by
  have hstore := h.store (Timer.expired_addr now_ms (m.heap id))
  rw [TimerManager.expire_eq]
  cases hrecurring : (m.heap id).recurring with
  | true =>
      refine ⟨hstore.put, rfl, ?_⟩
      intro y
      have hmem := hstore.mem_put y
      simpa [or_comm] using hmem
  | false =>
      refine ⟨hstore.drop, rfl, ?_⟩
      intro y
      simp

theorem expireLoop (now_ms : Nat) (ids : List Nat) {m : TimerManager κ} (h : Held m (ids ++ out)) :
    Held (TimerManager.expireLoop now_ms ids m).1 out ∧
      (∀ y, (TimerManager.expireLoop now_ms ids m).1.heap y =
        if y ∈ ids then (m.heap y).expired now_ms else m.heap y) ∧
      (∀ y, y ∈ (TimerManager.expireLoop now_ms ids m).1.timers ↔
        y ∈ m.timers ∨ y ∈ ids ∧ (m.heap y).recurring) ∧
      (TimerManager.expireLoop now_ms ids m).2 = ids.map fun y => (y, (m.heap y).cb) := by
  induction ids generalizing m with
  | nil => exact ⟨h, by simp [TimerManager.expireLoop], by simp [TimerManager.expireLoop], rfl⟩
  | cons id ids ih =>
      obtain ⟨hheld, hheap, hmem⟩ := expire h now_ms
      obtain ⟨hrest, hrestheap, hrestmem, hcallbacks⟩ := ih hheld
      have hid : id ∉ ids := by
        have hnodup := (List.nodup_append.mp h.apart).2.1
        rw [List.cons_append, List.nodup_cons] at hnodup
        intro hin
        exact hnodup.1 (List.mem_append_left _ hin)
      have hother : ∀ y ∈ ids, (m.expire now_ms id).heap y = m.heap y := by
        rintro y hy
        rw [hheap]
        refine Function.update_of_ne ?_ _ _
        rintro rfl
        exact hid hy
      refine ⟨hrest, ?_, ?_, ?_⟩
      · intro y
        have hy := hrestheap y
        rw [TimerManager.expireLoop]
        by_cases hin : y ∈ ids
        · rw [hy, if_pos hin, if_pos (List.mem_cons_of_mem id hin), hother y hin]
        · rw [hy, if_neg hin, hheap]
          by_cases hyid : y = id
          · subst hyid
            simp
          · simp [hyid, hin]
      · intro y
        have hy := hrestmem y
        rw [TimerManager.expireLoop, hy, hmem y]
        constructor
        · rintro ((hin | ⟨rfl, hrec⟩) | ⟨hin, hrec⟩)
          · exact Or.inl hin
          · exact Or.inr ⟨List.mem_cons_self, hrec⟩
          · rw [hother y hin] at hrec
            exact Or.inr ⟨List.mem_cons_of_mem id hin, hrec⟩
        · rintro (hin | ⟨hin, hrec⟩)
          · exact Or.inl (Or.inl hin)
          · rcases List.mem_cons.mp hin with rfl | hin
            · exact Or.inl (Or.inr ⟨rfl, hrec⟩)
            · exact Or.inr ⟨hin, by rwa [hother y hin]⟩
      · rw [TimerManager.expireLoop, List.map_cons, hcallbacks]
        refine congrArg _ (List.map_congr_left ?_)
        intro y hy
        rw [hother y hy]

end Held

namespace TimerManager

theorem expire_tickled (m : TimerManager κ) (now_ms id : Nat) :
    (m.expire now_ms id).tickled = m.tickled := by
  rw [expire_eq]
  split <;> rfl

theorem expireLoop_tickled (now_ms : Nat) (ids : List Nat) (m : TimerManager κ) :
    (expireLoop now_ms ids m).1.tickled = m.tickled := by
  induction ids generalizing m with
  | nil => rfl
  | cons id ids ih =>
      rw [expireLoop, ← m.expire_tickled now_ms id]
      exact ih (m.expire now_ms id)

theorem splitExpired_append (m : TimerManager κ) (now_ms addr : Nat) :
    (m.splitExpired now_ms addr).1 ++ (m.splitExpired now_ms addr).2 = m.timers := by
  simp only [splitExpired, List.append_assoc, List.takeWhile_append_dropWhile]

theorem splitExpired_due (m : TimerManager κ) (now_ms addr : Nat) :
    ∀ y ∈ (m.splitExpired now_ms addr).1, (m.heap y).next ≤ now_ms := by
  intro y hy
  rcases List.mem_append.mp hy with hy | hy
  · have hbefore := List.mem_takeWhile_imp hy
    rcases of_decide_eq_true hbefore with hlt | ⟨hequal, -⟩
    · exact hlt.le
    · exact hequal.le
  · have hequal := List.mem_takeWhile_imp hy
    exact (of_decide_eq_true hequal).le

/-- `ids` are the timers whose callbacks the call hands over. -/
structure Fires (m : TimerManager κ) (out : List Nat) (now_ms : Nat)
    (r : TimerManager κ × List (Nat × Option κ)) (ids rest : List Nat) : Prop where
  parts : m.timers = ids ++ rest
  held : Held r.1 out
  heap : ∀ y, r.1.heap y = if y ∈ ids then (m.heap y).expired now_ms else m.heap y
  timers : ∀ y, y ∈ r.1.timers ↔ y ∈ rest ∨ y ∈ ids ∧ (m.heap y).recurring
  callbacks : r.2 = ids.map fun y => (y, (m.heap y).cb)
  tickled : r.1.tickled = m.tickled
  due : m.detectClockRollover now_ms = false → ∀ y ∈ ids, (m.heap y).next ≤ now_ms

theorem listExpiredCb_fires {m : TimerManager κ} {out : List Nat} (h : Held m out)
    (now_ms addr : Nat) : ∃ ids rest, Fires m out now_ms (m.listExpiredCb now_ms addr) ids rest := by
  have hfires : ∀ ids rest, m.timers = ids ++ rest →
      (m.detectClockRollover now_ms = false → ∀ y ∈ ids, (m.heap y).next ≤ now_ms) →
      Fires m out now_ms
        (expireLoop now_ms ids { m with previousTime := now_ms, timers := rest }) ids rest := by
    intro ids rest hparts hdue
    have hsplit : Held { m with previousTime := now_ms, timers := rest } (ids ++ out) :=
      h.split hparts _ rfl rfl
    obtain ⟨hheld, hheap, hmem, hcallbacks⟩ := Held.expireLoop now_ms ids hsplit
    exact ⟨hparts, hheld, hheap, hmem, hcallbacks, expireLoop_tickled now_ms ids _, hdue⟩
  dsimp only [listExpiredCb]
  split
  · exact ⟨[], m.timers, hfires [] m.timers rfl (by simp)⟩
  · cases hrollover : m.detectClockRollover now_ms with
    | true => exact ⟨m.timers, [], hfires m.timers [] (List.append_nil _).symm (by simp [hrollover])⟩
    | false =>
        exact ⟨_, _, hfires _ _ (m.splitExpired_append now_ms addr).symm
          fun _ => m.splitExpired_due now_ms addr⟩

end TimerManager
end HCServer.Timers
