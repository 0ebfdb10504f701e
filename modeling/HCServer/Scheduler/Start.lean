import HCServer.Scheduler.Threads

/-! What `start` and `stop` of a `Scheduler` leave behind, and that `start` comes to its end although it
holds the mutex that its threads go on to take. -/
namespace HCServer.Scheduler.Start
open Lib

namespace Pool
variable {root : Option Nat} {count : Nat} {s s' : Pool} {a : Action}

/-- The pointers to `m` threads, from the `base`-th on. -/
def workers (base m : Nat) : List (Option Nat) := (List.range m).map fun j => some (base + j)

/-- With `base` threads left of earlier starts. -/
def Stands (count base : Nat) (s : Pool) : Prop :=
  match s.pc with
  | .outside => ∃ m, m = (if s.m_stopping then 0 else count) ∧ s.m_threads = workers base m ∧
      s.made.length = base + m
  | .creating i => s.m_stopping = false ∧ i ≤ count ∧
      s.m_threads = workers base i ++ List.replicate (count - i) none ∧ s.made.length = base + i
  | .waiting i => s.m_stopping = false ∧ i < count ∧
      s.m_threads = workers base i ++ List.replicate (count - i) none ∧ s.made.length = base + i + 1
  | .stopping => s.m_stopping = true ∧ ∃ m, s.m_threads = workers base m ∧ s.made.length = base + m
  | .joining thrs k => s.m_stopping = true ∧ s.m_threads = [] ∧
      ∃ m, thrs = workers base m ∧ s.made.length = base + m ∧ k ≤ m
  | .aborted => False

/-- While every thread could be created: the objects of earlier starts, and no others, are gone. -/
def Settled (count : Nat) (s : Pool) : Prop :=
  s.failed = false → ∃ base, Stands count base s ∧
    ∀ (n : Nat) (t : Thread), s.made[n]? = some t → (t.destroyed = true ↔ n < base)

theorem length_workers (base m : Nat) : (workers base m).length = m := by simp [workers]

theorem getElem?_workers {base m k : Nat} {x : Option Nat} (h : (workers base m)[k]? = some x) :
    k < m ∧ x = some (base + k) := by
  obtain ⟨hlt, rfl⟩ := List.getElem?_eq_some_iff.mp h
  rw [length_workers] at hlt
  exact ⟨hlt, by simp [workers]⟩

theorem mem_workers {base m n : Nat} : some n ∈ workers base m ↔ base ≤ n ∧ n < base + m := by
  rw [workers, List.mem_map]
  constructor
  · rintro ⟨j, hj, hn⟩
    rw [List.mem_range] at hj
    cases hn
    omega
  · rintro ⟨hle, hlt⟩
    exact ⟨n - base, by rw [List.mem_range]; omega, by rw [Nat.add_sub_cancel' hle]⟩

theorem workers_succ (base i : Nat) : workers base (i + 1) = workers base i ++ [some (base + i)] := by
  rw [workers, List.range_succ, List.map_append]
  rfl

theorem set_workers {base i count : Nat} (hi : i < count) :
    (workers base i ++ List.replicate (count - i) none).set i (some (base + i)) =
      workers base (i + 1) ++ List.replicate (count - (i + 1)) none := by
  obtain ⟨left, hleft⟩ : ∃ left, count - i = left + 1 := ⟨count - i - 1, by omega⟩
  have hleft' : count - (i + 1) = left := by omega
  rw [hleft, hleft', List.set_append_right _ _ (length_workers base i).le, length_workers, Nat.sub_self,
    List.replicate_succ, List.set_cons_zero, workers_succ, List.append_assoc]
  rfl

/-- A step that leaves the objects as they are. -/
theorem Settled.turn (h : Settled count s) (hfailed : s'.failed = s.failed) (hmade : s'.made = s.made)
    (hstands : ∀ base, Stands count base s → Stands count base s') : Settled count s' := by
  intro hgood
  obtain ⟨base, hbase, hdestroyed⟩ := h (hfailed ▸ hgood)
  exact ⟨base, hstands base hbase, hmade ▸ hdestroyed⟩

theorem Stands.frame {base : Nat} (h : Stands count base s) (hpc : s'.pc = s.pc)
    (hstopping : s'.m_stopping = s.m_stopping) (hthreads : s'.m_threads = s.m_threads)
    (hlen : s'.made.length = s.made.length) : Stands count base s' := by
  rw [Stands, hpc, hstopping, hthreads, hlen]
  exact h

theorem Settled.step (h : Settled count s) (hkept : Kept root s) (hs : s.step root count a = some s') :
    Settled count s' := by
  cases step_rule hs with
  | running => exact h
  | asserted hpc hstop hthreads =>
      intro hgood
      obtain ⟨base, hbase, -⟩ := h hgood
      rw [Stands, hpc] at hbase
      obtain ⟨m, hm, hempty, -⟩ := hbase
      rw [hstop, if_pos rfl] at hm
      rw [hm] at hempty
      exact absurd hempty hthreads
  | start hpc hstop hthreads hfree =>
      refine h.turn rfl rfl ?_
      intro base hbase
      rw [Stands, hpc, hstop] at hbase
      obtain ⟨m, rfl, -, hlen⟩ := hbase
      exact ⟨rfl, Nat.zero_le _, rfl, hlen⟩
  | @create i tid hpc hi =>
      intro hgood
      obtain ⟨base, hbase, hdestroyed⟩ := h hgood
      rw [Stands, hpc] at hbase
      obtain ⟨hrun, -, hthreads, hlen⟩ := hbase
      refine ⟨base, ⟨hrun, hi, hthreads, by simp [hlen]⟩, ?_⟩
      intro n t hn
      dsimp only at hn
      rw [List.getElem?_append] at hn
      split at hn
      · exact hdestroyed n t hn
      · obtain ⟨-, rfl⟩ := List.getElem?_eq_some_iff.mp hn
        refine iff_of_false ?_ (by omega)
        simp [Thread.new]
  | createFails hpc hi => exact fun hgood => by cases hgood
  | @wait i n t hpc hlast hn hposted =>
      intro hgood
      obtain ⟨base, hbase, hdestroyed⟩ := h hgood
      rw [Stands, hpc] at hbase
      obtain ⟨hrun, hi, hthreads, hlen⟩ := hbase
      obtain rfl : n = base + i := by omega
      refine ⟨base, ⟨hrun, hi, ?_, ?_⟩, ?_⟩
      · rw [constructed]
        dsimp only
        rw [hthreads, set_workers hi]
      · exact (List.length_set).trans hlen
      · intro m u hu
        rcases getElem?_setThread hu with ⟨rfl, rfl⟩ | ⟨-, hold⟩
        · exact hdestroyed _ t hn
        · exact hdestroyed m u hold
  | @unlock i hpc hi =>
      refine h.turn rfl rfl ?_
      intro base hbase
      rw [Stands, hpc] at hbase
      obtain ⟨hrun, hle, hthreads, hlen⟩ := hbase
      obtain rfl : i = count := by omega
      refine ⟨i, by simp [hrun], ?_, hlen⟩
      rw [Nat.sub_self, List.replicate_zero, List.append_nil] at hthreads
      exact hthreads
  | stop hpc =>
      refine h.turn rfl rfl ?_
      intro base hbase
      rw [Stands, hpc] at hbase
      obtain ⟨m, -, hthreads, hlen⟩ := hbase
      exact ⟨rfl, m, hthreads, hlen⟩
  | stopEarly hpc hroot =>
      refine h.turn rfl rfl ?_
      intro base hbase
      rw [Stands, hpc] at hbase
      rw [Stands]
      dsimp only
      rw [hpc]
      obtain ⟨m, hm, hthreads, hlen⟩ := hbase
      rw [hroot.2, ite_self] at hm
      exact ⟨m, hm, hthreads, hlen⟩
  | swap hpc =>
      refine h.turn rfl rfl ?_
      intro base hbase
      rw [Stands, hpc] at hbase
      obtain ⟨hstop, m, hthreads, hlen⟩ := hbase
      exact ⟨hstop, rfl, m, hthreads, hlen, Nat.zero_le m⟩
  | null hpc hk =>
      intro hgood
      obtain ⟨base, hbase, -⟩ := h hgood
      rw [Stands, hpc] at hbase
      obtain ⟨-, -, m, rfl, -⟩ := hbase
      cases (getElem?_workers hk).2
  | join hpc hk hn hended =>
      refine h.turn rfl rfl ?_
      intro base hbase
      rw [Stands, hpc] at hbase
      obtain ⟨hstop, hnone, m, rfl, hlen, hle⟩ := hbase
      exact ⟨hstop, hnone, m, rfl, hlen, (getElem?_workers hk).1⟩
  | leave hpc hk =>
      intro hgood
      obtain ⟨base, hbase, hdestroyed⟩ := h hgood
      rw [Stands, hpc] at hbase
      obtain ⟨hstop, hnone, m, rfl, hlen, hle⟩ := hbase
      refine ⟨base + m, ⟨0, by simp [hstop], hnone, ?_⟩, ?_⟩
      · exact (List.length_mapIdx).trans hlen
      · intro n u hu
        obtain ⟨t, hn, hcases⟩ := getElem?_destroy hu
        rcases hcases with ⟨hmem, rfl⟩ | ⟨hout, rfl⟩
        · exact iff_of_true rfl (mem_workers.mp hmem).2
        · rw [hdestroyed n u hn]
          rw [mem_workers] at hout
          omega
  | @worker n a t t' mutex hn hmoves =>
      intro hgood
      obtain ⟨base, hbase, hdestroyed⟩ := h hgood
      refine ⟨base, hbase.frame rfl rfl rfl List.length_set, ?_⟩
      intro m u hu
      rcases getElem?_setThread hu with ⟨rfl, rfl⟩ | ⟨-, hold⟩
      · rw [(Thread.frame_moves hmoves (hkept.locked _ t hn)).destroyed]
        exact hdestroyed m t hn
      · exact hdestroyed m u hold
  | lockOther => exact h.turn rfl rfl fun base hbase => hbase.frame rfl rfl rfl rfl
  | unlockOther => exact h.turn rfl rfl fun base hbase => hbase.frame rfl rfl rfl rfl

/-- The steps up to the post of the semaphore. -/
def remaining : Stage → Nat
  | .created => 3
  | .named => 2
  | .taken => 1
  | _ => 0

theorem remaining_zero {stage : Stage} (h : remaining stage = 0) : stage.posted = true := by
  cases stage with
  | created => cases h
  | named => cases h
  | taken => cases h
  | _ => rfl

theorem run_remaining {t : Thread} {r : Nat} (h : remaining t.stage = r + 1) :
    ∃ t', t.run = some t' ∧ remaining t'.stage = r := by
  unfold Thread.run
  split
  case h_1 hstage =>
    rw [hstage] at h
    refine ⟨_, rfl, Nat.succ.inj h⟩
  case h_2 hstage =>
    rw [hstage] at h
    refine ⟨_, rfl, Nat.succ.inj h⟩
  case h_3 hstage =>
    rw [hstage] at h
    refine ⟨_, rfl, Nat.succ.inj h⟩
  case h_4 hstage =>
    rw [hstage] at h
    cases h
  case h_5 hcreated hnamed htaken hnotified =>
    have hposted : remaining t.stage = 0 := by
      cases hstage : t.stage with
      | created => exact absurd hstage hcreated
      | named => exact absurd hstage hnamed
      | taken => exact absurd hstage htaken
      | _ => rfl
    rw [hposted] at h
    cases h

/-- The thread that the constructor waits for posts the semaphore by itself. -/
theorem reaches_post (count : Nat) {i n r : Nat} {t : Thread} (hkept : Kept root s) (hpc : s.pc = .waiting i)
    (hlast : n + 1 = s.made.length) (hn : s.made[n]? = some t) (hr : remaining t.stage = r) :
    ∃ as s' t', (∀ a ∈ as, a.isStart = true) ∧ exec (step root count) s as = some s' ∧ Kept root s' ∧
      s'.pc = .waiting i ∧ s'.m_stopping = s.m_stopping ∧ n + 1 = s'.made.length ∧
      s'.made[n]? = some t' ∧ t'.m_semaphore ≠ 0 := by
  induction r generalizing s t with
  | zero =>
      have hsemaphore := hkept.waited n t hn ⟨by rw [hpc]; rfl, hlast⟩
      rw [remaining_zero hr] at hsemaphore
      exact ⟨[], s, t, by simp, rfl, hkept, hpc, rfl, hlast, hn, by rw [hsemaphore]; decide⟩
  | succ r ih =>
      obtain ⟨t1, hrun, hr1⟩ := run_remaining hr
      have hstep : s.step root count (.run n) = some (s.setThread n t1) := by simp [step, hn, hrun]
      have hlt := (List.getElem?_eq_some_iff.mp hn).1
      have hn1 : (s.setThread n t1).made[n]? = some t1 := List.getElem?_set_self hlt
      have hlast1 : n + 1 = (s.setThread n t1).made.length := hlast.trans List.length_set.symm
      obtain ⟨as, s', t', has, hexec, hrest⟩ := ih (hkept.step hstep) hpc hlast1 hn1 hr1
      refine ⟨.run n :: as, s', t', List.forall_mem_cons.mpr ⟨rfl, has⟩, ?_, hrest⟩
      rw [exec, hstep, Option.bind_some, hexec]

/-- The steps by which `start` comes to its end, wherever it is. -/
def Completes (root : Option Nat) (count : Nat) (s : Pool) : Prop :=
  ∃ as s', (∀ a ∈ as, a.isStart = true) ∧ exec (step root count) s as = some s' ∧ s'.pc = .outside ∧
    s'.mutex = none ∧ s'.m_stopping = s.m_stopping

theorem Completes.after {as : List Action} (has : ∀ a ∈ as, a.isStart = true)
    (hexec : exec (step root count) s as = some s') (hstopping : s'.m_stopping = s.m_stopping)
    (h : Completes root count s') : Completes root count s := by
  obtain ⟨bs, u, hbs, hu, hpc, hfree, hkeep⟩ := h
  refine ⟨as ++ bs, u, List.forall_mem_append.mpr ⟨has, hbs⟩, ?_, hpc, hfree, hkeep.trans hstopping⟩
  rw [exec_append, hexec, Option.bind_some, hu]

theorem Completes.cons (ha : a.isStart = true) (hstep : s.step root count a = some s')
    (hstopping : s'.m_stopping = s.m_stopping) (h : Completes root count s') : Completes root count s :=
  Completes.after (List.forall_mem_singleton.mpr ha) (by rw [exec, hstep]; rfl) hstopping h

theorem completes_waiting {i : Nat} (hkept : Kept root s) (hpc : s.pc = .waiting i)
    (hrest : ∀ s', Kept root s' → s'.pc = .creating (i + 1) → Completes root count s') :
    Completes root count s := by
  have hne := hkept.nonempty (by rw [hpc]; rfl)
  obtain ⟨n, hlast⟩ : ∃ n, n + 1 = s.made.length :=
    ⟨s.made.length - 1, Nat.sub_add_cancel (List.length_pos_of_ne_nil hne)⟩
  obtain ⟨t, hn⟩ : ∃ t, s.made[n]? = some t := ⟨_, List.getElem?_eq_getElem (by omega)⟩
  obtain ⟨as, s1, t1, has, hexec, hkept1, hpc1, hkeep, hlast1, hn1, hposted⟩ :=
    reaches_post count hkept hpc hlast hn rfl
  refine Completes.after has hexec hkeep ?_
  have hstep : s1.step root count .wait = some (s1.constructed i n t1) := by
    have hidx : s1.made.length - 1 = n := by omega
    simp only [step, hpc1, hidx, hn1, Option.bind_eq_bind, Option.bind_some, if_neg hposted]
  exact Completes.cons rfl hstep rfl (hrest _ (hkept1.step hstep) rfl)

theorem completes_creating {left i : Nat} (hkept : Kept root s) (hpc : s.pc = .creating i)
    (hleft : left = count - i) : Completes root count s := by
  induction left generalizing s i with
  | zero =>
      have hall : ¬ i < count := by omega
      have hstep : s.step root count .unlock = some { s with mutex := none, pc := .outside } := by
        simp only [step, hpc, if_neg hall]
      exact Completes.cons rfl hstep rfl ⟨[], _, by simp, rfl, rfl, rfl, rfl⟩
  | succ left ih =>
      have hi : i < count := by omega
      have hstep : s.step root count (.create 0) =
          some { s with made := s.made ++ [Thread.new 0], pc := .waiting i } := by
        simp only [step, hpc, if_pos hi]
      refine Completes.cons rfl hstep rfl (completes_waiting (hkept.step hstep) rfl ?_)
      intro s' hkept' hpc'
      exact ih hkept' hpc' (by omega)

/-- In every state that is reached while `start` runs, `start` can come to its end by its own steps and those
of its threads in front of their callbacks: nothing it waits for needs the mutex that it holds. -/
theorem start_completes {as : List Action} (h : exec (step root count) (new root) as = some s)
    (hpc : s.pc.isStarting = true) : Completes root count s := by
  have hkept : Kept root s := exec_invariant (fun _ _ _ h hs => h.step hs) (new_kept root) h
  cases hcase : s.pc with
  | creating i => exact completes_creating hkept hcase rfl
  | waiting i => exact completes_waiting hkept hcase fun s' hkept' hpc' => completes_creating hkept' hpc' rfl
  | _ =>
      rw [hcase] at hpc
      cases hpc

def startingPool : Pool where
  m_stopping := false
  mutex := some .starter
  m_threads := [none, none]
  m_threadIds := [70]
  made := [⟨71, 71, true, 0, .named, 0, false⟩]
  pc := .waiting 0
  failed := false

theorem start_completes_first : Completes (some 70) 2 startingPool :=
  @start_completes (some 70) 2 startingPool [.start, .create 71, .run 0] (by decide) rfl

end Pool
end HCServer.Scheduler.Start
