import HCServer.Http.Request
import HCServer.Lib.Registrations

/-! `ServletDispatch`: the servlets that are registered for paths and patterns, and the one that a path
is given to. An operation runs to its end before the next. -/
namespace HCServer.Http
open Lib

/-- `Own` are the servlets of classes that the server's user writes. -/
inductive Servlet (Callback Own : Type*)
  | function (cb : Callback)
  | notFound (name : Bytes)
  | own (slt : Own)

/-- `Servlet::ptr`, `none` the null pointer. -/
abbrev ServletPtr (Callback Own : Type*) := Option (Servlet Callback Own)

/-- `IServletCreator`, by what its `get` returns. -/
structure IServletCreator (Callback Own : Type*) where
  get : ServletPtr Callback Own

/-- `IServletCreator::ptr` -/
abbrev ServletCreatorPtr (Callback Own : Type*) := Option (IServletCreator Callback Own)

variable {Callback Own : Type*}

def holdServletCreator (slt : ServletPtr Callback Own) : ServletCreatorPtr Callback Own := some ⟨slt⟩

/-- The call `->get()`, `none` where the pointer is null. -/
def ServletCreatorPtr.get (creator : ServletCreatorPtr Callback Own) : Option (ServletPtr Callback Own) :=
  creator.map IServletCreator.get

structure ServletDispatch (Callback Own : Type*) where
  m_datas : Bytes → Option (ServletCreatorPtr Callback Own)
  m_globs : List (Bytes × ServletCreatorPtr Callback Own)
  m_default : ServletPtr Callback Own

namespace ServletDispatch

def new : ServletDispatch Callback Own := ⟨fun _ => none, [], some (.notFound (bytes "HCServer/1.0"))⟩

/-- `m_datas[uri] = creator` -/
def setData (d : ServletDispatch Callback Own) (uri : Bytes) (creator : ServletCreatorPtr Callback Own) :
    ServletDispatch Callback Own := { d with m_datas := Function.update d.m_datas uri (some creator) }

/-- The loop that erases the first entry of a pattern. -/
def eraseGlob (uri : Bytes) : List (Bytes × ServletCreatorPtr Callback Own) →
    List (Bytes × ServletCreatorPtr Callback Own)
  | [] => []
  | it :: its => if it.1 = uri then its else it :: eraseGlob uri its

variable (d : ServletDispatch Callback Own) (uri : Bytes)

def addServlet (slt : ServletPtr Callback Own) : ServletDispatch Callback Own :=
  d.setData uri (holdServletCreator slt)

/-- `addServlet` with a callback. -/
def addServletCallback (cb : Callback) : ServletDispatch Callback Own :=
  d.setData uri (holdServletCreator (some (.function cb)))

def addServletCreator (creator : ServletCreatorPtr Callback Own) : ServletDispatch Callback Own :=
  d.setData uri creator

def addGlobServlet (slt : ServletPtr Callback Own) : ServletDispatch Callback Own :=
  { d with m_globs := eraseGlob uri d.m_globs ++ [(uri, holdServletCreator slt)] }

/-- `addGlobServlet` with a callback. -/
def addGlobServletCallback (cb : Callback) : ServletDispatch Callback Own :=
  d.addGlobServlet uri (some (.function cb))

def addGlobServletCreator (creator : ServletCreatorPtr Callback Own) : ServletDispatch Callback Own :=
  { d with m_globs := eraseGlob uri d.m_globs ++ [(uri, creator)] }

def delServlet : ServletDispatch Callback Own :=
  { d with m_datas := Function.update d.m_datas uri none }

def delGlobServlet : ServletDispatch Callback Own := { d with m_globs := eraseGlob uri d.m_globs }

def setDefault (v : ServletPtr Callback Own) : ServletDispatch Callback Own := { d with m_default := v }

/-- `none` where `get` is called on a null pointer, as in the two below. -/
def getServlet : Option (ServletPtr Callback Own) :=
  match d.m_datas uri with
  | none => some none
  | some creator => creator.get

def getGlobServlet : Option (ServletPtr Callback Own) :=
  match d.m_globs.find? fun it => decide (it.1 = uri) with
  | some it => it.2.get
  | none => some none

/-- `!fnmatch(pattern.c_str(), uri.c_str(), 0)` -/
def globs (fnmatch : Bytes → Bytes → Int) (pattern uri : Bytes) : Bool :=
  fnmatch (pattern.takeWhile (· != 0)) (uri.takeWhile (· != 0)) == 0

def getMatchedServlet (fnmatch : Bytes → Bytes → Int) : Option (ServletPtr Callback Own) :=
  match d.m_datas uri with
  | some creator => creator.get
  | none =>
    match d.m_globs.find? fun it => globs fnmatch it.1 uri with
    | some it => it.2.get
    | none => some d.m_default

inductive Op (Callback Own : Type*)
  | addServlet (uri : Bytes) (slt : ServletPtr Callback Own)
  | addServletCallback (uri : Bytes) (cb : Callback)
  | addServletCreator (uri : Bytes) (creator : ServletCreatorPtr Callback Own)
  | addGlobServlet (uri : Bytes) (slt : ServletPtr Callback Own)
  | addGlobServletCallback (uri : Bytes) (cb : Callback)
  | addGlobServletCreator (uri : Bytes) (creator : ServletCreatorPtr Callback Own)
  | delServlet (uri : Bytes)
  | delGlobServlet (uri : Bytes)
  | setDefault (v : ServletPtr Callback Own)

def step : Op Callback Own → ServletDispatch Callback Own
  | .addServlet uri slt => d.addServlet uri slt
  | .addServletCallback uri cb => d.addServletCallback uri cb
  | .addServletCreator uri creator => d.addServletCreator uri creator
  | .addGlobServlet uri slt => d.addGlobServlet uri slt
  | .addGlobServletCallback uri cb => d.addGlobServletCallback uri cb
  | .addGlobServletCreator uri creator => d.addGlobServletCreator uri creator
  | .delServlet uri => d.delServlet uri
  | .delGlobServlet uri => d.delGlobServlet uri
  | .setDefault v => d.setDefault v

def run (ops : List (Op Callback Own)) : ServletDispatch Callback Own := ops.foldl step new

/-! ### What the history says -/

namespace Op

/-- The registrations for one path. -/
def exact : Op Callback Own → Option (Registration Bytes (ServletCreatorPtr Callback Own))
  | .addServlet uri slt => some (.add uri (holdServletCreator slt))
  | .addServletCallback uri cb => some (.add uri (holdServletCreator (some (.function cb))))
  | .addServletCreator uri creator => some (.add uri creator)
  | .delServlet uri => some (.del uri)
  | _ => none

/-- The registrations for the paths of a pattern. -/
def glob : Op Callback Own → Option (Registration Bytes (ServletCreatorPtr Callback Own))
  | .addGlobServlet uri slt => some (.add uri (holdServletCreator slt))
  | .addGlobServletCallback uri cb => some (.add uri (holdServletCreator (some (.function cb))))
  | .addGlobServletCreator uri creator => some (.add uri creator)
  | .delGlobServlet uri => some (.del uri)
  | _ => none

def default : Op Callback Own → Option (Registration Unit (ServletPtr Callback Own))
  | .setDefault v => some (.add () v)
  | _ => none

end Op

open Registration (Stands concerns standing)

/-- The servlet that the history has for a path: that of the registration of the path that stands; else
that of the oldest standing registration among the patterns of the path; else what was made the default
last, or the servlet of the constructor. -/
inductive Meant (fnmatch : Bytes → Bytes → Int) (ops : List (Op Callback Own)) (uri : Bytes) :
    Option (ServletPtr Callback Own) → Prop
  | exact {i : Nat} {creator : ServletCreatorPtr Callback Own} :
      Stands Op.exact ops i uri creator → Meant fnmatch ops uri creator.get
  | glob {i : Nat} {pattern : Bytes} {creator : ServletCreatorPtr Callback Own} :
      (∀ j c, ¬ Stands Op.exact ops j uri c) → Stands Op.glob ops i pattern creator →
      globs fnmatch pattern uri = true →
      (∀ j q c, Stands Op.glob ops j q c → globs fnmatch q uri = true → i ≤ j) →
      Meant fnmatch ops uri creator.get
  | latestDefault {i : Nat} {slt : ServletPtr Callback Own} :
      (∀ j c, ¬ Stands Op.exact ops j uri c) →
      (∀ j q c, Stands Op.glob ops j q c → globs fnmatch q uri = false) →
      Stands Op.default ops i () slt → Meant fnmatch ops uri (some slt)
  | firstDefault :
      (∀ j c, ¬ Stands Op.exact ops j uri c) →
      (∀ j q c, Stands Op.glob ops j q c → globs fnmatch q uri = false) →
      (∀ j slt, ¬ Stands Op.default ops j () slt) →
      Meant fnmatch ops uri (some (some (.notFound (bytes "HCServer/1.0"))))

/-! ### One operation -/

theorem eraseGlob_eq_erase (uri : Bytes) (its : List (Bytes × ServletCreatorPtr Callback Own)) :
    eraseGlob uri its = Registration.erase uri its := by
  induction its with
  | nil => rfl
  | cons it its ih =>
      rw [eraseGlob, Registration.erase, List.eraseP_cons, ih, Registration.erase]
      by_cases h : it.1 = uri
      · simp [h]
      · simp [h]

theorem step_datas (op : Op Callback Own) :
    (d.step op).m_datas = Registration.update d.m_datas op.exact := by
  cases op <;> rfl

theorem step_globs (op : Op Callback Own) :
    (d.step op).m_globs = Registration.apply d.m_globs op.glob := by
  cases op
  case addGlobServlet => exact congrArg (· ++ _) (eraseGlob_eq_erase _ _)
  case addGlobServletCallback => exact congrArg (· ++ _) (eraseGlob_eq_erase _ _)
  case addGlobServletCreator => exact congrArg (· ++ _) (eraseGlob_eq_erase _ _)
  case delGlobServlet => exact eraseGlob_eq_erase _ _
  all_goals rfl

theorem step_default (op : Op Callback Own) :
    (fun _ => some (d.step op).m_default) =
      Registration.update (fun _ => some d.m_default) op.default := by
  cases op
  case setDefault v =>
    funext u
    simp [step, setDefault, Op.default, Registration.update]
  all_goals rfl

/-! ### Whole histories -/

theorem run_datas (ops : List (Op Callback Own)) :
    (run ops).m_datas = ops.foldl (fun m o => Registration.update m o.exact) fun _ => none :=
  (List.foldl_hom ServletDispatch.m_datas fun d op => (step_datas d op).symm).symm

/-- The vector is what stands, the oldest first. -/
theorem run_globs (ops : List (Op Callback Own)) : (run ops).m_globs = standing Op.glob ops := by
  rw [← Registration.foldl_apply_nil]
  exact (List.foldl_hom ServletDispatch.m_globs fun d op => (step_globs d op).symm).symm

-- A pattern that is registered again goes behind the others.
example : (run ([.addGlobServletCallback [97] 0, .addGlobServletCallback [98] 1,
    .addGlobServletCallback [97] 2] : List (Op Nat Empty))).m_globs.map Prod.fst = [[98], [97]] := by decide

theorem run_default (ops : List (Op Callback Own)) : (fun _ => some (run ops).m_default) =
    ops.foldl (fun m o => Registration.update m o.default)
      fun _ => some (some (.notFound (bytes "HCServer/1.0"))) :=
  (List.foldl_hom (fun d _ => some (m_default d)) fun d op => (step_default d op).symm).symm

theorem run_globs_nodup (ops : List (Op Callback Own)) : ((run ops).m_globs.map Prod.fst).Nodup := by
  rw [run_globs]
  exact Registration.nodup_standing Op.glob ops

variable {d uri} {ops : List (Op Callback Own)} {creator : ServletCreatorPtr Callback Own}

theorem run_datas_eq_some :
    (run ops).m_datas uri = some creator ↔ ∃ i, Stands Op.exact ops i uri creator := by
  rw [run_datas, Registration.foldl_update_eq_some]
  simp

theorem run_datas_eq_none :
    (run ops).m_datas uri = none ↔ ∀ j c, ¬ Stands Op.exact ops j uri c := by
  rw [Option.eq_none_iff_forall_ne_some]
  simp only [ne_eq, run_datas_eq_some, not_exists]
  exact forall_comm

theorem run_default_of_none (h : ∀ j slt, ¬ Stands Op.default ops j () slt) :
    (run ops).m_default = some (.notFound (bytes "HCServer/1.0")) := by
  have hdefault := congrFun (run_default ops) ()
  obtain ⟨i, hstands⟩ | ⟨-, hfirst⟩ := Registration.foldl_update_eq_some.mp hdefault.symm
  · exact absurd hstands (h i _)
  · exact (Option.some.inj hfirst).symm

theorem run_default_of_stands {i : Nat} {slt : ServletPtr Callback Own}
    (h : Stands Op.default ops i () slt) : (run ops).m_default = slt := by
  have hdefault := congrFun (run_default ops) ()
  rw [Registration.foldl_update_eq_some.mpr (.inl ⟨i, h⟩)] at hdefault
  exact Option.some.inj hdefault

theorem run_find_eq_some {p : Bytes × ServletCreatorPtr Callback Own → Bool}
    {it : Bytes × ServletCreatorPtr Callback Own} : (run ops).m_globs.find? p = some it ↔
      ∃ i, Stands Op.glob ops i it.1 it.2 ∧ p it = true ∧
        ∀ j q c, Stands Op.glob ops j q c → p (q, c) = true → i ≤ j := by
  rw [run_globs, Registration.find?_standing_eq_some]

theorem run_find_eq_none {p : Bytes × ServletCreatorPtr Callback Own → Bool} :
    (run ops).m_globs.find? p = none ↔ ∀ j q c, Stands Op.glob ops j q c → p (q, c) = false := by
  rw [run_globs, Registration.find?_standing_eq_none]

/-! ### The searches -/

theorem getServlet_of_stands {i : Nat} (h : Stands Op.exact ops i uri creator) :
    (run ops).getServlet uri = creator.get := by
  rw [getServlet, run_datas_eq_some.mpr ⟨i, h⟩]

theorem getServlet_of_none (h : ∀ j c, ¬ Stands Op.exact ops j uri c) :
    (run ops).getServlet uri = some none := by
  rw [getServlet, run_datas_eq_none.mpr h]

theorem getGlobServlet_of_stands {i : Nat} (h : Stands Op.glob ops i uri creator) :
    (run ops).getGlobServlet uri = creator.get := by
  have hfind : (run ops).m_globs.find? (fun it => decide (it.1 = uri)) = some (uri, creator) := by
    refine run_find_eq_some.mpr ⟨i, h, decide_eq_true rfl, ?_⟩
    intro j q c hj hq
    obtain rfl := of_decide_eq_true hq
    exact Nat.le_of_eq (h.index_eq hj)
  rw [getGlobServlet, hfind]

theorem getGlobServlet_of_none (h : ∀ j c, ¬ Stands Op.glob ops j uri c) :
    (run ops).getGlobServlet uri = some none := by
  have hfind : (run ops).m_globs.find? (fun it => decide (it.1 = uri)) = none := by
    refine run_find_eq_none.mpr fun j q c hj => decide_eq_false ?_
    rintro rfl
    exact h j c hj
  rw [getGlobServlet, hfind]

/-- The search comes back with what is meant. -/
theorem meant_getMatchedServlet (fnmatch : Bytes → Bytes → Int) (ops : List (Op Callback Own))
    (uri : Bytes) : Meant fnmatch ops uri ((run ops).getMatchedServlet uri fnmatch) := by
  rw [getMatchedServlet]
  cases hdata : (run ops).m_datas uri with
  | some creator =>
      obtain ⟨i, hstands⟩ := run_datas_eq_some.mp hdata
      exact .exact hstands
  | none =>
      have hexact := run_datas_eq_none.mp hdata
      dsimp only
      cases hfind : (run ops).m_globs.find? fun it => globs fnmatch it.1 uri with
      | some it =>
          obtain ⟨i, hstands, hglobs, holdest⟩ := run_find_eq_some.mp hfind
          exact .glob hexact hstands hglobs holdest
      | none =>
          have hglob := run_find_eq_none.mp hfind
          by_cases hset : ∃ j slt, Stands Op.default ops j () slt
          · obtain ⟨j, slt, hstands⟩ := hset
            have hslt := run_default_of_stands hstands
            exact .latestDefault hexact hglob (hslt ▸ hstands)
          · have hnone : ∀ j slt, ¬ Stands Op.default ops j () slt := fun j slt h => hset ⟨j, slt, h⟩
            rw [run_default_of_none hnone]
            exact .firstDefault hexact hglob hnone

/-- Nothing else is meant. -/
theorem getMatchedServlet_of_meant {fnmatch : Bytes → Bytes → Int} {slt : Option (ServletPtr Callback Own)}
    (h : Meant fnmatch ops uri slt) : (run ops).getMatchedServlet uri fnmatch = slt := by
  rw [getMatchedServlet]
  cases h with
  | exact hstands => rw [run_datas_eq_some.mpr ⟨_, hstands⟩]
  | @glob i pattern creator hexact hstands hglobs holdest =>
      have hfind : (run ops).m_globs.find? (fun it => globs fnmatch it.1 uri) = some (pattern, creator) :=
        run_find_eq_some.mpr ⟨i, hstands, hglobs, holdest⟩
      rw [run_datas_eq_none.mpr hexact, hfind]
  | latestDefault hexact hglob hstands =>
      rw [run_datas_eq_none.mpr hexact, run_find_eq_none.mpr hglob, run_default_of_stands hstands]
  | firstDefault hexact hglob hnone =>
      rw [run_datas_eq_none.mpr hexact, run_find_eq_none.mpr hglob, run_default_of_none hnone]

/-! ### A deleted pattern -/

/-- An operation on a pattern touches nothing but the vector. -/
theorem others_of_glob {op : Op Callback Own} {p : Bytes} (h : concerns Op.glob p op = true) :
    op.exact = none ∧ op.default = none := by
  cases op
  case addGlobServlet => exact ⟨rfl, rfl⟩
  case addGlobServletCallback => exact ⟨rfl, rfl⟩
  case addGlobServletCreator => exact ⟨rfl, rfl⟩
  case delGlobServlet => exact ⟨rfl, rfl⟩
  all_goals cases h

theorem run_filter_datas (ops : List (Op Callback Own)) (p : Bytes) :
    (run (ops.filter fun op => !concerns Op.glob p op)).m_datas = (run ops).m_datas := by
  rw [run_datas, run_datas]
  refine Registration.foldl_update_filter (fun op hop => ?_) _ ops
  exact (others_of_glob ((Bool.not_eq_false' _).mp hop)).1

theorem run_filter_default (ops : List (Op Callback Own)) (p : Bytes) :
    (run (ops.filter fun op => !concerns Op.glob p op)).m_default = (run ops).m_default := by
  have hdefault : (fun _ : Unit => some (run (ops.filter fun op => !concerns Op.glob p op)).m_default) =
      fun _ => some (run ops).m_default := by
    rw [run_default, run_default]
    refine Registration.foldl_update_filter (fun op hop => ?_) _ ops
    exact (others_of_glob ((Bool.not_eq_false' _).mp hop)).2
  exact Option.some.inj (congrFun hdefault ())

theorem run_filter_globs (ops : List (Op Callback Own)) (p : Bytes) :
    (run (ops.filter fun op => !concerns Op.glob p op)).m_globs =
      (run ops).m_globs.filter fun it => decide (it.1 ≠ p) := by
  rw [run_globs, run_globs, Registration.standing_filter]

theorem run_append_delGlobServlet (ops : List (Op Callback Own)) (p : Bytes) :
    run (ops ++ [.delGlobServlet p]) = (run ops).delGlobServlet p := by
  rw [run, List.foldl_append]
  rfl

theorem delGlobServlet_globs (ops : List (Op Callback Own)) (p : Bytes) :
    (run (ops ++ [.delGlobServlet p])).m_globs =
      (run ops).m_globs.filter fun it => decide (it.1 ≠ p) := by
  rw [run_append_delGlobServlet, delGlobServlet, eraseGlob_eq_erase,
    Registration.erase_eq_filter (run_globs_nodup ops)]

/-- Deleting a pattern is as if it had never been registered. -/
theorem run_delGlobServlet (ops : List (Op Callback Own)) (p : Bytes) :
    run (ops ++ [.delGlobServlet p]) = run (ops.filter fun op => !concerns Op.glob p op) := by
  have hdatas := run_filter_datas ops p
  have hdefault := run_filter_default ops p
  have hglobs := (run_filter_globs ops p).trans (delGlobServlet_globs ops p).symm
  rw [run_append_delGlobServlet] at hglobs ⊢
  generalize run (ops.filter fun op => !concerns Op.glob p op) = d at hdatas hdefault hglobs ⊢
  cases d
  cases hdatas
  cases hdefault
  cases hglobs
  rfl

/-- Dispatch as the history of registrations has it: one entry a pattern, the servlet that is meant, and
a deleted pattern out of it with the others in their order. -/
theorem dispatch_follows_history (fnmatch : Bytes → Bytes → Int) (ops : List (Op Callback Own))
    (uri : Bytes) : ((run ops).m_globs.map Prod.fst).Nodup ∧
      (∀ slt, (run ops).getMatchedServlet uri fnmatch = slt ↔ Meant fnmatch ops uri slt) ∧
      ∀ p, run (ops ++ [.delGlobServlet p]) = run (ops.filter fun op => !concerns Op.glob p op) ∧
        (run (ops ++ [.delGlobServlet p])).m_globs =
          (run ops).m_globs.filter fun it => decide (it.1 ≠ p) := by
  refine ⟨run_globs_nodup ops, fun slt => ⟨?_, getMatchedServlet_of_meant⟩,
    fun p => ⟨run_delGlobServlet ops p, delGlobServlet_globs ops p⟩⟩
  rintro rfl
  exact meant_getMatchedServlet fnmatch ops uri

end ServletDispatch

end HCServer.Http
