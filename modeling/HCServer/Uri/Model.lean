import HCServer.Http.Response
import HCServer.Uri.Table

/-! `Uri::Create`: the machine's run over the text, with the actions of uri.rl on the new `Uri` and
on the pointer `mark`. -/
namespace HCServer.Uris
open Lib
open Http (Bytes Status.cs longToInt strtol)

structure Uri where
  scheme : Bytes := []
  userinfo : Bytes := []
  host : Bytes := []
  path : Bytes := []
  query : Bytes := []
  fragment : Bytes := []
  port : Int := 0
  deriving DecidableEq, Repr

/-- `raised` is the `std::logic_error` of a string built from a null `mark`. -/
inductive Created
  | uri (u : Uri)
  | null
  | raised
  deriving DecidableEq, Repr

def atoi (text : Bytes) : Int := longToInt (strtol text 10)

/-- Pointers are offsets into the text. -/
structure Scan where
  uri : Uri := {}
  mark : Option Nat := none
  p : Nat := 0
  deriving DecidableEq, Repr

namespace Scan
variable (uristr : Bytes) (s : Scan)

def feed (_ : UInt8) : Scan := { s with p := s.p + 1 }

/-- `std::string(mark, p - mark)`. -/
def text (mark : Nat) : Bytes := (uristr.take s.p).drop mark

/-- A save that sets `mark` back to null. -/
def save (set : Uri → Bytes → Uri) : Option Scan :=
  s.mark.map fun mark => { s with uri := set s.uri (s.text uristr mark), mark := none }

def perform : Action → Option Scan
  | .marku | .markh => some { s with mark := some s.p }
  | .saveScheme => s.save uristr fun u v => { u with scheme := v }
  | .savePort =>
    s.mark.map fun mark =>
      { s with
        uri := if s.p ≠ mark then { s.uri with port := atoi (uristr.drop mark) } else s.uri
        mark := none }
  | .saveUserinfo =>
    match s.mark with
    | some mark =>
      some { s with uri := { s.uri with userinfo := s.text uristr mark }, mark := none }
    | none => some s
  | .saveHost =>
    match s.mark with
    | some mark => some { s with uri := { s.uri with host := s.text uristr mark } }
    | none => some s
  | .savePath => s.save uristr fun u v => { u with path := v }
  | .saveQuery => s.save uristr fun u v => { u with query := v }
  | .saveFragment => s.save uristr fun u v => { u with fragment := v }

end Scan

def Uri.create (uristr : Bytes) : Created :=
  match uriParser.run (Scan.perform uristr) Scan.feed uriParserStart {} uristr with
  | none => .raised
  | some (status, s) =>
    match exec (Scan.perform uristr) s (eofActions (Status.cs status)) with
    | none => .raised
    | some s =>
      if Status.cs status = uriParserError then .null
      else if uriParserFirstFinal ≤ Status.cs status then .uri s.uri
      else .null

/-! ### The mark

Whether a run raises depends on the text only through the actions that it brings up. -/

/-- Whether `mark` is set after an action, which raises where it reads a null one. -/
def marks : Bool → Action → Option Bool
  | _, .marku | _, .markh => some true
  | m, .saveHost => some m
  | _, .saveUserinfo => some false
  | m, _ => if m then some false else none

theorem perform_marks (uristr : Bytes) (s : Scan) (a : Action) :
    (s.perform uristr a).map (fun t => t.mark.isSome) = marks s.mark.isSome a := by
  obtain ⟨u, mark, p⟩ := s
  cases mark <;> cases a <;> rfl

theorem exec_marks (uristr : Bytes) (s : Scan) (acts : List Action) :
    (exec (Scan.perform uristr) s acts).map (fun t => t.mark.isSome) =
      exec marks s.mark.isSome acts := by
  induction acts generalizing s with
  | nil => rfl
  | cons a acts ih =>
      have ha := perform_marks uristr s a
      simp only [exec]
      cases hs : s.perform uristr a with
      | none =>
          rw [hs] at ha
          rw [← ha]
          rfl
      | some t =>
          rw [hs] at ha
          rw [← ha]
          exact ih t

/-- The text is read to its end by edges that do not raise, and what is left to do there does not
raise either. -/
def Passes : Nat → Bool → Bytes → Prop
  | q, m, [] => uriParserFirstFinal ≤ q ∧ (exec marks m (eofActions q)).isSome = true
  | q, m, b :: bs =>
    ∃ acts q' m', uriParser.next q b = some (acts, q') ∧ exec marks m acts = some m' ∧
      Passes q' m' bs

theorem run_passes (uristr : Bytes) (q : Nat) (s : Scan) (bs : Bytes) :
    (∃ status t u, uriParser.run (Scan.perform uristr) Scan.feed q s bs = some (status, t) ∧
      exec (Scan.perform uristr) t (eofActions (Status.cs status)) = some u ∧
      uriParserFirstFinal ≤ Status.cs status) ↔ Passes q s.mark.isSome bs := by
  induction bs generalizing q s with
  | nil =>
      have hexec := exec_marks uristr s (eofActions q)
      simp only [Transducer.run, Passes, Option.some.injEq, Prod.mk.injEq]
      constructor
      · rintro ⟨status, t, u, ⟨rfl, rfl⟩, hu, hfinal⟩
        refine ⟨hfinal, ?_⟩
        rw [← hexec, Option.isSome_map]
        exact Option.isSome_of_eq_some hu
      · rintro ⟨hfinal, hsome⟩
        rw [← hexec, Option.isSome_map] at hsome
        obtain ⟨u, hu⟩ := Option.isSome_iff_exists.mp hsome
        exact ⟨_, s, u, ⟨rfl, rfl⟩, hu, hfinal⟩
  | cons b bs ih =>
      simp only [Transducer.run, Passes]
      cases hnext : uriParser.next q b with
      | none => simp [Status.cs, Http.httpParserError, uriParserFirstFinal]
      | some e =>
          obtain ⟨acts, q'⟩ := e
          have hexec := exec_marks uristr s acts
          have hany : acts.any uriParser.halts = false := List.any_eq_false.mpr fun a _ => by
            simp [uriParser]
          simp only [hany, Bool.false_eq_true, if_false, Option.some.injEq, Prod.mk.injEq]
          cases hs : exec (Scan.perform uristr) s acts with
          | none =>
              rw [hs] at hexec
              constructor
              · rintro ⟨_, _, _, hnone, _⟩
                cases hnone
              · rintro ⟨_, _, _, ⟨rfl, rfl⟩, hm, _⟩
                rw [← hexec] at hm
                cases hm
          | some t =>
              rw [hs] at hexec
              rw [Option.bind_some, ih]
              constructor
              · intro hpass
                exact ⟨acts, q', _, ⟨rfl, rfl⟩, hexec.symm, hpass⟩
              · rintro ⟨_, _, _, ⟨rfl, rfl⟩, hm, hpass⟩
                rw [← hexec] at hm
                cases hm
                exact hpass

/-- `Create` comes back with a `Uri` for the texts that the machine passes. -/
theorem create_uri_iff (s : Bytes) :
    (∃ u, Uri.create s = .uri u) ↔ Passes uriParserStart false s := by
  refine Iff.trans ?_ (run_passes s uriParserStart {} s)
  unfold Uri.create
  cases uriParser.run (Scan.perform s) Scan.feed uriParserStart {} s with
  | none => simp
  | some r =>
      obtain ⟨status, t⟩ := r
      simp only [Option.some.injEq, Prod.mk.injEq]
      constructor
      · rintro ⟨u, hu⟩
        split at hu
        · cases hu
        · rename_i v hv
          split_ifs at hu with herror hfinal
          exact ⟨status, t, v, ⟨rfl, rfl⟩, hv, hfinal⟩
      · rintro ⟨_, _, v, ⟨rfl, rfl⟩, hv, hfinal⟩
        have herror : Status.cs status ≠ uriParserError := by
          intro herror
          rw [herror] at hfinal
          exact absurd hfinal (by decide)
        exact ⟨v.uri, by simp [hv, herror, hfinal]⟩

end HCServer.Uris
