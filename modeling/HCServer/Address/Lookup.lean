import Mathlib.Data.List.Basic

/-! How `Address::Lookup` cuts a host string into the node and the service for `getaddrinfo`. -/
namespace HCServer.Lookup

/-- `host.c_str()[i]`; nothing may be read behind the zero that ends it. -/
def charAt (host : List UInt8) (i : Nat) : Option UInt8 := (host ++ [0])[i]?

/-- `memchr` from the `i`-th character on; the outer `none` is a read behind the end. -/
def memchr (host : List UInt8) (c : UInt8) : Nat → Nat → Option (Option Nat)
  | _, 0 => some none
  | i, n + 1 => do
      let b ← charAt host i
      if b = c then some (some i) else memchr host c (i + 1) n

/-- The check for `[ipv6]:service`: the node, and where the service begins. -/
def checkIpv6 (host : List UInt8) : Option (List UInt8 × Option Nat) :=
  if host ≠ [] ∧ charAt host 0 = some 91 then do
    match ← memchr host 93 1 (host.length - 1) with
    | none => some ([], none)
    | some endipv6 =>
        let c ← charAt host (endipv6 + 1)
        some ((host.drop 1).take (endipv6 - 1), if c = 58 then some (endipv6 + 2) else none)
  else some ([], none)

/-- The check for `node:service`. A service found before a second colon stays where it was found. -/
def checkNode (host : List UInt8) : Option (List UInt8 × Option Nat) := do
  match ← memchr host 58 0 host.length with
  | none => some ([], none)
  | some service =>
      match ← memchr host 58 (service + 1) (host.length - service - 1) with
      | none => some (host.take service, some (service + 1))
      | some _ => some ([], some service)

/-- What is passed to `getaddrinfo`: the node, and the characters that `service` points to. -/
def passed (host : List UInt8) : Option (List UInt8 × Option (List UInt8)) := do
  let (node, service) ← checkIpv6 host
  let (node, service) ← if node = [] then checkNode host else some (node, service)
  let node := if node = [] then host else node
  some (node, service.map host.drop)

/-- `[x]` or `[x]:p`. -/
def Bracketed (host : List UInt8) : Prop :=
  ∃ x rest, host = 91 :: x ++ 93 :: rest ∧ x ≠ [] ∧ 93 ∉ x ∧ (rest = [] ∨ rest.head? = some 58)

/-- The node and the service that a host string stands for. -/
inductive Prescribed (host : List UInt8) : List UInt8 → Option (List UInt8) → Prop
  | bracketService {x p : List UInt8} (h : host = 91 :: x ++ 93 :: 58 :: p) (hne : x ≠ [])
      (hclose : 93 ∉ x) : Prescribed host x (some p)
  | bracket {x : List UInt8} (h : host = 91 :: x ++ [93]) (hne : x ≠ []) (hclose : 93 ∉ x) :
      Prescribed host x none
  | service {n p : List UInt8} (h : host = n ++ 58 :: p) (hne : n ≠ []) (hn : 58 ∉ n) (hp : 58 ∉ p)
      (hb : ¬ Bracketed host) : Prescribed host n (some p)
  | plain (h : 58 ∉ host) (hb : ¬ Bracketed host) : Prescribed host host none
  | bare (h : 2 ≤ host.count 58) (hopen : host.head? ≠ some 91) : Prescribed host host none

/-- The cut reads nothing behind the end, and is the prescribed one where there is one. -/
def Splits (host : List UInt8) : Prop :=
  ∃ node service, passed host = some (node, service) ∧
    ∀ node' service', Prescribed host node' service' → node' = node ∧ service' = service

/-- An address with colons and no brackets. -/
def Bare (host : List UInt8) : Prop := host.head? ≠ some 91 ∧ 2 ≤ host.count 58

/-- A closed bracket around at least one character, whatever stands behind it. -/
def Closed (host : List UInt8) : Prop := ∃ x rest, host = 91 :: x ++ 93 :: rest ∧ x ≠ [] ∧ 93 ∉ x

/-- Something other than a service behind a bracket, and at most one colon. -/
def Trailing (host : List UInt8) : Prop :=
  ∃ x c rest, host = 91 :: x ++ 93 :: c :: rest ∧ x ≠ [] ∧ 93 ∉ x ∧ c ≠ 58 ∧ host.count 58 ≤ 1

section
variable {host a post : List UInt8} {c : UInt8}

theorem charAt_append (pre post : List UInt8) (b : UInt8) :
    charAt (pre ++ b :: post) pre.length = some b := by
  rw [charAt, List.append_assoc, List.getElem?_append_right (Nat.le_refl _), Nat.sub_self]
  rfl

theorem charAt_end (host : List UInt8) : charAt host host.length = some 0 := by
  rw [charAt, List.getElem?_append_right (Nat.le_refl _), Nat.sub_self]
  rfl

/-- Induction on the characters that are passed over. -/
theorem memchr_found (pre post : List UInt8) {n : Nat} (h : c ∉ a) (hn : a.length < n) :
    memchr (pre ++ (a ++ c :: post)) c pre.length n = some (some (pre.length + a.length)) := by
  induction a generalizing pre n with
  | nil =>
    obtain ⟨m, rfl⟩ := Nat.exists_eq_succ_of_ne_zero (by simp at hn; omega : n ≠ 0)
    rw [List.nil_append, memchr, charAt_append]
    simp
  | cons d a ih =>
    obtain ⟨m, rfl⟩ := Nat.exists_eq_succ_of_ne_zero (by simp at hn; omega : n ≠ 0)
    have hd : d ≠ c := fun hd => h (hd ▸ List.mem_cons_self)
    have hm : a.length < m := Nat.lt_of_succ_lt_succ hn
    have hrest := ih (pre ++ [d]) (fun hc => h (List.mem_cons_of_mem d hc)) hm
    rw [List.append_assoc, List.length_append] at hrest
    rw [List.cons_append, memchr, charAt_append]
    simp only [Option.bind_eq_bind, Option.bind_some, if_neg hd, List.length_cons]
    rw [Nat.add_comm a.length 1, ← Nat.add_assoc]
    exact hrest

theorem memchr_absent (pre post : List UInt8) (h : c ∉ a) :
    memchr (pre ++ (a ++ post)) c pre.length a.length = some none := by
  induction a generalizing pre with
  | nil => rfl
  | cons d a ih =>
    have hd : d ≠ c := fun hd => h (hd ▸ List.mem_cons_self)
    have hrest := ih (pre ++ [d]) fun hc => h (List.mem_cons_of_mem d hc)
    rw [List.append_assoc, List.length_append] at hrest
    rw [List.cons_append, List.length_cons, memchr, charAt_append]
    simp only [Option.bind_eq_bind, Option.bind_some, if_neg hd]
    exact hrest

/-- The first occurrence cuts a text in one way. -/
theorem first_unique {a' post' : List UInt8} (h : c ∉ a) (h' : c ∉ a')
    (heq : a ++ c :: post = a' ++ c :: post') : a = a' ∧ post = post' := by
  induction a generalizing a' with
  | nil =>
    cases a' with
    | nil => exact ⟨rfl, (List.cons.inj heq).2⟩
    | cons d a' => exact absurd ((List.cons.inj heq).1 ▸ List.mem_cons_self) h'
  | cons d a ih =>
    cases a' with
    | nil => exact absurd ((List.cons.inj heq).1 ▸ List.mem_cons_self) h
    | cons d' a' =>
      obtain ⟨rfl, htail⟩ := List.cons.inj heq
      obtain ⟨rfl, rfl⟩ := ih (fun hc => h (List.mem_cons_of_mem d hc))
        (fun hc => h' (List.mem_cons_of_mem d hc)) htail
      exact ⟨rfl, rfl⟩

theorem checkIpv6_closed {x rest : List UInt8} (h : 93 ∉ x) :
    checkIpv6 (91 :: x ++ 93 :: rest) =
      some (x, if rest.head? = some 58 then some (x.length + 3) else none) := by
  have hopen : charAt (91 :: x ++ 93 :: rest) 0 = some 91 := rfl
  have hlength : (91 :: x ++ 93 :: rest).length - 1 = x.length + (rest.length + 1) := by simp
  have hclose : memchr ([91] ++ (x ++ 93 :: rest)) 93 1 ((91 :: x ++ 93 :: rest).length - 1) =
      some (some (1 + x.length)) := memchr_found [91] rest h (by omega)
  have hnext : charAt (91 :: x ++ 93 :: rest) (1 + x.length + 1) = some (rest.head?.getD 0) := by
    have hsize : 1 + x.length + 1 = (91 :: x ++ [93]).length := by simp [Nat.add_comm]
    have hsplit : 91 :: x ++ 93 :: rest = (91 :: x ++ [93]) ++ rest := by simp
    rw [hsize, hsplit]
    cases rest with
    | nil =>
      rw [List.append_nil]
      exact charAt_end _
    | cons c rest => exact charAt_append _ _ c
  have hnode : ((91 :: x ++ 93 :: rest).drop 1).take (1 + x.length - 1) = x := by
    rw [Nat.add_sub_cancel_left]
    exact List.take_left
  have hservice : rest.head?.getD 0 = 58 ↔ rest.head? = some 58 := by
    cases rest with
    | nil => simp
    | cons c rest => simp
  rw [checkIpv6, if_pos ⟨List.cons_ne_nil _ _, hopen⟩]
  rw [List.singleton_append] at hclose
  simp only [List.cons_append] at hclose hnext hnode ⊢
  simp only [hclose, hnext, hnode, hservice, Option.bind_eq_bind, Option.bind_some]
  congr 2
  split <;> simp [Nat.add_comm]

theorem checkIpv6_unclosed {x : List UInt8} (h : 93 ∉ x) : checkIpv6 (91 :: x) = some ([], none) := by
  have hopen : charAt (91 :: x) 0 = some 91 := rfl
  have hclose := memchr_absent [91] [] h
  rw [List.append_nil] at hclose
  rw [checkIpv6, if_pos ⟨List.cons_ne_nil _ _, hopen⟩]
  simp only [List.length_cons, Nat.add_sub_cancel]
  rw [List.singleton_append, List.length_singleton] at hclose
  rw [hclose]
  rfl

theorem checkIpv6_other (h : host.head? ≠ some 91) : checkIpv6 host = some ([], none) := by
  apply if_neg
  rintro ⟨hne, hopen⟩
  obtain ⟨b, t, rfl⟩ := List.exists_cons_of_ne_nil hne
  exact h hopen

/-- Either the node is that between the brackets, or the second check decides. -/
theorem checkIpv6_cases (host : List UInt8) :
    Closed host ∨ ((∃ service, checkIpv6 host = some ([], service)) ∧ ¬ Closed host) := by
  by_cases hopen : host.head? = some 91
  · obtain ⟨t, rfl⟩ := List.head?_eq_some_iff.mp hopen
    by_cases hclose : 93 ∈ t
    · obtain ⟨x, rest, rfl, hx⟩ := List.eq_append_cons_of_mem hclose
      by_cases hne : x = []
      · subst hne
        refine .inr ⟨⟨_, checkIpv6_closed hx⟩, ?_⟩
        rintro ⟨y, rest', hy, hyne, hyclose⟩
        rw [List.cons_append] at hy
        exact hyne (first_unique hyclose List.not_mem_nil (List.cons.inj hy).2.symm).1
      · exact .inl ⟨x, rest, rfl, hne, hx⟩
    · refine .inr ⟨⟨_, checkIpv6_unclosed hclose⟩, ?_⟩
      rintro ⟨y, rest', hy, -, -⟩
      rw [List.cons_append] at hy
      rw [(List.cons.inj hy).2] at hclose
      exact hclose (List.mem_append_right _ List.mem_cons_self)
  · refine .inr ⟨⟨_, checkIpv6_other hopen⟩, ?_⟩
    rintro ⟨y, rest', rfl, -, -⟩
    exact hopen rfl

theorem checkNode_plain (h : 58 ∉ host) : checkNode host = some ([], none) := by
  have hnone : memchr ([] ++ (host ++ [])) 58 0 host.length = some none := memchr_absent [] [] h
  rw [List.nil_append, List.append_nil] at hnone
  rw [checkNode, hnone]
  rfl

theorem checkNode_first {n p : List UInt8} (h : 58 ∉ n) :
    checkNode (n ++ 58 :: p) =
      some (if 58 ∈ p then ([], some n.length) else (n, some (n.length + 1))) := by
  have hlength : (n ++ 58 :: p).length = n.length + (p.length + 1) := List.length_append
  have hfirst : memchr ([] ++ (n ++ 58 :: p)) 58 0 (n ++ 58 :: p).length = some (some (0 + n.length)) :=
    memchr_found [] p h (by omega)
  have hrest : (n ++ 58 :: p).length - n.length - 1 = p.length := by omega
  have hpre : (n ++ [58]).length = n.length + 1 := List.length_append
  rw [List.nil_append, Nat.zero_add] at hfirst
  rw [checkNode, hfirst]
  simp only [Option.bind_eq_bind, Option.bind_some, hrest]
  by_cases hp : 58 ∈ p
  · obtain ⟨q, r, rfl, hq⟩ := List.eq_append_cons_of_mem hp
    have hsecond := memchr_found (n ++ [58]) r hq
      (by simp : q.length < (q ++ 58 :: r).length)
    rw [hpre, List.append_assoc] at hsecond
    rw [if_pos hp]
    exact congrArg (Option.bind · _) hsecond
  · have hsecond := memchr_absent (n ++ [58]) [] hp
    rw [hpre, List.append_nil, List.append_assoc] at hsecond
    rw [if_neg hp]
    refine (congrArg (Option.bind · _) hsecond).trans ?_
    rw [Option.bind_some, List.take_left]

theorem passed_closed {x rest : List UInt8} (hne : x ≠ []) (h : 93 ∉ x) :
    passed (91 :: x ++ 93 :: rest) =
      some (x, if rest.head? = some 58 then some rest.tail else none) := by
  have hdrop : (91 :: x ++ 93 :: rest).drop (x.length + 3) = rest.tail := by
    have hsize : x.length + 3 = (91 :: x ++ [93]).length + 1 := by simp
    have hsplit : 91 :: x ++ 93 :: rest = (91 :: x ++ [93]) ++ rest := by simp
    rw [hsize, hsplit, List.drop_length_add_append, List.drop_one]
  rw [passed, checkIpv6_closed h]
  simp only [Option.bind_eq_bind, Option.bind_some, if_neg hne]
  split
  · rw [Option.map_some, hdrop]
  · rfl

theorem passed_other (h : ∃ service, checkIpv6 host = some ([], service)) :
    passed host = (checkNode host).map fun cut =>
      (if cut.1 = [] then host else cut.1, cut.2.map host.drop) := by
  obtain ⟨service, hcheck⟩ := h
  rw [passed, hcheck]
  simp only [Option.bind_eq_bind, Option.bind_some, if_pos]
  cases checkNode host with
  | none => rfl
  | some cut => rfl

theorem passed_plain (hother : ∃ service, checkIpv6 host = some ([], service)) (h : 58 ∉ host) :
    passed host = some (host, none) := by
  rw [passed_other hother, checkNode_plain h]
  rfl

/-- The one colon ends the node; behind an empty node the whole host is left. -/
theorem passed_service {n p : List UInt8}
    (hother : ∃ service, checkIpv6 (n ++ 58 :: p) = some ([], service)) (hn : 58 ∉ n) (hp : 58 ∉ p) :
    passed (n ++ 58 :: p) = some (if n = [] then n ++ 58 :: p else n, some p) := by
  have hdrop : (n ++ 58 :: p).drop (n.length + 1) = p := by
    rw [List.drop_length_add_append]
    rfl
  rw [passed_other hother, checkNode_first hn, if_neg hp, Option.map_some, Option.map_some, hdrop]

/-- Of two colons the first is what `service` still points to. -/
theorem passed_bare {n p : List UInt8}
    (hother : ∃ service, checkIpv6 (n ++ 58 :: p) = some ([], service)) (hn : 58 ∉ n) (hp : 58 ∈ p) :
    passed (n ++ 58 :: p) = some (n ++ 58 :: p, some (58 :: p)) := by
  rw [passed_other hother, checkNode_first hn, if_pos hp, Option.map_some, Option.map_some,
    List.drop_left]
  rfl

theorem count_first {n p : List UInt8} (h : 58 ∉ n) : (n ++ 58 :: p).count 58 = p.count 58 + 1 := by
  rw [List.count_append, List.count_eq_zero.mpr h, List.count_cons_self, Nat.zero_add]

theorem Bracketed.closed (h : Bracketed host) : Closed host := by
  obtain ⟨x, rest, heq, hne, hclose, -⟩ := h
  exact ⟨x, rest, heq, hne, hclose⟩

theorem Trailing.closed (h : Trailing host) : Closed host := by
  obtain ⟨x, c, rest, heq, hne, hclose, -⟩ := h
  exact ⟨x, c :: rest, heq, hne, hclose⟩

theorem closed_unique {x rest y rest' : List UInt8} (hx : 93 ∉ x) (hy : 93 ∉ y)
    (h : 91 :: x ++ 93 :: rest = 91 :: y ++ 93 :: rest') : x = y ∧ rest = rest' :=
  first_unique hx hy (List.cons.inj h).2

/-- What is prescribed for a host that is no bracketed address. -/
theorem prescribed_other {node : List UInt8} {service : Option (List UInt8)} (hb : ¬ Bracketed host)
    (h : Prescribed host node service) :
    (∃ p, host = node ++ 58 :: p ∧ node ≠ [] ∧ 58 ∉ node ∧ 58 ∉ p ∧ service = some p) ∨
    (58 ∉ host ∧ node = host ∧ service = none) ∨
    (Bare host ∧ node = host ∧ service = none) := by
  cases h with
  | bracketService heq hne hclose => exact absurd ⟨_, _, heq, hne, hclose, .inr rfl⟩ hb
  | bracket heq hne hclose => exact absurd ⟨_, _, heq, hne, hclose, .inl rfl⟩ hb
  | service heq hne hn hp _ => exact .inl ⟨_, heq, hne, hn, hp, rfl⟩
  | plain h _ => exact .inr (.inl ⟨h, rfl, rfl⟩)
  | bare hcount hopen => exact .inr (.inr ⟨⟨hopen, hcount⟩, rfl, rfl⟩)

theorem splits_bracketed {x rest : List UInt8} (hne : x ≠ []) (hx : 93 ∉ x)
    (hrest : rest = [] ∨ rest.head? = some 58) : Splits (91 :: x ++ 93 :: rest) := by
  have hb : Bracketed (91 :: x ++ 93 :: rest) := ⟨x, rest, rfl, hne, hx, hrest⟩
  refine ⟨_, _, passed_closed hne hx, ?_⟩
  intro node service h
  cases h with
  | bracketService heq _ hclose =>
    obtain ⟨rfl, rfl⟩ := closed_unique hx hclose heq
    exact ⟨rfl, rfl⟩
  | bracket heq _ hclose =>
    obtain ⟨rfl, rfl⟩ := closed_unique hx hclose heq
    exact ⟨rfl, rfl⟩
  | service _ _ _ _ hother => exact absurd hb hother
  | plain _ hother => exact absurd hb hother
  | bare _ hopen => exact absurd rfl hopen

/-- Behind the bracket stands something else: the node is what the bracket holds all the same. -/
theorem splits_trailing_iff {x rest : List UInt8} {c : UInt8} (hne : x ≠ []) (hx : 93 ∉ x)
    (hc : c ≠ 58) :
    Splits (91 :: x ++ 93 :: c :: rest) ↔ 2 ≤ (91 :: x ++ 93 :: c :: rest).count 58 := by
  have hb : ¬ Bracketed (91 :: x ++ 93 :: c :: rest) := by
    rintro ⟨y, rest', heq, -, hy, hrest⟩
    obtain ⟨-, rfl⟩ := closed_unique hx hy heq
    rcases hrest with hnil | hhead
    · exact absurd hnil (List.cons_ne_nil _ _)
    · exact hc (Option.some.inj hhead)
  have hnot : ¬ (c :: rest).head? = some 58 := fun h => hc (Option.some.inj h)
  have hpassed : passed (91 :: x ++ 93 :: c :: rest) = some (x, none) :=
    (passed_closed hne hx).trans (by rw [if_neg hnot])
  constructor
  · rintro ⟨node, service, heq, hall⟩
    obtain ⟨rfl, rfl⟩ := Prod.mk.inj (Option.some.inj (hpassed.symm.trans heq))
    by_contra hfew
    by_cases hcolon : 58 ∈ 91 :: x ++ 93 :: c :: rest
    · obtain ⟨n, p, hsplit, hn⟩ := List.eq_append_cons_of_mem hcolon
      have hcount := count_first (p := p) hn
      rw [← hsplit] at hcount
      have hp : 58 ∉ p := List.count_eq_zero.mp (by omega)
      have hnne : n ≠ [] := by
        rintro rfl
        exact absurd (List.cons.inj hsplit).1 (by decide)
      exact absurd (hall _ _ (.service hsplit hnne hn hp hb)).2 (Option.some_ne_none _)
    · have hnode := (hall _ _ (.plain hcolon hb)).1
      have hlength := congrArg List.length hnode
      rw [List.length_append, List.length_cons, List.length_cons] at hlength
      omega
  · intro hcount
    refine ⟨_, _, hpassed, ?_⟩
    intro node service h
    rcases prescribed_other hb h with ⟨p, heq, -, hn, hp, -⟩ | ⟨hnone, -, -⟩ | ⟨hbare, -, -⟩
    · rw [heq, count_first hn, List.count_eq_zero.mpr hp] at hcount
      omega
    · rw [List.count_eq_zero.mpr hnone] at hcount
      omega
    · exact absurd rfl hbare.1

/-- Without a closed bracket only a bare address is cut wrongly. -/
theorem splits_other_iff (hother : ∃ service, checkIpv6 host = some ([], service))
    (hclosed : ¬ Closed host) : Splits host ↔ ¬ Bare host := by
  have hb : ¬ Bracketed host := fun h => hclosed h.closed
  by_cases hcolon : 58 ∈ host
  · obtain ⟨n, p, rfl, hn⟩ := List.eq_append_cons_of_mem hcolon
    by_cases hp : 58 ∈ p
    · have hcount : 2 ≤ (n ++ 58 :: p).count 58 := by
        have hpos := List.count_pos_iff.mpr hp
        rw [count_first hn]
        omega
      constructor
      · rintro ⟨node, service, heq, hall⟩ hbare
        obtain ⟨rfl, rfl⟩ := Prod.mk.inj (Option.some.inj ((passed_bare hother hn hp).symm.trans heq))
        exact absurd (hall _ _ (.bare hcount hbare.1)).2.symm (Option.some_ne_none _)
      · intro hbare
        refine ⟨_, _, passed_bare hother hn hp, ?_⟩
        intro node service h
        rcases prescribed_other hb h with ⟨q, heq, -, hn', hq, -⟩ | ⟨hnone, -, -⟩ | ⟨h, -, -⟩
        · obtain ⟨-, rfl⟩ := first_unique hn hn' heq
          exact absurd hp hq
        · exact absurd hcolon hnone
        · exact absurd h hbare
    · have hbare : ¬ Bare (n ++ 58 :: p) := by
        rintro ⟨-, hcount⟩
        rw [count_first hn, List.count_eq_zero.mpr hp] at hcount
        omega
      refine iff_of_true ⟨_, _, passed_service hother hn hp, ?_⟩ hbare
      intro node service h
      rcases prescribed_other hb h with ⟨q, heq, hne, hn', -, rfl⟩ | ⟨hnone, -, -⟩ | ⟨h, -, -⟩
      · obtain ⟨rfl, rfl⟩ := first_unique hn hn' heq
        exact ⟨(if_neg hne).symm, rfl⟩
      · exact absurd hcolon hnone
      · exact absurd h hbare
  · have hbare : ¬ Bare host := by
      rintro ⟨-, hcount⟩
      rw [List.count_eq_zero.mpr hcolon] at hcount
      omega
    refine iff_of_true ⟨_, _, passed_plain hother hcolon, ?_⟩ hbare
    intro node service h
    rcases prescribed_other hb h with ⟨q, rfl, -, -, -, -⟩ | ⟨-, hnode, hservice⟩ | ⟨h, -, -⟩
    · exact absurd (List.mem_append_right _ List.mem_cons_self) hcolon
    · exact ⟨hnode, hservice⟩
    · exact absurd h hbare

theorem splits_iff (host : List UInt8) : Splits host ↔ ¬ Bare host ∧ ¬ Trailing host := by
  rcases checkIpv6_cases host with ⟨x, rest, rfl, hne, hx⟩ | ⟨hother, hclosed⟩
  · have hbare : ¬ Bare (91 :: x ++ 93 :: rest) := fun h => h.1 rfl
    by_cases hrest : rest = [] ∨ rest.head? = some 58
    · refine iff_of_true (splits_bracketed hne hx hrest) ⟨hbare, ?_⟩
      rintro ⟨y, c, rest', heq, -, hy, hc, -⟩
      obtain ⟨rfl, rfl⟩ := closed_unique hx hy heq
      rcases hrest with hnil | hhead
      · exact absurd hnil (List.cons_ne_nil _ _)
      · exact hc (Option.some.inj hhead)
    · obtain ⟨c, t, rfl⟩ := List.exists_cons_of_ne_nil fun h => hrest (.inl h)
      have hc : c ≠ 58 := by
        rintro rfl
        exact hrest (.inr rfl)
      rw [splits_trailing_iff hne hx hc]
      constructor
      · intro hcount
        refine ⟨hbare, ?_⟩
        rintro ⟨y, d, rest', -, -, -, -, hfew⟩
        omega
      · rintro ⟨-, htrailing⟩
        by_contra hfew
        exact htrailing ⟨x, c, t, rfl, hne, hx, hc, by omega⟩
  · rw [splits_other_iff hother hclosed]
    exact (and_iff_left fun h => hclosed h.closed).symm

/-- `"fe80::1"` goes out with the service `"::1"`. -/
theorem bare_address_split : ¬ ∀ host, Splits host := by
  intro hall
  have hbare : passed [102, 101, 56, 48, 58, 58, 49] =
      some ([102, 101, 56, 48, 58, 58, 49], some [58, 58, 49]) := by decide
  obtain ⟨node, service, heq, hprescribed⟩ := hall [102, 101, 56, 48, 58, 58, 49]
  obtain ⟨rfl, rfl⟩ := Prod.mk.inj (Option.some.inj (hbare.symm.trans heq))
  exact absurd (hprescribed _ _ (.bare (by decide) (by decide))).2.symm (Option.some_ne_none _)

end

end HCServer.Lookup
