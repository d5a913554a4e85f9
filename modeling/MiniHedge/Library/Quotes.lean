import Mathlib.Algebra.Field.Basic
import Mathlib.Tactic.FieldSimp

/-! Rates between things of which a common measure buys so much: no way around gains or loses. -/

set_option autoImplicit false

namespace MiniHedge.Library

section Rates

variable {κ K : Type} [Field K]

/-- Rates among some things, where they exist, that fit together. -/
structure Consistent (rate : κ → κ → Option K) (among : κ → Prop) : Prop where
  self : ∀ a, among a → rate a a = some 1
  inverse : ∀ a b r, among a → among b → rate a b = some r → ∃ s, rate b a = some s ∧ r * s = 1
  triangle : ∀ a b c r s, among a → among b → among c → rate a b = some r → rate b c = some s →
    rate a c = some (r * s)

/-- An amount that is changed from thing to thing. -/
def along (rate : κ → κ → Option K) : K → κ → List κ → Option K
  | amount, _, [] => some amount
  | amount, a, b :: path => (rate a b).bind fun r => along rate (amount * r) b path

/-- Whatever the path is, it comes to what changing at once would. -/
theorem Consistent.along {rate : κ → κ → Option K} {among : κ → Prop} (consistent : Consistent rate among)
    {a : κ} {path : List κ} (start : among a) (places : ∀ b ∈ path, among b) {amount result : K}
    (changed : along rate amount a path = some result) :
    ∃ r, rate a ((a :: path).getLast (List.cons_ne_nil a path)) = some r ∧ result = amount * r := by
  induction path generalizing a amount with
  | nil =>
    have unchanged : amount = result := Option.some.inj changed
    exact ⟨1, consistent.self a start, by rw [mul_one, unchanged]⟩
  | cons b path ih =>
    obtain ⟨r, first, later⟩ := Option.bind_eq_some_iff.mp changed
    have next := places b List.mem_cons_self
    obtain ⟨s, rest, total⟩ := ih next (fun c member => places c (List.mem_cons_of_mem b member)) later
    rw [List.getLast_cons (List.cons_ne_nil b path)]
    have last : among ((b :: path).getLast (List.cons_ne_nil b path)) := by
      apply places
      exact List.getLast_mem _
    exact ⟨r * s, consistent.triangle _ _ _ r s start next last first rest, by rw [total, mul_assoc]⟩

variable [DecidableEq κ] (measure : κ → Option K)

/-- How much of the second thing one of the first buys, where the measure buys so much of each. -/
def rateOf (a b : κ) : Option K :=
  if a = b then some 1
  else match measure a, measure b with
    | some u, some v => some (v / u)
    | _, _ => none

theorem rateOf_self (a : κ) : rateOf measure a a = some 1 := if_pos rfl

theorem isSome_rateOf {a b : κ} :
    (rateOf measure a b).isSome ↔ a = b ∨ (measure a).isSome ∧ (measure b).isSome := by
  unfold rateOf
  by_cases same : a = b
  · simp [same]
  · rw [if_neg same]
    cases measure a with
    | none => simp [same]
    | some u =>
      cases measure b with
      | none => simp [same]
      | some v => simp

variable {measure}

theorem rateOf_eq_some {a b : κ} {r : K} (other : a ≠ b) :
    rateOf measure a b = some r ↔ ∃ u v, measure a = some u ∧ measure b = some v ∧ v / u = r := by
  unfold rateOf
  rw [if_neg other]
  cases measure a with
  | none => simp
  | some u =>
    cases measure b with
    | none => simp
    | some v => simp

/-- Where of nothing the measure buys nothing, the rates fit together. -/
theorem consistent_rateOf (nonzero : ∀ a u, measure a = some u → u ≠ 0) (among : κ → Prop) :
    Consistent (rateOf measure) among := by
  have triangle : ∀ a b c r s, rateOf measure a b = some r → rateOf measure b c = some s →
      rateOf measure a c = some (r * s) := by
    intro a b c r s first second
    by_cases here : a = b
    · subst here
      rw [rateOf_self, Option.some.injEq] at first
      rw [← first, one_mul, second]
    · by_cases there : b = c
      · subst there
        rw [rateOf_self, Option.some.injEq] at second
        rw [← second, mul_one, first]
      · obtain ⟨u, v, ofA, ofB, rfl⟩ := (rateOf_eq_some here).mp first
        obtain ⟨v', w, ofB', ofC, rfl⟩ := (rateOf_eq_some there).mp second
        obtain rfl : v = v' := Option.some.inj (ofB.symm.trans ofB')
        have u_ne := nonzero a u ofA
        have v_ne := nonzero b v ofB
        by_cases around : a = c
        · subst around
          obtain rfl : u = w := Option.some.inj (ofA.symm.trans ofC)
          rw [rateOf_self, Option.some.injEq]
          field_simp
        · rw [rateOf_eq_some around]
          exact ⟨u, w, ofA, ofC, by field_simp⟩
  constructor
  · exact fun a _ => rateOf_self measure a
  · intro a b r _ _ first
    have back : (rateOf measure b a).isSome := by
      rw [isSome_rateOf, eq_comm, and_comm, ← isSome_rateOf, first]
      rfl
    obtain ⟨s, second⟩ := Option.isSome_iff_exists.mp back
    have round := triangle a b a r s first second
    rw [rateOf_self, Option.some.injEq] at round
    exact ⟨s, second, round.symm⟩
  · exact fun a b c r s _ _ _ => triangle a b c r s

end Rates

end MiniHedge.Library
