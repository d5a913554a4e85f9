import MiniHedge.Library.Mapping
import MiniHedge.Python.Values
import MiniHedge.Library.Quotes
import Mathlib.Data.List.Induction

/-! `FXConverter`: rates by currency pair, with triangulation through the dollar.

A rate is what one unit of the first currency of its pair costs in the second.
-/

set_option autoImplicit false

namespace MiniHedge.MarketData

open MiniHedge.Python MiniHedge.Library

/-- The key of a pair. -/
def currencyPair (base quote : String) : String := base ++ "/" ++ quote

structure FXConverter where
  rates : List (String × Decimal) := []
  deriving DecidableEq, Repr

namespace FXConverter

variable (fx : FXConverter)

def updateRate (base quote : String) (rate : Decimal) : FXConverter where
  rates := setItem (currencyPair base quote) rate fx.rates

def rateToUsd (ccy : String) : Option Decimal :=
  if ccy = "USD" then some 1
  else match fx.rates.lookup (currencyPair "USD" ccy) with
    | some usdToCcy => if usdToCcy ≠ 0 then some (1 / usdToCcy) else none
    | none => none

def rateFromUsd (ccy : String) : Option Decimal :=
  if ccy = "USD" then some 1 else fx.rates.lookup (currencyPair "USD" ccy)

def triangulated (fromCcy toCcy : String) : Option Decimal :=
  match fx.rateToUsd fromCcy, fx.rateFromUsd toCcy with
  | some fromToUsd, some usdToTarget =>
    if usdToTarget ≠ 0 then some (fromToUsd * usdToTarget) else none
  | _, _ => none

/-- The rate of the pair, or that of the inverse pair, or one through the dollar. -/
def getRate (fromCcy toCcy : String) : Option Decimal :=
  if fromCcy = toCcy then some 1
  else match fx.rates.lookup (currencyPair fromCcy toCcy) with
    | some direct => some direct
    | none =>
      match fx.rates.lookup (currencyPair toCcy fromCcy) with
      | some inverse => if inverse ≠ 0 then some (1 / inverse) else fx.triangulated fromCcy toCcy
      | none => fx.triangulated fromCcy toCcy

def convert (amount : Decimal) (fromCcy toCcy : String) : Option Decimal :=
  (fx.getRate fromCcy toCcy).map (amount * ·)

end FXConverter

/-! ## Conversion to a base currency -/

section ToBase

variable (fx : Option FXConverter)

/-- `_to_base`: where there is no rate, the amount is what it is. -/
def toBase (amount : Decimal) (fromCcy baseCcy : String) : Decimal :=
  if fromCcy = baseCcy then amount
  else match fx with
    | none => amount
    | some fx => (fx.convert amount fromCcy baseCcy).getD amount

/-- What a unit of the currency counts in the base currency. -/
def baseRate (fromCcy baseCcy : String) : Decimal :=
  if fromCcy = baseCcy then 1
  else match fx with
    | none => 1
    | some fx => (fx.getRate fromCcy baseCcy).getD 1

variable {fx}

theorem toBase_eq (amount : Decimal) (fromCcy baseCcy : String) :
    toBase fx amount fromCcy baseCcy = amount * baseRate fx fromCcy baseCcy := by
  unfold toBase baseRate
  split
  · rw [mul_one]
  · cases fx with
    | none => rw [mul_one]
    | some fx =>
      simp only [FXConverter.convert]
      cases fx.getRate fromCcy baseCcy with
      | none => simp
      | some rate => rfl

end ToBase

/-! ## Rates that were all quoted in dollars fit together

The pairs are kept by one text. The handler of the rates takes no pair with a second
slash in it, so that no currency begins as a pair of the dollar does.
-/

/-- A currency that does not begin as a pair of the dollar does. -/
def Plain (ccy : String) : Prop := ¬ "USD/".toList <+: ccy.toList

instance (ccy : String) : Decidable (Plain ccy) := inferInstanceAs (Decidable (¬ _))

/-- Of a plain currency only the dollar itself has the pairs of the dollar. -/
theorem currencyPair_usd {a b quote : String} (plain : Plain a)
    (same : currencyPair a b = currencyPair "USD" quote) : a = "USD" ∧ b = quote := by
  have texts := congrArg String.toList same
  simp only [currencyPair, String.toList_append] at texts
  have usd : "USD".toList = ['U', 'S', 'D'] := rfl
  have slash : "/".toList = ['/'] := rfl
  rw [usd, slash, List.append_assoc, List.append_assoc] at texts
  unfold Plain at plain
  have usdSlash : "USD/".toList = ['U', 'S', 'D', '/'] := rfl
  rw [usdSlash] at plain
  -- where the first slash of the text stands
  match letters : a.toList with
  | [] => simp [letters] at texts
  | [_] => simp [letters] at texts
  | [_, _] => simp [letters] at texts
  | [x, y, z] =>
    simp only [letters, List.cons_append, List.nil_append, List.cons.injEq, true_and] at texts
    obtain ⟨rfl, rfl, rfl, rest⟩ := texts
    exact ⟨String.toList_injective letters, String.toList_injective rest⟩
  | x :: y :: z :: w :: more =>
    simp only [letters, List.cons_append, List.nil_append, List.cons.injEq] at texts
    obtain ⟨rfl, rfl, rfl, rfl, -⟩ := texts
    exact absurd ⟨more, letters.symm⟩ plain

namespace FXConverter

/-- The converter after so many quotes of the dollar, the last one last. -/
def quoted (history : List (String × Decimal)) : FXConverter :=
  history.foldl (fun fx update => fx.updateRate "USD" update.1 update.2) {}

/-- Only pairs of the dollar are held, those that were quoted, with positive rates. -/
structure Dollar (fx : FXConverter) (quotes : List String) : Prop where
  pairs : ∀ pair rate, fx.rates.lookup pair = some rate → ∃ quote, pair = currencyPair "USD" quote
  positive : ∀ pair rate, fx.rates.lookup pair = some rate → 0 < rate
  held : ∀ quote, (fx.rates.lookup (currencyPair "USD" quote)).isSome ↔ quote ∈ quotes

theorem plain_usd : Plain "USD" := by decide

theorem Dollar.updateRate {fx : FXConverter} {quotes : List String} (dollar : fx.Dollar quotes) (quote : String)
    {rate : Decimal} (positive : 0 < rate) : (fx.updateRate "USD" quote rate).Dollar (quotes ++ [quote]) := by
  have written : ∀ pair, (fx.updateRate "USD" quote rate).rates.lookup pair =
      if pair = currencyPair "USD" quote then some rate else fx.rates.lookup pair :=
    lookup_setItem (currencyPair "USD" quote) rate fx.rates
  constructor
  · intro pair found held
    rw [written] at held
    split at held
    · rename_i own
      exact ⟨quote, own⟩
    · exact dollar.pairs pair found held
  · intro pair found held
    rw [written] at held
    split at held
    · exact Option.some.inj held ▸ positive
    · exact dollar.positive pair found held
  · intro other
    rw [written, List.mem_append, List.mem_singleton]
    split
    · rename_i own
      exact iff_of_true rfl (.inr (currencyPair_usd plain_usd own).2)
    · rename_i another
      rw [dollar.held]
      constructor
      · exact .inl
      · rintro (before | rfl)
        · exact before
        · exact absurd rfl another

theorem dollar_quoted {history : List (String × Decimal)} (positive : ∀ update ∈ history, 0 < update.2) :
    (quoted history).Dollar (history.map (·.1)) := by
  induction history using List.reverseRecOn with
  | nil => exact ⟨nofun, nofun, fun _ => by simp [quoted]⟩
  | append_singleton earlier update ih =>
    have before := ih fun other member => positive other (List.mem_append_left _ member)
    have next := before.updateRate update.1 (positive update (by simp))
    rw [quoted, List.foldl_append, List.map_append]
    exact next

section Held

variable {fx : FXConverter} {quotes : List String} (dollar : fx.Dollar quotes)
include dollar

/-- No other pair of a plain currency is found. -/
theorem Dollar.lookup_other {a b : String} (plain : Plain a) (other : a ≠ "USD") :
    fx.rates.lookup (currencyPair a b) = none := by
  by_contra found
  obtain ⟨rate, held⟩ := Option.ne_none_iff_exists'.mp found
  obtain ⟨quote, same⟩ := dollar.pairs _ _ held
  exact other (currencyPair_usd plain same).1

theorem Dollar.rateFromUsd_ne {ccy : String} {rate : Decimal} (found : fx.rateFromUsd ccy = some rate) : rate ≠ 0 := by
  unfold rateFromUsd at found
  split at found
  · cases found
    exact one_ne_zero
  · exact (dollar.positive _ _ found).ne'

theorem Dollar.isSome_rateFromUsd (ccy : String) : (fx.rateFromUsd ccy).isSome ↔ ccy = "USD" ∨ ccy ∈ quotes := by
  unfold rateFromUsd
  split
  · rename_i usd
    exact iff_of_true rfl (.inl usd)
  · rename_i other
    rw [dollar.held]
    simp [other]

theorem Dollar.rateToUsd_eq (ccy : String) : fx.rateToUsd ccy = (fx.rateFromUsd ccy).map (1 / ·) := by
  unfold rateToUsd rateFromUsd
  split
  · norm_num
  · split
    · rename_i rate held
      rw [if_pos (dollar.positive _ _ held).ne', held]
      rfl
    · rename_i none_held
      rw [none_held]
      rfl

theorem Dollar.triangulated_eq {a b : String} (other : a ≠ b) :
    fx.triangulated a b = rateOf fx.rateFromUsd a b := by
  rw [triangulated, dollar.rateToUsd_eq, rateOf, if_neg other]
  cases fx.rateFromUsd a with
  | none => rfl
  | some u =>
    cases found : fx.rateFromUsd b with
    | none => rfl
    | some v =>
      simp only [Option.map_some, ne_eq, dollar.rateFromUsd_ne found, not_false_eq_true, if_true]
      rw [one_div_mul_eq_div]

/-- Direct, inverse or through the dollar, a rate is what the dollar buys of one for what it buys of the other. -/
theorem Dollar.getRate_eq {a b : String} (plainA : Plain a) (plainB : Plain b) :
    fx.getRate a b = rateOf fx.rateFromUsd a b := by
  unfold getRate
  by_cases same : a = b
  · rw [if_pos same, rateOf, if_pos same]
  · rw [if_neg same]
    by_cases fromUsd : a = "USD"
    · subst fromUsd
      have own : fx.rateFromUsd b = fx.rates.lookup (currencyPair "USD" b) := if_neg (Ne.symm same)
      cases direct : fx.rates.lookup (currencyPair "USD" b) with
      | some rate =>
        rw [rateOf, if_neg same, own, direct]
        simp [rateFromUsd]
      | none =>
        rw [dollar.lookup_other plainB (Ne.symm same)]
        exact dollar.triangulated_eq same
    · rw [dollar.lookup_other plainA fromUsd]
      by_cases toUsd : b = "USD"
      · subst toUsd
        have own : fx.rateFromUsd a = fx.rates.lookup (currencyPair "USD" a) := if_neg fromUsd
        cases inverse : fx.rates.lookup (currencyPair "USD" a) with
        | some rate =>
          have nonzero := (dollar.positive _ _ inverse).ne'
          rw [rateOf, if_neg same, own, inverse]
          simp [rateFromUsd, nonzero]
        | none => exact dollar.triangulated_eq same
      · rw [dollar.lookup_other plainB toUsd]
        exact dollar.triangulated_eq same

end Held

/-- An amount that is converted from currency to currency. -/
def convertAlong (fx : FXConverter) : Decimal → String → List String → Option Decimal
  | amount, _, [] => some amount
  | amount, fromCcy, toCcy :: path =>
    (fx.convert amount fromCcy toCcy).bind fun amount => convertAlong fx amount toCcy path

theorem convertAlong_eq (fx : FXConverter) (amount : Decimal) (fromCcy : String) (path : List String) :
    fx.convertAlong amount fromCcy path = along fx.getRate amount fromCcy path := by
  induction path generalizing amount fromCcy with
  | nil => rfl
  | cons toCcy path ih =>
    rw [convertAlong, along, convert]
    cases fx.getRate fromCcy toCcy with
    | none => rfl
    | some rate => exact ih (amount * rate) toCcy

/-- No round of conversions earns or loses anything. -/
structure NoArbitrage (fx : FXConverter) (quotes : List String) : Prop where
  inverse : ∀ a b r, Plain a → Plain b → fx.getRate a b = some r →
    ∃ s, fx.getRate b a = some s ∧ r * s = 1
  triangle : ∀ a b c r s, Plain a → Plain b → Plain c → fx.getRate a b = some r →
    fx.getRate b c = some s → fx.getRate a c = some (r * s)
  available : ∀ a b, Plain a → Plain b → ((fx.getRate a b).isSome ↔
    a = b ∨ (a = "USD" ∨ a ∈ quotes) ∧ (b = "USD" ∨ b ∈ quotes))
  path : ∀ a path, Plain a → (∀ b ∈ path, Plain b) → ∀ amount result,
    fx.convertAlong amount a path = some result →
      fx.convert amount a ((a :: path).getLast (List.cons_ne_nil a path)) = some result

theorem Dollar.consistent {fx : FXConverter} {quotes : List String} (dollar : fx.Dollar quotes) :
    Consistent fx.getRate Plain := by
  have rates : Consistent (rateOf fx.rateFromUsd) Plain :=
    consistent_rateOf (fun _ _ found => dollar.rateFromUsd_ne found) Plain
  constructor
  · intro a plain
    rw [dollar.getRate_eq plain plain]
    exact rates.self a plain
  · intro a b r plainA plainB found
    rw [dollar.getRate_eq plainA plainB] at found
    rw [dollar.getRate_eq plainB plainA]
    exact rates.inverse a b r plainA plainB found
  · intro a b c r s plainA plainB plainC first second
    rw [dollar.getRate_eq plainA plainB] at first
    rw [dollar.getRate_eq plainB plainC] at second
    rw [dollar.getRate_eq plainA plainC]
    exact rates.triangle a b c r s plainA plainB plainC first second

theorem Dollar.noArbitrage {fx : FXConverter} {quotes : List String} (dollar : fx.Dollar quotes) :
    fx.NoArbitrage quotes where
  inverse := dollar.consistent.inverse
  triangle := dollar.consistent.triangle
  available a b plainA plainB := by
    rw [dollar.getRate_eq plainA plainB, isSome_rateOf, dollar.isSome_rateFromUsd, dollar.isSome_rateFromUsd]
  path a path plain places amount result converted := by
    rw [convertAlong_eq] at converted
    obtain ⟨rate, found, rfl⟩ := dollar.consistent.along plain places converted
    rw [convert, found]
    rfl

/-- After any quotes of the dollar. -/
theorem no_arbitrage {history : List (String × Decimal)} (positive : ∀ update ∈ history, 0 < update.2) :
    (quoted history).NoArbitrage (history.map (·.1)) :=
  (dollar_quoted positive).noArbitrage

theorem no_arbitrage_two : (quoted [("GBP", 4 / 5), ("JPY", 150)]).NoArbitrage ["GBP", "JPY"] :=
  no_arbitrage (by decide +kernel)

end FXConverter

end MiniHedge.MarketData
