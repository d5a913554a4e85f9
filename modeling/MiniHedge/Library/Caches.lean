import Mathlib.Data.List.Basic
import Mathlib.Logic.Function.Basic

/-! Caches whose entries expire.

An entry is found until its time has come, unless it is replaced or evicted
before. What is said of the entries when they are stored is true of every value
that is found.
-/

set_option autoImplicit false

namespace MiniHedge.Library

section Expiry

variable {κ ν : Type}

structure TtlCache.Entry (κ ν : Type) where
  key : κ
  value : ν
  expires : Int
  deriving DecidableEq, Repr

abbrev TtlCache (κ ν : Type) := List (TtlCache.Entry κ ν)

namespace TtlCache

variable (cache : TtlCache κ ν)

def evict (gone : κ → Bool) : TtlCache κ ν := cache.filter fun e => ¬ gone e.key

theorem mem_evict {cache : TtlCache κ ν} {gone : κ → Bool} {e : Entry κ ν} :
    e ∈ cache.evict gone ↔ e ∈ cache ∧ gone e.key = false := by
  simp [evict]

variable [DecidableEq κ]

def get (now : Int) (key : κ) : Option ν :=
  (cache.find? fun e => e.key = key ∧ now < e.expires).map (·.value)

def set (expires : Int) (key : κ) (value : ν) : TtlCache κ ν :=
  ⟨key, value, expires⟩ :: cache.evict (· = key)

variable {cache}

@[simp] theorem get_nil (now : Int) (key : κ) : get ([] : TtlCache κ ν) now key = none := rfl

theorem mem_of_get {now : Int} {key : κ} {value : ν} (found : cache.get now key = some value) :
    ∃ e ∈ cache, e.key = key ∧ e.value = value ∧ now < e.expires := by
  obtain ⟨e, first, rfl⟩ := Option.map_eq_some_iff.mp found
  have fits := List.find?_some first
  simp only [decide_eq_true_eq] at fits
  exact ⟨e, List.mem_of_find?_eq_some first, fits.1, rfl, fits.2⟩

theorem isSome_get {now : Int} {e : Entry κ ν} (member : e ∈ cache) (ahead : now < e.expires) :
    (cache.get now e.key).isSome = true := by
  unfold get
  rw [Option.isSome_map, List.find?_isSome]
  exact ⟨e, member, by simp [ahead]⟩

theorem mem_set {expires : Int} {key : κ} {value : ν} {e : Entry κ ν} :
    e ∈ cache.set expires key value ↔ e = ⟨key, value, expires⟩ ∨ e ∈ cache ∧ e.key ≠ key := by
  simp [set, mem_evict]

end TtlCache

end Expiry

/-! ## Caches that are filled with answers, some of them stale

An answer is stale when it was evaluated before a change, which only concerns
some of the keys. A cache is fresh when nothing stale is found under those:
storing a fresh answer and dropping entries keep it so, and dropping all that
the change concerns makes it so. How long an entry lives is left open.
-/

structure Dated (α : Type) where
  value : α
  stale : Bool
  deriving DecidableEq, Repr

/-- The answer to a question that the change concerns or not. -/
def Dated.about {α : Type} (answer : Dated α) (concerned : Bool) : Dated α :=
  { answer with stale := answer.stale && concerned }

abbrev Memo (κ ν : Type) := κ → Option (Dated ν)

namespace Memo

variable {κ ν : Type}

def empty : Memo κ ν := fun _ => none

def drop (memo : Memo κ ν) (gone : κ → Bool) : Memo κ ν :=
  fun key => if gone key then none else memo key

def store [DecidableEq κ] (memo : Memo κ ν) (key : κ) (answer : Dated ν) : Memo κ ν :=
  Function.update memo key (some answer)

/-- What can be found meets the condition. -/
def All (memo : Memo κ ν) (condition : κ → Dated ν → Prop) : Prop :=
  ∀ key answer, memo key = some answer → condition key answer

def Fresh (memo : Memo κ ν) (concerned : κ → Bool) : Prop :=
  memo.All fun key answer => (answer.about (concerned key)).stale = false

variable {memo : Memo κ ν} {condition : κ → Dated ν → Prop}

theorem All.empty : (Memo.empty : Memo κ ν).All condition := by
  intro key answer found
  cases found

theorem All.store [DecidableEq κ] {key : κ} {answer : Dated ν} (all : memo.All condition)
    (met : condition key answer) : (memo.store key answer).All condition := by
  intro key' answer' found
  unfold Memo.store at found
  rw [Function.update_apply] at found
  split at found
  · rename_i same
    cases found
    exact same ▸ met
  · exact all key' answer' found

theorem All.drop {gone : κ → Bool} (all : memo.All condition) : (memo.drop gone).All condition := by
  intro key answer found
  unfold Memo.drop at found
  split at found
  · cases found
  · exact all key answer found

theorem Fresh.about {concerned : κ → Bool} {key : κ} {answer : Dated ν}
    (fresh : memo.Fresh concerned) (found : memo key = some answer) :
    (answer.about (concerned key)).stale = false :=
  fresh key answer found

/-- Dropping what the change concerns leaves nothing stale. -/
theorem fresh_drop (memo : Memo κ ν) (concerned : κ → Bool) :
    (memo.drop concerned).Fresh concerned := by
  intro key answer found
  unfold Memo.drop at found
  split at found
  · cases found
  · rename_i other
    simp [Dated.about, other]

end Memo

end MiniHedge.Library
