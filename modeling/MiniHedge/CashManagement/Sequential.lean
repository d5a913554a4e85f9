import MiniHedge.CashManagement.Service
import MiniHedge.Library.Transition

/-! Calls for settlements made one after the other.

A call may be cut before or after any of its statements, and the next one starts
on what it has left. Nothing else writes in between, so a balance is written on
the record that is stored.
-/

set_option autoImplicit false

namespace MiniHedge.CashManagement

open MiniHedge.Python MiniHedge.Library

/-! ## Calls for settlements -/

inductive Call where
  | create (r : SettlementRequest)
  | processDue (asOf : Date)
  | retry (id : Nat)
  deriving DecidableEq, Repr

def Call.program : Call → Program
  | .create r => createSettlement r
  | .processDue asOf => processDueSettlements asOf
  | .retry id => retrySettlement id

/-- The tables, and the call under way. -/
structure Till where
  tables : Tables := {}
  program : Program := []
  deriving DecidableEq

inductive Occasion where
  | call (c : Call)
  | turn (ending : Ending)
  deriving DecidableEq, Repr

/-- Turns in which nothing is raised. -/
def returning (n : Nat) : List Occasion := List.replicate n (.turn .returned)

variable (getByTicker : String → Except Exc (Option String))

def till : System Till Occasion where
  step s
    | .call c => if s.program = [] then some { s with program := c.program } else none
    | .turn ending => do
      let (tables, program) ← s.program.next getByTicker s.tables ending
      return ⟨tables, program⟩

variable {getByTicker} {s s' : Till} {t t' : Tables} {p p' : Program}

theorem till_call {c : Call} (stepped : (till getByTicker).step s (.call c) = some s') :
    s.program = [] ∧ s' = { s with program := c.program } := by
  simp only [till] at stepped
  split at stepped
  · rename_i idle
    cases stepped
    exact ⟨idle, rfl⟩
  · cases stepped

theorem till_turn {ending : Ending}
    (stepped : (till getByTicker).step s (.turn ending) = some s') :
    s.program.next getByTicker s.tables ending = some (s'.tables, s'.program) := by
  simp only [till, Option.bind_eq_bind, Option.bind_eq_some_iff, Option.pure_def,
    Option.some.injEq] at stepped
  obtain ⟨⟨tables, program⟩, moved, rfl⟩ := stepped
  exact moved

/-! ## What is written is written on what is stored -/

/-- What the statement was given is what the tables hold. -/
def Statement.Fresh (t : Tables) : Statement → Prop
  | .findRow cause record => record = t.balance cause.account
  | .storeRow cause record found =>
    record = t.balance cause.account ∧ found = (t.balance cause.account).isSome
  | _ => True

def Program.Fresh (t : Tables) : Program → Prop
  | [] => True
  | head :: rest => head.Fresh t ∧ ∀ st ∈ rest, st.isUpsert = false

theorem Statement.fresh_of_not_upsert {st : Statement} (other : st.isUpsert = false) :
    st.Fresh t := by
  cases st with
  | findRow cause record => cases other
  | storeRow cause record found => cases other
  | _ => trivial

theorem fresh_of_no_upsert (others : ∀ st ∈ p, st.isUpsert = false) : p.Fresh t := by
  cases p with
  | nil => trivial
  | cons head rest =>
    exact ⟨Statement.fresh_of_not_upsert (others head (by simp)),
      fun st member => others st (by simp [member])⟩

theorem process_no_upsert {settlements : List Settlement} {st : Statement}
    (member : st ∈ settlements.flatMap Settlement.process) : st.isUpsert = false := by
  obtain ⟨s, -, inside⟩ := List.mem_flatMap.mp member
  obtain ⟨m, -, shape⟩ := process_shape s
  rw [shape] at inside
  simp only [List.mem_cons, List.not_mem_nil, or_false] at inside
  rcases inside with rfl | rfl <;> rfl

theorem Call.fresh (c : Call) : c.program.Fresh t := by
  cases c <;> exact ⟨trivial, by simp⟩

theorem Program.Fresh.next {ending : Ending} (fresh : p.Fresh t)
    (moved : p.next getByTicker t ending = some (t', p')) : p'.Fresh t' := by
  obtain ⟨statement, rest, rfl, ⟨-, rfl, -⟩ | ⟨more, executed, ⟨-, rfl⟩ | ⟨-, rfl⟩⟩⟩ :=
    Program.next_cases moved
  · trivial
  · obtain ⟨own, others⟩ := fresh
    have unheld : (∀ st ∈ more, st.isUpsert = false) → (more ++ rest).Fresh t' := fun new =>
      fresh_of_no_upsert fun st member =>
        (List.mem_append.mp member).elim (new st) (others st)
    cases executed with
    | readMoved m | readRegistered r => exact ⟨rfl, by simpa [Statement.isUpsert] using others⟩
    | found cause record => exact ⟨⟨own, rfl⟩, by simpa using others⟩
    | due asOf => exact unheld fun st member => process_no_upsert member
    | looked r settlementDate => exact unheld (by simp [Statement.isUpsert])
    | inserted | stored | journaled | settled | pended => exact unheld (by simp)
  · trivial

/-- One after the other, no row appears between the two statements of an upsert. -/
theorem Program.Fresh.stored {cause : Cause} {record : Option CashBalance} {found : Bool}
    {rest : Program} (fresh : Program.Fresh t (.storeRow cause record found :: rest)) :
    (Statement.storeRow cause record found).execute getByTicker t =
      .ok (t.storeBalance cause.account (cause.balance (t.balance cause.account)), []) := by
  obtain ⟨⟨rfl, rfl⟩, -⟩ := fresh
  simp only [Statement.execute]
  rw [if_neg]
  simp

end MiniHedge.CashManagement
