import MiniHedge.Shared.Database
import MiniHedge.Library.StableSort

/-! What the services for subscriptions and redemptions do alike with a request. -/

set_option autoImplicit false

namespace MiniHedge.InvestorOperations

open MiniHedge.Python MiniHedge.Library MiniHedge.Shared

section Requests

variable {Row : Type} (table : Table Row) (env : Env) (session : Option Nat)

/-- `get_by_share_class`; the class is unique. -/
def termsByShareClass (shareClass : String) : Run (Option FundTermsRecord) := do
  await env (.readTerms shareClass)
  return (← get).terms.find? (·.shareClass = shareClass)

/-- Reads the request, decides what is written in it, and writes that. -/
def advance (kind : String) (target : Row → String) (id : Nat)
    (decision : Row → Run (Row → Row)) : Run Row := do
  await env (.getById id)
  match (table.get (← get)).get session id with
  | none => throw (.valueError s!"{kind} request {id} not found")
  | some record =>
    let change ← decision record
    updateRow table env session (.updateState id (target (change record))) id change
    await env (.publish id)
    return change record

end Requests

section Rules

variable {Row : Type} {table : Table Row} {env : Env} {session : Option Nat}
  {inv : Database → Prop} {kind : String} {target : Row → String} {id : Nat}
  {decision : Row → Run (Row → Row)}

theorem keeps_termsByShareClass (shareClass : String) :
    Keeps inv (termsByShareClass env shareClass) :=
  (keeps_await _).bind fun _ => keeps_get.bind fun _ => .pure _

theorem keeps_advance
    (kept : ∀ db change, inv db → inv (table.set ((table.get db).update session id change) db))
    (decided : ∀ record, Keeps inv (decision record)) :
    Keeps inv (advance table env session kind target id decision) := by
  refine (keeps_await _).bind fun _ => keeps_get.bind fun db => ?_
  split
  · exact keeps_throw _
  · exact (decided _).bind fun _ => (keeps_updateRow (fun db => kept db _) _).bind fun _ =>
      (keeps_await _).bind fun _ => .pure _

/-- The request is left as it is, or the decision is written in it. -/
theorem triple_advance {db : Database} {post : Database → Prop} {allowed : Row → (Row → Row) → Prop}
    (decided : ∀ record, Triple (· = db) (decision record)
      (fun change s => allowed record change ∧ s = db) (· = db))
    (same : post db)
    (written : ∀ record change, (table.get db).get session id = some record →
      allowed record change → (table.get db).locked session id = false →
        post (table.set ((table.get db).update session id change) db)) :
    Triple (· = db) (advance table env session kind target id decision) (fun _ => post) post := by
  have left : ∀ s, s = db → post s := by
    rintro s rfl
    exact same
  refine .bind (fun _ => (· = db)) (triple_await left _) fun _ => .bind _ triple_get fun seen => ?_
  split
  · rintro s ⟨-, rfl⟩
    exact same
  · rename_i record found
    refine .bind (fun change s => allowed record change ∧ seen = db ∧ s = db) ?_ fun change => ?_
    · rintro s ⟨rfl, rfl⟩
      exact ((decided record).weaken (fun _ at_start => at_start)
        (fun change s decision => ⟨decision.1, rfl, decision.2⟩) left) seen rfl
    · refine .bind (fun _ => post) (triple_updateRow ?_ ?_) fun _ =>
        .bind (fun _ => post) (triple_await (fun _ met => met) _) fun _ => fun _ met => met
      · rintro s ⟨-, -, rfl⟩
        exact same
      · rintro s ⟨decision, rfl, rfl⟩ free
        exact written record change found decision free

end Rules

end MiniHedge.InvestorOperations
