import MiniHedge.InvestorOperations.Execution

/-! What the calls of the redemption service make of the requests and of the capital.

A call moves requests that its session sees, in the ways that `Moved` lists, and
none but an execution writes rows of capital, for requests of its queue.
-/

set_option autoImplicit false

namespace MiniHedge.InvestorOperations

open MiniHedge.Python MiniHedge.Library MiniHedge.Shared
open MiniHedge.CashManagement (Date)
open MiniHedge.CapitalAccounts

/-! ## What a call does to a request -/

inductive RedemptionCall.Moved (env : Env) : RedemptionCall → Nat → RedemptionRequestRecord →
    RedemptionRequestRecord → Prop where
  | validated {id : Nat} {shareClass : String} {subscriptionDate : Option CivilDate}
      {r : RedemptionRequestRecord} {failed : Bool} {expiry earliest : Option Date} {reason : Option String}
      (pending : r.state = .pendingValidation) :
      Moved env (.validate id shareClass subscriptionDate) id r
        { r with
          state := if failed then .validationFailed else .validated
          lockUpExpiryDate := expiry, earliestRedemptionDate := earliest, cancellationReason := reason }
  | gated {id : Nat} {dealingDate : Date} {fundNav : Decimal} {pct : Option Decimal}
      {shareClass : String} {r : RedemptionRequestRecord} {triggered : Bool} {gatePct amount : Decimal}
      (pending : r.state = .validated ∨ r.state = .pendingGateCheck) :
      Moved env (.checkGate dealingDate fundNav pct shareClass) id r
        (r.gated triggered gatePct amount dealingDate)
  | requeued {id : Nat} {dealingDate : Date} {navPerShare : Decimal} {portfolioId : UUID}
      {r : RedemptionRequestRecord} (queued : r.state.Queued) :
      Moved env (.execute dealingDate navPerShare portfolioId) id r { r with state := .queuedForNav }
  | executed {id : Nat} {dealingDate due : Date} {navPerShare shares : Decimal} {portfolioId : UUID}
      {r : RedemptionRequestRecord} (queued : r.state.Queued) :
      Moved env (.execute dealingDate navPerShare portfolioId) id r
        { r with state := .pendingPayment, navPerShare := some navPerShare
                 sharesRedeemed := some shares, paymentDueDate := some due
                 : RedemptionRequestRecord }.columns
  | confirmed {id : Nat} {paymentReference : String} {r : RedemptionRequestRecord}
      (due : r.state = .pendingPayment) :
      Moved env (.confirm id paymentReference) id r
        { r with state := .executed, paymentSentAt := env.now, paymentReference }
  | cancelled {id : Nat} {reason : String} {r : RedemptionRequestRecord}
      (allowed : .cancelled ∈ r.state.transitions) :
      Moved env (.cancel id reason) id r
        { r with state := .cancelled, cancelledAt := env.now, cancellationReason := reason }

/-- The state of the program is one whose requests the call has moved. -/
def Moves (env : Env) (session : Option Nat) (c : RedemptionCall) (db s : Database) : Prop :=
  Versioned.Traces (c.Moved env) (·.state = .pendingValidation) session db.redemptions s.redemptions

section Calls

variable {env : Env} {session : Option Nat} {db : Database}

theorem Moves.same {c : RedemptionCall} : ∀ s, s = db → Moves env session c db s := by
  rintro s rfl
  exact .refl

theorem triple_advanceRedemption {c : RedemptionCall} {id : Nat}
    {decision : RedemptionRequestRecord → Run (RedemptionRequestRecord → RedemptionRequestRecord)}
    (decided : ∀ record, Triple (· = db) (decision record)
      (fun change s => c.Moved env id record (change record) ∧ s = db) (· = db)) :
    Triple (· = db) (advanceRedemption env session id decision)
      (fun _ => Moves env session c db) (Moves env session c db) :=
  triple_advance decided .refl fun _ _ visible step free => Versioned.Traces.refl.update free visible visible step

theorem triple_validateRedemption (id : Nat) (shareClass : String) (subscriptionDate : Option CivilDate) :
    Triple (· = db) (validateRedemption env session id shareClass subscriptionDate)
      (fun _ => Moves env session (.validate id shareClass subscriptionDate) db)
      (Moves env session (.validate id shareClass subscriptionDate) db) := by
  refine triple_advanceRedemption fun record => .bind _ (keeps_termsByShareClass _) fun terms => ?_
  refine .bind (fun _ => (· = db)) (keeps_ofExcept _) fun checked => ?_
  obtain ⟨failedReason, expiry⟩ := checked
  dsimp only
  refine .bind _ triple_ofExcept fun target s decided => ⟨?_, decided.2⟩
  obtain ⟨allowed, rfl⟩ := applyTransition_eq_ok.mp decided.1
  refine .validated ?_
  revert allowed
  generalize failedReason.isSome = failed
  cases record.state <;> cases failed <;> decide

theorem triple_confirmPayment (id : Nat) (paymentReference : String) :
    Triple (· = db) (confirmPayment env session id paymentReference)
      (fun _ => Moves env session (.confirm id paymentReference) db)
      (Moves env session (.confirm id paymentReference) db) := by
  refine triple_advanceRedemption fun record => .bind _ triple_ofExcept fun current => .assume fun sent => ?_
  refine .bind _ triple_ofExcept fun target s decided => ⟨?_, decided.2⟩
  obtain ⟨allowed, rfl⟩ := applyTransition_eq_ok.mp sent
  obtain ⟨-, rfl⟩ := applyTransition_eq_ok.mp decided.1
  refine .confirmed ?_
  revert allowed
  cases record.state <;> decide

theorem triple_cancelRedemption (id : Nat) (reason : String) :
    Triple (· = db) (cancelRedemption env session id reason)
      (fun _ => Moves env session (.cancel id reason) db) (Moves env session (.cancel id reason) db) := by
  refine triple_advanceRedemption fun record =>
    .bind _ triple_ofExcept fun target s decided => ⟨?_, decided.2⟩
  obtain ⟨allowed, rfl⟩ := applyTransition_eq_ok.mp decided.1
  exact .cancelled allowed

theorem triple_submitRedemption (investorId : UUID) (amount : Decimal) (noticeDate : Option Date) :
    Triple (· = db) (submitRedemption env session investorId amount noticeDate)
      (fun _ => Moves env session (.submit investorId amount noticeDate) db)
      (Moves env session (.submit investorId amount noticeDate) db) := by
  refine .bind _ (triple_ofExcept.weaken (fun _ same => same) (fun _ _ same => same) Moves.same)
    fun state => .assume fun decided => ?_
  obtain ⟨-, rfl⟩ := applyTransition_eq_ok.mp decided
  refine .bind (fun _ => Moves env session (.submit investorId amount noticeDate) db) ?_ fun id =>
    .bind (fun _ => Moves env session (.submit investorId amount noticeDate) db)
      (triple_await (fun _ moves => moves) _) fun _ _ moves => moves
  refine .bind (fun _ => (· = db)) (triple_await Moves.same _) fun _ => .bind _ triple_get fun seen => ?_
  refine .bind (fun _ => Moves env session (.submit investorId amount noticeDate) db) (.modify ?_)
    fun _ _ moves => moves
  rintro s ⟨rfl, rfl⟩
  exact Versioned.Traces.refl.insert rfl

/-! ### The gate check -/

theorem mem_pendingForGate {id : Nat} {r : RedemptionRequestRecord} :
    (id, r) ∈ pendingForGate session db ↔ db.redemptions.get session id = some r ∧
      (r.state = .validated ∨ r.state = .pendingGateCheck) := by
  simp [pendingForGate, Versioned.mem_rows]

theorem pendingForGate_distinct : ((pendingForGate session db).map (·.1)).Nodup := by
  refine ((sortOn_perm _ _).map _).nodup_iff.mpr ?_
  exact (List.Sublist.map _ List.filter_sublist).nodup Versioned.rows_distinct

theorem firsts_sublist (requests : List (Nat × Decimal)) (shares : List Decimal) :
    (List.zipWith (fun request _ => request.1) requests shares).Sublist (requests.map (·.1)) := by
  induction requests generalizing shares with
  | nil => exact .slnil
  | cons request rest ih =>
    cases shares with
    | nil => exact List.nil_sublist _
    | cons share shares => exact (ih shares).cons_cons _

/-- The gate allocates to some of the requests, at most once to each. -/
theorem checkGate_ids (requests : List (Nat × Decimal)) (fundNav gatePct : Decimal) :
    ((checkGate requests fundNav gatePct).allocations.map (·.requestId)).Sublist (requests.map (·.1)) := by
  unfold checkGate
  dsimp only
  split
  · exact List.nil_sublist _
  · split
    · rw [List.map_map]
      exact .refl _
    · rw [List.map_zipWith]
      exact firsts_sublist requests _

/-- What holds of the allocations that are still to come while the first have been written. -/
structure Gating (env : Env) (session : Option Nat) (c : RedemptionCall) (db : Database)
    (rest : List GateAllocation) (s : Database) : Prop where
  moves : Moves env session c db s
  distinct : (rest.map (·.requestId)).Nodup
  waiting : ∀ allocation ∈ rest, s.redemptions.get session allocation.requestId =
    db.redemptions.get session allocation.requestId

theorem triple_applyAllocation {dealingDate : Date} {fundNav gatePct : Decimal} {pct : Option Decimal}
    {shareClass : String} (triggered : Bool) (allocation : GateAllocation) (rest : List GateAllocation) :
    Triple (Gating env session (.checkGate dealingDate fundNav pct shareClass) db (allocation :: rest))
      (applyAllocation env session (pendingForGate session db) triggered gatePct dealingDate allocation)
      (fun _ => Gating env session (.checkGate dealingDate fundNav pct shareClass) db rest)
      (Moves env session (.checkGate dealingDate fundNav pct shareClass) db) := by
  unfold applyAllocation
  dsimp only
  split
  · exact fun _ gating => gating.moves
  · rename_i id record found
    have own : id = allocation.requestId := by simpa using List.find?_some found
    subst own
    obtain ⟨before, pending⟩ := mem_pendingForGate.mp (List.mem_of_find?_eq_some found)
    have checks : ∀ {x : Except Exc RedemptionState}, Triple
        (Gating env session (.checkGate dealingDate fundNav pct shareClass) db (allocation :: rest))
        (ofExcept x) (fun _ => Gating env session _ db (allocation :: rest)) (Moves env session _ db) :=
      (keeps_ofExcept _).weaken (fun _ gating => gating) (fun _ _ gating => gating)
        fun _ gating => gating.moves
    refine .bind _ checks fun current => .bind _ checks fun target => ?_
    refine triple_updateRow (fun _ gating => gating.moves) fun s gating free => ?_
    have visible := (gating.waiting allocation List.mem_cons_self).trans before
    obtain ⟨fresh, distinct⟩ := List.nodup_cons.mp gating.distinct
    refine ⟨gating.moves.update free before visible (.gated pending), distinct, fun other member => ?_⟩
    have apart : allocation.requestId ≠ other.requestId := fun same =>
      fresh (List.mem_map.mpr ⟨other, member, same.symm⟩)
    exact (Versioned.get_update_other apart).trans (gating.waiting other (List.mem_cons_of_mem _ member))

theorem triple_runGateCheck (dealingDate : Date) (fundNav : Decimal) (pct : Option Decimal)
    (shareClass : String) :
    Triple (· = db) (runGateCheck env session dealingDate fundNav pct shareClass)
      (fun _ => Moves env session (.checkGate dealingDate fundNav pct shareClass) db)
      (Moves env session (.checkGate dealingDate fundNav pct shareClass) db) := by
  refine .bind (fun _ => (· = db)) ((keeps_gatePctOf _ _).weaken (fun _ same => same)
    (fun _ _ same => same) Moves.same) fun gatePct => ?_
  refine .bind (fun _ => (· = db)) (triple_await Moves.same _) fun _ => .bind _ triple_get fun seen => ?_
  refine .bind (fun _ => Moves env session (.checkGate dealingDate fundNav pct shareClass) db) ?_
    fun _ => ?_
  · rintro s ⟨rfl, rfl⟩
    refine ((Triple.forM (fun allocation rest => triple_applyAllocation _ allocation rest) _).weaken
      (fun _ gating => gating) (fun _ _ gating => gating.moves) fun _ moves => moves) seen ?_
    refine ⟨.refl, ?_, fun _ _ => rfl⟩
    refine (checkGate_ids _ _ _).nodup ?_
    rw [List.map_map]
    exact pendingForGate_distinct
  · dsimp only
    split
    · exact .bind (fun _ => Moves env session _ db) (triple_await (fun _ moves => moves) _)
        fun _ _ moves => moves
    · exact fun _ moves => moves

/-! ### The execution -/

/-- What holds of the queue while its requests are executed: those that are still to come are at
most requeued. -/
structure Redeeming (env : Env) (session : Option Nat) (c : RedemptionCall) (db : Database)
    (rest : List (Nat × RedemptionRequestRecord)) (s : Database) : Prop where
  moves : Moves env session c db s
  distinct : (rest.map (·.1)).Nodup
  waiting : ∀ id r, (id, r) ∈ rest → r.state.Queued ∧ db.redemptions.get session id = some r ∧
    ∃ now, s.redemptions.get session id = some now ∧ (now = r ∨ now = { r with state := .queuedForNav })

theorem redeeming_calm {c : RedemptionCall} {rest : List (Nat × RedemptionRequestRecord)} :
    Undisturbed session (Redeeming env session c db rest) where
  commit _ held := ⟨held.moves.commit, held.distinct, fun id r member =>
    have ⟨queued, before, now, visible, same⟩ := held.waiting id r member
    ⟨queued, before, now, Versioned.get_commit_own.trans visible, same⟩⟩
  accounts _ _ held := ⟨held.moves, held.distinct, held.waiting⟩
  transactions _ _ held := ⟨held.moves, held.distinct, held.waiting⟩
  cash _ _ held := ⟨held.moves, held.distinct, held.waiting⟩

section Execute

variable {dealingDate : Date} {navPerShare : Decimal} {portfolioId : UUID}
  {rest : List (Nat × RedemptionRequestRecord)} {s : Database}

theorem Redeeming.requeue
    (redeeming : Redeeming env session (.execute dealingDate navPerShare portfolioId) db rest s)
    {entry : Nat × RedemptionRequestRecord} (member : entry ∈ rest)
    (free : s.redemptions.locked session entry.1 = false) :
    Redeeming env session (.execute dealingDate navPerShare portfolioId) db rest
      { s with redemptions := s.redemptions.update session entry.1 fun r =>
        { r with state := .queuedForNav } } := by
  obtain ⟨id, r⟩ := entry
  obtain ⟨queued, before, now, visible, same⟩ := redeeming.waiting id r member
  have step : RedemptionCall.Moved env (.execute dealingDate navPerShare portfolioId) id r
      { now with state := .queuedForNav } := by
    rcases same with rfl | rfl
    · exact .requeued queued
    · exact .requeued queued
  refine ⟨redeeming.moves.update free before visible step, redeeming.distinct, fun k other inside => ?_⟩
  obtain ⟨waits, first, later, seen, unchanged⟩ := redeeming.waiting k other inside
  refine ⟨waits, first, ?_⟩
  by_cases own : id = k
  · subst own
    cases before.symm.trans first
    cases visible.symm.trans seen
    simp only [Versioned.get_update free visible, and_true]
    split
    · refine ⟨_, rfl, .inr ?_⟩
      rcases same with rfl | rfl <;> rfl
    · exact ⟨now, seen, same⟩
  · exact ⟨later, (Versioned.get_update_other own).trans seen, unchanged⟩

theorem triple_executeRedemption (paymentDays : Int) (id : Nat) (r : RedemptionRequestRecord) :
    Triple (Redeeming env session (.execute dealingDate navPerShare portfolioId) db ((id, r) :: rest))
      (executeRedemption env session dealingDate navPerShare portfolioId paymentDays id r)
      (fun _ => Redeeming env session (.execute dealingDate navPerShare portfolioId) db rest)
      (Moves env session (.execute dealingDate navPerShare portfolioId) db) := by
  have checks : ∀ {x : Except Exc RedemptionState}, Triple
      (Redeeming env session (.execute dealingDate navPerShare portfolioId) db ((id, r) :: rest))
      (ofExcept x) (fun target s => x = .ok target ∧ Redeeming env session _ db ((id, r) :: rest) s)
      (Moves env session (.execute dealingDate navPerShare portfolioId) db) :=
    triple_ofExcept.weaken (fun _ held => held) (fun _ _ held => held) fun _ held => held.moves
  refine .bind _ checks fun current => .assume fun first => .bind _ checks fun target =>
    .assume fun second => ?_
  obtain ⟨-, rfl⟩ := applyTransition_eq_ok.mp first
  obtain ⟨-, rfl⟩ := applyTransition_eq_ok.mp second
  refine .bind (fun _ => Redeeming env session _ db ((id, r) :: rest))
    ((keeps_processRedemption redeeming_calm _).weaken (fun _ held => held)
      (fun _ _ held => held) fun _ held => held.moves) fun _ => ?_
  refine .bind (fun _ => Redeeming env session _ db rest)
    (triple_updateRow (fun _ held => held.moves) fun s held free => ?_) fun _ =>
      triple_await (fun _ held => held.moves) _
  obtain ⟨queued, before, now, visible, same⟩ := held.waiting id r List.mem_cons_self
  obtain ⟨fresh, distinct⟩ := List.nodup_cons.mp held.distinct
  refine ⟨held.moves.update free before visible ?_, distinct, fun k other member => ?_⟩
  · rcases same with rfl | rfl
    · exact .executed queued
    · exact .executed queued
  · obtain ⟨waits, first, later, seen, unchanged⟩ :=
      held.waiting k other (List.mem_cons_of_mem _ member)
    have apart : id ≠ k := by
      rintro rfl
      exact fresh (List.mem_map.mpr ⟨(id, other), member, rfl⟩)
    exact ⟨waits, first, later, (Versioned.get_update_other apart).trans seen, unchanged⟩

theorem triple_executeRedemptions :
    Triple (· = db) (executeRedemptions env session dealingDate navPerShare portfolioId)
      (fun _ => Moves env session (.execute dealingDate navPerShare portfolioId) db)
      (Moves env session (.execute dealingDate navPerShare portfolioId) db) := by
  have program : Triple
      (fun s => s = db ∧ Redeeming env session (.execute dealingDate navPerShare portfolioId) db
        (queuedRedemptions session dealingDate db) s)
      (executeRedemptions env session dealingDate navPerShare portfolioId)
      (fun _ => Moves env session (.execute dealingDate navPerShare portfolioId) db)
      (Moves env session (.execute dealingDate navPerShare portfolioId) db) :=
    triple_redemptionRun (fun entry member _ redeeming free => redeeming.requeue member free)
      (fun _ redeeming => redeeming.moves) fun _ paymentDays =>
        (Triple.forM (fun (id, r) rest => triple_executeRedemption paymentDays id r) _).weaken
          (fun _ held => held) (fun _ _ held => held.moves) fun _ moves => moves
  refine program.weaken (fun s same => ⟨same, ?_⟩) (fun _ _ moves => moves) fun _ moves => moves
  subst same
  refine ⟨.refl, queuedRedemptions_distinct dealingDate, fun id r member => ?_⟩
  obtain ⟨visible, -, queued⟩ := mem_queuedRedemptions.mp member
  exact ⟨queued, visible, r, visible, .inl rfl⟩

end Execute

/-- Every call moves the requests in its ways. -/
theorem RedemptionCall.moves (env : Env) (session : Option Nat) (c : RedemptionCall) (db : Database) :
    Moves env session c db (ended (c.run env session) db) := by
  have done : ∀ {α : Type} {x : Run α}, Triple (· = db) x (fun _ => Moves env session c db)
      (Moves env session c db) → Moves env session c db (ended (x >>= fun _ => pure ()) db) := fun triple =>
    (Triple.bind (fun _ => Moves env session c db) triple fun _ _ moves => moves).ended rfl
  cases c with
  | submit investorId amount noticeDate => exact done (triple_submitRedemption investorId amount noticeDate)
  | validate id shareClass subscriptionDate =>
    exact done (triple_validateRedemption id shareClass subscriptionDate)
  | checkGate dealingDate fundNav gatePct shareClass =>
    exact done (triple_runGateCheck dealingDate fundNav gatePct shareClass)
  | execute dealingDate navPerShare portfolioId => exact triple_executeRedemptions.ended rfl
  | confirm id paymentReference => exact done (triple_confirmPayment id paymentReference)
  | cancel id reason => exact done (triple_cancelRedemption id reason)

end Calls

/-! ## What a call does to the capital -/

section Capital

variable {env : Env} {session : Option Nat} {db s : Database} {notes : Notes}

/-- The rows of capital that are noted for a request, but for their ownership. -/
def capitalNoted (db : Database) (notes : Notes) : List CapitalAccountRecord :=
  (db.accounts.map (·.withOwnership ⟨none, none⟩)).filter (·.notes = some notes)

theorem capitalNoted_insert {a : CapitalAccountRecord} (other : a.notes ≠ some notes) :
    capitalNoted { s with accounts := s.accounts ++ [a] } notes = capitalNoted s notes := by
  simp [capitalNoted, CapitalAccountRecord.withOwnership, other]

theorem capitalNoted_commit (owner : Option Nat) :
    capitalNoted (s.commit owner) notes = capitalNoted s notes := by
  rw [capitalNoted, map_commit fun _ _ => rfl, capitalNoted]

theorem capitalNoted_close (owner : Nat) : capitalNoted (s.close owner) notes = capitalNoted s notes := by
  rw [capitalNoted, map_close fun _ _ => rfl, capitalNoted]

/-- The capital that is noted for others than these is as it was. -/
def SparesOthers (db : Database) (own : Notes → Prop) (s : Database) : Prop :=
  ∀ notes, ¬ own notes → capitalNoted s notes = capitalNoted db notes

theorem sparesOthers_calm {own : Notes → Prop} : Calm session (SparesOthers db own) where
  commit s spares notes other := (capitalNoted_commit session).trans (spares notes other)
  cash _ _ spares := spares
  ownership s owner changes _ spares notes other := by
    refine Eq.trans ?_ (spares notes other)
    rw [capitalNoted, map_writeOwnership fun _ _ => rfl, capitalNoted]

theorem sparesOthers_completes {own : Notes → Prop} {note : Option Notes} {type : TransactionType} :
    Completes env session note type (SparesOthers db own) (SparesOthers db own) (SparesOthers db own) where
  recorded _ _ _ spares := sparesOthers_calm.commit _ spares
  calm := sparesOthers_calm
  unrecorded _ _ spares := spares
  failed _ _ spares := spares

theorem spares_executeRedemption {own : Notes → Prop} {id : Nat} (noted : own (.redemptionRequest id))
    (dealingDate : Date) (navPerShare : Decimal) (portfolioId : UUID) (paymentDays : Int)
    (r : RedemptionRequestRecord) : Keeps (SparesOthers db own)
      (executeRedemption env session dealingDate navPerShare portfolioId paymentDays id r) := by
  refine (keeps_ofExcept _).bind fun _ => (keeps_ofExcept _).bind fun _ => Keeps.bind ?_ fun _ =>
    (keeps_updateRow (fun _ spares => spares) _).bind fun _ => keeps_await _
  refine triple_processRedemption (fun _ spares _ => spares) ?_ sparesOthers_completes
  intro _ s a spares _
  refine sparesOthers_calm.commit _ fun notes other => ?_
  refine (capitalNoted_insert ?_).trans (spares notes other)
  intro same
  exact other (Option.some.inj same ▸ noted)

/-- The notes of the requests that a call may write capital for. -/
def RedemptionCall.writes (session : Option Nat) (db : Database) : RedemptionCall → Notes → Prop
  | .execute dealingDate _ _, notes =>
    ∃ id ∈ (queuedRedemptions session dealingDate db).map (·.1), notes = .redemptionRequest id
  | _, _ => False

/-- A call writes no capital but that of the requests that it executes. -/
theorem RedemptionCall.spares (env : Env) (session : Option Nat) (c : RedemptionCall) (db : Database) :
    SparesOthers db (c.writes session db) (ended (c.run env session) db) := by
  have start : SparesOthers db (c.writes session db) db := fun _ _ => rfl
  have apart : ∀ (s : Database) t, SparesOthers db (c.writes session db) s →
      SparesOthers db (c.writes session db) (redemptionTable.set t s) := fun _ _ spares => spares
  cases c with
  | submit investorId amount noticeDate =>
    exact ((keeps_submitRedemption apart investorId amount noticeDate).bind fun _ => .pure _).ended start
  | validate id shareClass subscriptionDate =>
    exact ((keeps_validateRedemption apart id shareClass subscriptionDate).bind fun _ => .pure _).ended start
  | checkGate dealingDate fundNav gatePct shareClass =>
    exact ((keeps_runGateCheck apart dealingDate fundNav gatePct shareClass).bind fun _ => .pure _).ended start
  | confirm id paymentReference =>
    exact ((keeps_confirmPayment apart id paymentReference).bind fun _ => .pure _).ended start
  | cancel id reason =>
    exact ((keeps_cancelRedemption apart id reason).bind fun _ => .pure _).ended start
  | execute dealingDate navPerShare portfolioId =>
    let own := RedemptionCall.writes session db (.execute dealingDate navPerShare portfolioId)
    have program : Triple (fun s => s = db ∧ SparesOthers db own s)
        (executeRedemptions env session dealingDate navPerShare portfolioId)
        (fun _ => SparesOthers db own) (SparesOthers db own) := by
      refine triple_redemptionRun (fun _ _ _ spares _ => spares) (fun _ spares => spares)
        fun _ paymentDays => ?_
      refine Keeps.forM_mem fun entry member => ?_
      exact spares_executeRedemption ⟨entry.1, List.mem_map_of_mem member, rfl⟩ dealingDate navPerShare
        portfolioId paymentDays entry.2
    exact program.ended ⟨rfl, start⟩

end Capital

/-! ## Calls one after the other -/

/-- A call, with the session that it is given, or what the owner of a session does with it. -/
inductive RedemptionEvent where
  | call (session : Option Nat) (env : Env) (c : RedemptionCall)
  | commit (owner : Nat)
  | close (owner : Nat)

/-- A call is over when it has returned or raised. -/
def RedemptionEvent.result (db : Database) : RedemptionEvent → Database
  | .call session env c => ended (c.run env session) db
  | .commit owner => db.commit (some owner)
  | .close owner => db.close owner

def redemptionDesk : System Database RedemptionEvent where
  step db event := some (event.result db)

section Events

variable {db : Database} {event : RedemptionEvent} {id : Nat} {r : RedemptionRequestRecord}

/-- The request is stored so, or a session that is open has left it so. -/
def Stands (db : Database) (id : Nat) (r : RedemptionRequestRecord) : Prop :=
  ∃ observer, db.redemptions.get observer id = some r

/-- How a request has come to stand as it does. -/
theorem RedemptionEvent.stands (standing : Stands (event.result db) id r) :
    Stands db id r ∨ r.state = .pendingValidation ∨
      ∃ owner env c old, event = .call (some owner) env c ∧
        db.redemptions.get (some owner) id = some old ∧ c.Moved env id old r := by
  obtain ⟨observer, visible⟩ := standing
  cases event with
  | call session env c =>
    rcases c.moves env session db observer id r visible with before | fresh | ⟨given, old, seen, moved⟩
    · exact .inl before
    · exact .inr (.inl fresh)
    · obtain ⟨owner, rfl⟩ := Option.ne_none_iff_exists'.mp given
      exact .inr (.inr ⟨owner, env, c, old, rfl, seen, moved⟩)
  | commit owner =>
    have committed : (db.redemptions.commit (some owner)).get observer id = some r := visible
    exact .inl (Versioned.get_commit committed)
  | close owner => exact .inl (Versioned.get_close visible)

/-- An event that does not execute a request writes no capital for it. -/
theorem RedemptionEvent.spares {notes : Notes}
    (apart : ∀ session env c, event = .call session env c → ¬ c.writes session db notes) :
    capitalNoted (event.result db) notes = capitalNoted db notes := by
  cases event with
  | call session env c => exact c.spares env session db notes (apart session env c rfl)
  | commit owner => exact capitalNoted_commit (some owner)
  | close owner => exact capitalNoted_close owner

end Events

end MiniHedge.InvestorOperations
