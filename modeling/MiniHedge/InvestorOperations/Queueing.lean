import MiniHedge.InvestorOperations.Approvals

/-! Subscriptions that wait for a dealing date, and the dates that have been executed.

The calls come one after the other, each through a session of its own or none. A
date counts as executed when the call that executes it has returned.
-/

set_option autoImplicit false

namespace MiniHedge.InvestorOperations

open MiniHedge.Python MiniHedge.Library MiniHedge.Shared
open MiniHedge.CashManagement (Date)
open MiniHedge.CapitalAccounts (keeps_processSubscription)

/-! ## The workflow -/

/-- A call: whether it is given a session, and whether the owner of that session commits it when the
call has returned or raised. -/
structure SubscriptionRun where
  call : SubscriptionCall
  env : Env
  session : Option Bool

structure Workflow where
  db : Database
  executed : List Date := []

namespace SubscriptionRun

variable (r : SubscriptionRun) (db : Database)

def owner : Option Nat := r.session.map fun _ => 0

def result : Database :=
  match r.session with
  | none => ended (r.call.run r.env none) db
  | some false => (ended (r.call.run r.env (some 0)) db).close 0
  | some true => ((ended (r.call.run r.env (some 0)) db).commit (some 0)).close 0

/-- The date whose execution returns. -/
def executes : Option Date :=
  match r.call with
  | .execute dealingDate navPerShare portfolioId =>
    match executeSubscriptions r.env r.owner dealingDate navPerShare portfolioId db with
    | .ok _ _ => some dealingDate
    | .error _ _ => none
  | _ => none

def next (w : Workflow) : Workflow := ⟨r.result w.db, (r.executes w.db).toList ++ w.executed⟩

end SubscriptionRun

def workflow : System Workflow SubscriptionRun where
  step w r := some (r.next w)

/-! ## What is to hold -/

/-- The date is later than all that have been executed. -/
def Upcoming (w : Workflow) (dealingDate : Option Date) : Prop :=
  ∃ date, dealingDate = some date ∧ ∀ past ∈ w.executed, past < date

/-- An execution for the date of a subscription that is queued is still to come, and would take it. -/
def NoneStranded (w : Workflow) : Prop :=
  ∀ id r, w.db.subscriptions.get none id = some r → r.state = .queuedForNav →
    Upcoming w r.dealingDate ∧
      ∃ date, r.dealingDate = some date ∧ (id, r) ∈ queuedSubscriptions none date w.db

/-- A wire is confirmed while the date of its subscription is to come, and a date is executed with no
earlier one left in the queue, through a session that is committed if there is anything to execute. -/
def SubscriptionRun.Timely (w : Workflow) (r : SubscriptionRun) : Prop :=
  match r.call with
  | .receiveWire id _ => r.session = some true → ∀ record, w.db.subscriptions.get none id = some record →
      record.state = .approved → Upcoming w record.dealingDate
  | .execute dealingDate navPerShare _ => 0 < navPerShare →
      (∀ id record, w.db.subscriptions.get none id = some record → record.state = .queuedForNav →
        ∀ date, record.dealingDate = some date → dealingDate ≤ date) ∧
      (r.session = some true ∨ queuedSubscriptions none dealingDate w.db = [])
  | _ => True

/-! ## One call -/

section Calls

variable {env : Env} {session : Option Nat} {db : Database} {dealingDate : Date}
  {navPerShare : Decimal} {portfolioId : UUID}

theorem heldBy_calm : SubscriptionCall.Calm session fun db => db.subscriptions.HeldBy session where
  commit _ held := held.commit
  accounts _ _ held := held
  transactions _ _ held := held
  cash _ _ held := held
  updated _ _ _ held := held.update
  inserted _ _ held := held.insert

/-- A confirmation that is not committed is not stored. -/
theorem keeps_confirmWire (id : Nat) (wireReference : String) :
    Keeps (fun s : Database => ∀ k, s.subscriptions.get none k = db.subscriptions.get none k)
      ((SubscriptionCall.receiveWire id wireReference).run env session) := by
  have advanced : Keeps (fun s : Database =>
      ∀ k, s.subscriptions.get none k = db.subscriptions.get none k)
      (confirmWire env session id wireReference) := by
    unfold confirmWire advanceSubscription
    refine keeps_advance (fun s change same k => ?_) fun record => ?_
    · exact Versioned.get_update_stored.trans (same k)
    · exact (keeps_ofExcept _).bind fun _ => .pure _
  exact advanced.bind fun _ => .pure _

/-- What holds while the rest of a queue is still to be executed. -/
structure Emptying (session : Option Nat) (queue rest : List (Nat × SubscriptionRequestRecord))
    (s : Database) : Prop where
  held : s.subscriptions.HeldBy session
  queued : ∀ entry ∈ queue, ∃ r, s.subscriptions.get session entry.1 = some r ∧
    (entry ∈ rest ∨ r.state = .executed)

theorem emptying_calm {queue rest : List (Nat × SubscriptionRequestRecord)} :
    Undisturbed session (Emptying session queue rest) where
  commit _ emptying := ⟨emptying.held.commit, fun entry member =>
    have ⟨r, visible, either⟩ := emptying.queued entry member
    ⟨r, Versioned.get_commit_own.trans visible, either⟩⟩
  accounts _ _ emptying := ⟨emptying.held, emptying.queued⟩
  transactions _ _ emptying := ⟨emptying.held, emptying.queued⟩
  cash _ _ emptying := ⟨emptying.held, emptying.queued⟩

theorem Emptying.execute {owner : Nat} {queue rest : List (Nat × SubscriptionRequestRecord)}
    {entry : Nat × SubscriptionRequestRecord} {s : Database}
    {change : SubscriptionRequestRecord → SubscriptionRequestRecord}
    (emptying : Emptying (some owner) queue (entry :: rest) s) (inside : entry ∈ queue)
    (executed : ∀ r, (change r).state = .executed) : Emptying (some owner) queue rest
      { s with subscriptions := s.subscriptions.update (some owner) entry.1 change } := by
  have free := emptying.held.unlocked entry.1
  refine ⟨emptying.held.update, fun other member => ?_⟩
  obtain ⟨old, visible, -⟩ := emptying.queued entry inside
  obtain ⟨r, seen, either⟩ := emptying.queued other member
  by_cases own : entry.1 = other.1
  · have written : (s.subscriptions.update (some owner) entry.1 change).get (some owner) entry.1 =
        some (change old) := (Versioned.get_update free visible).trans (if_pos ⟨nofun, rfl⟩)
    exact ⟨_, own ▸ written, .inr (executed old)⟩
  · have kept : (s.subscriptions.update (some owner) entry.1 change).get (some owner) other.1 =
        some r := (Versioned.get_update_other own).trans seen
    refine ⟨r, kept, either.imp_left fun waits => ?_⟩
    exact (List.mem_cons.mp waits).resolve_left fun same => own (congrArg Prod.fst same).symm

theorem triple_emptied {owner : Nat} {queue rest : List (Nat × SubscriptionRequestRecord)}
    {entry : Nat × SubscriptionRequestRecord} (inside : entry ∈ queue) :
    Triple (Emptying (some owner) queue (entry :: rest))
      (executeSubscription env (some owner) dealingDate navPerShare portfolioId entry.1 entry.2)
      (fun _ => Emptying (some owner) queue rest) (fun _ => True) := by
  refine .bind _ (triple_ofExcept.weaken (fun _ emptying => emptying) (fun _ _ emptying => emptying)
    fun _ _ => trivial) fun target => .assume fun decided => ?_
  obtain ⟨-, rfl⟩ := applyTransition_eq_ok.mp decided
  refine .bind (fun _ => Emptying (some owner) queue (entry :: rest))
    ((keeps_processSubscription emptying_calm _).weaken (fun _ emptying => emptying)
      (fun _ _ emptying => emptying) fun _ _ => trivial) fun _ => ?_
  refine .bind (fun _ => Emptying (some owner) queue rest)
    (triple_updateRow (fun _ _ => trivial) fun s emptying _ => ?_) fun _ =>
      triple_await (fun _ _ => trivial) _
  exact emptying.execute inside fun _ => rfl

/-- When the execution of a date has returned, whatever was queued for it is executed. -/
theorem triple_executed (owner : Nat) (free : db.subscriptions.HeldBy none) :
    Triple (· = db) (executeSubscriptions env (some owner) dealingDate navPerShare portfolioId)
      (fun _ s => ∀ entry ∈ queuedSubscriptions (some owner) dealingDate db,
        ∃ r, s.subscriptions.get (some owner) entry.1 = some r ∧ r.state = .executed)
      (fun _ => True) := by
  let queue := queuedSubscriptions (some owner) dealingDate db
  unfold executeSubscriptions
  split
  · exact fun _ _ => trivial
  · refine .bind (fun _ => (· = db)) (triple_await (fun _ _ => trivial) _) fun _ =>
      .bind _ triple_get fun seen => ?_
    rintro s ⟨rfl, rfl⟩
    have emptied : ∀ rest, (∀ entry ∈ rest, entry ∈ queue) →
        Triple (Emptying (some owner) queue rest) (rest.forM fun entry =>
          executeSubscription env (some owner) dealingDate navPerShare portfolioId entry.1 entry.2)
          (fun _ => Emptying (some owner) queue []) (fun _ => True) := by
      intro rest inside
      induction rest with
      | nil => exact fun _ emptying => emptying
      | cons entry rest ih =>
        exact .bind _ (triple_emptied (inside entry List.mem_cons_self)) fun _ =>
          ih fun other member => inside other (List.mem_cons_of_mem _ member)
    refine (emptied queue fun _ member => member).weaken (fun _ emptying => emptying) ?_
      (fun _ _ => trivial) seen ⟨free.any, fun entry member => ?_⟩
    · rintro - s emptying entry member
      obtain ⟨r, visible, either⟩ := emptying.queued entry member
      exact ⟨r, visible, either.resolve_left List.not_mem_nil⟩
    · obtain ⟨visible, -, -⟩ := mem_queuedSubscriptions.mp member
      exact ⟨entry.2, visible, .inl member⟩

end Calls

/-! ## Every run -/

section Runs

variable {w start final : Workflow} {r : SubscriptionRun} {db : Database} {id : Nat}
  {record : SubscriptionRequestRecord}

/-- No row is held by a session, and what is queued has a date to come. -/
structure Waiting (w : Workflow) : Prop where
  free : w.db.subscriptions.HeldBy none
  upcoming : ∀ id record, w.db.subscriptions.get none id = some record → record.state = .queuedForNav →
    Upcoming w record.dealingDate

theorem SubscriptionRun.free (free : db.subscriptions.HeldBy none) :
    (r.result db).subscriptions.HeldBy none := by
  obtain ⟨call, env, session⟩ := r
  have held : ∀ session, (ended (call.run env session) db).subscriptions.HeldBy session :=
    fun session => (call.keeps heldBy_calm).ended free.any
  match session with
  | none => exact held none
  | some false => exact (held (some 0)).close
  | some true =>
    have committed : ((ended (call.run env (some 0)) db).subscriptions.commit (some 0)).HeldBy (some 0) :=
      (held (some 0)).commit
    exact committed.close

/-- A row that is stored was stored before the call, is new, or is what the call has made of one. -/
theorem SubscriptionRun.stored (free : db.subscriptions.HeldBy none)
    (visible : (r.result db).subscriptions.get none id = some record) :
    db.subscriptions.get none id = some record ∨ record.state = .pendingKyc ∨
      ∃ old, db.subscriptions.get none id = some old ∧ r.call.Moved r.env id old record := by
  obtain ⟨call, env, session⟩ := r
  have settled : db.subscriptions.Settled SubscriptionRequestRecord.Finished := free.settled
  have traced : ∀ session observer,
      (ended (call.run env session) db).subscriptions.get observer id = some record →
      db.subscriptions.get none id = some record ∨ record.state = .pendingKyc ∨
        ∃ old, db.subscriptions.get none id = some old ∧ call.Moved env id old record := by
    intro session observer seen
    rcases (call.turned env session settled).versions observer id record seen with
      ⟨before, here⟩ | fresh | ⟨old, here, moved, -⟩
    · exact .inl ((free.get_eq before).trans here)
    · exact .inr (.inl fresh)
    · exact .inr (.inr ⟨old, (free.get_eq session).trans here, moved⟩)
  match session with
  | none => exact traced none none visible
  | some false =>
    obtain ⟨observer, seen⟩ := Versioned.get_close visible
    exact traced (some 0) observer seen
  | some true =>
    obtain ⟨observer, closed⟩ := Versioned.get_close visible
    have committed : ((ended (call.run env (some 0)) db).subscriptions.commit (some 0)).get observer id =
        some record := closed
    obtain ⟨before, seen⟩ := Versioned.get_commit committed
    exact traced (some 0) before seen

/-- A confirmation whose session is not committed leaves what is stored. -/
theorem SubscriptionRun.unconfirmed {reference : String} (confirms : r.call = .receiveWire id reference)
    (uncommitted : r.session ≠ some true) (k : Nat) :
    (r.result db).subscriptions.get none k = db.subscriptions.get none k := by
  obtain ⟨call, env, session⟩ := r
  subst confirms
  have same : ∀ session, (ended ((SubscriptionCall.receiveWire id reference).run env session)
      db).subscriptions.get none k = db.subscriptions.get none k := fun session =>
    (keeps_confirmWire id reference).ended (fun _ => rfl) k
  match session with
  | none => exact same none
  | some false =>
    have kept : ((ended ((SubscriptionCall.receiveWire id reference).run env (some 0))
        db).subscriptions.close 0).get none k = _ := Versioned.get_close_other (by simp)
    exact kept.trans (same (some 0))
  | some true => exact absurd rfl uncommitted

/-- The date whose execution returns leaves none of its subscriptions queued. -/
theorem SubscriptionRun.emptied {dealingDate : Date} (free : db.subscriptions.HeldBy none)
    (committed : r.session = some true) (executed : r.executes db = some dealingDate)
    (before : db.subscriptions.get none id = some record) (queued : record.state = .queuedForNav)
    (dated : record.dealingDate = some dealingDate) :
    ∃ now, (r.result db).subscriptions.get none id = some now ∧ now.state = .executed := by
  obtain ⟨call, env, session⟩ := r
  subst committed
  cases call with
  | execute date navPerShare portfolioId =>
    unfold executes at executed
    dsimp only at executed
    split at executed
    · rename_i s ran
      cases executed
      have reached : executeSubscriptions env (some 0) dealingDate navPerShare portfolioId db =
          .ok () s := ran
      have waiting : (id, record) ∈ queuedSubscriptions (some 0) dealingDate db :=
        mem_queuedSubscriptions.mpr ⟨(free.get_eq none).trans before, dated, queued⟩
      obtain ⟨now, seen, done⟩ := (triple_executed 0 free).ok rfl reached _ waiting
      have last : ended (executeSubscriptions env (some 0) dealingDate navPerShare portfolioId) db =
          s := by
        rw [ended, reached]
      have held : s.subscriptions.HeldBy (some 0) :=
        last ▸ (keeps_executeSubscriptions heldBy_calm dealingDate navPerShare portfolioId).ended free.any
      refine ⟨now, ?_, done⟩
      change (((ended (executeSubscriptions env (some 0) dealingDate navPerShare portfolioId)
        db).subscriptions.commit (some 0)).close 0).get none id = some now
      rw [last]
      exact held.get_committed.trans seen
    · cases executed
  | _ => cases executed

theorem SubscriptionRun.executes_priced {dealingDate : Date} (executed : r.executes db = some dealingDate) :
    ∃ navPerShare portfolioId, r.call = .execute dealingDate navPerShare portfolioId ∧ 0 < navPerShare := by
  obtain ⟨call, env, session⟩ := r
  cases call with
  | execute date navPerShare portfolioId =>
    unfold executes at executed
    dsimp only at executed
    split at executed
    · rename_i s ran
      cases executed
      refine ⟨navPerShare, portfolioId, rfl, lt_of_not_ge fun unpriced => ?_⟩
      unfold executeSubscriptions at ran
      rw [if_pos unpriced] at ran
      cases ran
    · cases executed
  | _ => cases executed

/-- A date that is executed leaves the dates of what is still queued to come. -/
theorem SubscriptionRun.Timely.past_lt {past date : Date} (timely : r.Timely w) (waiting : Waiting w)
    (executed : r.executes w.db = some past)
    (visible : (r.result w.db).subscriptions.get none id = some record)
    (before : w.db.subscriptions.get none id = some record) (queued : record.state = .queuedForNav)
    (dated : record.dealingDate = some date) : past < date := by
  obtain ⟨navPerShare, portfolioId, called, priced⟩ := executes_priced executed
  unfold SubscriptionRun.Timely at timely
  rw [called] at timely
  obtain ⟨none_earlier, committed⟩ := timely priced
  refine lt_of_le_of_ne (none_earlier id record before queued date dated) ?_
  rintro rfl
  rcases committed with committed | empty
  · obtain ⟨now, seen, done⟩ := emptied waiting.free committed executed before queued dated
    rw [visible] at seen
    cases seen
    rw [queued] at done
    cases done
  · have inside : (id, record) ∈ queuedSubscriptions none past w.db :=
      mem_queuedSubscriptions.mpr ⟨before, dated, queued⟩
    rw [empty] at inside
    cases inside

/-- A timely call leaves what is queued waiting for dates to come. -/
theorem SubscriptionRun.Timely.waiting (timely : r.Timely w) (waiting : Waiting w) :
    Waiting (r.next w) := by
  refine ⟨SubscriptionRun.free waiting.free, fun id record visible queued => ?_⟩
  rcases SubscriptionRun.stored waiting.free visible with before | fresh | ⟨old, before, moved⟩
  · obtain ⟨date, dated, later⟩ := waiting.upcoming id record before queued
    refine ⟨date, dated, fun past member => ?_⟩
    rcases List.mem_append.mp member with now | earlier
    · exact timely.past_lt waiting (Option.mem_toList.mp now) visible before queued dated
    · exact later past earlier
  · rw [fresh] at queued
    cases queued
  · obtain ⟨call, env, session⟩ := r
    cases moved with
    | @receivedWire _ reference _ approved =>
      by_cases committed : session = some true
      · exact timely committed old before approved
      · let r : SubscriptionRun := ⟨.receiveWire id reference, env, session⟩
        have unchanged : (r.result w.db).subscriptions.get none id = w.db.subscriptions.get none id :=
          SubscriptionRun.unconfirmed rfl committed id
        have states := congrArg (Option.map (·.state)) (visible.symm.trans (unchanged.trans before))
        rw [Option.map_some, Option.map_some, approved] at states
        cases states
    | @decidedKyc _ approved => cases approved <;> cases queued
    | @decidedGp _ approved => cases approved <;> cases queued
    | reviewedOps | refusedOps | executed | cancelled => cases queued

/-- Along timely calls, each subscription that is queued has a dealing date after all that have been
executed. -/
theorem none_stranded {runs : List SubscriptionRun} (empty : start.db.subscriptions = [])
    (timely : workflow.Along (fun w r => r.Timely w) start runs)
    (ran : workflow.run start runs = some final) : NoneStranded final := by
  have initial : Waiting start := by
    constructor
    · rw [empty]
      intro v member
      cases member
    · rw [empty]
      intro id record visible
      cases visible
  have waiting : Waiting final := by
    refine System.invariant_along ?_ timely ran initial
    intro w r next waiting timely stepped
    cases stepped
    exact timely.waiting waiting
  intro id record visible queued
  obtain ⟨date, dated, later⟩ := waiting.upcoming id record visible queued
  exact ⟨⟨date, dated, later⟩, date, dated, mem_queuedSubscriptions.mpr ⟨visible, dated, queued⟩⟩

end Runs

/-! ## A wire that is late -/

/-- A date has been executed, and there is no subscription. -/
def openedFund : Workflow := ⟨newFund, [30]⟩

/-- A subscription up to its approval, with each call committed; its dealing date is 89. -/
def approvedRuns : List SubscriptionRun :=
  [⟨.submit firstInvestor 1000000 "default", {}, some true⟩,
    ⟨.decideKyc 0 true "compliance" "", {}, some true⟩,
    ⟨.reviewOps 0 true "operations" "", {}, some true⟩, ⟨.decideGp 0 true "gp", {}, some true⟩]

def wired : SubscriptionRun := ⟨.receiveWire 0 "WIRE-1", {}, some true⟩

def wiredRuns : List SubscriptionRun := approvedRuns ++ [wired]

theorem wiredRuns_queued : ∃ final, workflow.run openedFund wiredRuns = some final ∧
    (final.db.subscriptions.get none 0).any (·.state = .queuedForNav) ∧ NoneStranded final := by
  have timely : workflow.Along (fun w r => r.Timely w) openedFund wiredRuns := by
    refine ⟨trivial, trivial, trivial, trivial, fun _ record visible _ => ?_, trivial⟩
    have stored := congrArg (Option.bind · (·.dealingDate)) visible
    have dated : record.dealingDate = some 89 := stored.symm.trans (by decide +kernel)
    exact ⟨89, dated, by decide⟩
  exact ⟨_, rfl, by decide +kernel, none_stranded rfl timely rfl⟩

/-- The date is executed before the wire is confirmed. -/
def lateRuns : List SubscriptionRun :=
  approvedRuns ++ [⟨.execute 89 100 firstInvestor, {}, some true⟩, wired]

theorem lateRuns_stranded : ¬ ∀ start runs final, start.db.subscriptions = [] →
    workflow.run start runs = some final → NoneStranded final := by
  intro always
  have stored : (workflow.run openedFund lateRuns).any (fun w => 89 ∈ w.executed ∧
      (w.db.subscriptions.get none 0).any (fun r => r.state = .queuedForNav ∧ r.dealingDate = some 89)) := by
    decide +kernel
  obtain ⟨final, ran, found⟩ := Option.any_eq_true _ _ |>.mp stored
  obtain ⟨executed, waits⟩ := of_decide_eq_true found
  obtain ⟨record, visible, state⟩ := Option.any_eq_true _ _ |>.mp waits
  obtain ⟨queued, dated⟩ := of_decide_eq_true state
  obtain ⟨⟨date, same, later⟩, -⟩ := always openedFund lateRuns final rfl ran 0 record visible queued
  rw [dated] at same
  cases same
  exact lt_irrefl _ (later 89 executed)

end MiniHedge.InvestorOperations
