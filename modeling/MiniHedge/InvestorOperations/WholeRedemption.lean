import MiniHedge.InvestorOperations.Execution

/-! Redemptions of all that an investor has subscribed.

A subscription issues its shares rounded to six places, and a redemption takes the quotient of its
amount to 28 digits. What an account holds after subscriptions at one NAV per share is the sum of the
rounded quotients, and the redemption compares it with the quotient of the sum.
-/

set_option autoImplicit false

namespace MiniHedge.InvestorOperations

open MiniHedge.Python MiniHedge.Library MiniHedge.Shared
open MiniHedge.CashManagement (Date)
open MiniHedge.CapitalAccounts

/-! ## What subscriptions leave -/

/-- Whose account a row is of, and what it holds. -/
structure Stake where
  investorId : UUID
  shareClass : String
  capital : Decimal
  shares : Decimal
  deriving DecidableEq, Repr

def stakeOf (a : CapitalAccountRecord) : Stake :=
  ⟨a.investorId, a.shareClass, a.endingCapital, a.sharesHeld⟩

/-- The capital that subscriptions of these amounts leave. -/
def subscribedCapital (amounts : List Decimal) : Decimal := (amounts.map (numeric 2)).sum

def issuedShares (navPerShare : Decimal) (amounts : List Decimal) : Decimal :=
  (amounts.map (computeSubscriptionShares · navPerShare)).sum

/-- What happens to the accounts: the investor subscribes, or anything else is done. -/
inductive Activity where
  | subscribe (env : Env) (session : Option Nat) (p : Processing)
  | elsewhere (db : Database)

def Activity.amount : Activity → Option Decimal
  | .subscribe _ _ p => some p.amount
  | .elsewhere _ => none

section Subscribing

variable (investorId : UUID) (shareClass : String) (navPerShare : Decimal)

def ownStakes (db : Database) : List Stake :=
  (db.accounts.map stakeOf).filter fun s => s.investorId = investorId ∧ s.shareClass = shareClass

/-- The investor subscribes at one NAV per share, whether or not the calls are interrupted. What
else is done gives its account no P&L and no fees: no row with another capital or other shares. -/
def subscribing : System Database Activity where
  step db
    | .subscribe env session p =>
      if p.investorId = investorId ∧ p.shareClass = shareClass ∧ p.navPerShare = navPerShare ∧
          0 < p.amount then
        some (ended (processSubscription env session p) db)
      else none
    | .elsewhere db' =>
      if ownStakes investorId shareClass db' ⊆ ownStakes investorId shareClass db then some db'
      else none

/-- Every row of the account was left by subscriptions among these. -/
def Issued (amounts : List Decimal) (db : Database) : Prop :=
  ∀ s ∈ ownStakes investorId shareClass db, ∃ own, own ≠ [] ∧ own.Sublist amounts ∧
    s.capital = subscribedCapital own ∧ s.shares = issuedShares navPerShare own

variable {investorId shareClass navPerShare} {env : Env} {session : Option Nat} {db : Database}
  {amounts : List Decimal}

theorem Issued.mono {more : List Decimal}
    (issued : Issued investorId shareClass navPerShare amounts db)
    (within : amounts.Sublist more) : Issued investorId shareClass navPerShare more db := by
  intro s member
  obtain ⟨own, given, inside, sums⟩ := issued s member
  exact ⟨own, given, inside.trans within, sums⟩

theorem ownStakes_commit : ownStakes investorId shareClass (db.commit session) =
    ownStakes investorId shareClass db := by
  rw [ownStakes, map_commit fun _ _ => rfl]
  rfl

theorem issued_calm : Calm session (Issued investorId shareClass navPerShare amounts) where
  commit db issued := by
    unfold Issued
    rw [ownStakes_commit]
    exact issued
  cash _ _ issued := issued
  ownership db owner changes _ issued := by
    unfold Issued ownStakes
    rw [map_writeOwnership fun _ _ => rfl]
    exact issued

theorem ownStakes_append (a : CapitalAccountRecord) :
    ownStakes investorId shareClass { db with accounts := db.accounts ++ [a] } =
      ownStakes investorId shareClass db ++ [stakeOf a].filter fun s =>
        s.investorId = investorId ∧ s.shareClass = shareClass := by
  rw [ownStakes, List.map_append, List.filter_append]
  rfl

theorem ownStake_of_latest {tie : Nat} {a : CapitalAccountRecord}
    (held : latestForInvestor db.accounts investorId shareClass tie = some a) :
    stakeOf a ∈ ownStakes investorId shareClass db := by
  unfold latestForInvestor latestOfClass at held
  have inside := List.mem_of_mem_filter (List.mem_of_getElem? held)
  obtain ⟨member, own⟩ := List.mem_filter.mp inside
  exact List.mem_filter.mpr ⟨List.mem_map_of_mem member, own⟩

theorem subscribedCapital_append (own : List Decimal) (amount : Decimal) :
    subscribedCapital (own ++ [amount]) = subscribedCapital own + numeric 2 amount := by
  simp [subscribedCapital]

theorem issuedShares_append (own : List Decimal) (amount : Decimal) :
    issuedShares navPerShare (own ++ [amount]) =
      issuedShares navPerShare own + computeSubscriptionShares amount navPerShare := by
  simp [issuedShares]

theorem onGrid_subscribedCapital (own : List Decimal) : OnGrid 2 (subscribedCapital own) := by
  refine onGrid_sum fun x member => ?_
  obtain ⟨amount, -, rfl⟩ := List.mem_map.mp member
  exact onGrid_numeric _ _

theorem onGrid_computeSubscriptionShares (amount navPerShare : Decimal) :
    OnGrid 6 (computeSubscriptionShares amount navPerShare) := by
  unfold computeSubscriptionShares
  split
  · exact onGrid_zero
  · exact onGrid_quantize _ _ _

theorem onGrid_issuedShares (navPerShare : Decimal) (own : List Decimal) :
    OnGrid 6 (issuedShares navPerShare own) := by
  refine onGrid_sum fun x member => ?_
  obtain ⟨amount, -, rfl⟩ := List.mem_map.mp member
  exact onGrid_computeSubscriptionShares _ _

theorem subscribedCapital_nonneg {own : List Decimal} (positive : ∀ x ∈ own, 0 < x) :
    0 ≤ subscribedCapital own := by
  refine List.sum_nonneg fun x member => ?_
  obtain ⟨amount, inside, rfl⟩ := List.mem_map.mp member
  exact numeric_nonneg (positive amount inside).le

/-- The row of a subscription adds its amount and its shares to what there was. -/
theorem Issued.subscribed {p : Processing}
    (issued : Issued p.investorId p.shareClass p.navPerShare amounts db)
    (positive : ∀ x ∈ amounts, 0 < x) (paid : 0 < p.amount) (tie : Nat) :
    ∃ own, own.Sublist amounts ∧
      stakeOf (p.subscribed (latestForInvestor db.accounts p.investorId p.shareClass tie)).columns =
        ⟨p.investorId, p.shareClass, subscribedCapital (own ++ [p.amount]),
          issuedShares p.navPerShare (own ++ [p.amount])⟩ := by
  have shares := onGrid_computeSubscriptionShares p.amount p.navPerShare
  cases held : latestForInvestor db.accounts p.investorId p.shareClass tie with
  | none =>
    refine ⟨[], List.nil_sublist _, ?_⟩
    rw [subscribedCapital_append, issuedShares_append]
    simp [stakeOf, Processing.subscribed, CapitalAccountRecord.columns, subscribedCapital,
      issuedShares, shares.numeric_eq]
  | some a =>
    obtain ⟨own, -, inside, capital, held⟩ := issued _ (ownStake_of_latest held)
    have grid : OnGrid 6 (a.sharesHeld + computeSubscriptionShares p.amount p.navPerShare) := by
      rw [show a.sharesHeld = issuedShares p.navPerShare own from held]
      exact (onGrid_issuedShares _ _).add shares
    have nonneg := subscribedCapital_nonneg fun x member => positive x (inside.subset member)
    refine ⟨own, inside, ?_⟩
    rw [subscribedCapital_append, issuedShares_append, ← held, ← capital]
    have sum := (onGrid_subscribedCapital own).numeric_add nonneg paid.le
    rw [← capital] at sum
    simp only [stakeOf, Processing.subscribed, CapitalAccountRecord.columns, Stake.mk.injEq,
      true_and]
    exact ⟨sum, grid.numeric_eq⟩

theorem triple_issued {p : Processing} (positive : ∀ x ∈ amounts, 0 < x) (paid : 0 < p.amount) :
    Triple (Issued p.investorId p.shareClass p.navPerShare amounts)
      (processSubscription env session p)
      (fun _ => Issued p.investorId p.shareClass p.navPerShare (amounts ++ [p.amount]))
      (Issued p.investorId p.shareClass p.navPerShare (amounts ++ [p.amount])) := by
  have more : amounts.Sublist (amounts ++ [p.amount]) := List.sublist_append_left _ _
  refine triple_processSubscription (fun _ issued => issued.mono more) (fun _ db issued => ?_)
    ⟨fun db _ _ issued => issued_calm.commit _ issued, issued_calm, fun _ _ issued => issued,
      fun _ _ issued => issued⟩
  refine issued_calm.commit _ fun s member => ?_
  rw [ownStakes_append] at member
  rcases List.mem_append.mp member with old | new
  · exact issued.mono more s old
  · obtain ⟨own, inside, row⟩ := issued.subscribed positive paid (env.tie p.notes)
    have only := List.mem_of_mem_filter new
    rw [row, List.mem_singleton] at only
    subst only
    exact ⟨own ++ [p.amount], by simp, inside.append_right _, rfl, rfl⟩

/-- After a run the account has the capital and the shares of some of its subscriptions. -/
theorem run_issued {start : Database} {activities : List Activity}
    (fresh : ownStakes investorId shareClass start = [])
    (ran : (subscribing investorId shareClass navPerShare).run start activities = some db) :
    (∀ x ∈ activities.filterMap Activity.amount, 0 < x) ∧
      Issued investorId shareClass navPerShare (activities.filterMap Activity.amount) db := by
  induction activities using List.reverseRecOn generalizing db with
  | nil =>
    cases ran
    refine ⟨fun _ member => (nomatch member), fun s member => ?_⟩
    rw [fresh] at member
    cases member
  | append_singleton before activity ih =>
    rw [System.run_append, Option.bind_eq_some_iff] at ran
    obtain ⟨middle, ran, last⟩ := ran
    obtain ⟨positive, issued⟩ := ih ran
    simp only [System.run_cons, System.run_nil, subscribing] at last
    rw [List.filterMap_append]
    cases activity with
    | subscribe env session p =>
      simp only [Option.bind_eq_some_iff, Option.ite_none_right_eq_some, Option.some.injEq] at last
      obtain ⟨_, ⟨⟨rfl, rfl, rfl, paid⟩, rfl⟩, rfl⟩ := last
      refine ⟨List.forall_mem_append.mpr ⟨positive, ?_⟩, (triple_issued positive paid).ended issued⟩
      simpa [Activity.amount] using paid
    | elsewhere db' =>
      simp only [Option.bind_eq_some_iff, Option.ite_none_right_eq_some, Option.some.injEq] at last
      obtain ⟨_, ⟨within, rfl⟩, rfl⟩ := last
      rw [show List.filterMap Activity.amount [.elsewhere db'] = [] from rfl, List.append_nil]
      exact ⟨positive, fun s member => issued s (within member)⟩

end Subscribing

/-! ## What a redemption makes of it -/

section Redeeming

variable {env : Env} {session : Option Nat} {id : Nat} {db : Database}
  {accounts : List CapitalAccountRecord} {record : RedemptionRequestRecord}
  {recorded : Option Decimal} {dealingDate : Date} {navPerShare : Decimal} {portfolioId : UUID}

/-- No other session holds a row, and the request has these shares recorded. -/
structure Undisturbed (session : Option Nat) (id : Nat) (recorded : Option Decimal)
    (db : Database) : Prop where
  request : ∃ r, db.redemptions.get session id = some r ∧ r.sharesRedeemed = recorded
  requests : db.redemptions.HeldBy session
  ownership : ∀ a ∈ db.accounts, a.ownershipPct.HeldBy session

def Unredeemed (session : Option Nat) (id : Nat) (accounts : List CapitalAccountRecord)
    (db : Database) : Prop :=
  db.accounts = accounts ∧ Undisturbed session id none db

/-- The last row of capital is this. -/
def Wrote (session : Option Nat) (id : Nat) (recorded : Option Decimal) (stake : Stake)
    (db : Database) : Prop :=
  (db.accounts.map stakeOf).getLast? = some stake ∧ Undisturbed session id recorded db

theorem Undisturbed.commit (stands : Undisturbed session id recorded db) :
    Undisturbed session id recorded (db.commit session) where
  request := by
    obtain ⟨r, here, same⟩ := stands.request
    exact ⟨r, Versioned.get_commit_own.trans here, same⟩
  requests := stands.requests.commit
  ownership := by
    intro a member
    obtain ⟨old, inside, rfl⟩ := List.mem_map.mp member
    cases session with
    | none => exact stands.ownership old inside
    | some owner => exact (stands.ownership old inside).commit

theorem wrote_calm {stake : Stake} : Calm session (Wrote session id recorded stake) where
  commit db wrote := by
    refine ⟨?_, wrote.2.commit⟩
    rw [map_commit fun _ _ => rfl]
    exact wrote.1
  cash _ _ wrote := ⟨wrote.1, { wrote.2 with }⟩
  ownership := by
    rintro db owner changes rfl ⟨last, stands⟩
    refine ⟨?_, { stands with ownership := ownership_writeOwnership changes stands.ownership }⟩
    rw [map_writeOwnership fun _ _ => rfl]
    exact last

/-- What the request is processed as. -/
def processing (record : RedemptionRequestRecord) (dealingDate : Date) (navPerShare : Decimal)
    (portfolioId : UUID) (id : Nat) : Processing :=
  { investorId := record.investorId, amount := record.redemptionAmount, navPerShare
    businessDate := dealingDate, portfolioId, notes := some (.redemptionRequest id) }

/-- What the checks of the redemption make of the accounts. -/
def checked (env : Env) (p : Processing) (accounts : List CapitalAccountRecord) :
    Except Exc CapitalAccountRecord :=
  p.checkRedemption (latestForInvestor accounts p.investorId p.shareClass (env.tie p.notes))

theorem triple_redeemedFrom {p : Processing} (calm : ∀ op, env.fails op = none) :
    Triple (Unredeemed session id accounts) (processRedemption env session p)
      (fun _ db => ∃ a, checked env p accounts = .ok a ∧
        Wrote session id none (stakeOf (p.redeemed a).columns) db)
      (fun _ => ∀ a, checked env p accounts ≠ .ok a) := by
  have free : ¬ Stops env p.notes := by simp [Stops, calm]
  have whole : Uninterrupted env p.notes .redemption :=
    ⟨calm _, calm _, calm _, fun _ _ => calm _, calm _, calm _, calm _⟩
  cases passed : checked env p accounts with
  | error e =>
    -- refused before anything is written
    have completes : Completes env session p.notes .redemption (fun _ => False) (fun _ => False)
        fun _ => True :=
      ⟨fun _ _ _ never => never, ⟨fun _ never => never, fun _ _ never => never,
        fun _ _ _ _ never => never⟩, fun broken => absurd whole broken, fun _ _ never => never.elim⟩
    refine (triple_processRedemption (fun _ _ _ => trivial) (fun _ db a ready ok => ?_)
      completes).weaken (fun _ ready => ready) (fun _ _ never => never.elim)
      fun _ _ a impossible => by cases impossible
    rw [ready.1] at ok
    cases passed.symm.trans ok
  | ok a =>
    have completes : Completes env session p.notes .redemption
        (Wrote session id none (stakeOf (p.redeemed a).columns))
        (Wrote session id none (stakeOf (p.redeemed a).columns)) fun _ => False := by
      -- the ledger, the cash and the ownership leave the row that was written as it is
      refine ⟨fun db _ _ wrote => wrote_calm.commit _ ⟨wrote.1, { wrote.2 with }⟩, wrote_calm,
        fun broken => absurd whole broken, fun db waits wrote => ?_⟩
      obtain ⟨b, inside, locked⟩ := waits whole
      rw [(wrote.2.ownership b inside).unlocked] at locked
      cases locked
    refine (triple_processRedemption (fun db ready stopped => ?_) (fun _ db b ready ok => ?_)
      completes).weaken (fun _ ready => ready) (fun _ _ wrote => ⟨a, rfl, wrote⟩)
      fun _ never => never.elim
    · rcases stopped with stops | refused
      · exact absurd stops free
      · rw [ready.1] at refused
        exact absurd passed (refused a)
    · rw [ready.1] at ok
      cases passed.symm.trans ok
      refine wrote_calm.commit _ ⟨by simp, { ready.2 with ownership := ?_ }⟩
      intro b member
      rcases List.mem_append.mp member with old | new
      · exact ready.2.ownership b old
      · rw [List.mem_singleton.mp new]
        exact Version.heldBy_stored

/-- The shares that the request comes to say; without a session they are rolled back. -/
def sharesRecorded (session : Option Nat) (p : Processing) : Option Decimal :=
  if session = none then none else some (quantize 6 .halfEven (sharesAt p.amount p.navPerShare))

theorem Undisturbed.update (stands : Undisturbed session id none db)
    {change : RedemptionRequestRecord → RedemptionRequestRecord} {shares : Option Decimal}
    (changed : ∀ r, r.sharesRedeemed = none → (change r).sharesRedeemed = shares) :
    Undisturbed session id (if session = none then none else shares)
      { db with redemptions := db.redemptions.update session id change } where
  request := by
    obtain ⟨r, here, same⟩ := stands.request
    by_cases given : session = none
    · subst given
      exact ⟨r, here, same⟩
    · refine ⟨change r, ?_, ?_⟩
      · change (db.redemptions.update session id change).get session id = _
        rw [Versioned.get_update (stands.requests.unlocked id) here, if_pos ⟨given, rfl⟩]
      · rw [if_neg given]
        exact changed r same
  requests := stands.requests.update
  ownership := stands.ownership

/-- The checks have passed, and the row is written and the shares are recorded. -/
def Executed (env : Env) (session : Option Nat) (id : Nat) (p : Processing)
    (accounts : List CapitalAccountRecord) (db : Database) : Prop :=
  ∃ a, checked env p accounts = .ok a ∧
    Wrote session id (sharesRecorded session p) (stakeOf (p.redeemed a).columns) db

def Refused (env : Env) (p : Processing) (accounts : List CapitalAccountRecord) : Prop :=
  ∀ a, checked env p accounts ≠ .ok a

/-- The execution of one request, unless its checks refuse it. -/
theorem triple_executeRequested (calm : ∀ op, env.fails op = none) (paymentDays : Int) :
    Triple (Unredeemed session id accounts)
      (executeRedemption env session dealingDate navPerShare portfolioId paymentDays id record)
      (fun _ =>
        Executed env session id (processing record dealingDate navPerShare portfolioId id) accounts)
      (fun _ =>
        Refused env (processing record dealingDate navPerShare portfolioId id) accounts) := by
  have first : applyRedemptionTransition .queuedForNav .navCalculated = .ok .navCalculated := by
    decide
  have second : applyRedemptionTransition .navCalculated .pendingPayment = .ok .pendingPayment := by
    decide
  unfold executeRedemption
  rw [first]
  refine .bind (fun current db => current = .navCalculated ∧ Unredeemed session id accounts db)
    (fun _ ready => ⟨rfl, ready⟩) fun current => .assume fun same => ?_
  subst same
  rw [second]
  refine .bind (fun target db => target = .pendingPayment ∧ Unredeemed session id accounts db)
    (fun _ ready => ⟨rfl, ready⟩) fun target => .assume fun _ => ?_
  refine .bind _ (triple_redeemedFrom calm) fun _ => ?_
  -- the row stands; the update of the request has nothing to wait for
  rintro db ⟨a, passed, wrote⟩
  have rest : Triple (Wrote session id none
        (stakeOf ((processing record dealingDate navPerShare portfolioId id).redeemed a).columns))
      (updateRow redemptionTable env session (.updateState id target.value) id (fun r =>
          { r with state := target, navPerShare := some navPerShare
                   sharesRedeemed := some (quantize 6 .halfEven (sharesAt record.redemptionAmount navPerShare))
                   paymentDueDate := some (computePaymentDueDate dealingDate paymentDays)
                   : RedemptionRequestRecord }.columns) >>= fun _ => await env (.publish id))
      (fun _ => Wrote session id
        (sharesRecorded session (processing record dealingDate navPerShare portfolioId id))
        (stakeOf ((processing record dealingDate navPerShare portfolioId id).redeemed a).columns))
      (fun _ => False) := by
    refine .bind (fun _ => Wrote session id
        (sharesRecorded session (processing record dealingDate navPerShare portfolioId id))
        (stakeOf ((processing record dealingDate navPerShare portfolioId id).redeemed a).columns))
      (triple_updateRow_free (fun _ _ => calm _) (fun _ wrote => wrote.2.requests.unlocked id)
        fun _ wrote => ⟨wrote.1, wrote.2.update fun r _ => ?_⟩) fun _ => ?_
    · exact congrArg some (onGrid_quantize 6 .halfEven _).numeric_eq
    · exact (triple_awaited fun failing => absurd (calm _) failing).weaken (fun _ met => met)
        (fun _ _ met => met.2) fun _ never => never
  exact (rest.weaken (fun _ met => met) (fun _ _ wrote => ⟨a, passed, wrote⟩)
    fun _ never => never.elim) db wrote

theorem triple_requeuedFrom (calm : ∀ op, env.fails op = none) :
    Triple (Unredeemed session id accounts) (requeue env session id record)
      (fun _ => Unredeemed session id accounts) (fun _ => False) := by
  unfold requeue
  split
  · rename_i applied
    have requeued : applyRedemptionTransition .gateApplied .queuedForNav = .ok .queuedForNav := by
      decide
    rw [applied, requeued]
    refine .bind (fun _ => Unredeemed session id accounts) (fun _ ready => ready) fun target => ?_
    refine triple_updateRow_free (fun _ _ => calm _) (fun _ ready => ready.2.requests.unlocked id)
      fun db ready => ⟨ready.1, ?_⟩
    have kept : Undisturbed session id (if session = none then none else none)
        { db with
          redemptions := db.redemptions.update session id fun r => { r with state := target } } :=
      ready.2.update fun _ unredeemed => unredeemed
    rwa [ite_self] at kept
  · exact fun _ ready => ready

/-- The execution of a dealing date that has one request. -/
theorem triple_executeAlone (calm : ∀ op, env.fails op = none) (positive : 0 < navPerShare)
    (alone : queuedRedemptions session dealingDate db = [(id, record)]) :
    Triple (fun s => s = db ∧ Unredeemed session id accounts s)
      (executeRedemptions env session dealingDate navPerShare portfolioId)
      (fun _ =>
        Executed env session id (processing record dealingDate navPerShare portfolioId id) accounts)
      (fun _ =>
        Refused env (processing record dealingDate navPerShare portfolioId id) accounts) := by
  have requeued : Triple (Unredeemed session id accounts)
      ((queuedRedemptions session dealingDate db).forM fun entry =>
        requeue env session entry.1 entry.2)
      (fun _ => Unredeemed session id accounts)
      (fun _ =>
        Refused env (processing record dealingDate navPerShare portfolioId id) accounts) := by
    rw [alone]
    exact .bind _ ((triple_requeuedFrom calm).weaken (fun _ ready => ready) (fun _ _ ready => ready)
      fun _ never => never.elim) fun _ _ ready => ready
  have executed : ∀ paymentDays, Triple (Unredeemed session id accounts)
      ((queuedRedemptions session dealingDate db).forM fun entry =>
        executeRedemption env session dealingDate navPerShare portfolioId paymentDays entry.1 entry.2)
      (fun _ =>
        Executed env session id (processing record dealingDate navPerShare portfolioId id) accounts)
      (fun _ =>
        Refused env (processing record dealingDate navPerShare portfolioId id) accounts) := by
    intro paymentDays
    rw [alone]
    exact .bind _ (triple_executeRequested calm paymentDays) fun _ _ met => met
  unfold executeRedemptions
  rw [if_neg (not_le.mpr positive)]
  refine .bind _ (triple_awaited fun failing => absurd (calm _) failing) fun _ =>
    .assume fun _ => .bind _ triple_get fun seen => ?_
  by_cases same : seen = db
  · subst same
    refine .bind (fun _ => Unredeemed session id accounts) (requeued.weaken (fun _ met => met.2.2)
      (fun _ _ met => met) fun _ met => met) fun _ => ?_
    refine .bind (fun _ => Unredeemed session id accounts) ?_ fun terms => executed _
    exact .bind _ (triple_awaited fun failing => absurd (calm _) failing) fun _ =>
      .assume fun _ => .bind _ triple_get fun _ _ met => met.2
  · exact fun s met => absurd (met.1.trans met.2.1) same

end Redeeming

/-! ## When all of it is redeemed -/

section RedeemsAll

variable {env : Env} {session : Option Nat} {id : Nat} {db : Database} {call : Run Unit}
  {record : RedemptionRequestRecord} {dealingDate : Date} {navPerShare : Decimal}
  {portfolioId : UUID}

/-- The call returns; it has left the account without capital and without shares, and the request
records the shares that it took. -/
def RedeemsAll (call : Run Unit) (session : Option Nat) (id : Nat) (held : Stake) (db : Database) :
    Prop :=
  match call db with
  | .ok _ after => ∃ left r, (after.accounts.map stakeOf).getLast? = some left ∧
      after.redemptions.get session id = some r ∧ left = ⟨held.investorId, held.shareClass, 0, 0⟩ ∧
      r.sharesRedeemed = some (held.shares - left.shares)
  | .error _ _ => False

theorem redeemsAll_iff_executed {p : Processing} {held : Stake}
    (triple : Triple (fun s => s = db) call (fun _ => Executed env session id p db.accounts)
      (fun _ => Refused env p db.accounts)) :
    RedeemsAll call session id held db ↔ ∃ a, checked env p db.accounts = .ok a ∧
      stakeOf (p.redeemed a).columns = ⟨held.investorId, held.shareClass, 0, 0⟩ ∧
      sharesRecorded session p = some held.shares := by
  have reached := triple db rfl
  unfold RedeemsAll
  cases ran : call db with
  | ok done after =>
    rw [ran] at reached
    obtain ⟨a, passed, last, stands⟩ := reached
    constructor
    · rintro ⟨left, r, here, recorded, rfl, shares⟩
      obtain ⟨r', recorded', same⟩ := stands.request
      cases recorded.symm.trans recorded'
      refine ⟨a, passed, Option.some.inj (last.symm.trans here), ?_⟩
      rw [← same, shares, sub_zero]
    · rintro ⟨b, passed', gone, shares⟩
      cases passed.symm.trans passed'
      obtain ⟨r, recorded, same⟩ := stands.request
      refine ⟨_, r, last, recorded, gone, ?_⟩
      rw [same, shares, gone, sub_zero]
  | error e after =>
    rw [ran] at reached
    constructor
    · exact False.elim
    · rintro ⟨a, passed, -⟩
      exact reached a passed

theorem checkRedemption_eq_ok {p : Processing} {a b : CapitalAccountRecord} :
    p.checkRedemption (some a) = .ok b ↔ b = a ∧ p.amount ≤ a.endingCapital ∧ 0 < p.navPerShare ∧
      0 ≤ a.sharesHeld - sharesAt p.amount p.navPerShare := by
  unfold Processing.checkRedemption
  dsimp only
  split
  · rename_i more
    simp [more]
  · rename_i enough
    split
    · rename_i unpriced
      simp [unpriced]
    · rename_i priced
      split
      · rename_i short
        simp [not_le.mpr (significant_neg_iff.mp short)]
      · rename_i covered
        have left := not_lt.mp fun negative => covered (significant_neg_iff.mpr negative)
        simp [not_lt.mp enough, not_le.mp priced, left, eq_comm]

/-- What is left of shares after a quotient that is close to them has no more digits than it. -/
theorem fits_left {held quotient : Decimal} (grid : OnGrid 6 held) (digits : Fits quotient)
    (nonneg : 0 ≤ quotient) (covered : 0 ≤ held - quotient) (close : held - quotient < 1 / 2 / 10 ^ 6) :
    Fits (held - quotient) := by
  obtain ⟨m, rfl⟩ := grid
  obtain ⟨n, e, size, rfl⟩ := digits
  rcases le_or_gt (-34) e with fine | finer
  · -- in units that the quotient has, too, few are left
    obtain ⟨k, split⟩ := Int.eq_ofNat_of_zero_le (by omega : 0 ≤ e + 34)
    have shift : (10 : ℚ) ^ e = 10 ^ k / 10 ^ 34 := by
      rw [show e = (k : ℤ) - (34 : ℕ) by omega, zpow_sub₀ (by norm_num), zpow_natCast, zpow_natCast]
    have units : (m : ℚ) / 10 ^ 6 - n * 10 ^ e = ((m * 10 ^ 28 - n * 10 ^ k : ℤ) : ℚ) * 10 ^ (-34 : ℤ) := by
      rw [shift]
      push_cast
      ring
    rw [units] at covered close ⊢
    refine ⟨_, -34, ?_, rfl⟩
    have unit : (0 : ℚ) < 10 ^ (-34 : ℤ) := by positivity
    have least : (0 : ℚ) ≤ ((m * 10 ^ 28 - n * 10 ^ k : ℤ) : ℚ) := nonneg_of_mul_nonneg_left covered unit
    have most : ((m * 10 ^ 28 - n * 10 ^ k : ℤ) : ℚ) < ((10 ^ 28 : ℤ) : ℚ) := by
      refine lt_of_mul_lt_mul_right (close.trans_le ?_) unit.le
      norm_num
    rw [abs_of_nonneg (by exact_mod_cast least)]
    exact_mod_cast most.le
  · -- a quotient of less than a millionth leaves nothing of no shares
    have small : (n : ℚ) * 10 ^ e ≤ 1 / 10 ^ 7 := by
      calc (n : ℚ) * 10 ^ e ≤ 10 ^ 28 * 10 ^ e := by
            refine mul_le_mul_of_nonneg_right ?_ (zpow_nonneg (by norm_num) e)
            exact_mod_cast (le_abs_self n).trans size
        _ ≤ 10 ^ 28 * 10 ^ (-35 : ℤ) := by
            refine mul_le_mul_of_nonneg_left ?_ (by norm_num)
            exact zpow_le_zpow_right₀ (by norm_num) (by omega)
        _ = 1 / 10 ^ 7 := by norm_num
    have none_held : m ≤ 0 := by
      have below : (m : ℚ) < 1 := by linarith only [small, close]
      exact_mod_cast Int.lt_add_one_iff.mp (by exact_mod_cast below : m < 0 + 1)
    have nothing : (m : ℚ) / 10 ^ 6 - n * 10 ^ e = 0 := by
      have shares : (m : ℚ) / 10 ^ 6 ≤ 0 := div_nonpos_of_nonpos_of_nonneg (by exact_mod_cast none_held) (by norm_num)
      linarith only [shares, nonneg, covered]
    rw [nothing]
    exact fits_int (n := 0) (by norm_num)

/-- Nothing that a column keeps is left where less than half a millionth is. -/
theorem left_eq_zero_iff {held quotient : Decimal} (grid : OnGrid 6 held) (digits : Fits quotient)
    (nonneg : 0 ≤ quotient) (covered : 0 ≤ held - quotient) :
    numeric 6 (Context.default.subtract held quotient) = 0 ↔ held - quotient < 1 / 2 / 10 ^ 6 := by
  refine (numeric_eq_zero (significant_nonneg covered)).trans ⟨fun rounded => ?_, fun close => ?_⟩
  · by_contra more
    have half : Fits (1 / 2 / 10 ^ 6) := ⟨5, -7, by norm_num, by norm_num⟩
    exact absurd rounded (not_lt.mpr (half.le_significant (by norm_num) (not_lt.mp more)))
  · rw [(fits_left grid digits nonneg covered close).significant_eq]
    exact close

/-- All of an account is redeemed where its shares are not less than the quotient of its capital and
exceed it by nothing that a column keeps. -/
theorem executed_iff {investorId : UUID} {shareClass : String} {a : CapitalAccountRecord}
    (positive : 0 < navPerShare) (shares : OnGrid 6 a.sharesHeld) (capital : 0 ≤ a.endingCapital)
    (held : latestForInvestor db.accounts investorId shareClass
      (env.tie (some (.redemptionRequest id))) = some a)
    (own : record.investorId = investorId) (whole : record.redemptionAmount = a.endingCapital) :
    (∃ b, checked env (processing record dealingDate navPerShare portfolioId id) db.accounts =
        .ok b ∧
      stakeOf ((processing record dealingDate navPerShare portfolioId id).redeemed b).columns =
        ⟨investorId, shareClass, 0, 0⟩ ∧
      sharesRecorded session (processing record dealingDate navPerShare portfolioId id) =
        some a.sharesHeld) ↔
    shareClass = defaultShareClass ∧ session ≠ none ∧
      0 ≤ a.sharesHeld - sharesAt a.endingCapital navPerShare ∧
      a.sharesHeld - sharesAt a.endingCapital navPerShare < 1 / 2 / 10 ^ 6 := by
  subst own
  have digits : Fits (sharesAt a.endingCapital navPerShare) := fits_significant _
  have quotient : 0 ≤ sharesAt a.endingCapital navPerShare :=
    significant_nonneg (div_nonneg capital positive.le)
  have classOf : ∀ {cls tie} {c : CapitalAccountRecord},
      latestForInvestor db.accounts record.investorId cls tie = some c → c.shareClass = cls :=
    fun here => (of_decide_eq_true (List.mem_filter.mp (ownStake_of_latest here)).2).2
  unfold checked
  dsimp only [processing, sharesRecorded]
  rw [whole]
  constructor
  · rintro ⟨b, passed, gone, recorded⟩
    cases found : latestForInvestor db.accounts record.investorId "default"
        (env.tie (some (.redemptionRequest id))) with
    | none =>
      rw [found] at passed
      cases passed
    | some c =>
      rw [found] at passed
      obtain ⟨rfl, -, -, covered⟩ := checkRedemption_eq_ok.mp passed
      simp only [stakeOf, CapitalAccountRecord.columns, Processing.redeemed, Stake.mk.injEq] at gone
      obtain ⟨-, rfl, -, nothing⟩ := gone
      have cls := classOf found
      rw [cls] at held
      cases found.symm.trans held
      refine ⟨cls, fun none_given => ?_, covered,
        (left_eq_zero_iff shares digits quotient covered).mp nothing⟩
      rw [if_pos none_given] at recorded
      cases recorded
  · rintro ⟨rfl, given, covered, close⟩
    refine ⟨a, ?_, ?_, ?_⟩
    · rw [show "default" = defaultShareClass from rfl, held]
      exact checkRedemption_eq_ok.mpr ⟨rfl, le_rfl, positive, covered⟩
    · have nothing : numeric 2 (a.endingCapital - a.endingCapital) = 0 := by
        rw [sub_self]
        exact onGrid_zero.numeric_eq
      simp only [stakeOf, CapitalAccountRecord.columns, Processing.redeemed, Stake.mk.injEq,
        true_and]
      exact ⟨classOf held, nothing, (left_eq_zero_iff shares digits quotient covered).mpr close⟩
    · rw [if_neg given, quantize_eq_of_close shares covered close]

/-- A request of the investor for all that its account holds waits for its execution, and nothing
keeps the call from its statements. -/
structure Requested (env : Env) (session : Option Nat) (investorId : UUID) (shareClass : String)
    (id : Nat) (record : RedemptionRequestRecord) (a : CapitalAccountRecord) (db : Database) : Prop
    where
  calm : ∀ op, env.fails op = none
  waits : Undisturbed session id none db
  held : latestForInvestor db.accounts investorId shareClass
    (env.tie (some (.redemptionRequest id))) = some a
  own : record.investorId = investorId
  whole : record.redemptionAmount = a.endingCapital

/-- After any subscriptions at one NAV per share, all of the account is redeemed in the default
class, in a session, and where the sum of the rounded quotients is not less than the quotient of
the sum, to 28 digits, and rounds to it. The request may be alone on its dealing date or have others before it. -/
theorem redeemsAll_iff {investorId : UUID} {shareClass : String} {start : Database}
    {activities : List Activity} (positive : 0 < navPerShare)
    (fresh : ownStakes investorId shareClass start = [])
    (ran : (subscribing investorId shareClass navPerShare).run start activities = some db)
    {a : CapitalAccountRecord}
    (requested : Requested env session investorId shareClass id record a db) :
    ∃ own, own.Sublist (activities.filterMap Activity.amount) ∧
      a.endingCapital = subscribedCapital own ∧ a.sharesHeld = issuedShares navPerShare own ∧
      let fits := shareClass = defaultShareClass ∧ session ≠ none ∧
        0 ≤ issuedShares navPerShare own - significant (subscribedCapital own / navPerShare) ∧
        issuedShares navPerShare own - significant (subscribedCapital own / navPerShare) < 1 / 2 / 10 ^ 6
      (∀ paymentDays, RedeemsAll (executeRedemption env session dealingDate navPerShare portfolioId
        paymentDays id record) session id (stakeOf a) db ↔ fits) ∧
      (queuedRedemptions session dealingDate db = [(id, record)] →
        (RedeemsAll (executeRedemptions env session dealingDate navPerShare portfolioId) session id
          (stakeOf a) db ↔ fits)) := by
  have stake := ownStake_of_latest requested.held
  obtain ⟨rfl, rfl⟩ := of_decide_eq_true (List.mem_filter.mp stake).2
  obtain ⟨amounts, issued⟩ := run_issued fresh ran
  obtain ⟨own, -, inside, capital, shares⟩ := issued _ stake
  change a.endingCapital = _ at capital
  change a.sharesHeld = _ at shares
  have millionths : OnGrid 6 a.sharesHeld := shares ▸ onGrid_issuedShares _ _
  have nonneg : 0 ≤ a.endingCapital :=
    capital ▸ subscribedCapital_nonneg fun x member => amounts x (inside.subset member)
  refine ⟨own, inside, capital, shares, ?_⟩
  rw [← capital, ← shares]
  constructor
  · intro paymentDays
    refine (redeemsAll_iff_executed ((triple_executeRequested requested.calm paymentDays).weaken ?_
      (fun _ _ met => met) fun _ met => met)).trans
        (executed_iff positive millionths nonneg requested.held requested.own requested.whole)
    rintro s rfl
    exact ⟨rfl, requested.waits⟩
  · intro alone
    refine (redeemsAll_iff_executed ((triple_executeAlone requested.calm positive alone).weaken ?_
      (fun _ _ met => met) fun _ met => met)).trans
        (executed_iff positive millionths nonneg requested.held requested.own requested.whole)
    rintro s rfl
    exact ⟨rfl, rfl, requested.waits⟩

end RedeemsAll

/-! ### One subscription, and the request for all of it -/

section Fractions

def subscription (navPerShare : Decimal) : Processing :=
  { investorId := firstInvestor, amount := 100, navPerShare, businessDate := 1 }

def request : RedemptionRequestRecord :=
  { investorId := firstInvestor, requestedAmount := 100, state := .queuedForNav, submittedAt := 0
    noticeDate := 1, dealingDate := some 2 }

def asked : Database := { redemptions := [⟨some request, none⟩] }

def boughtIn (navPerShare : Decimal) : Database :=
  ended (processSubscription {} (some 0) (subscription navPerShare)) asked

/-- The row that the subscription leaves. -/
def holding (navPerShare : Decimal) : Option CapitalAccountRecord :=
  latestForInvestor (boughtIn navPerShare).accounts firstInvestor "default" 0

def redeeming (navPerShare : Decimal) : Run Unit :=
  executeRedemptions {} (some 0) 2 navPerShare firstInvestor

example : let navPerShare := Context.default.divide 10 3
    computeSubscriptionShares 10 navPerShare = 3 ∧ sharesAt 10 navPerShare = 3 := by
  decide +kernel

/-- For 100 at 3 a share the investor has 33.333333 shares, and the quotient is more than that. -/
theorem thirds_refused : (subscribing firstInvestor "default" 3).run asked
      [.subscribe {} (some 0) (subscription 3)] = some (boughtIn 3) ∧
    (holding 3).map stakeOf = some ⟨firstInvestor, "default", 100, 33333333 / 1000000⟩ ∧
    request.redemptionAmount = 100 ∧ queuedRedemptions (some 0) 2 (boughtIn 3) = [(0, request)] ∧
    ¬ RedeemsAll (redeeming 3) (some 0) 0 ⟨firstInvestor, "default", 100, 33333333 / 1000000⟩
      (boughtIn 3) := by
  refine ⟨by decide +kernel, by decide +kernel, by decide +kernel, by decide +kernel, ?_⟩
  have raised : (match redeeming 3 (boughtIn 3) with
      | .ok _ _ => true
      | .error _ _ => false) = false := by decide +kernel
  unfold RedeemsAll
  cases ran : redeeming 3 (boughtIn 3) with
  | ok done after =>
    rw [ran] at raised
    cases raised
  | error e after => exact id

theorem quarters_redeemed : ∃ a, holding 4 = some a ∧
    RedeemsAll (redeeming 4) (some 0) 0 (stakeOf a) (boughtIn 4) := by
  have given : (holding 4).map stakeOf = some ⟨firstInvestor, "default", 100, 25⟩ := by
    decide +kernel
  obtain ⟨a, held, stake⟩ := Option.map_eq_some_iff.mp given
  obtain ⟨-, -, capital, shares⟩ := Stake.mk.inj stake
  have ran : (subscribing firstInvestor "default" 4).run asked
      [.subscribe {} (some 0) (subscription 4)] = some (boughtIn 4) := by decide +kernel
  have requested : Requested {} (some 0) firstInvestor "default" 0 request a (boughtIn 4) := by
    refine ⟨fun _ => rfl, ⟨⟨request, by decide +kernel, rfl⟩, ?_, ?_⟩, held, rfl, capital.symm⟩
    · have free : (boughtIn 4).redemptions = [⟨some request, none⟩] := by decide +kernel
      rw [free]
      intro v member
      rw [List.mem_singleton.mp member]
      exact Version.heldBy_stored
    · have free : ∀ b ∈ (boughtIn 4).accounts, b.ownershipPct.held = none ∨
          (b.ownershipPct.held.map (·.1)) = some 0 := by decide +kernel
      intro b member holder pct here
      rcases free b member with none_holds | own
      · rw [here] at none_holds
        cases none_holds
      · rw [here] at own
        exact own.symm
  obtain ⟨own, -, sum, issued, -, alone⟩ :=
    redeemsAll_iff (by norm_num) (by decide +kernel) ran requested
  refine ⟨a, held, (alone (by decide +kernel)).mpr ⟨rfl, by simp, ?_⟩⟩
  rw [← sum, ← issued, capital, shares]
  decide +kernel

end Fractions

end MiniHedge.InvestorOperations
