import MiniHedge.InvestorOperations.RedemptionMoves

/-! What a redemption is no longer held to.

The table lets a request be cancelled while it waits for its payment, when its
capital has been taken, and the cancellation does not put it back.
-/

set_option autoImplicit false

namespace MiniHedge.InvestorOperations

open MiniHedge.Python MiniHedge.Library MiniHedge.Shared MiniHedge.CapitalAccounts
open MiniHedge.CashManagement (Date)

/-- What was removed from accounts for a request. -/
def capitalTaken (db : Database) (notes : Notes) : Decimal :=
  ((capitalNoted db notes).map (·.withdrawals)).sum

/-- No capital is taken for a request that is cancelled, in the database or by a session. -/
def CancelledUntaken (db : Database) : Prop :=
  ∀ id r, Stands db id r → r.state = .cancelled → capitalTaken db (.redemptionRequest id) = 0

/-- A request is cancelled only while nothing is taken for it, and executed only while no one has
cancelled it. -/
def RedemptionEvent.Orderly (db : Database) : RedemptionEvent → Prop
  | .call session _ (.cancel id _) => session ≠ none → ∀ r, db.redemptions.get session id = some r →
      .cancelled ∈ r.state.transitions → capitalTaken db (.redemptionRequest id) = 0
  | .call session _ (.execute dealingDate _ _) =>
      ∀ id ∈ (queuedRedemptions session dealingDate db).map (·.1), ∀ r, Stands db id r →
        r.state ≠ .cancelled
  | _ => True

section Runs

variable {start db final : Database} {event : RedemptionEvent} {id : Nat}
  {r : RedemptionRequestRecord}

theorem capitalTaken_spared
    (apart : ∀ session env c, event = .call session env c →
      ¬ c.writes session db (.redemptionRequest id)) :
    capitalTaken (event.result db) (.redemptionRequest id) = capitalTaken db (.redemptionRequest id) := by
  rw [capitalTaken, RedemptionEvent.spares apart, capitalTaken]

/-- The one step that takes capital takes none for a request that has been cancelled. -/
theorem RedemptionEvent.Orderly.apart (orderly : event.Orderly db) (standing : Stands db id r)
    (cancelled : r.state = .cancelled) : ∀ session env c, event = .call session env c →
      ¬ c.writes session db (.redemptionRequest id) := by
  rintro session env c rfl writes
  cases c with
  | execute dealingDate navPerShare portfolioId =>
    obtain ⟨k, queued, own⟩ := writes
    cases own
    exact orderly id queued r standing cancelled
  | _ => exact writes

theorem RedemptionEvent.Orderly.untaken (orderly : event.Orderly db) (untaken : CancelledUntaken db) :
    CancelledUntaken (event.result db) := by
  intro id r standing cancelled
  rcases event.stands standing with before | fresh | ⟨owner, env, c, old, rfl, seen, moved⟩
  · rw [capitalTaken_spared (orderly.apart before cancelled)]
    exact untaken id r before cancelled
  · rw [fresh] at cancelled
    cases cancelled
  · cases moved with
    | @cancelled _ reason _ allowed =>
      have apart : ∀ session env' c, RedemptionEvent.call (some owner) env (.cancel id reason) =
          .call session env' c → ¬ c.writes session db (.redemptionRequest id) := by
        rintro session env' c same writes
        cases same
        exact writes
      rw [capitalTaken_spared apart]
      exact orderly nofun old seen allowed
    | @validated _ _ _ _ failed => cases failed <;> cases cancelled
    | @gated _ _ _ _ _ _ triggered => cases triggered <;> cases cancelled
    | requeued | executed | confirmed => cases cancelled

/-- Along orderly calls of the service, in any order and of any sessions, a request that ends
cancelled has taken no capital. -/
theorem cancelled_untaken {events : List RedemptionEvent} (empty : start.redemptions = [])
    (orderly : redemptionDesk.Along (fun db event => event.Orderly db) start events)
    (ran : redemptionDesk.run start events = some final) : CancelledUntaken final := by
  have initial : CancelledUntaken start := by
    rintro id r ⟨observer, visible⟩
    rw [empty] at visible
    cases visible
  refine System.invariant_along ?_ orderly ran initial
  intro db event next untaken orderly stepped
  cases stepped
  exact orderly.untaken untaken

end Runs

/-! ## A request that waits for its payment -/

/-- An investor with capital, and no request. -/
def invested : Database where
  accounts := [{ investorId := firstInvestor, shareClass := "default", endingCapital := 1000
                 sharesHeld := 10, effectiveDate := 0 }]

/-- A request of 400 up to the gate check, through one session. -/
def requested : List RedemptionEvent :=
  [.call (some 0) {} (.submit firstInvestor 400 none),
    .call (some 0) {} (.validate 0 "default" none),
    .call (some 0) {} (.checkGate 89 10000 none "default")]

def cancelBefore : List RedemptionEvent :=
  requested ++ [.call (some 0) {} (.cancel 0 "changed their mind"),
    .call (some 0) {} (.execute 89 100 firstInvestor), .commit 0]

theorem cancelBefore_untaken : ∃ final, redemptionDesk.run invested cancelBefore = some final ∧
    (final.redemptions.get none 0).any (·.state = .cancelled) ∧ CancelledUntaken final := by
  have orderly : redemptionDesk.Along (fun db event => event.Orderly db) invested cancelBefore := by
    refine ⟨trivial, trivial, trivial, fun _ _ _ _ => by decide +kernel, fun _ queued => ?_,
      trivial, trivial⟩
    exact absurd (by decide +kernel) (List.ne_nil_of_mem queued)
  exact ⟨_, rfl, by decide +kernel, cancelled_untaken rfl orderly rfl⟩

def cancelAfter : List RedemptionEvent :=
  requested ++ [.call (some 0) {} (.execute 89 100 firstInvestor),
    .call (some 0) {} (.cancel 0 "changed their mind"), .commit 0]

/-- The capital is taken at the execution, and the request may be cancelled after it. -/
theorem cancelAfter_taken : ¬ ∀ start events final, start.redemptions = [] →
    redemptionDesk.run start events = some final → CancelledUntaken final := by
  intro always
  have stored : (redemptionDesk.run invested cancelAfter).any (fun s =>
      (s.redemptions.get none 0).any (·.state = .cancelled) ∧
        capitalTaken s (.redemptionRequest 0) = 400) := by decide +kernel
  obtain ⟨final, ran, found⟩ := Option.any_eq_true _ _ |>.mp stored
  obtain ⟨cancelled, taken⟩ := of_decide_eq_true found
  obtain ⟨r, visible, state⟩ := Option.any_eq_true _ _ |>.mp cancelled
  have nothing := always invested cancelAfter final rfl ran 0 r ⟨none, visible⟩ (of_decide_eq_true state)
  rw [taken] at nothing
  exact absurd nothing (by decide)

/-! ## The notice period and the lock-up of a redemption that is executed

Both dates are computed when a request is validated. The gate check chooses the
dealing date, and neither it nor the execution looks at them again.
-/

/-- When the lock-up of an investor's subscription expires, by the terms of the fund. -/
def lockUpExpiry (terms : FundTermsRecord) (subscribed : UUID → Option CivilDate) (investorId : UUID) :
    Option Date :=
  (subscribed investorId).bind fun date =>
    (computeLockUpExpiry date terms.lockUpMonths).toOption.map (·.toordinal)

section Honoured

variable (terms : FundTermsRecord) (subscribed : UUID → Option CivilDate)

/-- The request may be executed on the date. -/
structure RedemptionRequestRecord.Due (r : RedemptionRequestRecord) (date : Date) : Prop where
  noticed : ∀ earliest, r.earliestRedemptionDate = some earliest → earliest ≤ date
  unlocked : ∀ expiry, lockUpExpiry terms subscribed r.investorId = some expiry → expiry ≤ date

instance decidableDue (r : RedemptionRequestRecord) (date : Date) :
    Decidable (r.Due terms subscribed date) :=
  decidable_of_iff (r.earliestRedemptionDate.all (· ≤ date) ∧
      (lockUpExpiry terms subscribed r.investorId).all (· ≤ date)) <| by
    constructor
    · rintro ⟨noticed, unlocked⟩
      exact ⟨by simpa [Option.all_eq_true] using noticed, by simpa [Option.all_eq_true] using unlocked⟩
    · rintro ⟨noticed, unlocked⟩
      exact ⟨by simpa [Option.all_eq_true] using noticed, by simpa [Option.all_eq_true] using unlocked⟩

/-- Each execution that takes capital for a request finds it due on its dealing date. -/
def NoticeHonoured (start : Database) (events : List RedemptionEvent) : Prop :=
  ∀ m ∈ redemptionDesk.moments start events, ∀ session env dealingDate navPerShare portfolioId id,
    m.2.1 = .call session env (.execute dealingDate navPerShare portfolioId) →
    capitalRows m.1 (.redemptionRequest id) < capitalRows m.2.2 (.redemptionRequest id) →
      ∃ r, m.1.redemptions.get session id = some r ∧ r.Due terms subscribed dealingDate

/-- A gate check is made for a date on which each request that it takes is due. -/
def RedemptionEvent.Patient (db : Database) : RedemptionEvent → Prop
  | .call session _ (.checkGate dealingDate _ _ _) => session ≠ none →
      ∀ entry ∈ pendingForGate session db, entry.2.Due terms subscribed dealingDate
  | _ => True

/-- Whatever is queued is due on its dealing date. -/
def QueuedDue (db : Database) : Prop :=
  ∀ id r, Stands db id r → r.state.Queued → ∀ dealingDate, r.dealingDate = some dealingDate →
    r.Due terms subscribed dealingDate

end Honoured

section Runs

variable {terms : FundTermsRecord} {subscribed : UUID → Option CivilDate} {start db : Database}
  {event : RedemptionEvent} {notes : Notes}

theorem capitalRows_eq (db : Database) (notes : Notes) :
    capitalRows db notes = (capitalNoted db notes).length := by
  rw [capitalRows, capitalNoted, List.count, List.countP_map, ← List.countP_eq_length_filter,
    List.countP_map]
  exact List.countP_congr fun a _ => by simp [CapitalAccountRecord.withOwnership]

theorem gated_due {old : RedemptionRequestRecord} {triggered : Bool} {gatePct amount : Decimal}
    {dealingDate : Date} (due : old.Due terms subscribed dealingDate) :
    ∀ date, (old.gated triggered gatePct amount dealingDate).dealingDate = some date →
      (old.gated triggered gatePct amount dealingDate).Due terms subscribed date := by
  intro date chosen
  cases triggered <;> cases chosen <;> exact ⟨due.noticed, due.unlocked⟩

/-- Only the gate check puts a request on a date. -/
theorem RedemptionEvent.Patient.queuedDue (patient : event.Patient terms subscribed db)
    (held : QueuedDue terms subscribed db) : QueuedDue terms subscribed (event.result db) := by
  intro id r standing queued dealingDate dated
  rcases event.stands standing with before | fresh | ⟨owner, env, c, old, rfl, seen, moved⟩
  · exact held id r before queued dealingDate dated
  · rcases queued with queued | queued <;> rw [fresh] at queued <;> cases queued
  · cases moved with
    | gated pending =>
      have due := patient nofun _ (mem_pendingForGate.mpr ⟨seen, pending⟩)
      exact gated_due due dealingDate dated
    | requeued waiting =>
      have due := held id old ⟨_, seen⟩ waiting dealingDate dated
      exact ⟨due.noticed, due.unlocked⟩
    | @validated _ _ _ _ failed => cases failed <;> rcases queued with queued | queued <;> cases queued
    | executed | confirmed | cancelled => rcases queued with queued | queued <;> cases queued

/-- Along gate checks for dates on which their requests are due, no request is executed before its
notice has been kept and its lock-up has expired. -/
theorem notice_honoured (terms : FundTermsRecord) (subscribed : UUID → Option CivilDate)
    {events : List RedemptionEvent} (empty : start.redemptions = [])
    (patient : redemptionDesk.Along (fun db event => event.Patient terms subscribed db) start events) :
    NoticeHonoured terms subscribed start events := by
  have initial : QueuedDue terms subscribed start := by
    rintro id r ⟨observer, visible⟩
    rw [empty] at visible
    cases visible
  have kept : ∀ db event next, QueuedDue terms subscribed db →
      event.Patient terms subscribed db → redemptionDesk.step db event = some next →
        QueuedDue terms subscribed next := by
    intro db event next held patient stepped
    cases stepped
    exact patient.queuedDue held
  rintro ⟨db, event, next⟩ member session env dealingDate navPerShare portfolioId id rfl grown
  have held := (patient.moments kept initial member).1
  have stepped : ended ((RedemptionCall.execute dealingDate navPerShare portfolioId).run env session) db =
      next := Option.some.inj (System.step_of_mem_moments member)
  subst stepped
  have written : RedemptionCall.writes session db (.execute dealingDate navPerShare portfolioId)
      (.redemptionRequest id) := by
    by_contra spared
    have same := RedemptionCall.spares env session (.execute dealingDate navPerShare portfolioId) db
      (.redemptionRequest id) spared
    rw [capitalRows_eq, capitalRows_eq] at grown
    exact absurd (congrArg List.length same) (Nat.ne_of_gt grown)
  obtain ⟨k, member, own⟩ := written
  cases own
  obtain ⟨entry, inside, rfl⟩ := List.mem_map.mp member
  obtain ⟨visible, dated, queued⟩ := mem_queuedRedemptions.mp inside
  exact ⟨entry.2, visible, held entry.1 entry.2 ⟨session, visible⟩ queued dealingDate dated⟩

end Runs

/-! ## A quarter's notice -/

/-- An investor with capital in a fund with the default terms, which ask for 45 days of notice. -/
def noticeFund : Database :=
  { terms := [{ shareClass := "default" }]
    accounts := [{ investorId := firstInvestor, shareClass := "default", endingCapital := 1000000
                   sharesHeld := 10000, effectiveDate := 0 }] }

/-- The first day of the calendar. -/
def firstDay (_ : UUID) : Option CivilDate := (CivilDate.of 1 1 1).toOption

/-- Notice is given on day 400, and the request is dealt with on another. -/
def noticeGiven (dealingDate : Date) : List RedemptionEvent :=
  [.call (some 0) {} (.submit firstInvestor 100000 (some 400)),
    .call (some 0) {} (.validate 0 "default" none),
    .call (some 0) {} (.checkGate dealingDate 1000000 none "default"),
    .call (some 0) {} (.execute dealingDate 100 firstInvestor), .commit 0]

theorem noticeGiven_honoured :
    (redemptionDesk.run noticeFund (noticeGiven 450)).any
        (capitalRows · (.redemptionRequest 0) = 1) ∧
      NoticeHonoured { shareClass := "default" } firstDay noticeFund (noticeGiven 450) := by
  refine ⟨by decide +kernel, notice_honoured _ _ rfl ?_⟩
  exact ⟨trivial, trivial, fun _ => by decide +kernel, trivial, trivial, trivial⟩

/-- The dealing date that is chosen may be before the end of the notice period. -/
theorem noticeGiven_ignored : ¬ ∀ terms subscribed start events, start.redemptions = [] →
    NoticeHonoured terms subscribed start events := by
  intro always
  have executed := always { shareClass := "default" } firstDay noticeFund (noticeGiven 410) rfl _
    (.tail _ (.tail _ (.tail _ (.head _)))) (some 0) {} 410 100 firstInvestor 0 rfl (by decide +kernel)
  obtain ⟨r, visible, due⟩ := executed
  have stored := congrArg (Option.bind · (·.earliestRedemptionDate)) visible
  have earliest : r.earliestRedemptionDate = some 445 := stored.symm.trans (by decide +kernel)
  exact absurd (due.noticed 445 earliest) (by decide)

end MiniHedge.InvestorOperations
