import MiniHedge.CapitalAccounts.OwnershipRules
import MiniHedge.Library.Transition

/-! Histories of subscriptions, redemptions and daily allocations, and the ownership that they store.

A subscription or a redemption rewrites the ownership of the latest rows that are
of its own date, through the session that it is given. The other rows keep what
they had, and without a session so do all.
-/

set_option autoImplicit false

namespace MiniHedge.CapitalAccounts

open MiniHedge.Python MiniHedge.Library MiniHedge.Shared
open MiniHedge.CashManagement (Date)

/-! ## Histories -/

inductive CapitalCall where
  | subscription (p : Processing)
  | redemption (p : Processing)
  | allocation (d : DailyAllocation)
  deriving DecidableEq, Repr

def CapitalCall.run (env : Env) (session : Option Nat) : CapitalCall → Run Unit
  | .subscription p => processSubscription env session p
  | .redemption p => processRedemption env session p
  | .allocation d => do let _ ← allocateDaily env session d

/-- A call: whether it is given a session, and whether the owner of that session commits it when the
call has returned or raised. -/
structure CapitalRun where
  call : CapitalCall
  env : Env
  session : Option Bool

namespace CapitalRun

variable (db : Database) (r : CapitalRun)

def owner : Option Nat := r.session.map fun _ => 0

/-- What the owner of the session leaves. -/
def settle : Database :=
  match r.session with
  | none => db
  | some false => db.close 0
  | some true => (db.commit (some 0)).close 0

def result : Database := r.settle (ended (r.call.run r.env r.owner) db)

end CapitalRun

def capitalHistory : System Database CapitalRun where
  step db r := some (r.result db)

/-! ## The condition -/

/-- If the operation inserts a row, it is one of an earlier date than another of its investor; or it is
the first of its date for the investor, everyone else has a row of that date, and the ownership is
rewritten and committed. -/
def Processing.Fits (p : Processing) (type : TransactionType) (r : CapitalRun)
    (accounts : List CapitalAccountRecord) : Prop :=
  ¬ Stops r.env p.notes → (p.entry r.env type accounts).isSome →
    (∃ b ∈ accounts, b.investorId = p.investorId ∧ p.businessDate < b.effectiveDate) ∨
    r.session = some true ∧ Uninterrupted r.env p.notes type ∧
      (∀ b ∈ accounts, b.investorId = p.investorId → b.effectiveDate < p.businessDate) ∧
      ∀ entry ∈ latestByFund accounts, entry.1.investorId ≠ p.investorId →
        entry.1.effectiveDate = p.businessDate

/-- The allocation is stopped before its first row; or it is for a date before the latest rows; or it
is for a date after them, of whole cents, and writes all its rows. -/
def DailyAllocation.Fits (d : DailyAllocation) (env : Env) (accounts : List CapitalAccountRecord) : Prop :=
  let latest := latestByFund accounts
  env.fails (.latestByFund none) = none →
    (∃ id ∈ (latest.map (·.2)).head?, env.fails (.insertAccount (.allocating id)) ≠ none) ∨
    (∀ entry ∈ latest, d.businessDate < entry.1.effectiveDate) ∨
    (∀ entry ∈ latest, entry.1.effectiveDate < d.businessDate) ∧ Written env (latest.map (·.2)) ∧ d.Cents

def CapitalRun.Fits (db : Database) (r : CapitalRun) : Prop :=
  match r.call with
  | .subscription p => p.Fits .subscription r db.accounts
  | .redemption p => p.Fits .redemption r db.accounts
  | .allocation d => d.Fits r.env db.accounts

section Histories

variable {db : Database} {r : CapitalRun} {base accounts : List CapitalAccountRecord}

theorem concluded_settle (committed : r.session = some true) :
    (r.settle db).accounts = concluded 0 db.accounts := by
  unfold CapitalRun.settle
  rw [committed]
  change (db.accounts.map _).map _ = concluded 0 db.accounts
  rw [List.map_map]
  rfl

/-- Where no session has written the ownership, its end changes nothing. -/
theorem Stored.settle (stored : Stored accounts) (here : At accounts db) : At accounts (r.settle db) := by
  have closed : ∀ db, At accounts db → At accounts (db.close 0) := by
    intro db here
    change db.accounts.map _ = accounts
    rw [show db.accounts = accounts from here]
    conv_rhs => rw [← List.map_id accounts]
    refine List.map_congr_left fun a member => ?_
    obtain ⟨pct, same⟩ := stored a member
    have kept : a.ownershipPct.release 0 = a.ownershipPct := by
      rw [same]
      rfl
    rw [kept]
    rfl
  unfold CapitalRun.settle
  split
  · exact here
  · exact closed db here
  · exact closed _ (stored.commit db here)

theorem Processing.Fits.following {p : Processing} {type : TransactionType}
    (fits : p.Fits type r base) (following : Following base)
    (processed : Processed p r.env r.owner type base db) : Following (r.settle db).accounts := by
  rcases processed with here | ⟨started, a, entered, here⟩
  · have kept : At base (r.settle db) := following.stored.settle here
    rw [show (r.settle db).accounts = base from kept]
    exact following
  · obtain ⟨investor, date, pct, grid⟩ := entry_columns entered
    have whole := following.stored.entered entered
    have cents : ∀ b ∈ base ++ [a], OnGrid 2 b.endingCapital :=
      List.forall_mem_append.mpr ⟨following.cents, List.forall_mem_singleton.mpr grid⟩
    rcases fits started (Option.isSome_iff_exists.mpr ⟨a, entered⟩) with
      ⟨b, member, own, before⟩ | ⟨committed, uninterrupted, ahead, others⟩
    · have behind : Following (base ++ [a]) := by
        refine following.behind (List.forall_mem_singleton.mpr ⟨0, pct⟩)
          (List.forall_mem_singleton.mpr grid) (List.forall_mem_singleton.mpr ⟨b, member, ?_, ?_⟩)
        · exact own.trans investor.symm
        · rwa [date]
      have inserted : At (base ++ [a]) db := by
        rcases here with here | ⟨-, here⟩
        · rwa [behind.apportioned.rewritten_eq behind.stored] at here
        · exact here
      have kept : At (base ++ [a]) (r.settle db) := behind.stored.settle inserted
      rw [show (r.settle db).accounts = base ++ [a] from kept]
      exact behind
    · have rewrote := here.resolve_right fun broken => broken.1 uninterrupted
      have owner : r.owner = some 0 := by
        rw [CapitalRun.owner, committed]
        rfl
      rw [owner] at rewrote
      rw [concluded_settle committed, show db.accounts = _ from rewrote]
      have later : ∀ b ∈ base, b.investorId = a.investorId → b.effectiveDate < a.effectiveDate := by
        rw [investor, date]
        exact ahead
      refine following_recomputed whole cents (following.untied.ahead later) fun entry member => ?_
      rw [latestByFund_ahead later] at member
      rcases List.mem_append.mp member with old | new
      · have apart : entry.1.investorId ≠ a.investorId := by simpa using List.of_mem_filter old
        rw [investor] at apart
        exact others entry (List.mem_of_mem_filter old) apart
      · rw [List.mem_singleton.mp new]
        exact date

theorem DailyAllocation.Fits.following {d : DailyAllocation} (fits : d.Fits r.env base)
    (following : Following base) (allocated : Allocated d r.env r.owner base db) :
    Following (r.settle db).accounts := by
  have settled : ∀ {accounts}, Following accounts → At accounts db →
      Following (r.settle db).accounts := by
    intro accounts following here
    have kept : At accounts (r.settle db) := following.stored.settle here
    rwa [show (r.settle db).accounts = accounts from kept]
  rcases allocated with here | ⟨listed, snapshots, computed, wrote, later, split, here, full, stopped⟩
  · exact settled following here
  · have rows := snapshots_rows computed
    have ids : snapshots.map (·.id) = (latestByFund base).map (·.2) := by
      rw [← rows, List.map_map]
      rfl
    rcases fits listed with refused | behind | ⟨ahead, written, cents⟩
    · rw [stopped (ids ▸ refused)] at here
      exact settled following (here.trans (List.append_nil base))
    · refine settled (following.behind (stored_rows d wrote) (cents_rows d wrote) fun a member => ?_) here
      obtain ⟨s, inside, rfl⟩ := List.mem_map.mp member
      have latest : (s.account, s.id) ∈ latestByFund base := by
        rw [← rows, split]
        exact List.mem_map_of_mem (List.mem_append_left _ inside)
      exact ⟨s.account, mem_of_mem_latestByFund latest, rfl, behind _ latest⟩
    · rw [full (ids ▸ written), List.append_nil] at split
      subst split
      exact settled (following.renewed computed cents ahead) here

theorem CapitalRun.Fits.following (fits : r.Fits db) (following : Following db.accounts) :
    Following (r.result db).accounts := by
  obtain ⟨call, env, session⟩ := r
  cases call with
  | subscription p =>
    exact Processing.Fits.following fits following
      ((triple_subscriptionProcessed following.stored p).ended rfl)
  | redemption p =>
    exact Processing.Fits.following fits following
      ((triple_redemptionProcessed following.stored p).ended rfl)
  | allocation d =>
    let owner := CapitalRun.owner ⟨.allocation d, env, session⟩
    have allocated : Triple (At db.accounts) (allocateDaily env owner d >>= fun _ => pure ())
        (fun _ => Allocated d env owner db.accounts) (Allocated d env owner db.accounts) :=
      .bind (fun _ => Allocated d env owner db.accounts) (triple_allocated following.stored)
        fun _ _ allocated => allocated
    exact DailyAllocation.Fits.following fits following (allocated.ended rfl)

/-- Along calls that fit, the ownership of the latest rows follows their capital. -/
theorem ownership_follows {start final : Database} {runs : List CapitalRun} (empty : start.accounts = [])
    (fits : capitalHistory.Along (fun db r => r.Fits db) start runs)
    (ran : capitalHistory.run start runs = some final) : OwnershipFollows final.accounts := by
  have initial : Following start.accounts := empty ▸ following_nil
  have kept : ∀ (db : Database) (r : CapitalRun) next, Following db.accounts → r.Fits db →
      capitalHistory.step db r = some next → Following next.accounts := by
    intro db r next following fits stepped
    cases stepped
    exact fits.following following
  exact (System.invariant_along kept fits ran initial).follows

end Histories

/-! ## Two investors -/

def firstHolder : UUID := .ofNat 1

def secondHolder : UUID := .ofNat 2

def paidIn (investorId : UUID) (amount : Decimal) (businessDate : Date) : CapitalRun :=
  ⟨.subscription { investorId, amount, navPerShare := 100, businessDate }, {}, some true⟩

/-- Both subscribe on one day, and the day after the fund makes 100 and costs 10. -/
def sharedDays : List CapitalRun :=
  [paidIn firstHolder 1000 1, paidIn secondHolder 2000 1,
    ⟨.allocation { fundPnl := 100, managementFee := 10, performanceFee := 0, navPerShare := 103
                   businessDate := 2 }, {}, none⟩]

theorem sharedDays_follow : ∃ final, capitalHistory.run {} sharedDays = some final ∧
    (latestRows final.accounts).map (·.1.endingCapital) = [1030, 2060] ∧
      OwnershipFollows final.accounts := by
  have calm : Uninterrupted {} none .subscription :=
    ⟨rfl, rfl, rfl, fun _ _ => rfl, rfl, rfl, rfl⟩
  have cents : OnGrid 2 100 ∧ OnGrid 2 10 ∧ OnGrid 2 0 :=
    ⟨⟨10000, by norm_num⟩, ⟨1000, by norm_num⟩, onGrid_zero⟩
  have fits : capitalHistory.Along (fun db r => r.Fits db) {} sharedDays := by
    refine ⟨fun _ _ => .inr ⟨rfl, calm, ?_, ?_⟩, fun _ _ => .inr ⟨rfl, calm, ?_, ?_⟩,
      fun _ => .inr (.inr ⟨?_, written_of_calm (fun _ => rfl) _, cents⟩), trivial⟩
    all_goals decide +kernel
  exact ⟨_, rfl, by decide +kernel, ownership_follows rfl fits rfl⟩

/-- One of them pays in more the day after. -/
def laterDays : List CapitalRun := [paidIn firstHolder 1000 1, paidIn secondHolder 1000 1, paidIn firstHolder 2000 2]

/-- The row of the other one keeps the ownership that it had. -/
theorem laterDays_stale : ¬ ∀ start runs final, start.accounts = [] →
    capitalHistory.run start runs = some final → OwnershipFollows final.accounts := by
  intro always
  have sum := (always {} laterDays _ rfl rfl (by decide +kernel)).1
  revert sum
  decide +kernel

end MiniHedge.CapitalAccounts
