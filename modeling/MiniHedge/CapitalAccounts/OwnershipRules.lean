import MiniHedge.CapitalAccounts.Ownership
import MiniHedge.CapitalAccounts.Rules

/-! Ownership that follows the capital, and what each of the three operations makes of the accounts. -/

set_option autoImplicit false

namespace MiniHedge.CapitalAccounts

open MiniHedge.Python MiniHedge.Library MiniHedge.Shared
open MiniHedge.CashManagement (Date)

/-! ## Ownership that follows the capital -/

section Following

variable {accounts rows : List CapitalAccountRecord} {a : CapitalAccountRecord} {owner : Nat}
  {businessDate : Date}

/-- Where the rows have capital, their percentages sum to one, and each is the part of the capital
that its row has, up to the rounding of the percentages. -/
def Proportional (rows : List CapitalAccountRecord) : Prop :=
  0 < (rows.map (·.endingCapital)).sum →
    (rows.map (·.ownershipSeen none)).sum = 1 ∧
      ∀ a ∈ rows, |a.ownershipSeen none - a.endingCapital / (rows.map (·.endingCapital)).sum| ≤
        (rows.length : Decimal) * (1 / 2 / 10 ^ 6)

def OwnershipFollows (accounts : List CapitalAccountRecord) : Prop :=
  Proportional ((latestRows accounts).map (·.1))

theorem proportional_of_percentages
    (pcts : rows.map (·.ownershipSeen none) = percentages (rows.map (·.endingCapital))) :
    Proportional rows := by
  intro positive
  obtain ⟨sum, close⟩ := percentages_of_pos positive
  rw [← pcts] at sum close
  refine ⟨sum, ?_⟩
  rw [List.forall₂_map_left_iff, List.forall₂_map_right_iff, List.forall₂_same, List.length_map] at close
  exact close

structure Following (accounts : List CapitalAccountRecord) : Prop where
  stored : Stored accounts
  cents : ∀ a ∈ accounts, OnGrid 2 a.endingCapital
  untied : Untied accounts
  apportioned : Apportioned accounts

theorem following_nil : Following [] where
  stored := List.forall_mem_nil _
  cents := List.forall_mem_nil _
  untied := List.nodup_nil
  apportioned := rfl

theorem Following.follows (following : Following accounts) : OwnershipFollows accounts := by
  rw [OwnershipFollows, following.untied.latestRows_eq]
  refine proportional_of_percentages ?_
  rw [List.map_map, List.map_map]
  exact following.apportioned

/-- Rows that are none of the latest disturb nothing. -/
theorem Following.behind (following : Following accounts) (stored : Stored rows)
    (cents : ∀ a ∈ rows, OnGrid 2 a.endingCapital)
    (behind : ∀ r ∈ rows, ∃ b ∈ accounts, b.investorId = r.investorId ∧
      r.effectiveDate < b.effectiveDate) : Following (accounts ++ rows) where
  stored := List.forall_mem_append.mpr ⟨following.stored, stored⟩
  cents := List.forall_mem_append.mpr ⟨following.cents, cents⟩
  untied := by
    rw [Untied, latestByFund_behind behind]
    exact following.untied
  apportioned := by
    rw [Apportioned, latestByFund_behind behind]
    exact following.apportioned

/-- The accounts when the session that has written their ownership is committed and closed. -/
def concluded (owner : Nat) (accounts : List CapitalAccountRecord) : List CapitalAccountRecord :=
  accounts.map fun a => a.withOwnership ((a.ownershipPct.commit owner).release owner)

theorem getElem?_writeOwnership {changes : List (Nat × Decimal)} (distinct : (changes.map (·.1)).Nodup)
    (k : Nat) : (writeOwnership owner changes accounts)[k]? = accounts[k]?.map fun a =>
      match changes.lookup k with
      | some pct => a.withOwnership (a.ownershipPct.hold owner fun _ => pct)
      | none => a := by
  induction changes generalizing accounts with
  | nil => simp [writeOwnership]
  | cons change rest ih =>
    obtain ⟨id, pct⟩ := change
    obtain ⟨fresh, later⟩ := List.nodup_cons.mp distinct
    have step : writeOwnership owner ((id, pct) :: rest) accounts = writeOwnership owner rest
        (accounts.modify id fun a => a.withOwnership (a.ownershipPct.hold owner fun _ => pct)) := rfl
    rw [step, ih later, List.getElem?_modify, lookup_cons_ite]
    by_cases own : k = id
    · subst own
      have gone : rest.lookup k = none := by
        refine List.lookup_eq_none_iff.mpr fun entry inside => ?_
        exact bne_iff_ne.mpr fun same => fresh (List.mem_map.mpr ⟨entry, inside, same.symm⟩)
      rw [gone, if_pos rfl]
      cases accounts[k]? with
      | none => rfl
      | some a => simp
    · rw [if_neg own]
      cases accounts[k]? with
      | none => rfl
      | some a => simp [Ne.symm own]

/-- What is stored after a flush that is committed. -/
theorem concluded_writeOwnership (stored : Stored accounts) {changes : List (Nat × Decimal)}
    (distinct : (changes.map (·.1)).Nodup) :
    concluded owner (writeOwnership owner changes accounts) = accounts.mapIdx fun k a =>
      a.withOwnership ⟨some ((changes.lookup k).getD (a.ownershipSeen none)), none⟩ := by
  apply List.ext_getElem?
  intro k
  rw [concluded, List.getElem?_map, getElem?_writeOwnership distinct, List.getElem?_mapIdx]
  cases here : accounts[k]? with
  | none => rfl
  | some a =>
    obtain ⟨pct, same⟩ := stored a (List.mem_of_getElem? here)
    cases changes.lookup k with
    | none =>
      simp [same, Version.commit, Version.release, CapitalAccountRecord.ownershipSeen, Version.seen]
    | some changed =>
      simp [same, Version.commit, Version.release, Version.hold, Version.seen,
        CapitalAccountRecord.withOwnership]

theorem onGrid_mapIdx {pct : Nat → CapitalAccountRecord → Version Decimal}
    (cents : ∀ a ∈ accounts, OnGrid 2 a.endingCapital) :
    ∀ a ∈ accounts.mapIdx fun k a => a.withOwnership (pct k a), OnGrid 2 a.endingCapital := by
  intro a member
  obtain ⟨k, place, rfl⟩ := List.mem_mapIdx.mp member
  have held := cents accounts[k] (List.getElem_mem place)
  exact held

/-- When all the latest rows are of one date, a recomputation for it that is committed puts them
right. -/
theorem following_recomputed (stored : Stored accounts)
    (cents : ∀ a ∈ accounts, OnGrid 2 a.endingCapital) (untied : Untied accounts)
    (dated : ∀ entry ∈ latestByFund accounts, entry.1.effectiveDate = businessDate) :
    Following (concluded owner (rewritten (some owner) businessDate accounts)) := by
  have distinct := ownershipChanges_distinct (some owner) businessDate accounts
  let f := fun k (a : CapitalAccountRecord) => a.withOwnership
    ⟨some (((ownershipChanges (some owner) businessDate accounts).lookup k).getD (a.ownershipSeen none)),
      none⟩
  have written : concluded owner (rewritten (some owner) businessDate accounts) = accounts.mapIdx f :=
    concluded_writeOwnership stored distinct
  have latest : latestByFund (accounts.mapIdx f) = (latestByFund accounts).map fun entry => (f entry.2 entry.1, entry.2) :=
    latestByFund_mapIdx (fun _ _ => rfl) fun _ _ => rfl
  rw [written]
  refine ⟨fun a member => ?_, onGrid_mapIdx cents, ?_, ?_⟩
  · obtain ⟨k, place, rfl⟩ := List.mem_mapIdx.mp member
    exact ⟨_, rfl⟩
  · rw [Untied, latest, List.map_map]
    exact untied
  · have pcts : (latestByFund accounts).map (fun entry =>
        ((ownershipChanges (some owner) businessDate accounts).lookup entry.2).getD
          (entry.1.ownershipSeen none)) = percentages ((latestByFund accounts).map (·.1.endingCapital)) := by
      rw [← map_computedPct]
      refine List.map_congr_left fun entry member => ?_
      rw [← stored.seen_eq (mem_of_mem_latestByFund member)]
      exact lookup_ownershipChanges member (dated entry member)
    rw [Apportioned, latest, List.map_map, List.map_map]
    exact pcts

theorem Untied.ahead (untied : Untied accounts)
    (ahead : ∀ b ∈ accounts, b.investorId = a.investorId → b.effectiveDate < a.effectiveDate) :
    Untied (accounts ++ [a]) := by
  rw [Untied, latestByFund_ahead ahead, List.map_append, List.nodup_append]
  refine ⟨(List.Sublist.map _ List.filter_sublist).nodup untied, List.nodup_singleton _, ?_⟩
  intro investor held other only same
  obtain ⟨entry, inside, rfl⟩ := List.mem_map.mp held
  rw [List.map_singleton, List.mem_singleton] at only
  have apart := List.of_mem_filter inside
  exact absurd (same.trans only) (of_decide_eq_true apart)

end Following

/-! ## Subscriptions and redemptions -/

section Processing

variable {env : Env} {session : Option Nat} {base accounts : List CapitalAccountRecord}
  {last : Database → Prop}

theorem Stored.commit_eq (stored : Stored accounts) (session : Option Nat) :
    accounts.map (fun a => a.withOwnership (session.elim a.ownershipPct a.ownershipPct.commit)) =
      accounts := by
  conv_rhs => rw [← List.map_id accounts]
  refine List.map_congr_left fun a member => ?_
  obtain ⟨pct, same⟩ := stored a member
  have kept : session.elim a.ownershipPct a.ownershipPct.commit = a.ownershipPct := by
    rw [same]
    cases session <;> rfl
  rw [kept]
  rfl

/-- The accounts of the fund are these. -/
def At (accounts : List CapitalAccountRecord) (db : Database) : Prop := db.accounts = accounts

theorem Stored.commit (stored : Stored accounts) (db : Database) (here : At accounts db) :
    At accounts (db.commit session) := by
  change db.accounts.map _ = accounts
  rw [show db.accounts = accounts from here]
  exact stored.commit_eq session

theorem triple_recomputed (stored : Stored accounts) {notes : Option Notes} {businessDate : Date}
    (unlisted : env.fails (.latestByFund notes) ≠ none → ∀ db, At accounts db → last db)
    (unflushed : env.fails (.flushOwnership notes) ≠ none → ∀ db, At accounts db → last db) :
    Triple (At accounts) (recomputeAllOwnership env session notes businessDate)
      (fun _ => At (rewritten session businessDate accounts)) last := by
  refine .bind _ (triple_awaited unlisted) fun _ => .bind _ triple_get fun db => ?_
  cases session with
  | none => exact fun s met => met.2.2
  | some owner =>
    dsimp only
    split
    · refine .bind _ (triple_awaited fun failing s met => unflushed failing s met.2.2) fun _ => ?_
      split
      · rename_i conflict
        rintro s ⟨-, rfl, -, here⟩
        obtain ⟨entry, changed, waits⟩ := List.any_eq_true.mp conflict
        have listed : entry ∈ db.accounts.zipIdx :=
          List.mem_of_mem_filter (List.mem_of_mem_filter (List.mem_of_mem_filter changed))
        obtain ⟨pct, free⟩ := stored entry.1 (here ▸ List.fst_mem_of_mem_zipIdx listed)
        rw [free] at waits
        cases waits
      · refine .modify fun s met => ?_
        obtain ⟨-, rfl, -, rfl⟩ := met
        rfl
    · rename_i undated
      rintro s ⟨rfl, -, rfl⟩
      have nothing : ownershipChanges (some owner) businessDate db.accounts = [] := by
        rw [ownershipChanges, not_not.mp undated]
        rfl
      rw [rewritten, nothing]
      rfl

/-- What follows the insert leaves the accounts, and rewrites their ownership in the end. -/
theorem triple_rewritten (stored : Stored accounts) {p : Processing} {accountId : Nat}
    {type : TransactionType} {amount shares : Decimal}
    {movement : UUID → Nat → CashManagement.Movement}
    (broken : ¬ Uninterrupted env p.notes type → ∀ db,
      At accounts db ∨ At (rewritten session p.businessDate accounts) db → last db) :
    Triple (At accounts) (p.complete env session accountId type amount shares movement)
      (fun _ => At (rewritten session p.businessDate accounts)) last := by
  have before : ¬ Uninterrupted env p.notes type → ∀ db, At accounts db → last db :=
    fun interrupted db here => broken interrupted db (.inl here)
  have commit : ∀ db, At accounts db → At accounts (db.commit session) := stored.commit
  have rest : Triple (At accounts) (recomputeAllOwnership env session p.notes p.businessDate >>= fun _ =>
      await env (.publishCapital p.notes)) (fun _ => At (rewritten session p.businessDate accounts)) last := by
    refine .bind (fun _ => At (rewritten session p.businessDate accounts)) (triple_recomputed stored
      (fun failing => before fun whole => failing whole.listed)
      fun failing => before fun whole => failing whole.flushed) fun _ => ?_
    refine (triple_awaited fun failing db here => broken (fun whole => failing whole.published) db
      (.inr here)).weaken (fun _ met => met) (fun _ _ met => met.2) fun _ met => met
  refine .bind (fun _ => At accounts) (triple_insertTransaction
    (fun failing => before fun whole => failing whole.inserted)
    (fun db here => commit _ here)
    (fun failing => before fun whole => failing whole.refreshed)) fun transactionId => ?_
  dsimp only
  split
  · rename_i portfolioId service _
    refine .bind (fun _ => At accounts) (triple_moveCash commit (fun _ _ here => here)
      fun statement failing => before fun whole => failing (whole.cash service statement)) fun _ => rest
  · exact rest

/-- The row that an operation inserts, unless its checks refuse it. -/
def Processing.entry (p : Processing) (env : Env) (type : TransactionType)
    (accounts : List CapitalAccountRecord) : Option CapitalAccountRecord :=
  let existing := latestForInvestor accounts p.investorId p.shareClass (env.tie p.notes)
  match type with
  | .redemption => (p.checkRedemption existing).toOption.map fun a => (p.redeemed a).columns
  | _ => some (p.subscribed existing).columns

/-- An operation has left the accounts, or has inserted its row; unless it was interrupted, it has
rewritten the ownership then. -/
def Processed (p : Processing) (env : Env) (session : Option Nat) (type : TransactionType)
    (base : List CapitalAccountRecord) (db : Database) : Prop :=
  At base db ∨ ¬ Stops env p.notes ∧ ∃ a, p.entry env type base = some a ∧
    (At (rewritten session p.businessDate (base ++ [a])) db ∨
      ¬ Uninterrupted env p.notes type ∧ At (base ++ [a]) db)

theorem entry_columns {p : Processing} {type : TransactionType} {a : CapitalAccountRecord}
    (entered : p.entry env type base = some a) : a.investorId = p.investorId ∧
      a.effectiveDate = p.businessDate ∧ a.ownershipPct = ⟨some 0, none⟩ ∧ OnGrid 2 a.endingCapital := by
  unfold Processing.entry at entered
  dsimp only at entered
  split at entered
  · obtain ⟨existing, -, rfl⟩ := Option.map_eq_some_iff.mp entered
    exact ⟨rfl, rfl, rfl, onGrid_numeric _ _⟩
  · cases entered
    unfold Processing.subscribed
    split
    · exact ⟨rfl, rfl, rfl, onGrid_numeric _ _⟩
    · exact ⟨rfl, rfl, rfl, onGrid_numeric _ _⟩

theorem Stored.entered (stored : Stored base) {p : Processing} {type : TransactionType}
    {a : CapitalAccountRecord} (entered : p.entry env type base = some a) : Stored (base ++ [a]) := by
  refine List.forall_mem_append.mpr ⟨stored, fun b member => ?_⟩
  rw [List.mem_singleton.mp member]
  exact ⟨0, (entry_columns entered).2.2.1⟩

/-- The insert of the row, and what follows it. -/
theorem triple_entered (stored : Stored base) {p : Processing} {type : TransactionType}
    {a : CapitalAccountRecord} {amount shares : Decimal}
    {movement : UUID → Nat → CashManagement.Movement} (listed : env.fails (.latestForInvestor p.notes) = none)
    (entered : p.entry env type base = some a) {row : CapitalAccountRecord} (columns : row.columns = a) :
    Triple (At base) (insertAccount env session (.processing p.notes) row >>= fun accountId =>
      p.complete env session accountId type amount shares movement)
      (fun _ => Processed p env session type base) (Processed p env session type base) := by
  subst columns
  have whole := stored.entered entered
  refine .bind (fun _ db => env.fails (.insertAccount (.processing p.notes)) = none ∧
    At (base ++ [row.columns]) db) ?_ fun accountId => .assume fun allowed => ?_
  · refine triple_insertAccount (fun _ _ here => .inl here) (fun allowed db here => ⟨allowed, ?_⟩)
      fun unread db met => .inr ⟨by simp [Stops, listed, met.1], _, entered, .inr ⟨fun whole =>
        unread whole.account, met.2⟩⟩
    refine whole.commit _ ?_
    change db.accounts ++ [row.columns] = base ++ [row.columns]
    rw [show db.accounts = base from here]
  · have started : ¬ Stops env p.notes := by simp [Stops, listed, allowed]
    have rest : Triple (At (base ++ [row.columns]))
        (p.complete env session accountId type amount shares movement)
        (fun _ => At (rewritten session p.businessDate (base ++ [row.columns])))
        (Processed p env session type base) := by
      refine triple_rewritten whole fun interrupted db here => .inr ⟨started, _, entered, ?_⟩
      rcases here with here | here
      · exact .inr ⟨interrupted, here⟩
      · exact .inl here
    exact rest.weaken (fun _ met => met) (fun _ _ here => .inr ⟨started, _, entered, .inl here⟩)
      fun _ met => met

theorem triple_subscriptionProcessed (stored : Stored base) (p : Processing) :
    Triple (At base) (processSubscription env session p)
      (fun _ => Processed p env session .subscription base) (Processed p env session .subscription base) := by
  refine .bind _ (triple_awaited fun _ _ here => .inl here) fun _ => .assume fun listed => ?_
  refine .bind _ triple_get fun seen => ?_
  rintro db ⟨rfl, here⟩
  have same : seen.accounts = base := here
  rw [← same] at stored ⊢
  exact triple_entered stored listed rfl rfl seen rfl

theorem triple_redemptionProcessed (stored : Stored base) (p : Processing) :
    Triple (At base) (processRedemption env session p)
      (fun _ => Processed p env session .redemption base) (Processed p env session .redemption base) := by
  refine .bind _ (triple_awaited fun _ _ here => .inl here) fun _ => .assume fun listed => ?_
  refine .bind _ triple_get fun seen => ?_
  refine .bind _ (triple_ofExcept.weaken (fun _ met => met) (fun _ _ met => met)
    fun _ met => .inl met.2) fun existing => .assume fun checked => ?_
  rintro db ⟨rfl, here⟩
  have same : seen.accounts = base := here
  rw [← same] at stored ⊢
  have entered : p.entry env .redemption seen.accounts = some (p.redeemed existing).columns := by
    unfold Processing.entry
    dsimp only
    rw [checked]
    rfl
  exact triple_entered stored listed entered rfl seen rfl

end Processing

/-! ## Daily allocations -/

section Allocation

variable {env : Env} {session : Option Nat} {d : DailyAllocation}
  {current : List (CapitalAccountRecord × Nat)} {snapshots : List Snapshot}

/-- The amounts of an allocation are whole cents. -/
def DailyAllocation.Cents (d : DailyAllocation) : Prop :=
  OnGrid 2 d.fundPnl ∧
    match d.classFees with
    | none | some [] => OnGrid 2 d.managementFee ∧ OnGrid 2 d.performanceFee
    | some fees => ∀ fee ∈ fees, OnGrid 2 fee.2.1 ∧ OnGrid 2 fee.2.2

/-- What is computed of each account, of its result in the charges. -/
theorem snapshots_computed (computed : d.snapshots session current = .ok snapshots) :
    ∃ postPnl finalCapitals,
      List.Forall₂ (fun _ (post : Holding × String) => ∃ r,
          r ∈ allocatePnl (current.map fun (a, id) => ⟨id, a.endingCapital, a.ownershipSeen session⟩)
            d.fundPnl ∧ post.1.capital = r.capital) current postPnl ∧
      List.Forall₂ (fun (_, id) final => ∃ charge,
          resultOf Charge.id (d.charges postPnl) id = .ok charge ∧ final = (id, charge.capital))
        current finalCapitals ∧
      List.Forall₂ (fun (a, id) (s : Snapshot) => s.account = a ∧ s.id = id ∧
          resultOf Charge.id (d.charges postPnl) id = .ok s.charge ∧
          s.ownershipPct = ((recomputeOwnership finalCapitals).lookup id).getD 0) current snapshots := by
  unfold DailyAllocation.snapshots at computed
  obtain ⟨postPnl, posted, computed⟩ := bind_eq_ok.mp computed
  obtain ⟨finalCapitals, finals, computed⟩ := bind_eq_ok.mp computed
  rw [mapM_eq_ok] at posted finals computed
  refine ⟨postPnl, finalCapitals, posted.imp ?_, finals.imp ?_, computed.imp ?_⟩
  · rintro ⟨a, id⟩ post result
    obtain ⟨r, found, same⟩ := bind_eq_ok.mp result
    cases same
    refine ⟨r, ?_, rfl⟩
    unfold resultOf at found
    split at found
    · rename_i found'
      cases found
      exact List.mem_of_find?_eq_some found'
    · cases found
  · rintro ⟨a, id⟩ final result
    obtain ⟨charge, found, same⟩ := bind_eq_ok.mp result
    cases same
    exact ⟨charge, found, rfl⟩
  · rintro ⟨a, id⟩ s result
    obtain ⟨r, -, result⟩ := bind_eq_ok.mp result
    obtain ⟨charge, found, same⟩ := bind_eq_ok.mp result
    cases same
    exact ⟨rfl, rfl, found, rfl⟩

theorem snapshots_rows (computed : d.snapshots session current = .ok snapshots) :
    snapshots.map (fun s => (s.account, s.id)) = current := by
  obtain ⟨postPnl, finalCapitals, -, -, each⟩ := snapshots_computed computed
  have own : List.Forall₂ (fun entry other => other = entry) current current :=
    List.forall₂_same.mpr fun _ _ => rfl
  refine (forall₂_map_eq own each ?_).symm
  rintro ⟨a, id⟩ entry s rfl ⟨rfl, rfl, -, -⟩
  rfl

/-- The ownership that is computed is that of the capital that is left. -/
theorem snapshots_pcts (computed : d.snapshots session current = .ok snapshots)
    (distinct : (current.map (·.2)).Nodup) :
    snapshots.map (·.ownershipPct) = percentages (snapshots.map (·.charge.capital)) := by
  obtain ⟨postPnl, finalCapitals, -, finals, each⟩ := snapshots_computed computed
  have capitals : finalCapitals = snapshots.map fun s => (s.id, s.charge.capital) := by
    refine forall₂_map_eq finals each ?_
    rintro ⟨a, id⟩ final s ⟨charge, found, rfl⟩ ⟨-, rfl, own, -⟩
    cases found.symm.trans own
    rfl
  have ids : finalCapitals.map (·.1) = current.map (·.2) := by
    rw [capitals, ← snapshots_rows computed, List.map_map, List.map_map]
    rfl
  have found := map_recomputeOwnership (ids ▸ distinct)
  calc snapshots.map (·.ownershipPct)
      = snapshots.map fun s => ((recomputeOwnership finalCapitals).lookup s.id).getD 0 := by
        refine List.map_congr_left fun s member => ?_
        obtain ⟨entry, inside, -, same, -, own⟩ := forall₂_mem each.flip member
        rw [same]
        exact own
    _ = (finalCapitals.map (·.1)).map fun id => ((recomputeOwnership finalCapitals).lookup id).getD 0 := by
        rw [capitals, List.map_map, List.map_map]
        rfl
    _ = percentages (snapshots.map (·.charge.capital)) := by
        rw [found, capitals, List.map_map]
        rfl

/-! ### Whole cents -/

theorem exists_of_mem_zipWith {α β γ : Type} {f : α → β → γ} {xs : List α} {ys : List β} {z : γ}
    (member : z ∈ List.zipWith f xs ys) : ∃ x ∈ xs, ∃ y ∈ ys, z = f x y := by
  rw [← List.map_uncurry_zip_eq_zipWith] at member
  obtain ⟨⟨x, y⟩, inside, rfl⟩ := List.mem_map.mp member
  obtain ⟨left, right⟩ := List.of_mem_zip inside
  exact ⟨x, left, y, right, rfl⟩

theorem onGrid_amounts (apply : Decimal → Decimal → Decimal) (accounts : List Holding)
    {total : Decimal} (whole : OnGrid 2 total) :
    ∀ r ∈ allocate apply accounts total, OnGrid 2 r.amount := by
  intro r member
  unfold allocate at member
  dsimp only at member
  split at member
  · obtain ⟨a, -, rfl⟩ := List.mem_map.mp member
    exact onGrid_zero
  · obtain ⟨a, -, amount, inside, rfl⟩ := exists_of_mem_zipWith member
    exact forall_apportion _ _ (fun _ => onGrid_quantize _ _ _) whole (fun _ _ => OnGrid.sub) _ amount
      inside

theorem onGrid_allocate {apply : Decimal → Decimal → Decimal} (zero : ∀ capital, apply capital 0 = capital)
    (closed : ∀ x y, OnGrid 2 x → OnGrid 2 y → OnGrid 2 (apply x y)) {accounts : List Holding}
    {total : Decimal} (capitals : ∀ a ∈ accounts, OnGrid 2 a.capital) (whole : OnGrid 2 total) :
    ∀ r ∈ allocate apply accounts total, OnGrid 2 r.capital := by
  intro r member
  obtain ⟨a, inside, -, same⟩ := forall₂_mem (allocate_each zero accounts total).flip member
  rw [same]
  exact closed _ _ (capitals a inside) (onGrid_amounts apply accounts whole r member)

/-- The fees of the charge and the capital that it leaves are whole cents. -/
structure Charge.Cents (charge : Charge) : Prop where
  management : OnGrid 2 charge.management
  performance : OnGrid 2 charge.performance
  capital : OnGrid 2 charge.capital

theorem cents_chargeFees {accounts : List Holding} {managementFee performanceFee : Decimal}
    (capitals : ∀ a ∈ accounts, OnGrid 2 a.capital) (management : OnGrid 2 managementFee)
    (performance : OnGrid 2 performanceFee) :
    ∀ charge ∈ chargeFees accounts managementFee performanceFee, charge.Cents := by
  have first := onGrid_allocate sub_zero (fun _ _ => OnGrid.sub) capitals management
  intro charge member
  obtain ⟨m, charged, p, inside, rfl⟩ := exists_of_mem_zipWith member
  refine ⟨onGrid_amounts _ _ management m charged, onGrid_amounts _ _ performance p inside, ?_⟩
  refine onGrid_allocate sub_zero (fun _ _ => OnGrid.sub) (fun a held => ?_) performance p inside
  obtain ⟨b, -, r, left, rfl⟩ := exists_of_mem_zipWith held
  exact first r left

theorem onGrid_intraClass {accounts : List Holding} (capitals : ∀ a ∈ accounts, OnGrid 2 a.capital) :
    ∀ a ∈ intraClass accounts, OnGrid 2 a.capital := by
  unfold intraClass
  dsimp only
  split
  · intro a member
    obtain ⟨b, inside, rfl⟩ := List.mem_map.mp member
    exact capitals b inside
  · exact capitals

theorem cents_charges (cents : d.Cents) {postPnl : List (Holding × String)}
    (capitals : ∀ post ∈ postPnl, OnGrid 2 post.1.capital) :
    ∀ charge ∈ d.charges postPnl, charge.Cents := by
  obtain ⟨-, fees⟩ := cents
  have held : ∀ posts : List (Holding × String), (∀ post ∈ posts, post ∈ postPnl) →
      ∀ a ∈ posts.map (·.1), OnGrid 2 a.capital := by
    intro posts inside a member
    obtain ⟨post, own, rfl⟩ := List.mem_map.mp member
    exact capitals post (inside post own)
  unfold DailyAllocation.charges
  split
  · rename_i none_given
    rw [none_given] at fees
    exact cents_chargeFees (held _ fun _ own => own) fees.1 fees.2
  · rename_i empty
    rw [empty] at fees
    exact cents_chargeFees (held _ fun _ own => own) fees.1 fees.2
  · rename_i given _ some_given
    rw [some_given] at fees
    intro charge member
    obtain ⟨cls, -, inside⟩ := List.mem_flatMap.mp member
    dsimp only at inside
    have own : OnGrid 2 ((given.lookup cls).getD (0, 0)).1 ∧ OnGrid 2 ((given.lookup cls).getD (0, 0)).2 := by
      cases found : given.lookup cls with
      | none => exact ⟨onGrid_zero, onGrid_zero⟩
      | some fee =>
        obtain ⟨before, after, rfl, -⟩ := List.lookup_eq_some_iff.mp found
        have kept : ∀ entry ∈ before ++ (cls, fee) :: after, OnGrid 2 entry.2.1 ∧ OnGrid 2 entry.2.2 := by
          cases before with
          | nil => exact fees
          | cons first rest => exact fees
        exact kept _ (List.mem_append_right _ List.mem_cons_self)
    refine cents_chargeFees (onGrid_intraClass (held _ fun post filtered => ?_)) own.1 own.2 charge inside
    exact List.mem_of_mem_filter filtered

/-- Where all amounts are whole cents, so is the capital that is left. -/
theorem snapshots_cents (computed : d.snapshots session current = .ok snapshots) (cents : d.Cents)
    (capitals : ∀ entry ∈ current, OnGrid 2 entry.1.endingCapital) :
    ∀ s ∈ snapshots, OnGrid 2 s.charge.capital := by
  obtain ⟨postPnl, finalCapitals, posted, -, each⟩ := snapshots_computed computed
  have posts : ∀ post ∈ postPnl, OnGrid 2 post.1.capital := by
    intro post member
    obtain ⟨entry, -, r, allocated, same⟩ := forall₂_mem posted.flip member
    rw [same]
    refine onGrid_allocate add_zero (fun _ _ => OnGrid.add) (fun a held => ?_) cents.1 r allocated
    obtain ⟨entry, inside, rfl⟩ := List.mem_map.mp held
    exact capitals entry inside
  intro s member
  obtain ⟨entry, -, -, -, found, -⟩ := forall₂_mem each.flip member
  unfold resultOf at found
  split at found
  · rename_i charge found'
    cases found
    exact (cents_charges cents posts _ (List.mem_of_find?_eq_some found')).capital
  · cases found

/-! ### The rows that are written -/

variable {base accounts : List CapitalAccountRecord}

def DailyAllocation.rows (d : DailyAllocation) (snapshots : List Snapshot) : List CapitalAccountRecord :=
  snapshots.map fun s => (d.row s).columns

theorem stored_rows (d : DailyAllocation) (snapshots : List Snapshot) : Stored (d.rows snapshots) := by
  intro a member
  obtain ⟨s, -, rfl⟩ := List.mem_map.mp member
  exact ⟨_, rfl⟩

theorem cents_rows (d : DailyAllocation) (snapshots : List Snapshot) :
    ∀ a ∈ d.rows snapshots, OnGrid 2 a.endingCapital := by
  intro a member
  obtain ⟨s, -, rfl⟩ := List.mem_map.mp member
  exact onGrid_numeric _ _

/-- The rows of an allocation for a later date take the place of all. -/
theorem latestByFund_rows (computed : d.snapshots session (latestByFund base) = .ok snapshots)
    (later : ∀ entry ∈ latestByFund base, entry.1.effectiveDate < d.businessDate) :
    latestByFund (base ++ d.rows snapshots) = (d.rows snapshots).zipIdx base.length := by
  refine latestByFund_renewed d.businessDate (fun b member => ?_) (fun r member => ?_) fun b member => ?_
  · obtain ⟨entry, inside, -, bound⟩ := exists_latest member
    exact bound.trans_lt (later entry inside)
  · obtain ⟨s, -, rfl⟩ := List.mem_map.mp member
    rfl
  · obtain ⟨entry, inside, own, -⟩ := exists_latest member
    rw [← snapshots_rows computed] at inside
    obtain ⟨s, held, rfl⟩ := List.mem_map.mp inside
    exact ⟨_, List.mem_map_of_mem held, own⟩

/-- An allocation for a later date of whole cents gives each investor a row with its part. -/
theorem Following.renewed (following : Following base)
    (computed : d.snapshots session (latestByFund base) = .ok snapshots) (cents : d.Cents)
    (later : ∀ entry ∈ latestByFund base, entry.1.effectiveDate < d.businessDate) :
    Following (base ++ d.rows snapshots) := by
  have accounts := snapshots_rows computed
  have capitals := snapshots_cents computed cents fun entry member =>
    following.cents _ (mem_of_mem_latestByFund member)
  have pcts := snapshots_pcts computed (ids_distinct base)
  have latest := latestByFund_rows computed later
  have columns : ∀ {α : Type} (f : CapitalAccountRecord → α),
      ((d.rows snapshots).zipIdx base.length).map (fun entry => f entry.1) =
        snapshots.map fun s => f (d.row s).columns := by
    intro α f
    calc ((d.rows snapshots).zipIdx base.length).map (fun entry => f entry.1)
        = (((d.rows snapshots).zipIdx base.length).map (·.1)).map f := by
          rw [List.map_map]
          rfl
      _ = snapshots.map fun s => f (d.row s).columns := by
          rw [List.zipIdx_map_fst, DailyAllocation.rows, List.map_map]
          rfl
  refine ⟨List.forall_mem_append.mpr ⟨following.stored, stored_rows d snapshots⟩,
    List.forall_mem_append.mpr ⟨following.cents, cents_rows d snapshots⟩, ?_, ?_⟩
  · have investors : (snapshots.map fun s => s.account.investorId) =
        (latestByFund base).map (·.1.investorId) := by
      rw [← accounts, List.map_map]
      rfl
    rw [Untied, latest, columns (·.investorId)]
    exact investors ▸ following.untied
  · rw [Apportioned, latest, columns (·.ownershipSeen none), columns (·.endingCapital)]
    have endings : (snapshots.map fun s => (d.row s).columns.endingCapital) =
        snapshots.map (·.charge.capital) :=
      List.map_congr_left fun s member => (capitals s member).numeric_eq
    have kept : (snapshots.map fun s => (d.row s).columns.ownershipSeen none) =
        snapshots.map (·.ownershipPct) := by
      refine List.map_congr_left fun s member => ?_
      have grid : OnGrid 6 s.ownershipPct :=
        onGrid_percentages _ _ (pcts ▸ List.mem_map_of_mem member)
      exact grid.numeric_eq
    rw [endings, kept, pcts]

/-- Nothing of an account raises after its row is inserted. -/
def Clear (env : Env) (id : Nat) : Prop :=
  env.fails (.refreshAccount (.allocating id)) = none ∧
    ∀ type, env.fails (.insertTransaction (.allocating id) type) = none ∧
      env.fails (.refreshTransaction (.allocating id) type) = none

/-- The rows of all these accounts are inserted. -/
def Written (env : Env) : List Nat → Prop
  | [] => True
  | id :: rest => env.fails (.insertAccount (.allocating id)) = none ∧
      (rest = [] ∨ Clear env id ∧ Written env rest)

theorem written_of_calm (calm : ∀ op, env.fails op = none) (ids : List Nat) : Written env ids := by
  induction ids with
  | nil => trivial
  | cons id rest ih => exact ⟨calm _, .inr ⟨⟨calm _, fun _ => ⟨calm _, calm _⟩⟩, ih⟩⟩

/-- How the rows of some accounts come to be written: up to one whose insert raises, or up to one
after whose insert something does. -/
def Wrote (d : DailyAllocation) (env : Env) (accounts : List CapitalAccountRecord)
    (snapshots : List Snapshot) (db : Database) : Prop :=
  ∃ wrote later, snapshots = wrote ++ later ∧ At (accounts ++ d.rows wrote) db ∧
    (Written env (snapshots.map (·.id)) → later = []) ∧
    ((∃ id ∈ (snapshots.map (·.id)).head?, env.fails (.insertAccount (.allocating id)) ≠ none) →
      wrote = [])

theorem triple_write (stored : Stored accounts) (s : Snapshot) :
    Triple (At accounts) (d.write env session s)
      (fun _ db => env.fails (.insertAccount (.allocating s.id)) = none ∧ At (accounts ++ d.rows [s]) db)
      (fun db => env.fails (.insertAccount (.allocating s.id)) ≠ none ∧ At accounts db ∨
        env.fails (.insertAccount (.allocating s.id)) = none ∧ ¬ Clear env s.id ∧
          At (accounts ++ d.rows [s]) db) := by
  have whole : Stored (accounts ++ d.rows [s]) :=
    List.forall_mem_append.mpr ⟨stored, stored_rows d [s]⟩
  have inserted : Triple (At accounts) (insertAccount env session (.allocating s.id) (d.row s))
      (fun _ db => env.fails (.insertAccount (.allocating s.id)) = none ∧ At (accounts ++ d.rows [s]) db)
      (fun db => env.fails (.insertAccount (.allocating s.id)) ≠ none ∧ At accounts db ∨
        env.fails (.insertAccount (.allocating s.id)) = none ∧ ¬ Clear env s.id ∧
          At (accounts ++ d.rows [s]) db) := by
    refine .bind _ (triple_awaited fun failing _ here => .inl ⟨failing, here⟩) fun _ =>
      .assume fun allowed => ?_
    refine .bind (fun _ => At accounts) (fun _ met => met) fun _ => ?_
    refine .bind (fun _ => At (accounts ++ d.rows [s])) (.modify fun db here => ?_) fun _ => ?_
    · refine whole.commit _ ?_
      change db.accounts ++ [(d.row s).columns] = accounts ++ d.rows [s]
      rw [show db.accounts = accounts from here]
      rfl
    · refine .bind _ (triple_awaited fun failing db here =>
        .inr ⟨allowed, fun clear => failing clear.1, here⟩) fun _ _ met => ⟨allowed, met.2⟩
  refine .bind _ inserted fun accountId => .assume fun allowed => ?_
  have each : ∀ entry : TransactionType × Decimal, Triple (At (accounts ++ d.rows [s]))
      (if entry.2 ≠ 0 then do
          let _ ← insertTransaction env session (.allocating s.id)
            (d.transaction s accountId entry.1 entry.2)
        else pure ()) (fun _ => At (accounts ++ d.rows [s]))
      (fun db => env.fails (.insertAccount (.allocating s.id)) ≠ none ∧ At accounts db ∨
        env.fails (.insertAccount (.allocating s.id)) = none ∧ ¬ Clear env s.id ∧
          At (accounts ++ d.rows [s]) db) := by
    intro entry
    split
    · refine .bind (fun _ => At (accounts ++ d.rows [s])) (triple_insertTransaction
        (fun failing db here => .inr ⟨allowed, fun clear => failing (clear.2 _).1, here⟩)
        (fun db here => whole.commit _ here)
        (fun failing db here => .inr ⟨allowed, fun clear => failing (clear.2 _).2, here⟩))
        fun _ _ here => here
    · exact fun _ here => here
  exact (Triple.forM_same each _).weaken (fun _ here => here) (fun _ _ here => ⟨allowed, here⟩)
    fun _ met => met

theorem Wrote.cons {s : Snapshot} {rest : List Snapshot} {db : Database}
    (allowed : env.fails (.insertAccount (.allocating s.id)) = none)
    (wrote : Wrote d env (accounts ++ d.rows [s]) rest db) : Wrote d env accounts (s :: rest) db := by
  obtain ⟨wrote, later, rfl, here, full, -⟩ := wrote
  rw [List.append_assoc] at here
  refine ⟨s :: wrote, later, rfl, here, fun written => ?_, ?_⟩
  · rcases written.2 with last | ⟨-, later⟩
    · exact (List.append_eq_nil_iff.mp (List.map_eq_nil_iff.mp last)).2
    · exact full later
  · rintro ⟨id, first, refused⟩
    cases first
    exact absurd allowed refused

theorem triple_writes (stored : Stored accounts) (snapshots : List Snapshot) :
    Triple (At accounts) (snapshots.forM (d.write env session))
      (fun _ => Wrote d env accounts snapshots) (Wrote d env accounts snapshots) := by
  induction snapshots generalizing accounts with
  | nil =>
    intro db here
    exact ⟨[], [], rfl, here.trans (List.append_nil accounts).symm, fun _ => rfl, fun _ => rfl⟩
  | cons s rest ih =>
    have whole : Stored (accounts ++ d.rows [s]) :=
      List.forall_mem_append.mpr ⟨stored, stored_rows d [s]⟩
    refine .bind _ ((triple_write stored s).weaken (fun _ here => here) (fun _ _ met => met) ?_)
      fun _ => .assume fun allowed => ?_
    · rintro db (⟨refused, here⟩ | ⟨allowed, unclear, here⟩)
      · refine ⟨[], s :: rest, rfl, here.trans (List.append_nil accounts).symm, fun written => ?_,
          fun _ => rfl⟩
        exact absurd written.1 refused
      · refine ⟨[s], rest, rfl, here, fun written => ?_, ?_⟩
        · rcases written.2 with last | ⟨clear, -⟩
          · exact List.map_eq_nil_iff.mp last
          · exact absurd clear unclear
        · rintro ⟨id, first, refused⟩
          cases first
          exact absurd allowed refused
    · exact (ih whole).weaken (fun _ here => here) (fun _ _ wrote => wrote.cons allowed)
        fun _ wrote => wrote.cons allowed

/-- An allocation has left the accounts, or has written rows for some of them. -/
def Allocated (d : DailyAllocation) (env : Env) (session : Option Nat)
    (base : List CapitalAccountRecord) (db : Database) : Prop :=
  At base db ∨ env.fails (.latestByFund none) = none ∧ ∃ snapshots,
    d.snapshots session (latestByFund base) = .ok snapshots ∧ Wrote d env base snapshots db

theorem triple_allocated (stored : Stored base) :
    Triple (At base) (allocateDaily env session d) (fun _ => Allocated d env session base)
      (Allocated d env session base) := by
  refine .bind _ (triple_awaited fun _ _ here => .inl here) fun _ => .assume fun listed => ?_
  refine .bind _ triple_get fun seen => ?_
  dsimp only
  split
  · exact fun _ met => .inl met.2
  · refine .bind _ (triple_ofExcept.weaken (fun _ met => met) (fun _ _ met => met)
      fun _ met => .inl met.2) fun snapshots => .assume fun computed => ?_
    rintro db ⟨rfl, here⟩
    have same : seen.accounts = base := here
    rw [same] at computed
    have rest : Triple (At base) (snapshots.forM (d.write env session) >>= fun _ => do
        await env (.publishCapital none)
        return snapshots.length) (fun _ => Wrote d env base snapshots) (Wrote d env base snapshots) :=
      .bind _ (triple_writes stored snapshots) fun _ =>
        .bind (fun _ => Wrote d env base snapshots) (triple_await (fun _ wrote => wrote) _) fun _ _ wrote =>
          wrote
    exact rest.weaken (fun _ here => here) (fun _ _ wrote => .inr ⟨listed, snapshots, computed, wrote⟩)
      (fun _ wrote => .inr ⟨listed, snapshots, computed, wrote⟩) seen here

end Allocation

end MiniHedge.CapitalAccounts
