import MiniHedge.Auth.Delegation
import MiniHedge.Library.Transition
import Mathlib.Data.List.Nodup

/-! Servicing edges over time: what administrators do to them and what requests have seen of them.

A request that the context cache does not answer looks its edge up, and stores its context
once the answer is back. Others take their turns in between, and the edge may have ended by
then.
-/

set_option autoImplicit false

namespace MiniHedge.Auth

open MiniHedge.Python MiniHedge.Library

/-! ## The table and its repository -/

structure EdgeRow where
  id : String
  edge : ServicingEdgeRecord
  deriving DecidableEq, Repr

/-- The columns of the unique index. -/
def EdgeRow.pair (row : EdgeRow) : String × String := (row.edge.adminCustomerId, row.edge.clientCustomerId)

/-- `servicing_edges`, with its primary key and its unique index. -/
structure ServicingEdges where
  rows : List EdgeRow
  ids : (rows.map (·.id)).Nodup
  pairs : (rows.map (·.pair)).Nodup

/-- What an `UPDATE` sets. -/
structure EdgeValues where
  scopedRoles : Option (List String) := none
  status : Option ServicingEdgeStatus := none
  effectiveUntil : Option (Option Datetime) := none

def EdgeRow.set (row : EdgeRow) (values : EdgeValues) : EdgeRow where
  id := row.id
  edge := { row.edge with
    scopedRoles := values.scopedRoles.getD row.edge.scopedRoles
    status := values.status.getD row.edge.status
    effectiveUntil := values.effectiveUntil.getD row.edge.effectiveUntil }

namespace ServicingEdges

variable (t : ServicingEdges)

def records : List ServicingEdgeRecord := t.rows.map (·.edge)

def getById (id : String) : Option EdgeRow := t.rows.find? (·.id = id)

/-- A row whose key or pair is there is refused. -/
def insert (row : EdgeRow) : Option ServicingEdges :=
  if free : row.id ∉ t.rows.map (·.id) ∧ row.pair ∉ t.rows.map (·.pair) then
    some {
      rows := t.rows ++ [row]
      ids := by
        rw [List.map_append, List.map_singleton, ← List.concat_eq_append]
        exact t.ids.concat free.1
      pairs := by
        rw [List.map_append, List.map_singleton, ← List.concat_eq_append]
        exact t.pairs.concat free.2 }
  else none

/-- `UPDATE .. WHERE id = .. AND status IN ..`. -/
def update (id : String) (statuses : List ServicingEdgeStatus) (values : EdgeValues) : ServicingEdges where
  rows := t.rows.map fun row => if row.id = id ∧ row.edge.status ∈ statuses then row.set values else row
  ids := by
    rw [List.map_map]
    convert t.ids using 2
    funext row
    dsimp only [Function.comp_apply]
    split <;> rfl
  pairs := by
    rw [List.map_map]
    convert t.pairs using 2
    funext row
    dsimp only [Function.comp_apply]
    split <;> rfl

/-- An update that answers with nothing where no row was changed. -/
def updateAny (id : String) (statuses : List ServicingEdgeStatus) (values : EdgeValues) :
    ServicingEdges × Option EdgeRow :=
  if ∃ row ∈ t.rows, row.id = id ∧ row.edge.status ∈ statuses then
    (t.update id statuses values, (t.update id statuses values).getById id)
  else (t, none)

def updateScopedRoles (id : String) (scopedRoles : List String) : ServicingEdges × Option EdgeRow :=
  let t := t.update id [.active, .suspended, .terminated] { scopedRoles := some scopedRoles }
  (t, t.getById id)

def suspend (id : String) : ServicingEdges × Option EdgeRow :=
  t.updateAny id [.active] { status := some .suspended }

def terminate (id : String) (now : Datetime) : ServicingEdges × Option EdgeRow :=
  t.updateAny id [.active, .suspended] { status := some .terminated, effectiveUntil := some (some now) }

def reactivate (id : String) : ServicingEdges × Option EdgeRow :=
  let t := t.update id [.suspended] { status := some .active, effectiveUntil := some none }
  (t, t.getById id)

end ServicingEdges

/-! ## What administrators ask for -/

inductive EdgeError where
  | integrity
  | notFound (resource id : String)
  deriving DecidableEq, Repr

inductive EdgeAction where
  /-- The key is drawn by the database. -/
  | create (id adminCustomerId clientCustomerId : String) (scopedRoles : List String)
  | updateRoles (id : String) (scopedRoles : List String)
  | suspend (id : String)
  | terminate (id : String)
  deriving DecidableEq, Repr

section AdminService

variable (t : ServicingEdges) (now : Datetime)

def createServicingEdge (id adminCustomerId clientCustomerId : String) (scopedRoles : List String) :
    ServicingEdges × Except EdgeError EdgeRow :=
  let record : EdgeRow := ⟨id, { adminCustomerId, clientCustomerId, scopedRoles, effectiveFrom := now }⟩
  match t.insert record with
  | none => (t, .error .integrity)
  | some t => (t, .ok record)

/-- An edge that the repository did not answer with is not found. -/
def edgeFound (id : String) (answer : ServicingEdges × Option EdgeRow) : ServicingEdges × Except EdgeError EdgeRow :=
  match answer with
  | (t, none) => (t, .error (.notFound "Servicing edge" id))
  | (t, some row) => (t, .ok row)

def updateServicingEdgeRoles (id : String) (scopedRoles : List String) : ServicingEdges × Except EdgeError EdgeRow :=
  edgeFound id (t.updateScopedRoles id scopedRoles)

def suspendServicingEdge (id : String) : ServicingEdges × Except EdgeError EdgeRow :=
  edgeFound id (t.suspend id)

def terminateServicingEdge (id : String) : ServicingEdges × Except EdgeError EdgeRow :=
  edgeFound id (t.terminate id now)

def administer : EdgeAction → ServicingEdges × Except EdgeError EdgeRow
  | .create id admin client scopedRoles => createServicingEdge t now id admin client scopedRoles
  | .updateRoles id scopedRoles => updateServicingEdgeRoles t id scopedRoles
  | .suspend id => suspendServicingEdge t id
  | .terminate id => terminateServicingEdge t now id

end AdminService

@[simp] theorem edgeFound_fst (id : String) (answer : ServicingEdges × Option EdgeRow) :
    (edgeFound id answer).1 = answer.1 := by
  obtain ⟨t, found⟩ := answer
  cases found <;> rfl

/-! ## One row for two customers -/

namespace ServicingEdges

variable {t : ServicingEdges} {home client : String}

theorem eq_of_pair {row row' : EdgeRow} (member : row ∈ t.rows) (member' : row' ∈ t.rows)
    (same : row.pair = row'.pair) : row = row' :=
  List.inj_on_of_nodup_map t.pairs member member' same

theorem mem_records {edge : ServicingEdgeRecord} : edge ∈ t.records ↔ ∃ row ∈ t.rows, row.edge = edge :=
  List.mem_map

/-- What is found is the only row that is active between the two, so that one is asked for. -/
theorem getActiveEdge_eq_some {now : Datetime} {edge : ServicingEdgeRecord} :
    getActiveEdge t.records home client now = some edge ↔
      ∃ row ∈ t.rows, row.pair = (home, client) ∧ row.edge.Active now ∧ row.edge = edge := by
  constructor
  · intro found
    obtain ⟨member, admin, own, active⟩ := getActiveEdge_some found
    obtain ⟨row, there, rfl⟩ := mem_records.mp member
    exact ⟨row, there, Prod.ext admin own, active, rfl⟩
  · rintro ⟨row, there, pair, active, rfl⟩
    have some_found : (getActiveEdge t.records home client now).isSome := by
      rw [getActiveEdge, List.find?_isSome]
      refine ⟨row.edge, mem_records.mpr ⟨row, there, rfl⟩, ?_⟩
      rw [decide_eq_true_iff]
      exact ⟨congrArg Prod.fst pair, congrArg Prod.snd pair, active⟩
    obtain ⟨edge, found⟩ := Option.isSome_iff_exists.mp some_found
    obtain ⟨member, admin, own, -⟩ := getActiveEdge_some found
    obtain ⟨row', there', rfl⟩ := mem_records.mp member
    obtain rfl := eq_of_pair there there' (pair.trans (Prod.ext admin.symm own.symm))
    exact found

/-- The edge between the two has been terminated. -/
def Ended (t : ServicingEdges) (home client : String) : Prop :=
  ∃ row ∈ t.rows, row.pair = (home, client) ∧ row.edge.status = .terminated

theorem Ended.getActiveEdge (ended : t.Ended home client) (now : Datetime) :
    getActiveEdge t.records home client now = none := by
  obtain ⟨row, there, pair, terminated⟩ := ended
  rw [Option.eq_none_iff_forall_ne_some]
  intro edge found
  obtain ⟨row', there', pair', active, -⟩ := getActiveEdge_eq_some.mp found
  obtain rfl := eq_of_pair there there' (pair.trans pair'.symm)
  rw [active.1] at terminated
  cases terminated

/-! ### What keeps an edge terminated -/

theorem Ended.insert {row : EdgeRow} {t' : ServicingEdges} (ended : t.Ended home client)
    (inserted : t.insert row = some t') : t'.Ended home client := by
  obtain ⟨former, there, own⟩ := ended
  rw [ServicingEdges.insert] at inserted
  split at inserted
  · cases inserted
    exact ⟨former, List.mem_append_left _ there, own⟩
  · cases inserted

/-- The two get no second row. -/
theorem Ended.refused (ended : t.Ended home client) {row : EdgeRow} (own : row.pair = (home, client)) :
    t.insert row = none := by
  obtain ⟨former, there, pair, -⟩ := ended
  rw [ServicingEdges.insert, dif_neg]
  rintro ⟨-, free⟩
  exact free (List.mem_map.mpr ⟨former, there, pair.trans own.symm⟩)

theorem Ended.update {id : String} {statuses : List ServicingEdgeStatus} {values : EdgeValues}
    (ended : t.Ended home client) (kept : .terminated ∈ statuses → values.status = none) :
    (t.update id statuses values).Ended home client := by
  obtain ⟨row, there, pair, terminated⟩ := ended
  refine ⟨_, List.mem_map_of_mem there, ?_⟩
  split
  · rename_i changed
    refine ⟨pair, ?_⟩
    rw [EdgeRow.set, kept (terminated ▸ changed.2)]
    exact terminated
  · exact ⟨pair, terminated⟩

theorem Ended.updateAny {id : String} {statuses : List ServicingEdgeStatus} {values : EdgeValues}
    (ended : t.Ended home client) (kept : .terminated ∈ statuses → values.status = none) :
    (t.updateAny id statuses values).1.Ended home client := by
  rw [ServicingEdges.updateAny]
  split
  · exact ended.update kept
  · exact ended

theorem Ended.administer {now : Datetime} (ended : t.Ended home client) (action : EdgeAction) :
    (administer t now action).1.Ended home client := by
  cases action with
  | create id admin client' scopedRoles =>
    rw [Auth.administer, createServicingEdge]
    split
    · exact ended
    · rename_i t' inserted
      exact ended.insert inserted
  | updateRoles id scopedRoles =>
    rw [Auth.administer, updateServicingEdgeRoles, edgeFound_fst]
    exact ended.update fun _ => rfl
  | suspend id =>
    rw [Auth.administer, suspendServicingEdge, edgeFound_fst]
    exact ended.updateAny fun among => absurd among (by decide)
  | terminate id =>
    rw [Auth.administer, terminateServicingEdge, edgeFound_fst]
    exact ended.updateAny fun among => absurd among (by decide)

/-- Whatever the status of the edge was. -/
theorem ended_terminate {row : EdgeRow} (there : row ∈ t.rows) (pair : row.pair = (home, client)) (now : Datetime) :
    (administer t now (.terminate row.id)).1.Ended home client := by
  rw [Auth.administer, terminateServicingEdge, edgeFound_fst, terminate, updateAny]
  by_cases open_ : row.edge.status ∈ [ServicingEdgeStatus.active, .suspended]
  · rw [if_pos ⟨row, there, rfl, open_⟩]
    refine ⟨_, List.mem_map_of_mem there, ?_⟩
    rw [if_pos ⟨rfl, open_⟩]
    exact ⟨pair, rfl⟩
  · have terminated : row.edge.status = .terminated := by
      cases status : row.edge.status with
      | terminated => rfl
      | active => simp [status] at open_
      | suspended => simp [status] at open_
    have ended : t.Ended home client := ⟨row, there, pair, terminated⟩
    exact ended.updateAny fun among => absurd among (by decide)

end ServicingEdges

/-! ## Contexts for clients -/

/-- The context is one of a user of the one customer who acts for the other. -/
def RequestContext.ActsFor (context : RequestContext) (home client : String) : Prop :=
  context.homeCustomerId = some home ∧ context.actingAsCustomerId = some client

instance (context : RequestContext) (home client : String) : Decidable (context.ActsFor home client) :=
  inferInstanceAs (Decidable (_ ∧ _))

section Origin

variable {settings : Settings} {answers : Answers} {now : Datetime} {token : Token}
  {fundSlug actingAsCustomerId : Option String} {c c' : Caches} {context : RequestContext} {home client : String}

theorem serviced_of_delegate {found : Identified}
    (delegated : delegate settings answers now actingAsCustomerId found = .ok context)
    (acts : context.ActsFor home client) : Serviced answers now home client context := by
  obtain ⟨own, acting⟩ := acts
  rw [delegate] at delegated
  dsimp only at delegated
  split at delegated
  · rename_i home' client' user target
    split at delegated
    · split at delegated
      · cases delegated
      · rename_i edge looked
        cases delegated
        dsimp only at own acting
        rw [acting] at target
        obtain ⟨user, -⟩ := given_ne_empty user
        obtain ⟨target, -⟩ := given_ne_empty target
        cases own.symm.trans user
        cases target
        obtain ⟨member, admin, serviced, active⟩ := getActiveEdge_some looked
        have within : found.access.roles.filter (· ∈ edge.scopedRoles) ⊆ edge.scopedRoles := fun role held =>
          of_decide_eq_true (List.mem_filter.mp held).2
        exact ⟨edge, member, admin, serviced, active, within, resolvePermissions_mono within⟩
    · cases delegated
      cases acting
  · cases delegated
    cases acting

theorem serviced_of_operator {operator : OperatorRecord} {platformRoles : List String}
    (made : operatorContext operator platformRoles = .ok context) : ¬ context.ActsFor home client := by
  rintro ⟨-, acting⟩
  cases platformRoles with
  | nil => cases made
  | cons first rest =>
    cases made
    cases acting

/-- Only a user of a fund acts for another customer, and only under an active edge. -/
theorem serviced_of_fresh
    (authenticated : authenticateFresh settings answers now token fundSlug actingAsCustomerId c = (.ok context, c'))
    (acts : context.ActsFor home client) : Serviced answers now home client context := by
  obtain ⟨kind, c₁, first, second⟩ := Call.bind_ok authenticated
  cases kind with
  | operator =>
    obtain ⟨claims, c₂, -, second⟩ := Call.bind_ok second
    obtain ⟨operator, c₃, -, second⟩ := Call.bind_ok second
    split at second
    · exact (Call.error_ne_ok second).elim
    · obtain ⟨platformRoles, c₄, -, last⟩ := Call.bind_ok second
      exact absurd acts (serviced_of_operator (Call.of_ok last).1)
  | investor =>
    cases configured : answers.investor with
    | none =>
      simp only [authenticateKeycloakInvestor, configured] at second
      exact (Call.error_ne_ok second).elim
    | some lookup =>
      simp only [authenticateKeycloakInvestor, configured] at second
      obtain ⟨claims, c₂, -, second⟩ := Call.bind_ok second
      cases known : lookup claims with
      | none =>
        simp only [known] at second
        exact (Call.error_ne_ok second).elim
      | some investor =>
        simp only [known] at second
        split at second
        · exact (Call.error_ne_ok second).elim
        · obtain ⟨fund, c₃, -, last⟩ := Call.bind_ok second
          cases last
          exact nomatch acts.2
  | fundUser =>
    obtain ⟨found, c₂, -, last⟩ := Call.bind_ok second
    exact serviced_of_delegate (Call.of_ok last).1 acts
  | application =>
    obtain ⟨claims, c₂, -, last⟩ := Call.bind_ok second
    cases last
    exact nomatch acts.2

end Origin

/-! ### The context cache is left alone -/

namespace Call

variable {α β : Type}

def KeepsCtx (x : Call α) : Prop := ∀ c, (x c).2.ctx = c.ctx

theorem KeepsCtx.of (result : Except AuthError α) : (Call.of result).KeepsCtx := fun _ => rfl

theorem KeepsCtx.error (e : AuthError) : (Call.error e : Call α).KeepsCtx := fun _ => rfl

theorem KeepsCtx.pure (a : α) : (Pure.pure a : Call α).KeepsCtx := fun _ => rfl

theorem KeepsCtx.bind {x : Call α} {f : α → Call β} (first : x.KeepsCtx) (second : ∀ a, (f a).KeepsCtx) :
    (x >>= f).KeepsCtx := by
  intro c
  have kept := first c
  change (Call.bind x f c).2.ctx = c.ctx
  rw [Call.bind]
  split
  · rename_i a c' ran
    rw [ran] at kept
    exact (second a c').trans kept
  · rename_i e c' ran
    rw [ran] at kept
    exact kept

end Call

section KeepsCtx

variable (settings : Settings) (answers : Answers) (now : Datetime)

theorem decodeKeycloak_keepsCtx (realm : Realm) (token : Token) :
    (decodeKeycloak settings answers now realm token).KeepsCtx := by
  rw [decodeKeycloak]
  split
  · exact .error _
  · exact .bind (.of _) fun _ => .of _

theorem syncUser_keepsCtx (claims : KeycloakClaims) : (syncUser answers now claims).KeepsCtx := by
  intro c
  rw [syncUser]
  split
  · rfl
  · split <;> rfl

theorem lookupFund_keepsCtx (fundSlug : String) : (lookupFund answers now fundSlug).KeepsCtx := by
  intro c
  rw [lookupFund]
  split
  · split <;> rfl
  · split
    · rfl
    · dsimp only
      split <;> rfl

theorem resolveFundAccess_keepsCtx (userId fundId : String) (customerId : Option String) :
    (resolveFundAccess answers now userId fundId customerId).KeepsCtx := by
  intro c
  rw [resolveFundAccess]
  split
  · rfl
  · split
    · rfl
    · split <;> rfl

theorem identify_keepsCtx (token : Token) (fundSlug actingAsCustomerId : Option String) :
    (identify settings answers now token fundSlug actingAsCustomerId).KeepsCtx := by
  rw [identify]
  refine .bind (decodeKeycloak_keepsCtx settings answers now _ token) fun claims => ?_
  refine .bind (syncUser_keepsCtx answers now claims) fun user => ?_
  split
  · exact .error _
  · have rest : ∀ fund : FundRecord, (resolveFundAccess answers now user.id fund.id fund.customerId >>= fun access =>
        if access.roles = [] ∧ access.permissions = [] then Call.error noFundAccess
        else pure (⟨user, fundSlug.getD fund.slug, fund, access⟩ : Identified)).KeepsCtx := by
      intro fund
      refine .bind (resolveFundAccess_keepsCtx answers now _ _ _) fun access => ?_
      split
      · exact .error _
      · exact .pure _
    cases fundSlug with
    | none => exact .bind (.of _) rest
    | some fundSlug => exact .bind (lookupFund_keepsCtx answers now fundSlug) rest

theorem authenticateKeycloakOperator_keepsCtx (token : Token) :
    (authenticateKeycloakOperator settings answers now token).KeepsCtx := by
  refine .bind (decodeKeycloak_keepsCtx settings answers now _ token) fun claims => ?_
  refine .bind (.of _) fun operator => ?_
  split
  · exact .error _
  · exact .bind (.of _) fun _ => .of _

theorem authenticateKeycloakInvestor_keepsCtx (token : Token) (fundSlug : Option String) :
    (authenticateKeycloakInvestor settings answers now token fundSlug).KeepsCtx := by
  rw [authenticateKeycloakInvestor]
  split
  · exact .error _
  · refine .bind (decodeKeycloak_keepsCtx settings answers now _ token) fun claims => ?_
    split
    · exact .error _
    · split
      · exact .error _
      · exact .bind (.of _) fun _ => .pure _

theorem authenticateFresh_keepsCtx (token : Token) (fundSlug actingAsCustomerId : Option String) :
    (authenticateFresh settings answers now token fundSlug actingAsCustomerId).KeepsCtx := by
  refine .bind (.of _) fun kind => ?_
  cases kind with
  | operator => exact authenticateKeycloakOperator_keepsCtx settings answers now token
  | investor => exact authenticateKeycloakInvestor_keepsCtx settings answers now token fundSlug
  | fundUser => exact .bind (identify_keepsCtx settings answers now token fundSlug actingAsCustomerId) fun _ => .of _
  | application => exact .bind (.of _) fun _ => .pure _

end KeepsCtx

/-! ## The platform -/

/-- A request whose context is made and not stored yet. -/
structure Pending where
  key : CtxKey
  context : RequestContext

structure Platform where
  edges : ServicingEdges
  caches : Caches := {}
  pending : List Pending := []
  clock : Datetime

inductive PlatformAction where
  | pass (time : Nat)
  | administer (action : EdgeAction)
  | reactivate (id : String)
  /-- A request that the context cache does not answer is authenticated with what the stores answer. -/
  | authenticate (answers : Answers) (token : Token) (fundSlug actingAsCustomerId : Option String)
  /-- The context of the request in this place is stored. -/
  | resume (place : Nat)
  /-- Entries are evicted from the caches. -/
  | evict (users funds : String → Bool) (access : AccessKey → Bool) (ctx : CtxKey → Bool)

namespace Platform

section Step

variable (settings : Settings) (digest : String → String)

/-- The edges are those of the table, whatever else the stores answer. -/
def authenticate (s : Platform) (answers : Answers) (token : Token) (fundSlug actingAsCustomerId : Option String) :
    Platform :=
  let key := ctxKey digest token fundSlug actingAsCustomerId
  match s.caches.ctx.get s.clock key with
  | some _ => s
  | none =>
    match authenticateFresh settings { answers with servicingEdges := s.edges.records } s.clock token fundSlug
        actingAsCustomerId s.caches with
    | (.error _, caches) => { s with caches }
    | (.ok context, caches) => { s with caches, pending := s.pending ++ [⟨key, context⟩] }

def step (s : Platform) : PlatformAction → Option Platform
  | .pass time => some { s with clock := s.clock + time }
  | .administer action => some { s with edges := (Auth.administer s.edges s.clock action).1 }
  | .reactivate id => some { s with edges := (s.edges.reactivate id).1 }
  | .authenticate answers token fundSlug actingAsCustomerId =>
    some (s.authenticate settings digest answers token fundSlug actingAsCustomerId)
  | .resume place =>
    s.pending[place]?.map fun p => { s with
      caches := { s.caches with ctx := s.caches.ctx.set (s.clock + seconds 300) p.key p.context }
      pending := s.pending.eraseIdx place }
  | .evict users funds access ctx =>
    some { s with caches := {
      users := s.caches.users.evict users
      funds := s.caches.funds.evict funds
      access := s.caches.access.evict access
      ctx := s.caches.ctx.evict ctx } }

def system : System Platform PlatformAction := ⟨step settings digest⟩

end Step

/-- Nothing is cached and no request is under way. -/
structure Opening (s : Platform) : Prop where
  pending : s.pending = []
  ctx : s.caches.ctx = []

/-- A request is answered with the context, from the cache or on its own. -/
def Serves (s : Platform) (context : RequestContext) : Prop :=
  (∃ p ∈ s.pending, p.context = context) ∨ ∃ key, s.caches.ctx.get s.clock key = some context

/-- The active edge between the two allows what the context may do. -/
def Allows (s : Platform) (home client : String) (context : RequestContext) : Prop :=
  ∃ row ∈ s.edges.rows, row.pair = (home, client) ∧ row.edge.Active s.clock ∧
    context.roles ⊆ row.edge.scopedRoles ∧ context.permissions ⊆ resolvePermissions row.edge.scopedRoles

variable {settings : Settings} {digest : String → String} {s s' : Platform} {home client : String}

theorem authenticate_cases (answers : Answers) (token : Token) (fundSlug actingAsCustomerId : Option String)
    (moved : s.authenticate settings digest answers token fundSlug actingAsCustomerId = s') :
    s'.edges = s.edges ∧ s'.clock = s.clock ∧ s'.caches.ctx = s.caches.ctx ∧
      (s'.pending = s.pending ∨ ∃ p, s'.pending = s.pending ++ [p] ∧
        ∀ home client, p.context.ActsFor home client → s.Allows home client p.context) := by
  rw [authenticate] at moved
  split at moved
  · subst moved
    exact ⟨rfl, rfl, rfl, .inl rfl⟩
  · have kept := authenticateFresh_keepsCtx settings { answers with servicingEdges := s.edges.records } s.clock token
      fundSlug actingAsCustomerId s.caches
    split at moved
    · rename_i e caches ran
      subst moved
      rw [ran] at kept
      exact ⟨rfl, rfl, kept, .inl rfl⟩
    · rename_i context caches ran
      subst moved
      rw [ran] at kept
      refine ⟨rfl, rfl, kept, .inr ⟨_, rfl, ?_⟩⟩
      intro home client acts
      obtain ⟨edge, member, admin, own, active, allowed⟩ := serviced_of_fresh ran acts
      obtain ⟨row, there, rfl⟩ := ServicingEdges.mem_records.mp member
      exact ⟨row, there, Prod.ext admin own, active, allowed⟩

/-- What a step can do. -/
inductive Moves (s : Platform) : Platform → Prop where
  | edges (edges : ServicingEdges) (kept : ∀ home client, s.edges.Ended home client → edges.Ended home client) :
    Moves s { s with edges }
  | pass (time : Nat) : Moves s { s with clock := s.clock + time }
  | caches {s' : Platform} (edges : s'.edges = s.edges) (clock : s'.clock = s.clock) (pending : s'.pending = s.pending)
      (fewer : ∀ e ∈ s'.caches.ctx, e ∈ s.caches.ctx) : Moves s s'
  | begin {s' : Platform} (p : Pending) (edges : s'.edges = s.edges) (clock : s'.clock = s.clock)
      (ctx : s'.caches.ctx = s.caches.ctx) (pending : s'.pending = s.pending ++ [p])
      (allowed : ∀ home client, p.context.ActsFor home client → s.Allows home client p.context) : Moves s s'
  | store (p : Pending) (place : Nat) (waiting : s.pending[place]? = some p) :
    Moves s { s with
      caches := { s.caches with ctx := s.caches.ctx.set (s.clock + seconds 300) p.key p.context }
      pending := s.pending.eraseIdx place }

theorem moves_of_step {action : PlatformAction} (stepped : (system settings digest).step s action = some s') :
    s.Moves s' := by
  cases action with
  | pass time =>
    cases stepped
    exact .pass time
  | administer action =>
    cases stepped
    exact .edges _ fun home client ended => ended.administer action
  | reactivate id =>
    cases stepped
    exact .edges _ fun home client ended => ended.update fun among => absurd among (by decide)
  | authenticate answers token fundSlug actingAsCustomerId =>
    obtain ⟨edges, clock, ctx, same | ⟨p, more, allowed⟩⟩ :=
      authenticate_cases answers token fundSlug actingAsCustomerId (Option.some.inj stepped)
    · exact .caches edges clock same fun e member => ctx ▸ member
    · exact .begin p edges clock ctx more allowed
  | resume place =>
    obtain ⟨p, waiting, rfl⟩ := Option.map_eq_some_iff.mp stepped
    exact .store p place waiting
  | evict users funds access ctx =>
    cases stepped
    exact .caches rfl rfl rfl fun e member => (TtlCache.mem_evict.mp member).1

/-! ### Where the contexts come from -/

/-- The context waits to be stored, or is cached, be it for now or not any more. -/
def Holds (s : Platform) (context : RequestContext) : Prop :=
  (∃ p ∈ s.pending, p.context = context) ∨ ∃ e ∈ s.caches.ctx, e.value = context

theorem Serves.holds {context : RequestContext} (serves : s.Serves context) : s.Holds context := by
  rcases serves with waiting | ⟨key, cached⟩
  · exact .inl waiting
  · obtain ⟨e, member, -, value, -⟩ := TtlCache.mem_of_get cached
    exact .inr ⟨e, member, value⟩

/-- A context that is new to the step was allowed in the state before. -/
theorem Moves.holds (moves : s.Moves s') {context : RequestContext} (holds : s'.Holds context) :
    s.Holds context ∨ ∀ home client, context.ActsFor home client → s.Allows home client context := by
  cases moves with
  | edges edges kept => exact .inl holds
  | pass time => exact .inl holds
  | caches edges clock pending fewer =>
    left
    rcases holds with waiting | ⟨e, member, value⟩
    · exact .inl (pending ▸ waiting)
    · exact .inr ⟨e, fewer e member, value⟩
  | begin p edges clock ctx pending allowed =>
    rcases holds with ⟨q, member, rfl⟩ | cached
    · rw [pending] at member
      rcases List.mem_append.mp member with former | new
      · exact .inl (.inl ⟨q, former, rfl⟩)
      · rw [List.mem_singleton.mp new]
        exact .inr allowed
    · exact .inl (.inr (ctx ▸ cached))
  | store p place waiting =>
    left
    rcases holds with ⟨q, member, own⟩ | ⟨e, member, value⟩
    · exact .inl ⟨q, List.mem_of_mem_eraseIdx member, own⟩
    · rcases TtlCache.mem_set.mp member with rfl | ⟨former, -⟩
      · exact .inl ⟨p, List.mem_of_getElem? waiting, value⟩
      · exact .inr ⟨e, former, value⟩

/-- The contexts for clients were allowed in one of the states so far. -/
def Traced (past : List (Platform × PlatformAction × Platform)) (s : Platform) : Prop :=
  ∀ context, s.Holds context → ∀ home client, context.ActsFor home client →
    ∃ m ∈ past, m.1.Allows home client context

theorem Opening.traced (opens : s.Opening) : Traced [] s := by
  intro context holds
  rcases holds with ⟨p, member, -⟩ | ⟨e, member, -⟩
  · rw [opens.pending] at member
    cases member
  · rw [opens.ctx] at member
    cases member

theorem Traced.next {past : List (Platform × PlatformAction × Platform)} (traced : Traced past s) (moves : s.Moves s')
    (action : PlatformAction) : Traced (past ++ [(s, action, s')]) s' := by
  intro context holds home client acts
  rcases moves.holds holds with former | new
  · obtain ⟨m, member, allowed⟩ := traced context former home client acts
    exact ⟨m, List.mem_append_left _ member, allowed⟩
  · exact ⟨_, List.mem_append_right _ (List.mem_singleton_self _), new home client acts⟩

/-- Whoever is served as acting for a client was allowed what it may do by the active edge to this client, in some
state of the run. -/
theorem served_was_allowed {opening final : Platform} (opens : opening.Opening) {actions : List PlatformAction}
    (ran : (system settings digest).run opening actions = some final) {context : RequestContext}
    (serves : final.Serves context) (acts : context.ActsFor home client) :
    ∃ m ∈ (system settings digest).moments opening actions, m.1.Allows home client context := by
  have kept : ∀ past s action next, Traced past s → (system settings digest).step s action = some next →
      Traced (past ++ [(s, action, next)]) next :=
    fun past s action next traced stepped => traced.next (moves_of_step stepped) action
  exact System.invariant_history kept ran opens.traced context serves.holds home client acts

/-! ### Edges that have been terminated -/

/-- Every cached context expires in five minutes. -/
def Expiring (s : Platform) : Prop := ∀ e ∈ s.caches.ctx, e.expires ≤ s.clock + seconds 300

theorem Opening.expiring (opens : s.Opening) : s.Expiring := by
  intro e member
  rw [opens.ctx] at member
  cases member

theorem Moves.expiring (moves : s.Moves s') (expiring : s.Expiring) : s'.Expiring := by
  cases moves with
  | edges edges kept => exact expiring
  | pass time =>
    intro e member
    calc e.expires ≤ s.clock + seconds 300 := expiring e member
      _ ≤ s.clock + time + seconds 300 := Int.add_le_add_right (Int.le_add_of_nonneg_right (Int.natCast_nonneg time)) _
  | caches edges clock pending fewer =>
    intro e member
    rw [clock]
    exact expiring e (fewer e member)
  | begin p edges clock ctx pending allowed =>
    intro e member
    rw [ctx] at member
    rw [clock]
    exact expiring e member
  | store p place waiting =>
    intro e member
    rcases TtlCache.mem_set.mp member with rfl | ⟨former, -⟩
    · exact le_rfl
    · exact expiring e former

theorem Moves.ended (moves : s.Moves s') (ended : s.edges.Ended home client) : s'.edges.Ended home client := by
  cases moves with
  | edges edges kept => exact kept home client ended
  | pass time => exact ended
  | caches edges clock pending fewer => rwa [edges]
  | begin p edges clock ctx pending allowed => rwa [edges]
  | store p place waiting => exact ended

/-- Nobody is allowed to act for the client any more, and those who are cached are not for longer than that. -/
structure Closing (home client : String) (limit : Datetime) (s : Platform) : Prop where
  ended : s.edges.Ended home client
  pending : ∀ p ∈ s.pending, ¬ p.context.ActsFor home client
  cached : ∀ e ∈ s.caches.ctx, e.value.ActsFor home client → e.expires ≤ limit

theorem not_allows_of_ended (ended : s.edges.Ended home client) (context : RequestContext) :
    ¬ s.Allows home client context := by
  rintro ⟨row, there, pair, active, -⟩
  have found := ServicingEdges.getActiveEdge_eq_some.mpr ⟨row, there, pair, active, rfl⟩
  rw [ended.getActiveEdge] at found
  cases found

theorem Closing.next {limit : Datetime} (closing : Closing home client limit s) (moves : s.Moves s') :
    Closing home client limit s' := by
  refine ⟨moves.ended closing.ended, ?_, ?_⟩
  · intro p waits acts
    rcases moves with _ | _ | ⟨-, -, pending, -⟩ | ⟨q, -, -, -, pending, allowed⟩ | ⟨q, place, -⟩
    · exact closing.pending p waits acts
    · exact closing.pending p waits acts
    · exact closing.pending p (pending ▸ waits) acts
    · rw [pending] at waits
      rcases List.mem_append.mp waits with former | new
      · exact closing.pending p former acts
      · rw [List.mem_singleton.mp new] at acts
        exact not_allows_of_ended closing.ended _ (allowed home client acts)
    · exact closing.pending p (List.mem_of_mem_eraseIdx waits) acts
  · intro e member acts
    rcases moves with _ | _ | ⟨-, -, -, fewer⟩ | ⟨-, -, -, ctx, -, -⟩ | ⟨q, place, waiting⟩
    · exact closing.cached e member acts
    · exact closing.cached e member acts
    · exact closing.cached e (fewer e member) acts
    · exact closing.cached e (ctx ▸ member) acts
    · rcases TtlCache.mem_set.mp member with rfl | ⟨former, -⟩
      · exact absurd acts (closing.pending q (List.mem_of_getElem? waiting))
      · exact closing.cached e former acts

theorem Closing.not_serves {limit : Datetime} (closing : Closing home client limit s) (passed : limit ≤ s.clock)
    {context : RequestContext} (serves : s.Serves context) : ¬ context.ActsFor home client := by
  intro acts
  rcases serves with ⟨p, waits, rfl⟩ | ⟨key, cached⟩
  · exact closing.pending p waits acts
  · obtain ⟨e, member, -, rfl, ahead⟩ := TtlCache.mem_of_get cached
    exact absurd (closing.cached e member acts) (not_le.mpr (passed.trans_lt ahead))

/-- An edge that has been terminated is never active again and not replaced, and five minutes after the last request
that has seen it active, nobody is served as acting for the client. -/
theorem terminated_locked_out {opening before s final : Platform} (opens : opening.Opening)
    {first meanwhile later : List PlatformAction} (ran : (system settings digest).run opening first = some before)
    {row : EdgeRow} (there : row ∈ before.edges.rows) (pair : row.pair = (home, client))
    (terminated : (system settings digest).run before (.administer (.terminate row.id) :: meanwhile) = some s)
    (ran' : (system settings digest).run s later = some final) :
    (∀ now, getActiveEdge final.edges.records home client now = none) ∧
    (∀ id scopedRoles, Auth.administer final.edges final.clock (.create id home client scopedRoles) =
      (final.edges, .error .integrity)) ∧
    ((∀ p ∈ s.pending, ¬ p.context.ActsFor home client) → s.clock + seconds 300 ≤ final.clock →
      ∀ context, final.Serves context → ¬ context.ActsFor home client) := by
  have expiring : s.Expiring := by
    have since : before.Expiring :=
      System.invariant_run (fun _ _ _ expiring stepped => (moves_of_step stepped).expiring expiring) ran opens.expiring
    exact System.invariant_run (fun _ _ _ expiring stepped => (moves_of_step stepped).expiring expiring) terminated since
  have ended : s.edges.Ended home client := by
    rw [System.run_cons] at terminated
    exact System.invariant_run (fun _ _ _ ended stepped => (moves_of_step stepped).ended ended) terminated
      (ServicingEdges.ended_terminate there pair before.clock)
  have ended' : final.edges.Ended home client :=
    System.invariant_run (fun _ _ _ ended stepped => (moves_of_step stepped).ended ended) ran' ended
  refine ⟨ended'.getActiveEdge, ?_, ?_⟩
  · intro id scopedRoles
    rw [Auth.administer, createServicingEdge, ended'.refused rfl]
  · intro settled passed context serves
    have closing : Closing home client (s.clock + seconds 300) s := ⟨ended, settled, fun e member _ => expiring e member⟩
    have closing' := System.invariant_run
      (fun _ _ _ closing stepped => Closing.next closing (moves_of_step stepped)) ran' closing
    exact closing'.not_serves passed serves

/-! ### A client that is serviced for a while -/

def servicedPlatform : Platform where
  edges := ⟨[⟨"edge", edgeTo "administrator" "client"⟩], by decide, by decide⟩
  clock := 0

/-- A user of the administrator asks for the fund of the client. -/
def askForClient : PlatformAction :=
  .authenticate (openAnswers "administrator" "client" []) anyToken (some "alpha") (some "client")

def servicing : System Platform PlatformAction := system (openSettings true) id

def servicedContext : RequestContext where
  actorId := "user"
  actorType := .user
  customerId := some "client"
  homeCustomerId := some "administrator"
  actingAsCustomerId := some "client"
  fundSlug := some "alpha"
  fundId := some "fund"
  roles := ["admin"]
  permissions := resolvePermissions ["admin"]

theorem serviced_was_allowed : ∃ final, servicing.run servicedPlatform [askForClient] = some final ∧
    final.Serves servicedContext ∧ ∃ m ∈ servicing.moments servicedPlatform [askForClient],
      m.1.Allows "administrator" "client" servicedContext :=
  ⟨_, rfl, .inl ⟨_, List.mem_singleton_self _, rfl⟩,
    served_was_allowed ⟨rfl, rfl⟩ rfl (.inl ⟨_, List.mem_singleton_self _, rfl⟩) ⟨rfl, rfl⟩⟩

/-- The context is cached. -/
def cachedPlatform : Platform :=
  { servicedPlatform with caches := { openCaches "administrator" "client" with
      ctx := [⟨ctxKey id anyToken (some "alpha") (some "client"), servicedContext, seconds 300⟩] } }

/-- The edge has been terminated at once. -/
def endedPlatform : Platform :=
  { cachedPlatform with edges := (administer servicedPlatform.edges 0 (.terminate "edge")).1 }

/-- The context is still served then, and not when five minutes have passed. -/
theorem serviced_locked_out : servicing.run cachedPlatform [.administer (.terminate "edge")] = some endedPlatform ∧
    endedPlatform.Serves servicedContext ∧
    ∀ context, { endedPlatform with clock := 300000000 }.Serves context →
      ¬ context.ActsFor "administrator" "client" := by
  have opens : servicedPlatform.Opening := ⟨rfl, rfl⟩
  have cached : servicing.run servicedPlatform [askForClient, .resume 0] = some cachedPlatform := rfl
  have ended : servicing.run cachedPlatform [.administer (.terminate "edge")] = some endedPlatform := rfl
  have there : ⟨"edge", edgeTo "administrator" "client"⟩ ∈ cachedPlatform.edges.rows := List.mem_singleton_self _
  have passed : servicing.run endedPlatform [.pass 300000000] = some { endedPlatform with clock := 300000000 } := rfl
  have locked := terminated_locked_out opens cached there rfl ended passed
  exact ⟨ended, .inr ⟨ctxKey id anyToken (some "alpha") (some "client"), rfl⟩,
    locked.2.2 (fun p waits => nomatch waits) le_rfl⟩

end Platform

end MiniHedge.Auth
