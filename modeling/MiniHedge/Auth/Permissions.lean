import MiniHedge.Python.Values

/-! Roles, permissions and the tables between them.

Roles come as texts from tokens and relations; those that are no role are
ignored. Sets of roles and of permissions are lists of which only the members
count.
-/

set_option autoImplicit false

namespace MiniHedge.Auth

inductive Permission where
  | instrumentsRead
  | instrumentsWrite
  | pricesRead
  | positionsRead
  | positionsWrite
  | tradesExecute
  | fundsRead
  | fundsManage
  | ordersRead
  | ordersCreate
  | ordersCancel
  | complianceRead
  | complianceWrite
  | exposureRead
  | riskRead
  | riskWrite
  | cashRead
  | cashWrite
  | fxHedgingRead
  | fxHedgingWrite
  | attributionRead
  | alphaRead
  | alphaWrite
  | capitalRead
  | capitalWrite
  | platformUsersRead
  | platformUsersWrite
  | platformFundsRead
  | platformFundsWrite
  | platformOperatorsRead
  | platformOperatorsWrite
  | platformAuditRead
  | platformAuditWrite
  | platformAccessRead
  | platformAccessWrite
  | platformCustomersRead
  | platformCustomersWrite
  deriving DecidableEq, Repr

inductive Role where
  | admin
  | portfolioManager
  | analyst
  | riskManager
  | complianceOfficer
  | viewer
  | investor
  deriving DecidableEq, Repr

namespace Role

/-- `Role(name)`. -/
def parse : String → Option Role
  | "admin" => some admin
  | "portfolio_manager" => some portfolioManager
  | "analyst" => some analyst
  | "risk_manager" => some riskManager
  | "compliance_officer" => some complianceOfficer
  | "viewer" => some viewer
  | "investor" => some investor
  | _ => none

/-- `ROLE_PERMISSIONS`. -/
def permissions : Role → List Permission
  | admin =>
    [.instrumentsRead, .instrumentsWrite, .pricesRead, .positionsRead, .positionsWrite,
     .tradesExecute, .fundsRead, .fundsManage, .ordersRead, .ordersCreate, .ordersCancel,
     .complianceRead, .complianceWrite, .exposureRead, .riskRead, .riskWrite, .cashRead,
     .cashWrite, .attributionRead, .alphaRead, .alphaWrite, .capitalRead, .capitalWrite,
     .fxHedgingRead, .fxHedgingWrite]
  | portfolioManager =>
    [.instrumentsRead, .pricesRead, .positionsRead, .positionsWrite, .tradesExecute, .fundsRead,
     .ordersRead, .ordersCreate, .ordersCancel, .complianceRead, .exposureRead, .riskRead,
     .riskWrite, .cashRead, .cashWrite, .attributionRead, .alphaRead, .alphaWrite, .capitalRead,
     .capitalWrite, .fxHedgingRead, .fxHedgingWrite]
  | analyst =>
    [.instrumentsRead, .pricesRead, .positionsRead, .fundsRead, .ordersRead, .exposureRead,
     .riskRead, .cashRead, .attributionRead, .alphaRead, .capitalRead, .fxHedgingRead]
  | riskManager =>
    [.instrumentsRead, .pricesRead, .positionsRead, .fundsRead, .ordersRead, .complianceRead,
     .exposureRead, .riskRead, .riskWrite, .cashRead, .attributionRead, .alphaRead, .capitalRead,
     .fxHedgingRead]
  | complianceOfficer =>
    [.instrumentsRead, .pricesRead, .positionsRead, .fundsRead, .ordersRead, .complianceRead,
     .complianceWrite, .exposureRead, .riskRead, .cashRead, .attributionRead, .alphaRead,
     .capitalRead, .fxHedgingRead]
  | viewer =>
    [.instrumentsRead, .pricesRead, .positionsRead, .fundsRead, .ordersRead, .fxHedgingRead]
  | investor =>
    [.fundsRead, .capitalRead, .positionsRead, .riskRead]

end Role

def resolvePermissions (roles : List String) : List Permission :=
  roles.flatMap fun name => ((Role.parse name).map Role.permissions).getD []

theorem resolvePermissions_mono {roles more : List String} (within : roles ⊆ more) :
    resolvePermissions roles ⊆ resolvePermissions more := by
  intro permission held
  obtain ⟨name, member, granted⟩ := List.mem_flatMap.mp held
  exact List.mem_flatMap.mpr ⟨name, within member, granted⟩

/-! ## Relations of a fund -/

/-- `FUND_USER_ROLES`. -/
def fundUserRoles : List String :=
  ["admin", "portfolio_manager", "analyst", "risk_manager", "compliance_officer", "viewer"]

/-- `FGA_PERMISSION_MAP`, in the order of `FGA_FUND_PERMISSIONS`. -/
def fgaPermissionMap : List (String × Permission) :=
  [("can_read_instruments", .instrumentsRead), ("can_write_instruments", .instrumentsWrite),
   ("can_read_prices", .pricesRead), ("can_read_positions", .positionsRead),
   ("can_write_positions", .positionsWrite), ("can_execute_trades", .tradesExecute),
   ("can_read_fund", .fundsRead), ("can_manage_fund", .fundsManage),
   ("can_read_orders", .ordersRead), ("can_create_orders", .ordersCreate),
   ("can_cancel_orders", .ordersCancel), ("can_read_compliance", .complianceRead),
   ("can_manage_compliance", .complianceWrite), ("can_read_exposure", .exposureRead),
   ("can_read_risk", .riskRead), ("can_write_risk", .riskWrite),
   ("can_read_fx_hedging", .fxHedgingRead), ("can_write_fx_hedging", .fxHedgingWrite),
   ("can_read_cash", .cashRead), ("can_write_cash", .cashWrite),
   ("can_read_attribution", .attributionRead), ("can_read_alpha", .alphaRead),
   ("can_write_alpha", .alphaWrite), ("can_read_capital", .capitalRead),
   ("can_write_capital", .capitalWrite)]

def fgaFundPermissions : List String := fgaPermissionMap.map (·.1)

/-! ## Operators -/

inductive PlatformRole where
  | opsAdmin
  | opsViewer
  deriving DecidableEq, Repr

namespace PlatformRole

def parse : String → Option PlatformRole
  | "ops_admin" => some opsAdmin
  | "ops_viewer" => some opsViewer
  | _ => none

/-- `PLATFORM_ROLE_PERMISSIONS`. -/
def permissions : PlatformRole → List Permission
  | opsAdmin =>
    [.platformUsersRead, .platformUsersWrite, .platformFundsRead, .platformFundsWrite,
     .platformOperatorsRead, .platformOperatorsWrite, .platformAuditRead, .platformAuditWrite,
     .platformAccessRead, .platformAccessWrite, .platformCustomersRead, .platformCustomersWrite]
  | opsViewer =>
    [.platformUsersRead, .platformFundsRead, .platformOperatorsRead, .platformAuditRead,
     .platformAccessRead, .platformCustomersRead]

end PlatformRole

end MiniHedge.Auth
