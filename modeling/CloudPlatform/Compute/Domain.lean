import CloudPlatform.Operations.Domain

/-!
# The server aggregate

The lifecycle states of a customer server, their transition table, and the row that every workflow
loads, changes in memory and saves. Instants are microseconds since the epoch.
-/

namespace CloudPlatform.Compute

inductive ServerLifecycleState
  | requested
  | provisioning
  | running
  | stopped
  | error
  | deleteRequested
  | deleting
  | deleted
  | manualReview
  deriving DecidableEq

namespace ServerLifecycleState

/-- The state text of the row and of the error messages. -/
def value : ServerLifecycleState → String
  | .requested => "requested"
  | .provisioning => "provisioning"
  | .running => "running"
  | .stopped => "stopped"
  | .error => "error"
  | .deleteRequested => "delete_requested"
  | .deleting => "deleting"
  | .deleted => "deleted"
  | .manualReview => "manual_review"

/-- The table `_ALLOWED` of legal lifecycle transitions. -/
def allowed : ServerLifecycleState → List ServerLifecycleState
  | .requested => [.provisioning, .error]
  | .provisioning => [.running, .deleteRequested, .error, .manualReview]
  | .running => [.stopped, .deleteRequested, .error, .manualReview]
  | .stopped => [.running, .deleteRequested, .error, .manualReview]
  | .error => [.provisioning, .deleteRequested, .manualReview]
  | .deleteRequested => [.deleting, .deleted, .manualReview]
  | .deleting => [.deleted, .manualReview]
  | .deleted => []
  | .manualReview =>
    [.provisioning, .running, .stopped, .error, .deleteRequested, .deleting, .deleted]

end ServerLifecycleState

/-- The request of a legacy create, frozen when its first attempt was sent. -/
structure LegacyCreateRequest where
  name : String
  planId : String
  locationId : String
  imageId : String
  deriving DecidableEq

/-- The immutable checkout contract of a server: its flat keys, and the frozen legacy request. -/
structure OfferFingerprint where
  facts : Operations.Facts := []
  legacyCreateRequest : Option LegacyCreateRequest := none
  deriving DecidableEq

structure CloudServer where
  id : Uuid
  userId : Uuid
  providerKey : String
  state : ServerLifecycleState
  providerServerId : Option String := none
  ipv4 : Option String := none
  ipv6 : Option String := none
  idempotencyKey : Option String := none
  createdAt : Option ℤ := none
  updatedAt : Option ℤ := none
  lastAccruedAt : Option ℤ := none
  billingStartedAt : Option ℤ := none
  lowBalanceSince : Option ℤ := none
  prepaidPaidUntil : Option ℤ := none
  quantumSeconds : ℤ := 3600
  billingModel : String := "hourly"
  os : Option String := none
  credentialAccountId : Option String := none
  imageId : Option String := none
  offerFingerprint : Option OfferFingerprint := none
  deriving DecidableEq

namespace CloudServer

/-- `CloudServer.is_prepaid_monthly`. -/
def isPrepaidMonthly (server : CloudServer) : Bool :=
  server.billingModel = "prepaid_monthly_fixed"

/-- `CloudServer.is_prepaid_hourly_irt`. -/
def isPrepaidHourlyIrt (server : CloudServer) : Bool :=
  server.billingModel = "hourly_prepaid_irt"

/-- `CloudServer.transition_to`. -/
def transitionTo (server : CloudServer) (target : ServerLifecycleState) : Result CloudServer := do
  rejectIf (target ∉ server.state.allowed) .valueError
    s!"invalid lifecycle transition: {server.state.value} -> {target.value}"
  return { server with state := target }

/-- `CloudServer.reset_to_requested`: the manual ERROR -> REQUESTED, outside the table. -/
def resetToRequested (server : CloudServer) : Result CloudServer := do
  rejectIf (server.state ≠ .error) .valueError
    (s!"cannot reset server in state {server.state.value} to REQUESTED " ++
      "(only ERROR servers may be re-queued manually)")
  return { server with state := .requested }

/-- `server.offer_fingerprint or {}`. -/
def fingerprint (server : CloudServer) : OfferFingerprint :=
  server.offerFingerprint.getD {}

/-- `SqlAlchemyServerRepository.save`: the row after a copy of it is saved. Creation facts, the
billing model and the prepaid coverage are not written. -/
def saved (row copy : CloudServer) (now : ℤ) : CloudServer :=
  { row with
    state := copy.state
    providerServerId := copy.providerServerId
    ipv4 := copy.ipv4
    ipv6 := copy.ipv6
    lastAccruedAt := copy.lastAccruedAt
    billingStartedAt := copy.billingStartedAt
    lowBalanceSince :=
      if copy.isPrepaidHourlyIrt then row.lowBalanceSince else copy.lowBalanceSince
    os := copy.os
    imageId := copy.imageId
    offerFingerprint := copy.offerFingerprint.filter (· ≠ {})
    updatedAt := some now }

end CloudServer

/-- The durable intent of a create command: the provider cost at purchase time and the unique key. -/
structure ServerCreateIntent where
  catalogId : Option Uuid
  costMinor : ℤ
  currency : String
  idempotencyKey : String

/-- `ServerCreateIntent.__post_init__`. -/
def ServerCreateIntent.check (intent : ServerCreateIntent) : Result Unit := do
  rejectIf (intent.costMinor < 0) .valueError "cost_minor must not be negative"
  rejectIf (strip intent.currency = "") .valueError "currency must not be empty"
  rejectIf (strip intent.idempotencyKey = "") .valueError "idempotency_key must not be empty"

/-! ### Cost limits -/

/-- The scope of one daily provider-cost limit. -/
inductive CostLimitScopeKind
  | global
  | providerAccount
  deriving DecidableEq

/-- Why new spend is halted. -/
structure CostLimitTrigger where
  scope : CostLimitScopeKind
  providerAccountId : Option Uuid
  limitMinor : ℤ
  spentMinor : ℤ

end CloudPlatform.Compute
