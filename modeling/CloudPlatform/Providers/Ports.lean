import CloudPlatform.Core.Python

/-!
# The provider port

What the platform sees of a provider: the classes of its failures and which of them a retry can fix,
the capabilities of an adapter, the resources and tickets that it returns, and the registry that
resolves the adapter of a credential account. The adapters themselves stay behind this port. Only an
active account takes new orders; a draining one keeps what it owns.
-/

namespace CloudPlatform.Providers

/-! ### Failures -/

/-- The classes under `ProviderError`. -/
def isProviderError (kind : ErrorKind) : Bool :=
  kind ∈ [ErrorKind.providerError, .providerAuth, .providerRateLimited, .providerUnavailable,
    .providerOutcomeUnknown, .providerNotFound, .providerConflict, .providerRejected,
    .providerCapacity, .unsupportedGatewayOperation]

/-- The classes under `KeyError`. -/
def isKeyError (kind : ErrorKind) : Bool :=
  kind ∈ [ErrorKind.keyError, .unknownCredentialAccount]

inductive ErrorClass
  | retryable
  | permanent
  deriving DecidableEq

/-- The errors that a retry can never fix. -/
def permanentErrorTypes : List ErrorKind :=
  [.providerAuth, .providerNotFound, .providerConflict, .providerOutcomeUnknown, .providerRejected,
    .unsupportedGatewayOperation]

/-- `classify_provider_error`. -/
def classifyProviderError (raised : Raised) : ErrorClass :=
  if raised.kind ∈ permanentErrorTypes then .permanent else .retryable

/-- The name of the class, as `type(exc).__name__` gives it for the failures of a read. -/
def typeName : ErrorKind → String
  | .providerAuth => "ProviderAuthError"
  | .providerRateLimited => "ProviderRateLimited"
  | .providerUnavailable => "ProviderUnavailable"
  | .providerOutcomeUnknown => "ProviderOutcomeUnknown"
  | .providerNotFound => "ProviderNotFound"
  | .providerConflict => "ProviderConflict"
  | .providerRejected => "ProviderRejected"
  | .providerCapacity => "ProviderCapacityError"
  | .unsupportedGatewayOperation => "UnsupportedGatewayOperation"
  | .providerError => "ProviderError"
  | .holdNotFound => "HoldNotFoundError"
  | .duplicateIdempotency => "DuplicateIdempotencyError"
  | .integrityError => "IntegrityError"
  | .valueError => "ValueError"
  | .lookupError => "LookupError"
  | _ => "Exception"

/-! ### Values of the port -/

/-- A provider server; of its metadata, what activation and manual resolution read. -/
structure ProviderServer where
  id : String
  status : String
  ipv4 : Option String := none
  ipv6 : Option String := none
  contractEndsAt : Option String := none
  datacenter : String := ""
  pack : String := ""

/-- The closed set of ticket states. -/
inductive TicketState
  | accepted
  | provisioning
  | provisioned
  | failed

/-- The outcome of an asynchronous provisioning order, with the metadata that is read. -/
structure ProvisioningTicket where
  providerOrderId : String
  state : TicketState
  deliveryEstimate : Option String := none
  productId : Option String := none
  pricePerFrequencyMinor : Option ℤ := none
  currency : Option String := none
  contractTerm : Option String := none
  billingCycle : Option String := none

/-- The product detail: its live price, and the OS names that `os_name_allowed` accepts. -/
structure ProductDetail where
  monthlyPriceMinor : ℤ
  currency : String
  allowedOsNames : List String

inductive OrderRecoveryVerdict
  | matched
  | noMatch
  | ambiguous
  | scanFailed
  deriving DecidableEq

/-- The verdict of a read-only recovery scan for one order intent. -/
structure OrderRecoveryResult where
  verdict : OrderRecoveryVerdict
  providerOrderId : Option String := none
  reason : String := ""

/-- The request of a create: provider-side facts only. -/
structure CreateServerRequest where
  name : String
  planId : String
  imageId : String
  locationId : String
  labels : List (String × String)

/-! ### Capabilities -/

/-- The capabilities of an adapter. -/
structure Provider where
  ordering : Bool
  compute : Bool
  offerOptions : Bool
  serverRecovery : Bool
  orderRecovery : Bool

inductive ProvisioningMode
  | orderBased
  | directCreate
  deriving DecidableEq

/-- `provisioning_mode_of`. -/
def provisioningModeOf (provider : Provider) : Option ProvisioningMode :=
  if provider.ordering then some .orderBased
  else if provider.compute then some .directCreate
  else none

/-- `provider_for(registry, provider_key, credential_account_id)`: the adapter, a `KeyError`, or
`UnknownCredentialAccountError`. -/
abbrev Registry := String → Option String → Result Provider

/-- `normalize_account_id`. -/
def normalizeAccountId (accountId : Option String) : String :=
  let candidate := strip (accountId.getD "")
  if candidate = "" then "default" else candidate

/-! ### Credential accounts -/

/-- Operator-visible lifecycle of one provider credential account. -/
inductive CredentialAccountState
  | active
  | draining
  | disabled
  deriving DecidableEq

end CloudPlatform.Providers
