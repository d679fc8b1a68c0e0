import CloudPlatform.Billing.MarginExactness
import CloudPlatform.Billing.MonthlyCap
import CloudPlatform.Billing.Segments
import CloudPlatform.Billing.Tiling
import CloudPlatform.Billing.ZeroDay
import CloudPlatform.BusinessLog.Delivery
import CloudPlatform.Catalog.Confirmation
import CloudPlatform.Catalog.Freshness
import CloudPlatform.Checkout.CityButtons
import CloudPlatform.Checkout.Reserved
import CloudPlatform.Compute.CostBreaker
import CloudPlatform.Compute.Quota
import CloudPlatform.Firewalls.RemoteFirewalls
import CloudPlatform.Fx.Horizons
import CloudPlatform.Fx.SettlementRates
import CloudPlatform.Hetzner.ExactRecovery
import CloudPlatform.Hetzner.Inventory
import CloudPlatform.Hourly.Credentials
import CloudPlatform.Leaseweb.AskedPrices
import CloudPlatform.Leaseweb.ListCompleteness
import CloudPlatform.Leaseweb.Ownership
import CloudPlatform.Leaseweb.Publication
import CloudPlatform.Leaseweb.RootDisk
import CloudPlatform.Leaseweb.RoutingAgreement
import CloudPlatform.Leaseweb.UncertainOwners
import CloudPlatform.Networking.LiveVolumes
import CloudPlatform.Offers.Storefront
import CloudPlatform.Operations.CreateAtMostOnce
import CloudPlatform.Operations.LostDeletions
import CloudPlatform.Operations.PaidDelivery
import CloudPlatform.Operations.PowerRequests
import CloudPlatform.Operations.RebuildImages
import CloudPlatform.Orders.ManualResumption
import CloudPlatform.Orders.PooledFailover
import CloudPlatform.Pricing.RuleSelection
import CloudPlatform.ProviderCapacity.Backfill
import CloudPlatform.ProviderCapacity.CanaryRuns
import CloudPlatform.Renewals.Advance
import CloudPlatform.Renewals.Charging
import CloudPlatform.Renewals.Preference
import CloudPlatform.Renewals.Suspensions
import CloudPlatform.Renewals.Warnings
import CloudPlatform.Servers.Containment
import CloudPlatform.Servers.OneShot
import CloudPlatform.Tokens.Revocation
import CloudPlatform.Wallets.ExactlyOnce
import CloudPlatform.Wallets.ReconciledRuns
import CloudPlatform.Notifications.Provisioning
import CloudPlatform.Sessions.Stores
