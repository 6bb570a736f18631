import GmshopEdge.Fulfillment.Completion
import GmshopEdge.Refunds.Final
import GmshopEdge.Entitlements.ConcurrentRefund
import GmshopEdge.Promotions.BalanceHolds
import GmshopEdge.Promotions.CustomerLimit
import GmshopEdge.Promotions.ReferralReward
import GmshopEdge.Access.Reservations
import GmshopEdge.Builds.Attempts
import GmshopEdge.Builds.Usage
import GmshopEdge.Stock.Swap
import GmshopEdge.SupplierApi.Numbers
import GmshopEdge.Users.Root
import GmshopEdge.Secrets.EverySecret
import GmshopEdge.SupplierTopup.PaidOnce
import GmshopEdge.Telegram.OneRun
import GmshopEdge.AgentProgram.OneTransfer
import GmshopEdge.Catalog.EditsKept
import GmshopEdge.Catalog.PlansWhole
import GmshopEdge.Inventory.OnceInStock
import GmshopEdge.Payments.Received
import GmshopEdge.Rbac.Cached
import GmshopEdge.Entitlements.FaceValue
import GmshopEdge.Fulfillment.InTurn
import GmshopEdge.Operations.TaskRuns
import GmshopEdge.Promotions.ReferralCap
import GmshopEdge.RedeemWarehouse.OwnerFollowed
import GmshopEdge.RedeemWarehouse.ConvertedStock
import GmshopEdge.Refunds.Shares
import GmshopEdge.Storefront.Cart
import GmshopEdge.Storefront.Preview
import GmshopEdge.AgentProgram.WeeklyBatches
import GmshopEdge.Catalog.CostFollowing
import GmshopEdge.CustomerPricing.LossGuard
import GmshopEdge.ExchangeRates.MoneyInput
import GmshopEdge.Payments.Fees
import GmshopEdge.Refunds.ConvertedRefunds
import GmshopEdge.Storefront.VolumePricing
import GmshopEdge.Payments.LostRace
import GmshopEdge.Stock.SoldOnce
import GmshopEdge.Auth.NoLockout
import GmshopEdge.Builds.Reports
import GmshopEdge.Payments.Reconciliation
import GmshopEdge.Runtime.MemoryCache
