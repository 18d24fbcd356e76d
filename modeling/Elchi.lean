import Elchi.BalanceEvents
import Elchi.Outbox
import Elchi.OrderRollback
import Elchi.OrderWriters
import Elchi.OrderCommits
import Elchi.OrderPlans
import Elchi.OrderEpochs
import Elchi.SoldOrders
import Elchi.LostUpdates
import Elchi.OrderSolo
import Elchi.Reversal
import Elchi.ReversalPlaces
import Elchi.LegKeys
import Elchi.ExactlyOnce
import Elchi.PaymentRuns
import Elchi.MoneyConservation
import Elchi.ExtraCosts
import Elchi.FinancialLedger
import Elchi.Fifo
import Elchi.IdempotencyLease
import Elchi.Settlement
import Elchi.SettlementRuns
import Elchi.FreshAdvances
import Elchi.SettledRollback
import Elchi.SplitPayments
import Elchi.PaymentSafety
import Elchi.TransferTokens
import Elchi.PaidAmounts
import Elchi.PartialSales
import Elchi.FinancialBalance
import Elchi.FinancialTransfers
import Elchi.FinancialSales
import Elchi.ExtraCostLedger
import Elchi.EarningRuns
import Elchi.AutoPayment
import Elchi.LockOrder
import Elchi.PaymentLocks
import Elchi.OrderLives
import Elchi.BatchBinding
import Elchi.BindingRuns
import Elchi.TransferBinding
import Elchi.DepotParts
import Elchi.DepotStock
import Elchi.BatchLifecycle
import Elchi.OrderPassages
import Elchi.Trails
import Elchi.OrderEnds
import Elchi.HeadOffice
import Elchi.HandoverSessions
import Elchi.HandoverSafety
import Elchi.HandoverRuns
import Elchi.ProviderWebhooks
import Elchi.Purge
import Elchi.WebhookIsolation
import Elchi.UnsignedWebhooks
import Elchi.WebhookReplays
import Elchi.ProviderReceivables
import Elchi.Remittances
import Elchi.RemittanceRuns
import Elchi.SyncQueue
import Elchi.SyncOrder
import Elchi.SyncOrderRuns
import Elchi.SyncRecovery
import Elchi.Credentials
import Elchi.OutboundGuard
import Elchi.OutboundRequests
import Elchi.OutboundHops
import Elchi.IntegrationStore
import Elchi.CredentialsAtRest
import Elchi.PartnerMarkets
import Elchi.PartnerMarketSafety
import Elchi.PartnerMarketRuns
import Elchi.FifoSettlement
import Elchi.ProfitShares
import Elchi.SaleLegs
import Elchi.UserMutations
import Elchi.Branches
import Elchi.PaymentAllocation
import Elchi.BranchTrees
import Elchi.BranchRuns
import Elchi.UserSessions
import Elchi.CanceledPosts
import Elchi.PostAgreement
import Elchi.PostWorlds
import Elchi.ReturnRequests
import Elchi.AddressBlocks
import Elchi.BatchNames
import Elchi.BatchReplays
import Elchi.ReturningOrders
import Elchi.SatoAssignments
import Elchi.BulkAssignments
import Elchi.PostCollapse
import Elchi.HtmlTokens
import Elchi.PartnerShipments
import Elchi.ReceiptPages
import Elchi.ReceiptSafety
import Elchi.SaleColumns
import Elchi.NameVariations
import Elchi.CanceledReceipts
import Elchi.CanceledRuns
import Elchi.ActivityLog
import Elchi.ActivityTrail
import Elchi.AuditFeed
