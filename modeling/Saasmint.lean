import Saasmint.Billing.CatalogWrites
import Saasmint.Billing.Credits
import Saasmint.Billing.Currency
import Saasmint.Billing.Customers
import Saasmint.Billing.Delivery
import Saasmint.Billing.FirstSync
import Saasmint.Billing.Lifecycle
import Saasmint.Billing.LocalizedPrices
import Saasmint.Billing.MirrorRace
import Saasmint.Billing.Models
import Saasmint.Billing.PinnedCalls
import Saasmint.Billing.PlanAgreement
import Saasmint.Billing.PlanChange
import Saasmint.Billing.PlanScope
import Saasmint.Billing.PriceShown
import Saasmint.Billing.Pricing
import Saasmint.Billing.ReadYourWrites
import Saasmint.Billing.Repositories
import Saasmint.Billing.SeedCatalog
import Saasmint.Billing.StripeApi
import Saasmint.Billing.Vat
import Saasmint.Billing.WebhookInbox
import Saasmint.Billing.Webhooks
import Saasmint.Lib.Interleaving
import Saasmint.Lib.Loops
import Saasmint.Lib.Programs
import Saasmint.Lib.PyStr
import Saasmint.Lib.HtmlForms
import Saasmint.Lib.References
import Saasmint.Lib.Runs
import Saasmint.Lib.Table
import Saasmint.Lib.Transactions
import Saasmint.Orgs.CheckoutRuns
import Saasmint.Orgs.Erasure
import Saasmint.Orgs.Events
import Saasmint.Orgs.Models
import Saasmint.Orgs.OrphanBilling
import Saasmint.Orgs.Ownership
import Saasmint.Orgs.Replay
import Saasmint.Orgs.Requests
import Saasmint.Orgs.Seats
import Saasmint.Orgs.Services
import Saasmint.Orgs.TeamCheckout
import Saasmint.Orgs.Cascade
import Saasmint.Orgs.Invitations
import Saasmint.Billing.CuratedPrices
import Saasmint.Users.Authentication
import Saasmint.Users.Sessions
import Saasmint.Users.Rotation
import Saasmint.Users.PasswordChange
import Saasmint.Users.Navigations
import Saasmint.Users.ParallelNavigations
import Saasmint.Users.AccessTokens
import Saasmint.Users.SocialSignIn
import Saasmint.Users.IdentityBinding
import Saasmint.Users.Accounts
import Saasmint.Users.Mailbox
import Saasmint.Billing.StripeSync
import Saasmint.Billing.SyncCalls
import Saasmint.Billing.CheckoutSessions
import Saasmint.Billing.PaidProducts
import Saasmint.Billing.PendingChange
import Saasmint.Billing.SeatsKept
import Saasmint.Billing.Deferral
import Saasmint.Billing.TeamRouting
import Saasmint.Lib.Cache
import Saasmint.Users.TokenSteps
import Saasmint.Users.OneTimeTokens
import Saasmint.Users.TokenInvariants
import Saasmint.Users.ExchangeCodes
import Saasmint.Users.TokenRuns
import Saasmint.Lib.Attempts
import Saasmint.Orgs.ErasureSteps
import Saasmint.Orgs.ErasureRetries
import Saasmint.Orgs.Resumption
import Saasmint.Billing.SyncRounds
import Saasmint.Billing.SyncPasses
import Saasmint.Billing.SyncRows
import Saasmint.Lib.Rounding
import Saasmint.Billing.CharmPrices
import Saasmint.Billing.LocalizedSync
import Saasmint.Billing.LookupKeys
import Saasmint.Billing.StampedIds
import Saasmint.Billing.ChargedAmounts
import Saasmint.Users.Login
import Saasmint.Users.VerifyEmail
import Saasmint.Orgs.PendingInvitations
import Saasmint.Billing.PeriodFields
import Saasmint.Orgs.Slugs
import Saasmint.Billing.Locales
import Saasmint.Users.PendingPlan
import Saasmint.Lib.JsStr
import Saasmint.App.LocalePaths
import Saasmint.Lib.Base64
import Saasmint.Lib.JsValue
import Saasmint.Lib.JsonText
import Saasmint.Lib.JsonRoundTrip
import Saasmint.App.CaseTransform
import Saasmint.App.JwtDecode
import Saasmint.Lib.Paging
import Saasmint.Billing.CatalogAudit
import Saasmint.Lib.Utf8
import Saasmint.Lib.UrlEncoded
import Saasmint.Lib.WhatwgUrl
import Saasmint.App.OauthNext
import Saasmint.App.PageRequests
import Saasmint.App.RedirectChains
import Saasmint.App.CheckoutLinks
import Saasmint.Users.ProfileWrites
import Saasmint.Lib.UrlOrigins
import Saasmint.Billing.RedirectUrls
import Saasmint.Billing.SyncSound
import Saasmint.Billing.SettledCatalog
import Saasmint.Billing.CatalogSync
import Saasmint.Billing.BillingGate
import Saasmint.Users.ExpiredRows
import Saasmint.Users.DeletedRows
import Saasmint.Users.Cleanup
import Saasmint.App.ProfileSaves
