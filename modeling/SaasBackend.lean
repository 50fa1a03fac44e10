import SaasBackend.Subscriptions.Baseline
import SaasBackend.Subscriptions.Expiry
import SaasBackend.Http.Context
import SaasBackend.Http.Accounting
import SaasBackend.Http.Quota
import SaasBackend.Subscriptions.Usage
import SaasBackend.ReadCommitted.Phases
import SaasBackend.Subscriptions.Contention
import SaasBackend.Authentication.Tokens
import SaasBackend.Authentication.Services
import SaasBackend.Authentication.Views
import SaasBackend.Authentication.Resets
import SaasBackend.Authentication.Serial
import SaasBackend.Authentication.Sessions
import SaasBackend.Authentication.Revocation
import SaasBackend.Authentication.Claims
import SaasBackend.Authentication.Dispatch
import SaasBackend.Authentication.Login
import SaasBackend.ApiKeys.Services
import SaasBackend.ApiKeys.Authentication
import SaasBackend.ApiKeys.Serial
import SaasBackend.ApiKeys.Limit
import SaasBackend.ReadCommitted.Pending
import SaasBackend.ApiKeys.Contention
import SaasBackend.ApiKeys.Lookup
import SaasBackend.ReadCommitted.Runs
import SaasBackend.Http.Authentication
import SaasBackend.ApiKeys.Views
import SaasBackend.ApiKeys.Leak
import SaasBackend.ApiKeys.Replacement
import SaasBackend.ApiKeys.Naming
import SaasBackend.ApiKeys.Headers
import SaasBackend.ApiKeys.Ending
import SaasBackend.Http.Throttling
import SaasBackend.Common.Headline
import SaasBackend.Users.Services
import SaasBackend.Authentication.Serializers
import SaasBackend.Users.Serial
import SaasBackend.Authentication.Accounts
import SaasBackend.Authentication.Signup
import SaasBackend.Authentication.Verification
import SaasBackend.Authentication.Contention
import SaasBackend.Authentication.ResetHistory
import SaasBackend.Authentication.Enumeration
import SaasBackend.Calendar.Days
import SaasBackend.Subscriptions.Opening
import SaasBackend.Subscriptions.Conservation
import SaasBackend.Subscriptions.Switching
import SaasBackend.Subscriptions.Periods
import SaasBackend.Subscriptions.Lifetimes
import SaasBackend.Subscriptions.Metering
import SaasBackend.Subscriptions.Sweep
import SaasBackend.Calendar.Months
import SaasBackend.Calendar.Format
import SaasBackend.Grouping
import SaasBackend.Analytics.Selectors
import SaasBackend.Analytics.Monthly
import SaasBackend.Analytics.Rollup
import SaasBackend.Analytics.Reruns
import SaasBackend.Analytics.Durations
import SaasBackend.Users.Deletion
import SaasBackend.Analytics.Ledger
import SaasBackend.Analytics.Agreement
import SaasBackend.Analytics.Daily
import SaasBackend.ReadCommitted.Emits
import SaasBackend.Subscriptions.Windows
import SaasBackend.Tenants.Isolation
import SaasBackend.Common.Base64
import SaasBackend.ApiKeys.Format
import SaasBackend.ReadCommitted.Evolution
import SaasBackend.ReadCommitted.Outcome
import SaasBackend.QuerySet
import SaasBackend.Subscriptions.SeedPlans
import SaasBackend.Analytics.Concurrency
import SaasBackend.Users.Views
import SaasBackend.Deployment.Operations
import SaasBackend.Deployment.Passwords
import SaasBackend.Deployment.Directory
import SaasBackend.Deployment.Finality
import SaasBackend.ReadCommitted.Restriction
import SaasBackend.ReadCommitted.Unitary
import SaasBackend.Deployment.Frame
import SaasBackend.Deployment.Enrollment
import SaasBackend.Deployment.Atomicity
