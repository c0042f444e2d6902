import Sahay.Guarantees.Admission
import Sahay.Guarantees.Announcements
import Sahay.Guarantees.Anonymity
import Sahay.Guarantees.Attendance
import Sahay.Guarantees.AuditTrail
import Sahay.Guarantees.Blocks
import Sahay.Guarantees.ChatClosing
import Sahay.Guarantees.Confirmation
import Sahay.Guarantees.Credentials
import Sahay.Guarantees.Dashboard
import Sahay.Guarantees.DeletedAccounts
import Sahay.Guarantees.DeletionRetry
import Sahay.Guarantees.Delivery
import Sahay.Guarantees.DisabledEvents
import Sahay.Guarantees.Enumeration
import Sahay.Guarantees.Erasure
import Sahay.Guarantees.Expiry
import Sahay.Guarantees.ExportPrivacy
import Sahay.Guarantees.FindsHelper
import Sahay.Guarantees.FreeText
import Sahay.Guarantees.HelperCap
import Sahay.Guarantees.Idempotency
import Sahay.Guarantees.InventoryCap
import Sahay.Guarantees.LiveCodes
import Sahay.Guarantees.Locations
import Sahay.Guarantees.LockOrder
import Sahay.Guarantees.Members
import Sahay.Guarantees.Migrations
import Sahay.Guarantees.OfferAnswers
import Sahay.Guarantees.OfflineQueue
import Sahay.Guarantees.OneTimeCodes
import Sahay.Guarantees.Pagination
import Sahay.Guarantees.Push
import Sahay.Guarantees.Ranking
import Sahay.Guarantees.RateLimits
import Sahay.Guarantees.Realtime
import Sahay.Guarantees.Receipts
import Sahay.Guarantees.Redaction
import Sahay.Guarantees.Reliability
import Sahay.Guarantees.Replays
import Sahay.Guarantees.RequestCap
import Sahay.Guarantees.RequestRows
import Sahay.Guarantees.Reservations
import Sahay.Guarantees.Restrictions
import Sahay.Guarantees.Retention
import Sahay.Guarantees.Search
import Sahay.Guarantees.Secrets
import Sahay.Guarantees.Sessions
import Sahay.Guarantees.Settlement
import Sahay.Guarantees.Shortage
import Sahay.Guarantees.Shutdown
import Sahay.Guarantees.Statuses
import Sahay.Guarantees.Suggestions
import Sahay.Guarantees.Suspension
import Sahay.Guarantees.SuspensionChecks
import Sahay.Guarantees.SuspensionEnd
import Sahay.Guarantees.Sweep
import Sahay.Guarantees.Units
import Sahay.Guarantees.WakeUps
import Sahay.Guarantees.Wants
