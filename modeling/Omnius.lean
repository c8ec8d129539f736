import Omnius.Realtime.Delivery.Capacity
import Omnius.Realtime.Delivery.Drain
import Omnius.Ledger.Outcome
import Omnius.Routing.CircuitSlots
import Omnius.Routing.CircuitLaw
import Omnius.Streaming.Terminal
import Omnius.Generator.RegionReconcile
import Omnius.Tasks.Reload
import Omnius.Idempotency.Fencing
import Omnius.Outbound.Redirect
import Omnius.Scheduler.Occurrences
import Omnius.Generator.Selection
import Omnius.Outbox.Delivery
import Omnius.Inbox.Once
import Omnius.OAuth.Reuse
import Omnius.OAuth.Refresh
import Omnius.Uploads.Filename
import Omnius.Uploads.LateWrites
import Omnius.Uploads.Publication
import Omnius.StructuredOutput.Repair
import Omnius.Billing.Reconciliation
import Omnius.RateLimit.Retry
import Omnius.Realtime.TopicCursor
import Omnius.Realtime.Delivery.Eviction
import Omnius.Pagination.Cursor
import Omnius.Ledger.Tenants
