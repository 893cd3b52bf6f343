import Cimp.Lib.Base64
import Cimp.Lib.Credentials
import Cimp.Lib.Csv
import Cimp.Lib.Drain
import Cimp.Lib.Escapes
import Cimp.Lib.Execution
import Cimp.Lib.Framing
import Cimp.Lib.Hosts
import Cimp.Lib.Journal
import Cimp.Lib.JsonRoundTrip
import Cimp.Lib.JsonText
import Cimp.Lib.Like
import Cimp.Lib.Ownership
import Cimp.Lib.Paging
import Cimp.Lib.Scanning
import Cimp.Lib.Sql
import Cimp.Lib.Table
import Cimp.Lib.Tally
import Cimp.Lib.Transaction
import Cimp.Lib.UriComponent
import Cimp.Lib.Utf16
import Cimp.Lib.Utf8
import Cimp.Auth.AuditTrail
import Cimp.Auth.LastAdmin
import Cimp.Auth.Profiles
import Cimp.Auth.Sessions
import Cimp.Authz.Oracle
import Cimp.Authz.ReadPaths
import Cimp.Comments.MentionText
import Cimp.Comments.Mentions
import Cimp.Common.ContentDisposition
import Cimp.Common.Download
import Cimp.Dashboard.ReopenRate
import Cimp.Dashboard.SlaCounts
import Cimp.Deflection.Similar
import Cimp.Deflection.Snapshots
import Cimp.Deflection.Subscriptions
import Cimp.Handoff.Register
import Cimp.Handoff.SelfSupport
import Cimp.Handoff.Verify
import Cimp.Integrations.ApiTokens
import Cimp.Issues.Assignees
import Cimp.Issues.AuditReplay
import Cimp.Issues.AutomationOrder
import Cimp.Issues.BulkSequence
import Cimp.Issues.Changes
import Cimp.Issues.Csv
import Cimp.Issues.FanOut
import Cimp.Issues.Feeds
import Cimp.Issues.Jql
import Cimp.Issues.JqlLaws
import Cimp.Issues.JqlPrint
import Cimp.Issues.ListQuery
import Cimp.Issues.Merge
import Cimp.Issues.Narrowing
import Cimp.Issues.Matching
import Cimp.Issues.OneHop
import Cimp.Issues.OptimisticLock
import Cimp.Issues.Pages
import Cimp.Issues.SlaCycles
import Cimp.Issues.Substring
import Cimp.Issues.Tenancy
import Cimp.Issues.Timestamps
import Cimp.Jira.Attachments
import Cimp.Jira.Redelivery
import Cimp.Notifications.Offboarding
import Cimp.Realtime.Slots
import Cimp.Realtime.Stream
import Cimp.Reporter.ContextSanitizer
import Cimp.Reporter.Diagnostics
import Cimp.Reporter.Noninterference
import Cimp.Reporter.Unread
import Cimp.Reporter.Uploads
import Cimp.Scanning.Instream
import Cimp.Scanning.Quarantine
import Cimp.Scanning.Verdict
import Cimp.Status.Page
import Cimp.Translation.Cache
import Cimp.Webhooks.Breaker
import Cimp.Webhooks.SafeUrl
