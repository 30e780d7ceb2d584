import TechAtlas.Library.Transition
import TechAtlas.Library.Table
import TechAtlas.Library.Text
import TechAtlas.Scheduling
import TechAtlas.Detection
import TechAtlas.Projection
import TechAtlas.Url
import TechAtlas.Queue
import TechAtlas.Store.Schema
import TechAtlas.Store.Statements
import TechAtlas.Store.Scheduler
import TechAtlas.Store.Worker
import TechAtlas.Store.Domains
import TechAtlas.Store.Admin
import TechAtlas.Store.Calls
import TechAtlas.Store.Moves
import TechAtlas.Store.Keys
import TechAtlas.Crawl.ActiveAttempts
import TechAtlas.Crawl.Outcomes
import TechAtlas.Crawl.Pipeline
import TechAtlas.Crawl.Delivery
import TechAtlas.Crawl.Requests
import TechAtlas.Library.Paging
import TechAtlas.Store.PublicRead
import TechAtlas.Public.CursorPaging
import TechAtlas.Search.Indexer
import TechAtlas.Search.Freshness
import TechAtlas.Acquisition.Address
import TechAtlas.Acquisition.Robots
import TechAtlas.Library.Dialogue
import TechAtlas.Acquisition.Crawler
import TechAtlas.Acquisition.Guarded
import TechAtlas.Acquisition.Compliance
import TechAtlas.Domains.Hosts
import TechAtlas.Domains.Stored
import TechAtlas.Detector
import TechAtlas.Library.ChangeLog
import TechAtlas.Technologies.Recorded
import TechAtlas.Technologies.Agreement
import TechAtlas.Crawl.Recovery
import TechAtlas.Rules.Definition
import TechAtlas.Rules.Drafts
import TechAtlas.Technologies.Trends
import TechAtlas.Store.Adoption
import TechAtlas.Technologies.Adoption
import TechAtlas.Queue.Custody
import TechAtlas.Storage.Artifacts
import TechAtlas.Storage.Integrity
import TechAtlas.Storage.Retention
import TechAtlas.Reprocessing.Repository
import TechAtlas.Crawl.Disabled
import TechAtlas.Crawl.Chains
import TechAtlas.Crawl.Backoff
import TechAtlas.Crawl.ManualRetry
import TechAtlas.Public.Refresh
import TechAtlas.Queue.Politeness
import TechAtlas.Search.Attempts
import TechAtlas.Admin.Paging
import TechAtlas.Library.Join
import TechAtlas.Public.Comparison
import TechAtlas.Public.Timeline
import TechAtlas.Parser.Parse
import TechAtlas.Worker.Snapshot
import TechAtlas.Detector.Agreement
import TechAtlas.Reprocessing.Replay
import TechAtlas.Rules.Evaluation
import TechAtlas.Rules.Fixture
import TechAtlas.Acquisition.Groups
import TechAtlas.Acquisition.Patterns
import TechAtlas.Acquisition.Precedence
import TechAtlas.Acquisition.Redirects
import TechAtlas.Projection.Transition
import TechAtlas.Reprocessing.Starts
import TechAtlas.Domains.Imported
import TechAtlas.Library.Scan
import TechAtlas.Worker.Redaction
import TechAtlas.Worker.Noninterference
import TechAtlas.Reprocessing.Claims
import TechAtlas.Worker.Process
import TechAtlas.Library.Lag
import TechAtlas.Reprocessing.Sessions
import TechAtlas.Reprocessing.VersionChanges
import TechAtlas.Detector.Static
import TechAtlas.Parser.Canonical
import TechAtlas.Acquisition.Blocks
import TechAtlas.Domains.Csv
import TechAtlas.Admin.RateLimits
import TechAtlas.Search.Filters
import TechAtlas.Library.Doubles
import TechAtlas.Dashboard.SearchState
import TechAtlas.Dashboard.Survival
import TechAtlas.Reprocessing.Finalization
import TechAtlas.Reprocessing.Interleavings
import TechAtlas.Reprocessing.Transactions
import TechAtlas.Reprocessing.Commits
import TechAtlas.Reprocessing.Counting
import TechAtlas.Reprocessing.Finality
import TechAtlas.Reprocessing.Results
import TechAtlas.Reprocessing.Serial
import TechAtlas.Reprocessing.Refusals
import TechAtlas.Rules.Activation
import TechAtlas.Rules.Reading
import TechAtlas.Search.Rebuild
import TechAtlas.Library.Drift
import TechAtlas.Admin.Authorization
import TechAtlas.Library.Group
import TechAtlas.Technologies.Capture
import TechAtlas.Technologies.History
import TechAtlas.Library.Ledger
import TechAtlas.Admin.Accountability
import TechAtlas.Crawl.Recrawl
import TechAtlas.Acquisition.Transport
import TechAtlas.Library.OrderBy
import TechAtlas.Technologies.Sources
import TechAtlas.Public.Profile
