import BatRewind.Lib.Prog
import BatRewind.Lib.Pool
import BatRewind.Lib.Server
import BatRewind.Lib.Interleaving
import BatRewind.Lib.Table
import BatRewind.Lib.Json
import BatRewind.Lib.Sorted
import BatRewind.Lib.Blocks
import BatRewind.Lib.Utf8
import BatRewind.Lib.Log
import BatRewind.Lib.JsonText
import BatRewind.Lib.TokenBucket
import BatRewind.Lib.Transaction
import BatRewind.Lib.Script
import BatRewind.Lib.Base64
import BatRewind.Lib.JsonParse
import BatRewind.Lib.JsonMarshal
import BatRewind.Lib.JsonStringify
import BatRewind.Lib.Paging
import BatRewind.Lib.Lines
import BatRewind.Lib.Format
import BatRewind.Lib.Renewal
import BatRewind.Session.UserAgent
import BatRewind.Session.Model
import BatRewind.Session.Codec
import BatRewind.Session.Database
import BatRewind.Session.Repository
import BatRewind.Session.Service
import BatRewind.Session.SessionRow
import BatRewind.Session.Ingest
import BatRewind.Session.Storing
import BatRewind.Session.EventCount
import BatRewind.Session.ReplayOrder
import BatRewind.Session.PublicShare
import BatRewind.Session.LastWrite
import BatRewind.Session.ShareLinks
import BatRewind.Session.Timing
import BatRewind.Session.Orphans
import BatRewind.Session.Retries
import BatRewind.Session.Sanitize
import BatRewind.Session.Purge
import BatRewind.Session.Listing
import BatRewind.Session.Batches
import BatRewind.Session.Stats
import BatRewind.Middleware.RateLimit
import BatRewind.Queue.Stream
import BatRewind.Queue.SessionID
import BatRewind.Worker.Process
import BatRewind.Worker.Retry
import BatRewind.Worker.Pipeline
import BatRewind.Worker.Contract
import BatRewind.Worker.Delivery
import BatRewind.Worker.Erasure
import BatRewind.Worker.DeadLetters
import BatRewind.Worker.Reclaim
import BatRewind.Worker.Scaling
import BatRewind.Worker.Backlog
import BatRewind.Worker.Lifecycle
import BatRewind.Worker.Cooldown
import BatRewind.Auth.Service
import BatRewind.Auth.Keys
import BatRewind.Auth.Token
import BatRewind.Auth.Guard
import BatRewind.Auth.Projects
import BatRewind.Auth.Users
import BatRewind.Middleware.Door
import BatRewind.Reader.Routes
import BatRewind.Reader.Guarded
import BatRewind.Sdk.Model
import BatRewind.Sdk.Always
import BatRewind.Sdk.Buffered
import BatRewind.Sdk.Snapshots
import BatRewind.Sdk.Upload
import BatRewind.Sdk.Sends
import BatRewind.Sdk.Session
import BatRewind.Sdk.Keepalive
import BatRewind.Sdk.Handles
import BatRewind.Sdk.Pending
import BatRewind.Sdk.Replay
import BatRewind.Sdk.Reports
import BatRewind.Dashboard.Timeline
import BatRewind.Dashboard.Causal
import BatRewind.Dashboard.Console
import BatRewind.Dashboard.Incident
import BatRewind.Dashboard.Login
import BatRewind.Dashboard.Sessions
import BatRewind.Dashboard.Recording
