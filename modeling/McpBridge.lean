import McpBridge.Lib.Runs
import McpBridge.Lib.Map
import McpBridge.Lib.Threads
import McpBridge.Lib.Bytes
import McpBridge.Lib.Buffer
import McpBridge.Lib.Json
import McpBridge.Lib.JsonText
import McpBridge.Lib.JsonLength
import McpBridge.Lib.JsonStream
import McpBridge.Lib.JsonEdit
import McpBridge.Lib.FileSystem
import McpBridge.Lib.Leads
import McpBridge.Lib.StdFilesystem
import McpBridge.Lib.Bounds
import McpBridge.Lib.SlidingWindow
import McpBridge.Lib.Shell
import McpBridge.Lib.ShellLine
import McpBridge.Lib.Sql
import McpBridge.Lib.Argv
import McpBridge.Grants.Template
import McpBridge.Grants.Sudoers
import McpBridge.Grants.Rendering
import McpBridge.Grants.Helper
import McpBridge.Grants.SpecScan
import McpBridge.Core.Common
import McpBridge.Lib.Sha256
import McpBridge.Core.Crypto
import McpBridge.Lib.Radix
import McpBridge.Core.Shortid
import McpBridge.Grants.Manager
import McpBridge.Grants.WindowsRecord
import McpBridge.Lib.Loading
import McpBridge.Grants.Reconcile
import McpBridge.Grants.StateFile
import McpBridge.Grants.Removal
import McpBridge.Grants.Concurrent
import McpBridge.Grants.Request
import McpBridge.PrivWin.Spawn
import McpBridge.PrivWin.Operations
import McpBridge.PrivWin.Binding
import McpBridge.PrivWin.RecordCheck
import McpBridge.PrivWin.Elevation
import McpBridge.PrivWin.CommandLine
import McpBridge.PrivWin.Wire
import McpBridge.PrivWin.Handlers
import McpBridge.PrivWin.Replies
import McpBridge.PrivWin.Connection
import McpBridge.Server.Session
import McpBridge.Server.SessionHistory
import McpBridge.Server.RateWindow
import McpBridge.Server.Router
import McpBridge.Server.Handler
import McpBridge.Server.Gating
import McpBridge.Server.Isolation
import McpBridge.Server.Reply
import McpBridge.Cron.Store
import McpBridge.Cron.Durable
import McpBridge.Cron.Isolation
import McpBridge.Cron.Crontab
import McpBridge.Cron.Tools
import McpBridge.Cron.Agreement
import McpBridge.Lib.Fields
import McpBridge.Lib.Schedule
import McpBridge.Cron.Schtasks
import McpBridge.Cron.Grammar
import McpBridge.Cron.Schedules
import McpBridge.Cron.Backend
import McpBridge.Cron.Rollback
import McpBridge.Users.Record
import McpBridge.Users.Linearizable
import McpBridge.Users.Store
import McpBridge.Users.Reload
import McpBridge.Users.Index
import McpBridge.Users.Issue
import McpBridge.Users.Create
import McpBridge.Users.Delete
import McpBridge.Cron.Rewrite
import McpBridge.Cron.Reading
import McpBridge.Users.RuntimeSync
import McpBridge.Lib.Calls
import McpBridge.Lib.Guarded
import McpBridge.Lib.Alone
import McpBridge.Lib.Credentials
import McpBridge.Priv.Decoding
import McpBridge.Priv.Commands
import McpBridge.Priv.Staging
import McpBridge.Priv.Install
import McpBridge.Priv.Mixing
import McpBridge.Priv.Takeover
import McpBridge.Priv.Base64
import McpBridge.Priv.Runtime
import McpBridge.Server.Startup
import McpBridge.Tools.FileOps
import McpBridge.Tools.FileReach
import McpBridge.Tools.Tenancy
import McpBridge.Tools.Containment
import McpBridge.Tools.DatabaseOps
import McpBridge.Tools.DatabaseLines
import McpBridge.Tools.Injection
import McpBridge.Tools.Background
import McpBridge.Lib.Utf8
import McpBridge.Tools.Processes
import McpBridge.Tools.PortForward
import McpBridge.Tools.RunAs
import McpBridge.Core.Config
import McpBridge.Cli.Webhook
import McpBridge.Server.WebhookSync
import McpBridge.Cron.Runner
