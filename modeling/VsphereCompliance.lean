import VsphereCompliance.Library.OrderedDict
import VsphereCompliance.Library.Batches
import VsphereCompliance.Library.OrderedPairs
import VsphereCompliance.Library.SetOrder
import VsphereCompliance.Library.Runs
import VsphereCompliance.Library.Conflicts
import VsphereCompliance.Library.Table
import VsphereCompliance.Library.Growth
import VsphereCompliance.Library.Base64
import VsphereCompliance.Library.PythonText
import VsphereCompliance.Library.SearchFilter
import VsphereCompliance.Library.TextReplace
import VsphereCompliance.Library.TextSplit
import VsphereCompliance.Library.FilterTemplate
import VsphereCompliance.Library.NumberedNames
import VsphereCompliance.Library.Sessions
import VsphereCompliance.Library.Calendar
import VsphereCompliance.Library.Crontab
import VsphereCompliance.Library.PosixPath
import VsphereCompliance.Library.Paging
import VsphereCompliance.Library.PagingGrowth
import VsphereCompliance.Library.Colouring
import VsphereCompliance.Library.Csv
import VsphereCompliance.Library.Json
import VsphereCompliance.Library.Holdings
import VsphereCompliance.Library.RowEdits
import VsphereCompliance.Engine.Inventory
import VsphereCompliance.Engine.Grouping
import VsphereCompliance.Engine.Drs
import VsphereCompliance.Engine.Storage
import VsphereCompliance.Engine.Findings
import VsphereCompliance.Engine.DrsPlan
import VsphereCompliance.Engine.Placement
import VsphereCompliance.Engine.Violations
import VsphereCompliance.Engine.Relocation
import VsphereCompliance.Engine.Separation
import VsphereCompliance.Engine.Consolidation
import VsphereCompliance.Engine.PatternTypes
import VsphereCompliance.Engine.PatternOrder
import VsphereCompliance.Engine.LetterCase
import VsphereCompliance.Engine.RuleNames
import VsphereCompliance.Engine.Satisfiable
import VsphereCompliance.Engine.Insertion
import VsphereCompliance.Engine.IsoMounts
import VsphereCompliance.VCenter.Objects
import VsphereCompliance.VCenter.Service
import VsphereCompliance.VCenter.Identity
import VsphereCompliance.VCenter.Scattered
import VsphereCompliance.Store.Tables
import VsphereCompliance.Store.Versions
import VsphereCompliance.Analysis.Run
import VsphereCompliance.Analysis.RowLengths
import VsphereCompliance.Analysis.Terminal
import VsphereCompliance.Analysis.ApplyDrs
import VsphereCompliance.Analysis.Agreement
import VsphereCompliance.Analysis.Concurrent
import VsphereCompliance.Analysis.ApproveStorage
import VsphereCompliance.Analysis.ActionTaken
import VsphereCompliance.Analysis.Cycle
import VsphereCompliance.Analysis.Convergence
import VsphereCompliance.Analysis.Scheduled
import VsphereCompliance.Analysis.Isolation
import VsphereCompliance.Analysis.Copies
import VsphereCompliance.Analysis.FindingPages
import VsphereCompliance.Analysis.Ticks
import VsphereCompliance.Analysis.AppliedRule
import VsphereCompliance.Analysis.SummaryCounts
import VsphereCompliance.Analysis.ApprovedMove
import VsphereCompliance.Analysis.VCenterSessions
import VsphereCompliance.Security.Fernet
import VsphereCompliance.Ldap.Service
import VsphereCompliance.Ldap.Injection
import VsphereCompliance.Ldap.ServerAddress
import VsphereCompliance.Accounts.Users
import VsphereCompliance.Accounts.Administration
import VsphereCompliance.Accounts.Login
import VsphereCompliance.Accounts.Operations
import VsphereCompliance.Accounts.Authority
import VsphereCompliance.Accounts.Identity
import VsphereCompliance.Accounts.DirectoryRole
import VsphereCompliance.Accounts.Versions
import VsphereCompliance.Settings.AppSettings
import VsphereCompliance.Settings.Batch
import VsphereCompliance.Settings.History
import VsphereCompliance.Settings.Secrecy
import VsphereCompliance.Settings.Scheduler
import VsphereCompliance.Settings.CronSchedule
import VsphereCompliance.Settings.LogoUpload
import VsphereCompliance.Seeding.Startup
import VsphereCompliance.Seeding.Processes
import VsphereCompliance.Seeding.OneAdmin
import VsphereCompliance.Seeding.Concurrent
import VsphereCompliance.Seeding.Script
import VsphereCompliance.Seeding.Schema
import VsphereCompliance.Seeding.SchemaRuns
import VsphereCompliance.Seeding.SchemaProgress
import VsphereCompliance.Logging.Lines
import VsphereCompliance.Api.Connections
import VsphereCompliance.Api.Patterns
import VsphereCompliance.Api.Requests
import VsphereCompliance.Api.Roles
import VsphereCompliance.Api.Expressions
import VsphereCompliance.Api.ManualRuns
import VsphereCompliance.Api.Effects
import VsphereCompliance.Api.System
import VsphereCompliance.Api.References
import VsphereCompliance.Api.LifeCycle
import VsphereCompliance.Api.Signins
import VsphereCompliance.Api.Listings
import VsphereCompliance.Api.Dashboard
import VsphereCompliance.Api.Reports
import VsphereCompliance.Api.Passwords
import VsphereCompliance.Api.AdminReset
import VsphereCompliance.Api.AccountEdits
import VsphereCompliance.Api.ConnectionEdits
