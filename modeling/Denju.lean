import Denju.Lib.Text
import Denju.Lib.Sorting
import Denju.Lib.Paging
import Denju.Lib.Json
import Denju.Lib.Result
import Denju.Lib.Resolution
import Denju.Core.Externals
import Denju.Core.PortablePath
import Denju.Core.SymlinkSafety
import Denju.Lib.Framing
import Denju.Core.Object
import Denju.Core.Skill
import Denju.Core.Snapshot
import Denju.Core.ContentAddressing
import Denju.Core.RoundTrip
import Denju.Core.HashedManifest
import Denju.Core.MerkleDag
import Denju.Lib.Union
import Denju.Lib.TreeMerge
import Denju.Core.Merge
import Denju.Core.MergeLines
import Denju.Core.MergeEdits
import Denju.Core.MergeTree
import Denju.Core.MergeResolutions
import Denju.Core.Rename
import Denju.Core.ProjectedNames
import Denju.Local.Projection
import Denju.Local.ProjectionNames
import Denju.Local.CanonicalNames
import Denju.Local.DesiredSources
import Denju.Wire.RequestHash
import Denju.Wire.RequestBinding
import Denju.Lib.Table
import Denju.Lib.Runs
import Denju.Lib.Receipts
import Denju.Lib.Locking
import Denju.Lib.Naming
import Denju.Lib.Allocation
import Denju.Lib.Feed
import Denju.Lib.Ancestry
import Denju.Lib.Divergence
import Denju.Lib.RefCount
import Denju.Lib.FreedCounts
import Denju.Lib.ReadCommitted
import Denju.Lib.RowPolicies
import Denju.Lib.Kleene
import Denju.Lib.TransactionRules
import Denju.Lib.TransactionLogic
import Denju.Lib.Routine
import Denju.Lib.Broadcast
import Denju.Lib.RecordStream
import Denju.Registry.Schema
import Denju.Registry.Access
import Denju.Registry.Storage
import Denju.Registry.History
import Denju.Registry.Requests
import Denju.Registry.Workspace
import Denju.Registry.Commit
import Denju.Registry.Branches
import Denju.Registry.Import
import Denju.Registry.SaveProtocol
import Denju.Registry.SaveSafety
import Denju.Registry.SaveRuns
import Denju.Registry.Release
import Denju.Registry.Lifecycle
import Denju.Registry.Prune
import Denju.Registry.Transfer
import Denju.Registry.TeamRename
import Denju.Registry.Proposals
import Denju.Registry.Service
import Denju.Registry.Conflicts
import Denju.Registry.ConflictRuns
import Denju.Registry.AncestryAccess
import Denju.Registry.MergeBase
import Denju.Registry.Activity
import Denju.Registry.ObjectProofs
import Denju.Registry.ObjectRuns
import Denju.Registry.Tables
import Denju.Registry.TeamScripts
import Denju.Registry.TeamTriples
import Denju.Registry.TeamOwners
import Denju.Registry.TeamRuns
import Denju.Registry.OwnerTransfer
import Denju.Registry.ContentScripts
import Denju.Registry.ContentTriples
import Denju.Registry.DraftAuthority
import Denju.Registry.DraftRuns
import Denju.Registry.Packs
import Denju.Registry.Visibility
import Denju.Registry.Naming
import Denju.Registry.PackLifecycle
import Denju.Registry.PackChanges
import Denju.Registry.Audience
import Denju.Registry.Usage
import Denju.Registry.Subscriptions
import Denju.Registry.TeamCleanup
import Denju.Registry.ReadAuthority
import Denju.Registry.TeamRenameRoles
import Denju.Registry.RenamedReleases
import Denju.Registry.ForkSync
import Denju.Registry.Discovery
import Denju.Registry.Operations
import Denju.Registry.NamingRuns
import Denju.Registry.Locators
import Denju.Registry.PackDetail
import Denju.Registry.LockOrder
import Denju.Registry.ReleaseFeed
import Denju.Registry.ReleaseKeeping
import Denju.Registry.ReleaseOrder
import Denju.Registry.ReleaseDrain
import Denju.Registry.PackHistory
import Denju.Registry.PackHistoryRuns
import Denju.Registry.SubscriptionCatalog
import Denju.Registry.CatalogContent
import Denju.Registry.Accounts
import Denju.Registry.CatalogKeeping
import Denju.Registry.SoundRegistry
import Denju.Registry.SoundCalls
import Denju.Registry.SoundOperations
import Denju.Registry.Identities
import Denju.Registry.SoundAccounts
import Denju.Registry.CatalogRuns
import Denju.Registry.Receipts
import Denju.Registry.RecordedCalls
import Denju.Registry.RecordedPacks
import Denju.Registry.RecordKeeping
import Denju.Registry.AnsweredOnce
import Denju.Realtime.Wakes
import Denju.Realtime.Outbox
import Denju.Realtime.OutboxRuns
import Denju.Realtime.EventStream
import Denju.Local.Store
import Denju.Local.ManagedSkills
import Denju.Local.Materialize
import Denju.Local.Recovery
import Denju.Local.RecoveryRuns
import Denju.Local.LinkSafety
import Denju.Local.LinkRuns
import Denju.Local.Workspace
import Denju.Local.WorkspaceOrder
import Denju.Local.WorkspaceRuns
import Denju.Local.RevisionChain
