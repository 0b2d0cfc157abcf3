import OdooSemantic.Cli.Backup
import OdooSemantic.Cli.Restore
import OdooSemantic.Cloner.GitUtils
import OdooSemantic.Cloner.Main
import OdooSemantic.Db.JobRegistry
import OdooSemantic.Db.Migrate
import OdooSemantic.Db.ProfileStatements
import OdooSemantic.Db.RepoRegistry
import OdooSemantic.Db.UserRegistry
import OdooSemantic.Graph.XmlIdentity
import OdooSemantic.Graph.XmlLinks
import OdooSemantic.Graph.XmlProfiles
import OdooSemantic.Indexer.CliFlags
import OdooSemantic.Indexer.CommandLine
import OdooSemantic.Indexer.CoreSymbolRefs
import OdooSemantic.Indexer.CoreSymbols
import OdooSemantic.Indexer.CrossRepo
import OdooSemantic.Indexer.Embedder
import OdooSemantic.Indexer.EmbeddingChunks
import OdooSemantic.Indexer.EmbeddingWrites
import OdooSemantic.Indexer.Era1Columns
import OdooSemantic.Indexer.Incremental
import OdooSemantic.Indexer.IndexerLock
import OdooSemantic.Indexer.JobReports
import OdooSemantic.Indexer.LintRules
import OdooSemantic.Indexer.Manifests
import OdooSemantic.Indexer.ModelEdges
import OdooSemantic.Indexer.ModuleNodes
import OdooSemantic.Indexer.ModuleTree
import OdooSemantic.Indexer.ParserCss
import OdooSemantic.Indexer.ParserJs
import OdooSemantic.Indexer.ParserLess
import OdooSemantic.Indexer.ParserOdooCore
import OdooSemantic.Indexer.ParserPython
import OdooSemantic.Indexer.ParserScss
import OdooSemantic.Indexer.ParserXml
import OdooSemantic.Indexer.ProfileArrays
import OdooSemantic.Indexer.Profiles
import OdooSemantic.Indexer.PythonAst
import OdooSemantic.Indexer.References
import OdooSemantic.Indexer.ScopedDeletion
import OdooSemantic.Indexer.SeedPatterns
import OdooSemantic.Indexer.SlidingWindows
import OdooSemantic.Indexer.StylesheetImports
import OdooSemantic.Indexer.StylesheetInfos
import OdooSemantic.Indexer.Stylesheets
import OdooSemantic.Indexer.SyntaxTree
import OdooSemantic.Indexer.WholeArrays
import OdooSemantic.Indexer.Workers
import OdooSemantic.Indexer.WriterNeo4j
import OdooSemantic.Lib.AdvisoryLock
import OdooSemantic.Lib.Exclusion
import OdooSemantic.Lib.Fallible
import OdooSemantic.Lib.Filing
import OdooSemantic.Lib.FirstNames
import OdooSemantic.Lib.FlaggedEdges
import OdooSemantic.Lib.Folds
import OdooSemantic.Lib.Forest
import OdooSemantic.Lib.LevelOrder
import OdooSemantic.Lib.Lru
import OdooSemantic.Lib.Outline
import OdooSemantic.Lib.Paging
import OdooSemantic.Lib.PosixPath
import OdooSemantic.Lib.Regex
import OdooSemantic.Lib.SlidingWindow
import OdooSemantic.Lib.Threads
import OdooSemantic.Lib.UrlParse
import OdooSemantic.Lib.Utf8
import OdooSemantic.Lib.Windows
import OdooSemantic.Manager.Commands
import OdooSemantic.Mcp.ApiVersionDiff
import OdooSemantic.Mcp.AuthMiddleware
import OdooSemantic.Mcp.ImpactAnalysis
import OdooSemantic.Mcp.Inspect
import OdooSemantic.Mcp.LintCheck
import OdooSemantic.Mcp.Listings
import OdooSemantic.Mcp.Orm
import OdooSemantic.Mcp.OrmTools
import OdooSemantic.Mcp.Refs
import OdooSemantic.Mcp.Resources
import OdooSemantic.Mcp.Session
import OdooSemantic.Mcp.Tools
import OdooSemantic.Mcp.TreeBuilder
import OdooSemantic.Proof.AcceptedPasswords
import OdooSemantic.Proof.AccountLinking
import OdooSemantic.Proof.ActiveProfile
import OdooSemantic.Proof.ApiVersionDiff
import OdooSemantic.Proof.BraceScan
import OdooSemantic.Proof.ChunkRows
import OdooSemantic.Proof.CloneDirs
import OdooSemantic.Proof.CloneStatus
import OdooSemantic.Proof.CodeReuse
import OdooSemantic.Proof.CommandLines
import OdooSemantic.Proof.CoreSymbolRefs
import OdooSemantic.Proof.CoreVersions
import OdooSemantic.Proof.Coverage
import OdooSemantic.Proof.CssBackEnds
import OdooSemantic.Proof.CustomProperties
import OdooSemantic.Proof.Deactivation
import OdooSemantic.Proof.DiffPartition
import OdooSemantic.Proof.EmbeddingReplacement
import OdooSemantic.Proof.FieldChains
import OdooSemantic.Proof.FreshMfa
import OdooSemantic.Proof.GarbageCollection
import OdooSemantic.Proof.HeldCookies
import OdooSemantic.Proof.ImpactAnalysis
import OdooSemantic.Proof.ImportResolution
import OdooSemantic.Proof.IndexOrder
import OdooSemantic.Proof.IndexedMembers
import OdooSemantic.Proof.IndexerLock
import OdooSemantic.Proof.Interruption
import OdooSemantic.Proof.JobRows
import OdooSemantic.Proof.JsChunkContent
import OdooSemantic.Proof.KeyRevocation
import OdooSemantic.Proof.KeyRotation
import OdooSemantic.Proof.LastAdmin
import OdooSemantic.Proof.LifecycleOrder
import OdooSemantic.Proof.LintFindings
import OdooSemantic.Proof.LintRules
import OdooSemantic.Proof.LiveSessions
import OdooSemantic.Proof.LoginThrottle
import OdooSemantic.Proof.LostReset
import OdooSemantic.Proof.ManifestIsolation
import OdooSemantic.Proof.Migrations
import OdooSemantic.Proof.ModelFlags
import OdooSemantic.Proof.ModelIdempotence
import OdooSemantic.Proof.NoqaComments
import OdooSemantic.Proof.OrmTools
import OdooSemantic.Proof.Pagination
import OdooSemantic.Proof.PlainImports
import OdooSemantic.Proof.PlainSheets
import OdooSemantic.Proof.ProfileForest
import OdooSemantic.Proof.ProfileScope
import OdooSemantic.Proof.ProfileUnion
import OdooSemantic.Proof.Programs
import OdooSemantic.Proof.Propagation
import OdooSemantic.Proof.RateLimit
import OdooSemantic.Proof.ReadYourWrites
import OdooSemantic.Proof.Refs
import OdooSemantic.Proof.RegistryConflicts
import OdooSemantic.Proof.Relocation
import OdooSemantic.Proof.RepoDeletion
import OdooSemantic.Proof.ResetTokens
import OdooSemantic.Proof.ResourceCache
import OdooSemantic.Proof.RestoreExclusion
import OdooSemantic.Proof.RestoreIntegrity
import OdooSemantic.Proof.ScopedDeletion
import OdooSemantic.Proof.SeedSentinel
import OdooSemantic.Proof.SessionExpiry
import OdooSemantic.Proof.SessionIdentity
import OdooSemantic.Proof.Signatures
import OdooSemantic.Proof.SignupCalls
import OdooSemantic.Proof.SlidingWindows
import OdooSemantic.Proof.Statements
import OdooSemantic.Proof.StubEmbeddings
import OdooSemantic.Proof.StylesheetBlocks
import OdooSemantic.Proof.StylesheetEdges
import OdooSemantic.Proof.TenantIdentity
import OdooSemantic.Proof.TopologicalOrder
import OdooSemantic.Proof.TreeGrammar
import OdooSemantic.Proof.VerificationMails
import OdooSemantic.Proof.ViewIdentity
import OdooSemantic.Proof.XmlidQualification
import OdooSemantic.Web.LoginAttempts
import OdooSemantic.Web.Operations
import OdooSemantic.Web.Routing
import OdooSemantic.Web.Signup
import OdooSemantic.Web.SignupCalls
import OdooSemantic.Web.Statements
import OdooSemantic.Web.UserRoutes
