import BelugaManager.Foundation.RoleCatalog
import BelugaManager.Foundation.Graph
import BelugaManager.Foundation.Regex
import BelugaManager.Foundation.Backtrack
import BelugaManager.Foundation.JsNumber
import BelugaManager.Foundation.Machine
import BelugaManager.PolicyCompiler.Access
import BelugaManager.PolicyCompiler.Masking
import BelugaManager.PolicyCompiler.PgAccess
import BelugaManager.PolicyCompiler.PgNames
import BelugaManager.PolicyCompiler.DriftApplied
import BelugaManager.PolicyCompiler.DriftClean
import BelugaManager.PolicyCompiler.DriftOrder
import BelugaManager.PolicyCompiler.KeptOrder
import BelugaManager.DomainApi.MemoAccounting
import BelugaManager.DomainApi.FlinkSnapshots
import BelugaManager.DomainApi.IsolationRuns
import BelugaManager.DomainApi.AssetId
import BelugaManager.DomainApi.Correlation
import BelugaManager.DomainApi.SqlRedaction
import BelugaManager.DomainApi.LakekeeperAddresses
import BelugaManager.DomainApi.QueryContext
import BelugaManager.DomainApi.FlinkLookups
import BelugaManager.DomainApi.MapLimitedRuns
import BelugaManager.PolicyCompiler.DriftClasses
import BelugaManager.PolicyCompiler.InheritanceSearch
import BelugaManager.PolicyCompiler.RegoLexing
import BelugaManager.PolicyCompiler.RowFilterSql
import BelugaManager.Web.DataTableSort
import BelugaManager.Web.GraphNavigation
import BelugaManager.Ci.VulnerabilityGate
import BelugaManager.Ci.LicensePolicy
import BelugaManager.DomainApi.AdapterRegistry
import BelugaManager.DomainApi.HttpSends
import BelugaManager.DomainApi.QueryHistory
import BelugaManager.DomainApi.RuleProvider
import BelugaManager.DomainApi.CatalogStores
import BelugaManager.DomainApi.IcebergTypes
import BelugaManager.PolicyCompiler.Answers
import BelugaManager.Web.InfraTopology
import BelugaManager.Web.PipelineGraphs
import BelugaManager.Web.CatalogSql
import BelugaManager.Web.RetryableLoader
import BelugaManager.Web.Console
