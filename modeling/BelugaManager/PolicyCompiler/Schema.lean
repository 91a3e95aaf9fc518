import BelugaManager.Foundation.OrderedMap
import BelugaManager.PolicyCompiler.PgRole

/-!
# Policy declarations

The data model of `schema.ts`.  An optional field of the YAML is an `Option`
here, and a record with arbitrary keys is an `OrderedMap`, whose order is the one
in which the program enumerates the record.

Of the schema's refinements only one restricts a type below: a grant lists at
least one privilege.  Everything else is left to the validator.
-/

namespace BelugaManager.PolicyCompiler

open Foundation

inductive Privilege where
  | select
  | insert
  | update
  | delete
  deriving DecidableEq, Repr

inductive MaskKind where
  | hash
  | partialMask
  | null
  deriving DecidableEq, Repr

/-- The word for a mask kind in a declaration. -/
def MaskKind.text : MaskKind → String
  | .hash => "hash"
  | .partialMask => "partial"
  | .null => "null"

inductive Engine where
  | trino
  | postgres
  deriving DecidableEq, Repr

/-- The word for an engine in a declaration. -/
def Engine.text : Engine → String
  | .trino => "trino"
  | .postgres => "postgres"

inductive Classification where
  | publicData
  | internal
  | pii
  deriving DecidableEq, Repr

/-- Which roles hold which privileges on a resource, and under which masks. -/
structure Grant where
  roles : List String
  privileges : List Privilege
  columnMask : Option (OrderedMap String MaskKind) := none
  rowFilter : Option String := none
  allowUnmasked : Option Bool := none
  privileges_nonempty : privileges ≠ [] := by decide

structure Resource where
  resource : String
  classification : Classification
  grants : List Grant
  sensitiveColumns : Option (List String) := none
  engine : Option Engine := none

structure Role where
  name : String
  includes : Option (List String) := none

structure Group where
  name : String
  roles : List String

/-- Catalog and query level operations, which concern no single table. -/
inductive QueryOperation where
  | executeQuery
  | accessCatalog
  | showSchemas
  | showTables
  | showColumns
  | showCreateTable
  | showFunctions
  | setCatalogSessionProperty
  | filterCatalogs
  | filterSchemas
  | filterTables
  | filterColumns
  deriving DecidableEq, Repr

/-- The name of an operation, in declarations and in authorization requests. -/
def QueryOperation.text : QueryOperation → String
  | .executeQuery => "ExecuteQuery"
  | .accessCatalog => "AccessCatalog"
  | .showSchemas => "ShowSchemas"
  | .showTables => "ShowTables"
  | .showColumns => "ShowColumns"
  | .showCreateTable => "ShowCreateTable"
  | .showFunctions => "ShowFunctions"
  | .setCatalogSessionProperty => "SetCatalogSessionProperty"
  | .filterCatalogs => "FilterCatalogs"
  | .filterSchemas => "FilterSchemas"
  | .filterTables => "FilterTables"
  | .filterColumns => "FilterColumns"

/-- The only catalog that is deployed. -/
def DEPLOYED_CATALOG : String := "iceberg"

structure CatalogGrant where
  catalog : String
  roles : List String
  operations : List QueryOperation

structure PgLogin where
  name : String
  memberOf : List String
  database : String

structure Declaration where
  roles : List Role
  groups : List Group
  resources : List Resource
  catalogGrants : Option (List CatalogGrant) := none
  logins : Option (List PgLogin) := none

/-! ## Fields with their defaults -/

/-- The masks of a grant in enumeration order. -/
def Grant.masks (grant : Grant) : List (String × MaskKind) :=
  (grant.columnMask.getD .empty).entries

/-- Whether a grant opts out of masking. -/
def Grant.optsOut (grant : Grant) : Bool := grant.allowUnmasked = some true

/-- A resource belongs to Trino unless it says otherwise. -/
def Resource.engineOrDefault (resource : Resource) : Engine := resource.engine.getD .trino

def Resource.sensitive (resource : Resource) : List String :=
  resource.sensitiveColumns.getD []

def Role.parents (role : Role) : List String := role.includes.getD []

def Declaration.catalogGrantList (d : Declaration) : List CatalogGrant :=
  d.catalogGrants.getD []

def Declaration.loginList (d : Declaration) : List PgLogin := d.logins.getD []

/-- The names of the declared roles. -/
def Declaration.roleNames (d : Declaration) : List String := d.roles.map Role.name

/-- The grants of a resource in the order in which both compilers visit them. -/
def sortedGrants (res : Resource) : List Grant :=
  Text.sortBy (fun a b => cmp (Text.join "," a.roles) (Text.join "," b.roles)) res.grants

end BelugaManager.PolicyCompiler
