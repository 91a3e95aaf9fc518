import BelugaManager.DomainApi.AssetId
import BelugaManager.DomainApi.Memo
import BelugaManager.DomainApi.Envelope
import BelugaManager.Foundation.Json
import BelugaManager.Foundation.UrlPath

/-!
# The Lakekeeper catalog source

The data assets of a read-only catalog service.  What the service answers may depend on
everything it was asked before, so a call is a function from the exchanges so far to its
result and the exchanges after it.  The memos in front of these calls are left out: what
they serve is the result of an earlier call with the same key.
-/

namespace BelugaManager.DomainApi

open Foundation Foundation.JsString

structure ConfigBody where
  defaults : Option (List (JsString × JsString))
  overrides : Option (List (JsString × JsString))

/-- One page of a listing. -/
structure Page (α : Type) where
  items : List α
  next : Option JsString

def configSchema (body : Json) : Option ConfigBody :=
  match body with
  | .object _ => do
      let defaults ← body.optionalField "defaults" Json.record
      let overrides ← body.optionalField "overrides" Json.record
      pure ⟨defaults, overrides⟩
  | _ => none

def namespaceSchema (body : Json) : Option (List JsString) :=
  (body.listOf Json.nonemptyText).filter (· ≠ [])

def listNamespacesSchema (body : Json) : Option (Page (List JsString)) := do
  let namespaces ← (← body.member "namespaces").listOf namespaceSchema
  let next ← body.nullishField "next-page-token" Json.text
  pure ⟨namespaces, next⟩

structure TableIdentifier where
  nameSpace : List JsString
  name : JsString
  deriving DecidableEq

def tableIdentifierSchema (body : Json) : Option TableIdentifier := do
  let nameSpace ← (← body.member "namespace").listOf Json.text
  let name ← (← body.member "name").nonemptyText
  pure ⟨nameSpace, name⟩

def listTablesSchema (body : Json) : Option (Page TableIdentifier) := do
  let identifiers ← (← body.member "identifiers").listOf tableIdentifierSchema
  let next ← body.nullishField "next-page-token" Json.text
  pure ⟨identifiers, next⟩

/-! ## Requests -/

structure Request where
  path : JsString
  query : List (JsString × JsString)
  deriving DecidableEq

/-- What a call throws: an error of the service, a string that cannot be percent-encoded, or
a value that does not fit its schema. -/
inductive Failure where
  | upstream (kind : UpstreamErrorKind)
  | uriError
  | schemaError
  deriving DecidableEq

abbrev Exchange := Request × Except UpstreamErrorKind Json

/-- What `UpstreamHttpClient` is for the source: the path of its base URL and what its
requests are answered. An answer may also be that the request was not sent in time. -/
structure UpstreamClient where
  base : JsString
  answer : List Exchange → Request → Except UpstreamErrorKind Json

/-- A call, given the exchanges before it. -/
def Session (α : Type) := List Exchange → Except Failure α × List Exchange

namespace Session

variable {α β : Type}

/-- What is thrown ends a call. -/
def followedBy (call : Session α) (next : α → Session β) : Session β := fun log =>
  match call log with
  | (.ok value, later) => next value later
  | (.error failure, later) => (.error failure, later)

instance : Monad Session where
  pure value := fun log => (.ok value, log)
  bind := followedBy

theorem bind_apply (call : Session α) (next : α → Session β) (log : List Exchange) :
    (call >>= next) log = followedBy call next log := rfl

def throw (failure : Failure) : Session α := fun log => (.error failure, log)

def ofExcept (result : Except Failure α) : Session α := fun log => (result, log)

/-- `catch` for one kind of failure. -/
def orElse (call : Session α) (caught : Failure) (value : α) : Session α := fun log =>
  match call log with
  | (.error failure, later) =>
      if failure = caught then (.ok value, later) else (.error failure, later)
  | done => done

end Session

/-- `replace(/\/+$/, "")` -/
def stripSlashes (s : JsString) : JsString := (s.reverse.dropWhile (· = slashUnit)).reverse

namespace UpstreamClient

def expectedPath (client : UpstreamClient) (path : JsString) : JsString :=
  stripSlashes (setPathname client.base) ++ path

/-- A request whose path would be changed is not sent. -/
def getJson (client : UpstreamClient) (path : JsString) (query : List (JsString × JsString)) :
    Session Json := fun log =>
  let expected := client.expectedPath path
  if setPathname expected ≠ expected then (.error (.upstream .malformed), log)
  else
    let request : Request := ⟨expected, query⟩
    let answer := client.answer log request
    (answer.mapError .upstream, log ++ [(request, answer)])

end UpstreamClient

/-! ## Assets -/

/-- A data asset. An absent parent and a null one are not told apart. -/
structure DataAsset where
  id : JsString
  name : JsString
  kind : DataAssetKind
  serviceId : String
  status : HealthStatus
  catalog : Option JsString
  nameSpace : Option (List JsString)
  parentId : Option JsString
  path : Option (List JsString)
  deriving DecidableEq

/-- The lengths that the schema of assets asks for. -/
def DataAsset.isValid (asset : DataAsset) : Bool :=
  asset.id ≠ [] && asset.name ≠ [] && asset.serviceId ≠ "" && asset.catalog.all (· ≠ []) &&
    asset.nameSpace.all (·.all (· ≠ [])) && asset.parentId.all (· ≠ []) &&
      asset.path.all (·.all (· ≠ []))

/-- `dataAssetSchema.parse` -/
def DataAsset.parse (asset : DataAsset) : Except Failure DataAsset :=
  if asset.isValid then .ok asset else .error .schemaError

def SERVICE_ID : String := "svc-iceberg"

def catalogId (catalog : JsString) : JsString := deriveAssetId .catalog [catalog]

def schemaId (catalog : JsString) (ns : List JsString) : JsString :=
  deriveAssetId .schema (catalog :: ns)

def catalogNode (catalog : JsString) : DataAsset where
  id := catalogId catalog
  name := catalog
  kind := .catalog
  serviceId := SERVICE_ID
  status := .unknown
  catalog := some catalog
  nameSpace := some []
  parentId := none
  path := some []

def schemaNode (catalog : JsString) (ns : List JsString) : DataAsset where
  id := schemaId catalog ns
  name := join dot ns
  kind := .schema
  serviceId := SERVICE_ID
  status := .unknown
  catalog := some catalog
  nameSpace := some ns
  parentId := some (if ns.length = 1 then catalogId catalog else schemaId catalog ns.dropLast)
  path := some (catalog :: ns.dropLast)

/-- The name is that of the namespace and the table, with a dot between them. -/
def tableNode (catalog : JsString) (ns : List JsString) (table : JsString) : DataAsset where
  id := deriveAssetId .table (catalog :: (ns ++ [table]))
  name := join dot ns ++ dot :: table
  kind := .table
  serviceId := SERVICE_ID
  status := .unknown
  catalog := some catalog
  nameSpace := some ns
  parentId := some (schemaId catalog ns)
  path := some (catalog :: ns)

def catalogAsset (catalog : JsString) : Except Failure DataAsset := (catalogNode catalog).parse

def schemaAsset (catalog : JsString) (ns : List JsString) : Except Failure DataAsset :=
  (schemaNode catalog ns).parse

def tableAsset (catalog : JsString) (ns : List JsString) (table : JsString) :
    Except Failure DataAsset := (tableNode catalog ns table).parse

theorem idPrefix_append_ne_nil (kind : DataAssetKind) (raw : JsString) :
    idPrefix kind ++ raw ≠ [] := by
  apply List.append_ne_nil_of_left_ne_nil
  cases kind <;> decide

theorem DataAsset.isValid_iff {asset : DataAsset} : asset.isValid = true ↔
    asset.id ≠ [] ∧ asset.name ≠ [] ∧ asset.serviceId ≠ "" ∧ (∀ name ∈ asset.catalog, name ≠ []) ∧
      (∀ ns ∈ asset.nameSpace, ∀ segment ∈ ns, segment ≠ []) ∧
        (∀ id ∈ asset.parentId, id ≠ []) ∧ ∀ path ∈ asset.path, ∀ segment ∈ path, segment ≠ [] := by
  simp [DataAsset.isValid, Option.all_eq_true, and_assoc]

theorem schemaNode_isValid {catalog : JsString} {ns : List JsString} (named : catalog ≠ [])
    (nonempty : ns ≠ []) (filled : ∀ segment ∈ ns, segment ≠ []) :
    (schemaNode catalog ns).isValid = true := by
  have idSome : ∀ kind segments, deriveAssetId kind segments ≠ [] :=
    fun kind segments => idPrefix_append_ne_nil kind _
  have nameSome : join dot ns ≠ [] := by
    cases ns with
    | nil => exact absurd rfl nonempty
    | cons first rest =>
        cases rest with
        | nil => simpa using filled first List.mem_cons_self
        | cons second rest => simp [join_cons_cons]
  have parentSome :
      (if ns.length = 1 then catalogId catalog else schemaId catalog ns.dropLast) ≠ [] := by
    split_ifs
    · exact idSome _ _
    · exact idSome _ _
  have serviceSome : SERVICE_ID ≠ "" := by decide
  rw [DataAsset.isValid_iff]
  refine ⟨idSome _ _, nameSome, serviceSome, ?_, ?_, ?_, ?_⟩
  · simpa [schemaNode] using named
  · simpa [schemaNode] using filled
  · simpa only [schemaNode, Option.mem_some_iff, forall_eq'] using parentSome
  · intro path isPath
    cases isPath
    exact List.forall_mem_cons.mpr ⟨named, fun segment listed =>
      filled segment (List.dropLast_subset ns listed)⟩

theorem tableNode_isValid {catalog table : JsString} {ns : List JsString} (named : catalog ≠ [])
    (filled : ∀ segment ∈ ns, segment ≠ []) : (tableNode catalog ns table).isValid = true := by
  have idSome : ∀ kind segments, deriveAssetId kind segments ≠ [] :=
    fun kind segments => idPrefix_append_ne_nil kind _
  have serviceSome : SERVICE_ID ≠ "" := by decide
  rw [DataAsset.isValid_iff]
  refine ⟨idSome _ _, by simp [tableNode], serviceSome, ?_, ?_, ?_, ?_⟩
  · simpa [tableNode] using named
  · simpa [tableNode] using filled
  · intro id isId
    cases isId
    exact idSome _ _
  · intro path isPath
    cases isPath
    exact List.forall_mem_cons.mpr ⟨named, filled⟩

def NS_SEP : UInt16 := 0x1F

/-- A component of a path, from the string that it encodes. -/
def pathComponent (s : JsString) : Except Failure JsString :=
  match encodeURIComponent s with
  | none => .error .uriError
  | some encoded => .ok encoded

def nsPath (ns : List JsString) : Except Failure JsString :=
  if !ns.all isSafeUpstreamSegment then .error (.upstream .malformed)
  else pathComponent (join NS_SEP ns)

def tablePath (name : JsString) : Except Failure JsString :=
  if !isSafeUpstreamSegment name then .error (.upstream .malformed) else pathComponent name

/-- What is asked for under the namespaces of a catalog: a namespace, the list of its tables,
or a table. -/
inductive UpstreamObject where
  | schema (ns : List JsString)
  | tables (ns : List JsString)
  | table (ns : List JsString) (name : JsString)
  deriving DecidableEq

def UpstreamObject.path : UpstreamObject → Except Failure JsString
  | .schema ns => nsPath ns
  | .tables ns => do
      let inPath ← nsPath ns
      pure (inPath ++ ofString "/tables")
  | .table ns name => do
      let inPath ← nsPath ns
      let tableInPath ← tablePath name
      pure (inPath ++ ofString "/tables/" ++ tableInPath)

/-- `[A-Za-z0-9_\-~]` -/
def isPrefixStart (unit : UInt16) : Bool :=
  (48 ≤ unit.toNat ∧ unit.toNat ≤ 57) || (65 ≤ unit.toNat ∧ unit.toNat ≤ 90) ||
    (97 ≤ unit.toNat ∧ unit.toNat ≤ 122) || (ofString "_-~").contains unit

/-- `SAFE_PREFIX` -/
def isSafePrefix : JsString → Bool
  | [] => false
  | unit :: rest => isPrefixStart unit && rest.all fun other => isPrefixStart other || other = dot

/-- The start of the paths under `/v1`, from the prefix that the service asks for. -/
def prefixSegment (raw : JsString) : Except Failure JsString :=
  if raw ≠ [] && (!isSafePrefix raw || raw = [dot, dot] || 128 < raw.length) then
    .error (.upstream .malformed)
  else .ok (if raw = [] then [] else slashUnit :: raw)

/-- The value of a key of a record. The last entry counts. -/
def recordValue (key : String) (entries : Option (List (JsString × JsString))) : Option JsString :=
  entries.bind fun list => (list.reverse.find? (·.1 = ofString key)).map Prod.snd

/-- What overrides say comes before what defaults say. -/
def configuredPrefix (config : ConfigBody) : JsString :=
  ((recordValue "prefix" config.overrides).or (recordValue "prefix" config.defaults)).getD []

def namespacesPath (start : JsString) : JsString :=
  ofString "/v1" ++ start ++ ofString "/namespaces"

def objectPath (start path : JsString) : JsString := namespacesPath start ++ slashUnit :: path

/-! ## The source -/

structure CatalogMapping where
  name : JsString
  warehouse : JsString
  deriving DecidableEq

def NODE_AUTHZ_WARNING : ListWarning where
  code := "NODE_AUTHZ_NOT_ENFORCED"
  message := ofString
    ("Visibility reflects Manager's service credential at the catalog, not the " ++
    "end user; node-level OPA filtering is not implemented (ADR-0004 D7)")
  serviceId := some SERVICE_ID

def PAGE_SIZE : Nat := 100

def MAX_PAGES : Nat := 10

def LISTING_TRUNCATED : ListWarning where
  code := "LISTING_TRUNCATED"
  message := ofString ("Upstream listing exceeded " ++ toString (MAX_PAGES * PAGE_SIZE) ++
    " items and was truncated")
  serviceId := some SERVICE_ID

structure DataAssetListResult where
  assets : List DataAsset
  warnings : List ListWarning
  deriving DecidableEq

/-- The last mapping of a name counts. -/
def byName (catalogs : List CatalogMapping) (name : JsString) : Option CatalogMapping :=
  catalogs.reverse.find? (·.name = name)

/-- The pages of a listing, one after another; each is asked for with the token of the one
before. -/
def drainFrom {α : Type} (fetchPage : Option JsString → Session (Page α)) :
    Nat → Option JsString → List α → List ListWarning → Session (List α × List ListWarning)
  | 0, _, all, warnings => pure (all, warnings ++ [LISTING_TRUNCATED])
  | pages + 1, token, all, warnings => do
      let page ← fetchPage token
      match page.next with
      | none => pure (all ++ page.items, warnings)
      | some next =>
          if next = [] then pure (all ++ page.items, warnings)
          else drainFrom fetchPage pages (some next) (all ++ page.items) warnings

def drain {α : Type} (fetchPage : Option JsString → Session (Page α))
    (warnings : List ListWarning) :
    Session (List α × List ListWarning) :=
  drainFrom fetchPage MAX_PAGES none [] warnings

/-- A key and its value, unless that is undefined. -/
def parameter (key : String) (value : Option JsString) : List (JsString × JsString) :=
  (value.map fun text => (ofString key, text)).toList

def pageSizeParameter : List (JsString × JsString) :=
  parameter "pageSize" (some (ofString (toString PAGE_SIZE)))

def listNamespacesQuery (parent : List JsString) (pageToken : Option JsString) :
    List (JsString × JsString) :=
  parameter "parent" (if parent = [] then none else some (join NS_SEP parent)) ++
    parameter "pageToken" pageToken ++ pageSizeParameter

def listTablesQuery (pageToken : Option JsString) : List (JsString × JsString) :=
  parameter "pageToken" pageToken ++ pageSizeParameter

/-- A child is exactly one level below its parent. -/
def isChildOf (parent ns : List JsString) : Bool :=
  ns.length = parent.length + 1 && parent.isPrefixOf ns

namespace UpstreamClient

def prefixFor (client : UpstreamClient) (mapping : CatalogMapping) : Session JsString := do
  let body ← client.getJson (ofString "/v1/config") (parameter "warehouse" (some mapping.warehouse))
  match configSchema body with
  | none => Session.throw (.upstream .malformed)
  | some config =>
      Session.ofExcept (prefixSegment (configuredPrefix config))

/-- Names that cannot be addressed safely are not listed. -/
def namespacesPage (client : UpstreamClient) (start : JsString) (parent : List JsString)
    (pageToken : Option JsString) : Session (Page (List JsString)) := do
  let body ← client.getJson (namespacesPath start) (listNamespacesQuery parent pageToken)
  match listNamespacesSchema body with
  | none => Session.throw (.upstream .malformed)
  | some page =>
      if page.items.all (isChildOf parent) then
        pure ⟨page.items.filter (·.all isSafeUpstreamSegment), page.next⟩
      else Session.throw (.upstream .malformed)

def listNamespaces (client : UpstreamClient) (start : JsString) (parent : List JsString)
    (warnings : List ListWarning) : Session (List (List JsString) × List ListWarning) :=
  drain (client.namespacesPage start parent) warnings

def tablesPage (client : UpstreamClient) (start : JsString) (ns : List JsString)
    (pageToken : Option JsString) : Session (Page TableIdentifier) := do
  let path ← Session.ofExcept (UpstreamObject.tables ns).path
  let body ← client.getJson (objectPath start path) (listTablesQuery pageToken)
  match listTablesSchema body with
  | none => Session.throw (.upstream .malformed)
  | some page => pure ⟨page.items.filter fun id => isSafeUpstreamSegment id.name, page.next⟩

def listTables (client : UpstreamClient) (start : JsString) (ns : List JsString)
    (warnings : List ListWarning) : Session (List TableIdentifier × List ListWarning) :=
  drain (client.tablesPage start ns) warnings

/-- The children of a catalog or a schema. -/
def listChildren (client : UpstreamClient) (mapping : CatalogMapping) (parent : AssetAddress) :
    Session DataAssetListResult := do
  let ns := parent.segments.tail
  let start ← client.prefixFor mapping
  let (children, warnings) ← client.listNamespaces start ns [NODE_AUTHZ_WARNING]
  let schemas ← Session.ofExcept (children.mapM (schemaAsset mapping.name))
  if parent.kind = .schema then
    let (tables, warnings) ← client.listTables start ns warnings
    let assets ← Session.ofExcept (tables.mapM fun id => tableAsset mapping.name ns id.name)
    pure ⟨schemas ++ assets, warnings⟩
  else pure ⟨schemas, warnings⟩

/-- The address of an asset whose children can be listed, with its catalog. -/
def listable (catalogs : List CatalogMapping) (parentId : JsString) :
    Option (AssetAddress × CatalogMapping) := do
  let parent ← parseAssetId parentId
  if parent.kind = .table then none
  else
    let mapping ← byName catalogs (parent.segments.headD [])
    pure (parent, mapping)

/-- Each configured warehouse is asked for. -/
def prefixForEach (client : UpstreamClient) : List CatalogMapping → Session Unit
  | [] => pure ()
  | mapping :: rest => do
      let _ ← client.prefixFor mapping
      client.prefixForEach rest

def listCatalogs (client : UpstreamClient) (catalogs : List CatalogMapping) :
    Session DataAssetListResult := do
  client.prefixForEach catalogs
  let assets ← Session.ofExcept (catalogs.mapM fun mapping => catalogAsset mapping.name)
  pure ⟨assets, [NODE_AUTHZ_WARNING]⟩

/-- An id that is not that of a listable asset is answered without asking the service. -/
def list (client : UpstreamClient) (catalogs : List CatalogMapping)
    (parentId : Option JsString) : Session DataAssetListResult :=
  match parentId with
  | none => client.listCatalogs catalogs
  | some id =>
      match listable catalogs id with
      | none => pure ⟨[], [NODE_AUTHZ_WARNING]⟩
      | some (parent, mapping) => client.listChildren mapping parent

/-- What is read of an asset, and the body that the details of a table are taken from. -/
def getAddressed (client : UpstreamClient) (mapping : CatalogMapping) (parsed : AssetAddress)
    (start : JsString) : Session (Option (DataAsset × Option Json)) :=
  let catalog := mapping.name
  match parsed.kind with
  | .catalog => do
      let asset ← Session.ofExcept (catalogAsset catalog)
      pure (some (asset, none))
  | .schema => do
      let ns := parsed.segments.tail
      let path ← Session.ofExcept (UpstreamObject.schema ns).path
      let _ ← client.getJson (objectPath start path) []
      let asset ← Session.ofExcept (schemaAsset catalog ns)
      pure (some (asset, none))
  | .table => do
      let ns := parsed.segments.tail.dropLast
      let table := parsed.segments.getLastD []
      let path ← Session.ofExcept (UpstreamObject.table ns table).path
      let body ← client.getJson (objectPath start path) []
      let asset ← Session.ofExcept (tableAsset catalog ns table)
      pure (some (asset, some body))

def get (client : UpstreamClient) (catalogs : List CatalogMapping) (id : JsString) :
    Session (Option (DataAsset × Option Json)) :=
  match parseAssetId id with
  | none => pure none
  | some parsed =>
      match byName catalogs (parsed.segments.headD []) with
      | none => pure none
      | some mapping => do
          let start ← client.prefixFor mapping
          (client.getAddressed mapping parsed start).orElse (.upstream .notFound) none

end UpstreamClient

def equalsSign : UInt16 := ofChar '='

/-- The mapping of one entry. What follows a second equals sign is dropped. -/
def parseWarehouse (entry : JsString) : CatalogMapping :=
  if entry.contains equalsSign then
    let pieces := split equalsSign entry
    ⟨trim (pieces.headD []), trim (pieces.tail.headD [])⟩
  else ⟨trim entry, trim entry⟩

def parseWarehouses (raw : Option JsString) : List CatalogMapping :=
  let entries := (split (ofChar ',') (raw.getD [])).map trim
  ((entries.filter (· ≠ [])).map parseWarehouse).filter fun mapping =>
    mapping.name ≠ [] && mapping.warehouse ≠ []

end BelugaManager.DomainApi
