import BelugaManager.DomainApi.LakekeeperListing

/-!
# Addresses of listed assets

A listed asset can be asked for again by its id: the id is read as the names of the asset,
and what is then requested is that object of the service.  This holds except for names that
the ids cannot carry, for catalogs of one name, and below ids that are not spelled the way
ids are derived.
-/

namespace BelugaManager.DomainApi

open Foundation Foundation.JsString

/-! ## What calls ask for -/

namespace Session

variable {α β : Type}

/-- Every request that a call adds has a property, whether it returns or throws. -/
def Asks (call : Session α) (about : Request → Prop) : Prop :=
  ∀ log, ∃ more, (call log).2 = log ++ more ∧ ∀ exchange ∈ more, about exchange.1

variable {about : Request → Prop}

theorem asks_pure (value : α) : (pure value : Session α).Asks about :=
  fun log => ⟨[], (List.append_nil log).symm, List.forall_mem_nil _⟩

theorem asks_throw (failure : Failure) : (Session.throw failure : Session α).Asks about :=
  fun log => ⟨[], (List.append_nil log).symm, List.forall_mem_nil _⟩

theorem asks_ofExcept (result : Except Failure α) : (Session.ofExcept result).Asks about :=
  fun log => ⟨[], (List.append_nil log).symm, List.forall_mem_nil _⟩

theorem Asks.bind {call : Session α} {next : α → Session β} (first : call.Asks about)
    (second : ∀ value, (next value).Asks about) : (call >>= next).Asks about := by
  intro log
  rcases first log with ⟨more, isLater, isAbout⟩
  cases returned : call log with
  | mk result later =>
      rw [returned] at isLater
      cases result with
      | error failure =>
          rw [bind_of_error returned]
          exact ⟨more, isLater, isAbout⟩
      | ok value =>
          rw [bind_of_ok returned]
          rcases second value later with ⟨others, isLast, isAboutToo⟩
          refine ⟨more ++ others, ?_, List.forall_mem_append.mpr ⟨isAbout, isAboutToo⟩⟩
          simp only at isLater
          rw [isLast, isLater, List.append_assoc]

theorem Asks.mono {other : Request → Prop} {call : Session α} (asks : call.Asks about)
    (weaker : ∀ request, about request → other request) : call.Asks other := by
  intro log
  rcases asks log with ⟨more, isLater, isAbout⟩
  exact ⟨more, isLater, fun exchange listed => weaker _ (isAbout exchange listed)⟩

end Session

theorem asks_getJson (client : UpstreamClient) (path : JsString)
    (query : List (JsString × JsString)) :
    (client.getJson path query).Asks (· = ⟨client.expectedPath path, query⟩) := by
  intro log
  rw [getJson_apply]
  split_ifs
  · exact ⟨[], (List.append_nil log).symm, List.forall_mem_nil _⟩
  · exact ⟨[_], rfl, List.forall_mem_singleton.mpr rfl⟩

theorem asks_drainFrom {α : Type} {fetchPage : Option JsString → Session (Page α)}
    {about : Request → Prop} (asks : ∀ token, (fetchPage token).Asks about) (rounds : Nat)
    (token : Option JsString) (all : List α) (warnings : List ListWarning) :
    (drainFrom fetchPage rounds token all warnings).Asks about := by
  induction rounds generalizing token all with
  | zero => exact Session.asks_pure _
  | succ rounds ih =>
      apply (asks token).bind
      intro page
      cases next : page.next with
      | none => exact Session.asks_pure _
      | some following =>
          simp only []
          split_ifs
          · exact Session.asks_pure _
          · exact ih (some following) (all ++ page.items)

/-- The request for the configuration of a catalog. -/
def configRequest (client : UpstreamClient) (mapping : CatalogMapping) : Request :=
  ⟨client.expectedPath (ofString "/v1/config"), parameter "warehouse" (some mapping.warehouse)⟩

theorem asks_prefixFor (client : UpstreamClient) (mapping : CatalogMapping) :
    (client.prefixFor mapping).Asks (· = configRequest client mapping) := by
  apply (asks_getJson client _ _).bind
  intro body
  cases configSchema body with
  | none => exact Session.asks_throw _
  | some config => exact Session.asks_ofExcept _

/-- The requests that a listing of children may send. -/
inductive ListRequest (client : UpstreamClient) (mapping : CatalogMapping) (ns : List JsString) :
    Request → Prop where
  | config : ListRequest client mapping ns (configRequest client mapping)
  | namespaces (start : JsString) (token : Option JsString) : ListRequest client mapping ns
      ⟨client.expectedPath (namespacesPath start), listNamespacesQuery ns token⟩
  | tables (start : JsString) {path : JsString} (token : Option JsString) :
      (UpstreamObject.tables ns).path = .ok path → ListRequest client mapping ns
        ⟨client.expectedPath (objectPath start path), listTablesQuery token⟩

theorem asks_listNamespaces (client : UpstreamClient) (mapping : CatalogMapping)
    (start : JsString) (ns : List JsString) (warnings : List ListWarning) :
    (client.listNamespaces start ns warnings).Asks (ListRequest client mapping ns) := by
  apply asks_drainFrom
  intro token
  apply ((asks_getJson client _ _).mono fun request same => same ▸ .namespaces start token).bind
  intro body
  cases listNamespacesSchema body with
  | none => exact Session.asks_throw _
  | some page =>
      simp only []
      split_ifs
      · exact Session.asks_pure _
      · exact Session.asks_throw _

theorem asks_listTables (client : UpstreamClient) (mapping : CatalogMapping)
    (start : JsString) (ns : List JsString) (warnings : List ListWarning) :
    (client.listTables start ns warnings).Asks (ListRequest client mapping ns) := by
  apply asks_drainFrom
  intro token
  rw [UpstreamClient.tablesPage]
  cases found : (UpstreamObject.tables ns).path with
  | error failure =>
      intro log
      exact ⟨[], (List.append_nil log).symm, List.forall_mem_nil _⟩
  | ok path =>
      -- Encoding the namespace sends nothing, and the request is for its path.
      intro log
      rw [Session.bind_of_ok (Session.ofExcept_eq_ok_iff.mpr ⟨rfl, rfl⟩)]
      revert log
      apply ((asks_getJson client _ _).mono fun request same =>
        same ▸ .tables start token found).bind
      intro body
      cases listTablesSchema body with
      | none => exact Session.asks_throw _
      | some page => exact Session.asks_pure _

theorem asks_listChildren (client : UpstreamClient) (mapping : CatalogMapping)
    (parent : AssetAddress) :
    (client.listChildren mapping parent).Asks
      (ListRequest client mapping parent.segments.tail) := by
  apply ((asks_prefixFor client mapping).mono fun request same => same ▸ .config).bind
  intro start
  apply (asks_listNamespaces client mapping start parent.segments.tail _).bind
  intro found
  apply (Session.asks_ofExcept _).bind
  intro schemas
  split_ifs
  · apply (asks_listTables client mapping start parent.segments.tail found.2).bind
    intro listed
    apply (Session.asks_ofExcept _).bind
    intro assets
    exact Session.asks_pure _
  · exact Session.asks_pure _

/-! ## Addresses -/

/-- The name of a table without that of its namespace. -/
def DataAsset.tableName (asset : DataAsset) : JsString :=
  asset.name.drop ((join dot (asset.nameSpace.getD [])).length + 1)

/-- The kind and the names of an asset. -/
def DataAsset.address (asset : DataAsset) : Option AssetAddress :=
  let names := asset.catalog.getD [] :: asset.nameSpace.getD []
  match asset.kind with
  | .catalog => some ⟨.catalog, names⟩
  | .schema => some ⟨.schema, names⟩
  | .table => some ⟨.table, names ++ [asset.tableName]⟩
  | .topic => none

/-- What an address stands for below its catalog. -/
def AssetAddress.object (address : AssetAddress) : Option UpstreamObject :=
  match address.kind with
  | .catalog => none
  | .schema => some (.schema address.segments.tail)
  | .table => some (.table address.segments.tail.dropLast (address.segments.getLastD []))

/-- Getting an id asks for the configuration of the catalog and then for exactly one object,
or for nothing more. -/
structure GetsExactly (client : UpstreamClient) (catalogs : List CatalogMapping) (id : JsString)
    (mapping : CatalogMapping) (object : Option UpstreamObject) : Prop where
  failed : ∀ log failure middle, client.prefixFor mapping log = (.error failure, middle) →
    (client.get catalogs id log).2 = middle
  catalog : object = none → ∀ log start middle,
    client.prefixFor mapping log = (.ok start, middle) → (client.get catalogs id log).2 = middle
  below : ∀ found, object = some found → ∀ log start middle,
    client.prefixFor mapping log = (.ok start, middle) →
      ∃ path answer, found.path = .ok path ∧ (client.get catalogs id log).2 =
        middle ++ [(⟨client.expectedPath (objectPath start path), []⟩, answer)]

/-- Listing below an id asks for the children of its namespace; a table has none. -/
structure ListsExactly (client : UpstreamClient) (catalogs : List CatalogMapping) (id : JsString)
    (mapping : CatalogMapping) (address : AssetAddress) : Prop where
  table : address.kind = .table → (client.list catalogs (some id)).Asks fun _ => False
  others : address.kind ≠ .table →
    (client.list catalogs (some id)).Asks (ListRequest client mapping address.segments.tail)

/-- An asset can be asked for by its id. -/
def Addressable (client : UpstreamClient) (catalogs : List CatalogMapping) (asset : DataAsset) :
    Prop :=
  ∃ address mapping, asset.address = some address ∧ parseAssetId asset.id = some address ∧
    byName catalogs (address.segments.headD []) = some mapping ∧
    GetsExactly client catalogs asset.id mapping address.object ∧
    ListsExactly client catalogs asset.id mapping address

/-- The names of an address are such that ids and requests can carry them. -/
structure Carried (address : AssetAddress) : Prop where
  safe : ∀ segment ∈ address.segments, isSafeUpstreamSegment segment = true
  oneLine : ∀ segment ∈ address.segments, 0x2028 ∉ segment ∧ 0x2029 ∉ segment
  short : (deriveAssetId address.kind.assetKind address.segments).length ≤ MAX_ASSET_ID_LENGTH
  paired : ∀ segment ∈ address.segments.tail, (codePoints segment).isSome

theorem paired_join_iff {ns : List JsString} :
    (encodeURIComponent (join NS_SEP ns)).isSome ↔ ∀ segment ∈ ns, (codePoints segment).isSome := by
  rw [encodeURIComponent, Option.isSome_map]
  induction ns with
  | nil => simp [join, codePoints]
  | cons first rest ih =>
      cases rest with
      | nil => simp
      | cons second rest =>
          rw [join_cons_cons, isSome_codePoints_append _ (by decide) (by decide), ih]
          exact (List.forall_mem_cons (p := fun segment => (codePoints segment).isSome = true)).symm

theorem nsPath_isOk_iff {ns : List JsString}
    (safe : ∀ segment ∈ ns, isSafeUpstreamSegment segment = true) :
    (∃ path, nsPath ns = .ok path) ↔ ∀ segment ∈ ns, (codePoints segment).isSome := by
  rw [← paired_join_iff, Option.isSome_iff_exists]
  apply exists_congr
  intro path
  rw [nsPath_eq_ok_iff, List.all_eq_true]
  exact ⟨fun both => both.2, fun encodes => ⟨safe, encodes⟩⟩

theorem tablePath_isOk_iff {name : JsString} (safe : isSafeUpstreamSegment name = true) :
    (∃ path, tablePath name = .ok path) ↔ (codePoints name).isSome := by
  have encodes : (encodeURIComponent name).isSome ↔ (codePoints name).isSome := by
    rw [encodeURIComponent, Option.isSome_map]
  rw [← encodes, Option.isSome_iff_exists]
  apply exists_congr
  intro path
  rw [tablePath_eq_ok_iff]
  exact ⟨fun both => both.2, fun found => ⟨safe, found⟩⟩

theorem path_isOk_iff {ns : List JsString} {name : JsString} :
    (∃ path, (UpstreamObject.table ns name).path = .ok path) ↔
      (∃ path, nsPath ns = .ok path) ∧ ∃ path, tablePath name = .ok path := by
  rw [UpstreamObject.path]
  cases inPath : nsPath ns with
  | error failure =>
      constructor
      · intro found
        rcases found with ⟨path, same⟩
        cases same
      · intro both
        rcases both.1 with ⟨path, same⟩
        cases same
  | ok start =>
      cases tableInPath : tablePath name with
      | error failure =>
          constructor
          · intro found
            rcases found with ⟨path, same⟩
            cases same
          · intro both
            rcases both.2 with ⟨path, same⟩
            cases same
      | ok last => exact ⟨fun _ => ⟨⟨_, rfl⟩, ⟨_, rfl⟩⟩, fun _ => ⟨_, rfl⟩⟩

/-- The last segment of a table is its own, those before it and after the catalog are of its
namespace. -/
theorem object_path_isOk_iff {address : AssetAddress}
    (admitted : address.kind.Admits address.segments.length)
    (safe : ∀ segment ∈ address.segments, isSafeUpstreamSegment segment = true) :
    (∀ object, address.object = some object → ∃ path, object.path = .ok path) ↔
      ∀ segment ∈ address.segments.tail, (codePoints segment).isSome := by
  rcases address with ⟨kind, segments⟩
  have tailSafe : ∀ segment ∈ segments.tail, isSafeUpstreamSegment segment = true :=
    fun segment listed => safe segment (List.mem_of_mem_tail listed)
  cases kind with
  | catalog =>
      have one : segments.length = 1 := admitted
      rcases List.length_eq_one_iff.mp one with ⟨name, rfl⟩
      simp [AssetAddress.object]
  | schema =>
      simp only [AssetAddress.object, Option.some.injEq, forall_eq']
      exact nsPath_isOk_iff tailSafe
  | table =>
      have three : 3 ≤ segments.length := admitted
      cases segments with
      | nil => exact absurd three (by decide)
      | cons catalog names =>
          have nonempty : names ≠ [] := by
            intro none
            rw [none] at three
            exact absurd three (by simp)
          have last : (catalog :: names).getLastD [] = names.getLast nonempty := by
            rw [List.getLastD_eq_getLast?, List.getLast?_cons,
              List.getLast?_eq_some_getLast nonempty]
            rfl
          have split := List.dropLast_append_getLast nonempty
          simp only [AssetAddress.object, Option.some.injEq, forall_eq', List.tail_cons, last]
          rw [path_isOk_iff, nsPath_isOk_iff fun segment listed =>
              tailSafe segment (List.dropLast_subset names listed),
            tablePath_isOk_iff (tailSafe _ (List.getLast_mem nonempty))]
          rw [← List.forall_mem_singleton (p := fun segment => (codePoints segment).isSome = true),
            ← List.forall_mem_append, split]

/-! ## Which assets can be asked for -/

theorem parse_derived_iff {address : AssetAddress}
    (admitted : address.kind.Admits address.segments.length) :
    parseAssetId (deriveAssetId address.kind.assetKind address.segments) = some address ↔
      (∀ segment ∈ address.segments, isSafeUpstreamSegment segment = true) ∧
      (∀ segment ∈ address.segments, 0x2028 ∉ segment ∧ 0x2029 ∉ segment) ∧
      (deriveAssetId address.kind.assetKind address.segments).length ≤ MAX_ASSET_ID_LENGTH := by
  constructor
  · intro read
    rcases parseAssetId_eq_some_iff.mp read with ⟨short, raw, _, _, _, _, _, safe, _⟩
    exact ⟨safe, (parseAssetId_deriveAssetId admitted safe short).mp read, short⟩
  · intro facts
    exact (parseAssetId_deriveAssetId admitted facts.1 facts.2.2).mpr facts.2.1

variable {client : UpstreamClient} {catalogs : List CatalogMapping} {mapping : CatalogMapping}

/-- What getting an id comes to. -/
theorem get_eq {id : JsString} {address : AssetAddress} (read : parseAssetId id = some address)
    (named : byName catalogs (address.segments.headD []) = some mapping) :
    client.get catalogs id = (do
      let start ← client.prefixFor mapping
      (client.getAddressed mapping address start).orElse (.upstream .notFound) none) := by
  rw [UpstreamClient.get, read]
  simp only [named]

theorem orElse_log {α : Type} (call : Session α) (caught : Failure) (value : α)
    (log : List Exchange) : ((call.orElse caught value) log).2 = (call log).2 := by
  rw [Session.orElse]
  rcases call log with ⟨result, later⟩
  cases result with
  | ok found => rfl
  | error failure =>
      simp only []
      split_ifs <;> rfl

/-- A request for an object is the only one, whatever is made of the answer. -/
theorem log_of_objectRequest {α : Type} {start path : JsString} {object : UpstreamObject}
    {raw : JsString} (accepted : prefixSegment raw = .ok start) (found : object.path = .ok path)
    (next : Json → Session α) (quiet : ∀ body log, (next body log).2 = log) (log : List Exchange) :
    ∃ answer, (((do
      let path ← Session.ofExcept object.path
      let body ← client.getJson (objectPath start path) []
      next body) : Session α) log).2 =
        log ++ [(⟨client.expectedPath (objectPath start path), []⟩, answer)] := by
  have unchanged := (upstream_paths_confined client _ _ accepted found found).2.unchanged
  rw [Session.bind_of_ok (Session.ofExcept_eq_ok_iff.mpr ⟨found, rfl⟩)]
  cases answered : client.answer log ⟨client.expectedPath (objectPath start path), []⟩ with
  | ok body =>
      rw [Session.bind_of_ok (getJson_of_answer unchanged answered), quiet]
      exact ⟨_, rfl⟩
  | error kind =>
      have threw : client.getJson (objectPath start path) [] log =
          (.error (.upstream kind),
            log ++ [(⟨client.expectedPath (objectPath start path), []⟩, .error kind)]) := by
        rw [getJson_apply, if_neg (not_not.mpr unchanged), answered]
        rfl
      rw [Session.bind_of_error threw]
      exact ⟨_, rfl⟩

theorem getsExactly_iff {id : JsString} {address : AssetAddress}
    (read : parseAssetId id = some address)
    (named : byName catalogs (address.segments.headD []) = some mapping)
    {log middle : List Exchange}
    {start : JsString} (configured : client.prefixFor mapping log = (.ok start, middle)) :
    GetsExactly client catalogs id mapping address.object ↔
      ∀ object, address.object = some object → ∃ path, object.path = .ok path := by
  constructor
  · intro gets object isObject
    rcases gets.below object isObject log start middle configured with ⟨path, _, found, _⟩
    exact ⟨path, found⟩
  · intro paths
    constructor
    · intro log failure middle failed
      rw [get_eq read named, Session.bind_of_error failed]
    · intro isNone log start middle configured
      rw [get_eq read named, Session.bind_of_ok configured, orElse_log]
      cases kind : address.kind with
      | catalog =>
          rw [UpstreamClient.getAddressed, kind]
          simp only []
          cases catalogAsset mapping.name <;> rfl
      | schema => simp [AssetAddress.object, kind] at isNone
      | table => simp [AssetAddress.object, kind] at isNone
    · intro found isFound log start middle configured
      rcases prefixFor_spec configured with ⟨_, raw, _, accepted, _⟩
      rcases paths found isFound with ⟨path, isPath⟩
      rw [get_eq read named, Session.bind_of_ok configured, orElse_log]
      refine ⟨path, ?_⟩
      cases kind : address.kind with
      | catalog => simp [AssetAddress.object, kind] at isFound
      | schema =>
          have same : UpstreamObject.schema address.segments.tail = found := by
            simpa [AssetAddress.object, kind] using isFound
          rw [← same] at isPath
          rcases @log_of_objectRequest client _ start path _ raw accepted isPath (fun _ => do
              let asset ← Session.ofExcept (schemaAsset mapping.name address.segments.tail)
              pure (some (asset, (none : Option Json)))) (by
                intro body later
                cases schemaAsset mapping.name address.segments.tail <;> rfl) middle with
            ⟨answer, isLater⟩
          refine ⟨answer, by rw [← same, isPath], ?_⟩
          rw [UpstreamClient.getAddressed, kind]
          exact isLater
      | table =>
          have same : UpstreamObject.table address.segments.tail.dropLast
              (address.segments.getLastD []) = found := by
            simpa [AssetAddress.object, kind] using isFound
          rw [← same] at isPath
          rcases @log_of_objectRequest client _ start path _ raw accepted isPath (fun body => do
              let asset ← Session.ofExcept (tableAsset mapping.name
                address.segments.tail.dropLast (address.segments.getLastD []))
              pure (some (asset, some body))) (by
                intro body later
                cases tableAsset mapping.name address.segments.tail.dropLast
                  (address.segments.getLastD []) <;> rfl) middle with
            ⟨answer, isLater⟩
          refine ⟨answer, by rw [← same, isPath], ?_⟩
          rw [UpstreamClient.getAddressed, kind]
          exact isLater

theorem listsExactly_of_read {id : JsString} {address : AssetAddress}
    (read : parseAssetId id = some address)
    (named : byName catalogs (address.segments.headD []) = some mapping) :
    ListsExactly client catalogs id mapping address := by
  constructor
  · intro isTable
    have notListable : UpstreamClient.listable catalogs id = none := by
      simp [UpstreamClient.listable, read, isTable]
    simp only [UpstreamClient.list, notListable]
    exact Session.asks_pure _
  · intro isOther
    have isListable := listable_eq_some_iff.mpr ⟨read, isOther, named⟩
    simp only [UpstreamClient.list, isListable]
    exact asks_listChildren client mapping address

/-- An asset with a derived id can be asked for exactly where its names are carried. -/
theorem addressable_iff {asset : DataAsset} {address : AssetAddress}
    (isAddress : asset.address = some address)
    (derived : asset.id = deriveAssetId address.kind.assetKind address.segments)
    (admitted : address.kind.Admits address.segments.length)
    (named : byName catalogs (address.segments.headD []) = some mapping)
    {log middle : List Exchange}
    {start : JsString} (configured : client.prefixFor mapping log = (.ok start, middle)) :
    Addressable client catalogs asset ↔ Carried address := by
  constructor
  · intro addressable
    rcases addressable with ⟨other, otherMapping, isOther, read, isNamed, gets, _⟩
    rw [isAddress] at isOther
    cases isOther
    rw [named] at isNamed
    cases isNamed
    have isRead := read
    rw [derived] at isRead
    rcases (parse_derived_iff admitted).mp isRead with ⟨safe, oneLine, short⟩
    exact ⟨safe, oneLine, short, (object_path_isOk_iff admitted safe).mp
      ((getsExactly_iff read named configured).mp gets)⟩
  · intro carried
    have read : parseAssetId asset.id = some address := by
      rw [derived]
      exact (parse_derived_iff admitted).mpr ⟨carried.safe, carried.oneLine, carried.short⟩
    exact ⟨address, mapping, isAddress, read, named, (getsExactly_iff read named configured).mpr
      ((object_path_isOk_iff admitted carried.safe).mpr carried.paired),
      listsExactly_of_read read named⟩

/-! ## Listings -/

/-- Every listed asset can be asked for and has what was listed as its parent, and no two
listed catalogs share an id. -/
structure ListedAddressable (client : UpstreamClient) (catalogs : List CatalogMapping)
    (parentId : Option JsString) (result : DataAssetListResult) : Prop where
  addressable : ∀ asset ∈ result.assets, Addressable client catalogs asset
  parent : ∀ asset ∈ result.assets, asset.parentId = parentId
  distinct : parentId = none → (result.assets.map DataAsset.id).Nodup

/-- The names of the configured catalogs are carried and distinct. -/
def CatalogsCarried (catalogs : List CatalogMapping) : Prop :=
  (∀ mapping ∈ catalogs, Carried ⟨.catalog, [mapping.name]⟩) ∧
    (catalogs.map CatalogMapping.name).Nodup

/-- The pages show nothing, or the id is spelled the way ids are derived and the names on
the pages are carried. -/
def ChildrenCarried (id catalog : JsString) (ns : List JsString)
    (namespacePages : List (Page (List JsString))) (tablePages : List (Page TableIdentifier)) :
    Prop :=
  let children := (namespacePages.flatMap Page.items).filter (·.all isSafeUpstreamSegment)
  let tables := (tablePages.flatMap Page.items).filter fun table => isSafeUpstreamSegment table.name
  (children = [] ∧ tables = []) ∨
    WellEscaped id ∧ (∀ child ∈ children, Carried ⟨.schema, catalog :: child⟩) ∧
      ∀ table ∈ tables, Carried ⟨.table, catalog :: (ns ++ [table.name])⟩

theorem catalogId_injective : Function.Injective catalogId := by
  intro name other same
  have escaped : encodeIdSegment name = encodeIdSegment other := by
    simpa [catalogId, deriveAssetId] using same
  rw [← decodeIdSegment_encodeIdSegment name, escaped, decodeIdSegment_encodeIdSegment]

theorem exists_byName {listed : CatalogMapping} (member : listed ∈ catalogs) :
    ∃ found, byName catalogs listed.name = some found := by
  rw [← Option.isSome_iff_exists, byName, List.find?_isSome]
  exact ⟨listed, List.mem_reverse.mpr member, by simp⟩

theorem exists_configured {log later : List Exchange}
    (returned : client.prefixForEach catalogs log = (.ok (), later)) :
    ∀ mapping ∈ catalogs, ∃ before start middle,
      client.prefixFor mapping before = (.ok start, middle) := by
  induction catalogs generalizing log with
  | nil => exact List.forall_mem_nil _
  | cons first rest ih =>
      rcases Session.bind_eq_ok_iff.mp returned with ⟨start, middle, configured, others⟩
      rw [List.forall_mem_cons]
      exact ⟨⟨log, start, middle, configured⟩, ih others⟩

theorem listCatalogs_spec {result : DataAssetListResult} {log later : List Exchange}
    (returned : client.listCatalogs catalogs log = (.ok result, later)) :
    result.assets = catalogs.map (fun mapping => catalogNode mapping.name) ∧
      ∀ mapping ∈ catalogs, ∃ before start middle,
        client.prefixFor mapping before = (.ok start, middle) := by
  rw [UpstreamClient.listCatalogs] at returned
  rcases Session.bind_eq_ok_iff.mp returned with ⟨_, middle, configured, assembling⟩
  rcases Session.bind_eq_ok_iff.mp assembling with ⟨assets, _, parsed, done⟩
  rcases Session.ofExcept_eq_ok_iff.mp parsed with ⟨isAssets, rfl⟩
  rcases Session.pure_eq_ok_iff.mp done with ⟨rfl, rfl⟩
  have nodes := @mapM_parse_eq_ok_iff _ (fun mapping => catalogNode mapping.name) catalogs assets
  exact ⟨(nodes.mp isAssets).1, exists_configured configured⟩

theorem catalogs_addressable_iff {result : DataAssetListResult} {log later : List Exchange}
    (returned : client.listCatalogs catalogs log = (.ok result, later)) :
    ListedAddressable client catalogs none result ↔ CatalogsCarried catalogs := by
  rcases listCatalogs_spec returned with ⟨assets, configured⟩
  have each : ∀ mapping ∈ catalogs,
      (Addressable client catalogs (catalogNode mapping.name) ↔
        Carried ⟨.catalog, [mapping.name]⟩) := by
    intro mapping member
    rcases exists_byName member with ⟨found, named⟩
    have isListed : found ∈ catalogs := List.mem_reverse.mp (List.mem_of_find?_eq_some named)
    rcases configured found isListed with ⟨before, start, middle, isConfigured⟩
    exact @addressable_iff client catalogs found (catalogNode mapping.name)
      ⟨.catalog, [mapping.name]⟩ rfl rfl rfl named _ _ _ isConfigured
  have ids : result.assets.map DataAsset.id = (catalogs.map CatalogMapping.name).map catalogId := by
    rw [assets, List.map_map, List.map_map]
    rfl
  constructor
  · intro listed
    constructor
    · intro mapping member
      apply (each mapping member).mp
      apply listed.addressable
      rw [assets]
      exact List.mem_map_of_mem member
    · have distinct := listed.distinct rfl
      rw [ids] at distinct
      exact List.Nodup.of_map catalogId distinct
  · intro carried
    constructor
    · rw [assets]
      intro asset listed
      rcases List.mem_map.mp listed with ⟨mapping, member, rfl⟩
      exact (each mapping member).mpr (carried.1 mapping member)
    · rw [assets]
      intro asset listed
      rcases List.mem_map.mp listed with ⟨mapping, member, rfl⟩
      rfl
    · intro _
      rw [ids]
      exact carried.2.map catalogId_injective

/-- A child has one more name than its parent. -/
theorem dropLast_of_isChildOf {parent ns : List JsString} (isChild : isChildOf parent ns = true) :
    ns.length = parent.length + 1 ∧ ns.dropLast = parent := by
  rw [isChildOf, Bool.and_eq_true, decide_eq_true_eq, List.isPrefixOf_iff_prefix] at isChild
  rcases isChild with ⟨long, last, rfl⟩
  rw [List.length_append, Nat.add_left_cancel_iff] at long
  rcases List.length_eq_one_iff.mp long with ⟨name, rfl⟩
  exact ⟨by simp, List.dropLast_concat⟩

/-- The parent of a child is the asset it was listed below, under its derived id. -/
theorem parentId_schemaNode {parentId : JsString} {parent : AssetAddress}
    (isListable : UpstreamClient.listable catalogs parentId = some (parent, mapping))
    {child : List JsString} (isChild : isChildOf parent.segments.tail child = true) :
    (schemaNode mapping.name child).parentId =
      some (deriveAssetId parent.kind.assetKind parent.segments) := by
  rcases listable_eq_some_iff.mp isListable with ⟨read, notTable, named⟩
  rcases segments_of_parseAssetId read with ⟨split, _, admitted⟩
  rcases dropLast_of_isChildOf isChild with ⟨long, start⟩
  have whole : parent.segments = mapping.name :: parent.segments.tail := by
    rw [name_of_byName named]
    exact split
  have isParent : (schemaNode mapping.name child).parentId =
      some (if child.length = 1 then catalogId mapping.name
        else schemaId mapping.name child.dropLast) := rfl
  rw [isParent, long, start]
  cases kind : parent.kind with
  | catalog =>
      rw [kind] at admitted
      have one : parent.segments.length = 1 := admitted
      have none : parent.segments.tail = [] := by
        rw [whole, List.length_cons] at one
        exact List.length_eq_zero_iff.mp (by omega)
      rw [whole, none]
      rfl
  | schema =>
      rw [kind] at admitted
      have two : 2 ≤ parent.segments.length := admitted
      rw [whole, List.length_cons] at two
      rw [if_neg (by omega), whole]
      rfl
  | table => exact absurd kind notTable

theorem parentId_tableNode {parentId : JsString} {parent : AssetAddress}
    (isListable : UpstreamClient.listable catalogs parentId = some (parent, mapping))
    (isSchema : parent.kind = .schema) (table : JsString) :
    (tableNode mapping.name parent.segments.tail table).parentId =
      some (deriveAssetId parent.kind.assetKind parent.segments) := by
  rcases listable_eq_some_iff.mp isListable with ⟨read, _, named⟩
  have whole : parent.segments = mapping.name :: parent.segments.tail := by
    rw [name_of_byName named]
    exact (segments_of_parseAssetId read).1
  have isParent : (tableNode mapping.name parent.segments.tail table).parentId =
      some (schemaId mapping.name parent.segments.tail) := rfl
  rw [isParent, isSchema, schemaId, ← whole]
  rfl

theorem address_tableNode (catalog table : JsString) (ns : List JsString) :
    (tableNode catalog ns table).address = some ⟨.table, catalog :: (ns ++ [table])⟩ := by
  have named : (tableNode catalog ns table).tableName = table := by
    simp [DataAsset.tableName, tableNode]
  have spelled : (tableNode catalog ns table).address =
      some ⟨.table, (catalog :: ns) ++ [(tableNode catalog ns table).tableName]⟩ := rfl
  rw [spelled, named]
  rfl

section Children

variable {parentId : JsString} {parent : AssetAddress} {result : DataAssetListResult}
  {start : JsString} {namespaces tables : List Exchange}
  {namespacePages : List (Page (List JsString))} {tablePages : List (Page TableIdentifier)}

/-- Every item of the pages is a child of the parent. -/
theorem ListedFrom.isChildOf (listedFrom : ListedFrom client mapping parent start result namespaces
      namespacePages tables tablePages) {child : List JsString}
    (shown : child ∈ namespacePages.flatMap Page.items) :
    isChildOf parent.segments.tail child = true := by
  rcases List.mem_flatMap.mp shown with ⟨page, isPage, member⟩
  rcases listedFrom.asked.read_of_mem page isPage with ⟨body, read⟩
  exact List.all_eq_true.mp (Option.filter_eq_some_iff.mp read).2 child member

theorem ListedFrom.schema_mem (listedFrom : ListedFrom client mapping parent start result
      namespaces namespacePages tables tablePages) {child : List JsString}
    (shown : child ∈ (namespacePages.flatMap Page.items).filter (·.all isSafeUpstreamSegment)) :
    schemaNode mapping.name child ∈ result.assets := by
  rw [listedFrom.assets]
  exact List.mem_append_left _ (List.mem_map_of_mem shown)

theorem ListedFrom.table_mem (listedFrom : ListedFrom client mapping parent start result
      namespaces namespacePages tables tablePages) {table : TableIdentifier}
    (shown : table ∈ (tablePages.flatMap Page.items).filter
      fun table => isSafeUpstreamSegment table.name) :
    tableNode mapping.name parent.segments.tail table.name ∈ result.assets := by
  rw [listedFrom.assets]
  exact List.mem_append_right _ (List.mem_map_of_mem shown)

theorem children_addressable_iff
    (isListable : UpstreamClient.listable catalogs parentId = some (parent, mapping))
    (listedFrom : ListedFrom client mapping parent start result namespaces namespacePages tables
      tablePages) {log middle : List Exchange} {first : JsString}
    (configured : client.prefixFor mapping log = (.ok first, middle)) :
    ListedAddressable client catalogs (some parentId) result ↔
      ChildrenCarried parentId mapping.name parent.segments.tail namespacePages tablePages := by
  rcases listable_eq_some_iff.mp isListable with ⟨read, notTable, isNamed⟩
  have named : byName catalogs mapping.name = some mapping := by
    rw [name_of_byName isNamed]
    exact isNamed
  have derived : deriveAssetId parent.kind.assetKind parent.segments = parentId ↔
      WellEscaped parentId := deriveAssetId_of_parseAssetId read
  have ofChild : ∀ child ∈ (namespacePages.flatMap Page.items).filter (·.all isSafeUpstreamSegment),
      (Addressable client catalogs (schemaNode mapping.name child) ↔
        Carried ⟨.schema, mapping.name :: child⟩) ∧
      ((schemaNode mapping.name child).parentId = some parentId ↔ WellEscaped parentId) := by
    intro child listed
    have isChild := listedFrom.isChildOf (List.mem_filter.mp listed).1
    have long := (dropLast_of_isChildOf isChild).1
    have admitted : AddressKind.schema.Admits (mapping.name :: child).length :=
      show 2 ≤ (mapping.name :: child).length by
        rw [List.length_cons]
        omega
    rw [parentId_schemaNode isListable isChild, Option.some.injEq]
    exact ⟨@addressable_iff client catalogs mapping (schemaNode mapping.name child)
      ⟨.schema, mapping.name :: child⟩ rfl rfl admitted named _ _ _ configured, derived⟩
  have ofTable : ∀ table ∈ (tablePages.flatMap Page.items).filter
        (fun table => isSafeUpstreamSegment table.name),
      (Addressable client catalogs (tableNode mapping.name parent.segments.tail table.name) ↔
        Carried ⟨.table, mapping.name :: (parent.segments.tail ++ [table.name])⟩) ∧
      ((tableNode mapping.name parent.segments.tail table.name).parentId = some parentId ↔
        WellEscaped parentId) := by
    intro table listed
    have isSchema : parent.kind = .schema := by
      by_contra isOther
      rw [(listedFrom.noTables isOther).2] at listed
      exact absurd listed List.not_mem_nil
    have two := (segments_of_parseAssetId read).2.2
    rw [isSchema, (segments_of_parseAssetId read).1] at two
    have admitted : AddressKind.table.Admits
        (mapping.name :: (parent.segments.tail ++ [table.name])).length :=
      show 3 ≤ (mapping.name :: (parent.segments.tail ++ [table.name])).length by
        have enough : 2 ≤ (parent.segments.headD [] :: parent.segments.tail).length := two
        simp at enough ⊢
        omega
    rw [parentId_tableNode isListable isSchema, Option.some.injEq]
    exact ⟨@addressable_iff client catalogs mapping _
      ⟨.table, mapping.name :: (parent.segments.tail ++ [table.name])⟩ (address_tableNode _ _ _) rfl
      admitted named _ _ _ configured, derived⟩
  constructor
  · intro listed
    have isShown := listed.addressable
    have isParent := listed.parent
    rw [listedFrom.assets, List.forall_mem_append] at isShown isParent
    have carriedChild := fun child member =>
      (ofChild child member).1.mp (isShown.1 _ (List.mem_map_of_mem member))
    have carriedTable := fun table member =>
      (ofTable table member).1.mp (isShown.2 _ (List.mem_map_of_mem member))
    by_cases empty : (namespacePages.flatMap Page.items).filter (·.all isSafeUpstreamSegment) = [] ∧
        (tablePages.flatMap Page.items).filter (fun table => isSafeUpstreamSegment table.name) = []
    · exact Or.inl empty
    · right
      refine ⟨?_, carriedChild, carriedTable⟩
      rcases not_and_or.mp empty with someChild | someTable
      · rcases List.exists_mem_of_ne_nil _ someChild with ⟨child, member⟩
        exact (ofChild child member).2.mp (isParent.1 _ (List.mem_map_of_mem member))
      · rcases List.exists_mem_of_ne_nil _ someTable with ⟨table, member⟩
        exact (ofTable table member).2.mp (isParent.2 _ (List.mem_map_of_mem member))
  · intro carried
    rcases carried with empty | carried
    · have nothing : result.assets = [] := by
        rw [listedFrom.assets, empty.1, empty.2]
        rfl
      constructor
      · rw [nothing]
        exact List.forall_mem_nil _
      · rw [nothing]
        exact List.forall_mem_nil _
      · exact nofun
    · rcases carried with ⟨escaped, carriedChild, carriedTable⟩
      constructor
      · rw [listedFrom.assets, List.forall_mem_append, List.forall_mem_map, List.forall_mem_map]
        exact ⟨fun child member => (ofChild child member).1.mpr (carriedChild child member),
          fun table member => (ofTable table member).1.mpr (carriedTable table member)⟩
      · rw [listedFrom.assets, List.forall_mem_append, List.forall_mem_map, List.forall_mem_map]
        exact ⟨fun child member => (ofChild child member).2.mpr escaped,
          fun table member => (ofTable table member).2.mpr escaped⟩
      · exact nofun

end Children

/-- What decides whether everything a call lists can be asked for by its id: for the
catalogs, whether their names are carried and distinct; for the children of an asset, whether
the pages of the service show nothing, or its id is spelled the way ids are derived and the
names on the pages are carried. -/
def AddressableExactly (client : UpstreamClient) (mappings : List CatalogMapping)
    (parentId : Option JsString) (result : DataAssetListResult) (log later : List Exchange) :
    Prop :=
  match parentId with
  | none => ListedAddressable client mappings none result ↔ CatalogsCarried mappings
  | some id =>
      match UpstreamClient.listable mappings id with
      | none => ListedAddressable client mappings (some id) result
      | some (parent, mapping) =>
          ∃ config start namespaces namespacePages tables tablePages,
            later = log ++ config :: (namespaces ++ tables) ∧
            ListedFrom client mapping parent start result namespaces namespacePages tables
              tablePages ∧
            (ListedAddressable client mappings (some id) result ↔
              ChildrenCarried id mapping.name parent.segments.tail namespacePages tablePages)

theorem listed_addressable_iff (client : UpstreamClient) (raw : Option JsString)
    (parentId : Option JsString) {result : DataAssetListResult} {log later : List Exchange}
    (returned : client.list (parseWarehouses raw) parentId log = (.ok result, later)) :
    AddressableExactly client (parseWarehouses raw) parentId result log later := by
  unfold AddressableExactly
  cases parentId with
  | none => exact catalogs_addressable_iff returned
  | some id =>
      cases isListable : UpstreamClient.listable (parseWarehouses raw) id with
      | none =>
          simp only [UpstreamClient.list, isListable] at returned
          rcases Session.pure_eq_ok_iff.mp returned with ⟨rfl, _⟩
          simp only [isListable]
          refine ⟨List.forall_mem_nil _, List.forall_mem_nil _, ?_⟩
          intro isNone
          cases isNone
      | some found =>
          simp only [UpstreamClient.list, isListable] at returned
          rcases listChildren_spec returned with
            ⟨config, start, namespaces, namespacePages, tables, tablePages, isLater, listedFrom⟩
          rcases Session.bind_eq_ok_iff.mp returned with ⟨first, middle, configured, _⟩
          simp only [isListable]
          exact ⟨config, start, namespaces, namespacePages, tables, tablePages, isLater, listedFrom,
            children_addressable_iff isListable listedFrom configured⟩

def salesTables : Json :=
  .object [(ofString "identifiers", .array [.object
    [(ofString "namespace", .array [.string (ofString "sales")]),
      (ofString "name", .string (ofString "orders"))]])]

/-- A service with one namespace, and one table in it. -/
def salesService : UpstreamClient where
  base := ofString "/catalog"
  answer _ request :=
    if request.path = ofString "/catalog/v1/config" then .ok (.object [])
    else if request.path = ofString "/catalog/v1/namespaces" then
      if request.query.any (fun entry => entry.1 = ofString "parent") then
        .ok (.object [(ofString "namespaces", .array [])])
      else
        .ok (.object [(ofString "namespaces", .array [.array [.string (ofString "sales")]])])
    else .ok salesTables

def oneWarehouse : Option JsString := some (ofString "c=w")

theorem parse_oneWarehouse : parseWarehouses oneWarehouse = [⟨ofString "c", ofString "w"⟩] := by
  decide +kernel

/-- The configured catalog, its namespace and its table can be asked for. -/
theorem listed_addressable_iff_sales :
    ListedAddressable salesService (parseWarehouses oneWarehouse) none
        ⟨[catalogNode (ofString "c")], [NODE_AUTHZ_WARNING]⟩ ∧
      ListedAddressable salesService (parseWarehouses oneWarehouse)
        (some (ofString "asset-catalog-c"))
        ⟨[schemaNode (ofString "c") [ofString "sales"]], [NODE_AUTHZ_WARNING]⟩ ∧
      ListedAddressable salesService (parseWarehouses oneWarehouse)
        (some (ofString "asset-schema-c.sales"))
        ⟨[tableNode (ofString "c") [ofString "sales"] (ofString "orders")],
          [NODE_AUTHZ_WARNING]⟩ := by
  refine ⟨?_, ?_, ?_⟩
  · have shown : (salesService.list (parseWarehouses oneWarehouse) none []).1 =
        .ok ⟨[catalogNode (ofString "c")], [NODE_AUTHZ_WARNING]⟩ := by
      decide +kernel
    have exact_iff :=
      listed_addressable_iff salesService oneWarehouse none (Session.eq_of_fst_eq shown)
    apply exact_iff.mpr
    rw [parse_oneWarehouse]
    constructor
    · rw [List.forall_mem_singleton]
      exact ⟨by decide, by decide, by decide, by decide⟩
    · decide
  · have shown : (salesService.list (parseWarehouses oneWarehouse)
        (some (ofString "asset-catalog-c")) []).1 =
          .ok ⟨[schemaNode (ofString "c") [ofString "sales"]], [NODE_AUTHZ_WARNING]⟩ := by
      decide +kernel
    have listable : UpstreamClient.listable (parseWarehouses oneWarehouse)
        (ofString "asset-catalog-c") =
          some (⟨.catalog, [ofString "c"]⟩, ⟨ofString "c", ofString "w"⟩) := by
      decide +kernel
    have exact_iff := listed_addressable_iff salesService oneWarehouse
      (some (ofString "asset-catalog-c")) (Session.eq_of_fst_eq shown)
    simp only [AddressableExactly, listable] at exact_iff
    rcases exact_iff with ⟨_, _, _, _, _, _, _, listedFrom, addressable⟩
    refine addressable.mpr (Or.inr ⟨by decide, ?_, ?_⟩)
    · intro child listed
      have same := List.mem_singleton.mp (listedFrom.schema_mem listed)
      rw [Option.some.inj (congrArg DataAsset.nameSpace same)]
      exact ⟨by decide, by decide, by decide, by decide⟩
    · intro table listed
      have same := List.mem_singleton.mp (listedFrom.table_mem listed)
      have kinds : DataAssetKind.table = .schema := congrArg DataAsset.kind same
      cases kinds
  · have shown : (salesService.list (parseWarehouses oneWarehouse)
        (some (ofString "asset-schema-c.sales")) []).1 =
          .ok ⟨[tableNode (ofString "c") [ofString "sales"] (ofString "orders")],
            [NODE_AUTHZ_WARNING]⟩ := by
      decide +kernel
    have listable : UpstreamClient.listable (parseWarehouses oneWarehouse)
        (ofString "asset-schema-c.sales") =
          some (⟨.schema, [ofString "c", ofString "sales"]⟩, ⟨ofString "c", ofString "w"⟩) := by
      decide +kernel
    have exact_iff := listed_addressable_iff salesService oneWarehouse
      (some (ofString "asset-schema-c.sales")) (Session.eq_of_fst_eq shown)
    simp only [AddressableExactly, listable] at exact_iff
    rcases exact_iff with ⟨_, _, _, _, _, _, _, listedFrom, addressable⟩
    refine addressable.mpr (Or.inr ⟨by decide, ?_, ?_⟩)
    · intro child listed
      have same := List.mem_singleton.mp (listedFrom.schema_mem listed)
      have kinds : DataAssetKind.schema = .table := congrArg DataAsset.kind same
      cases kinds
    · intro table listed
      have same := List.mem_singleton.mp (listedFrom.table_mem listed)
      have sameName := List.append_cancel_left (congrArg DataAsset.name same)
      rw [(List.cons.inj sameName).2]
      exact ⟨by decide, by decide, by decide, by decide⟩

/-- A service with one namespace, the name of which is a line separator. -/
def lineSeparated : UpstreamClient where
  base := []
  answer _ request :=
    if request.path = ofString "/v1/config" then .ok (.object [])
    else .ok (.object [(ofString "namespaces", .array [.array [.string [0x2028]]])])

/-- Two catalogs of one name share an id, and the line separator is shown under an id that is
not read. -/
theorem listed_without_address :
    (∃ result later, twoPages.list (parseWarehouses (some (ofString "c=w,c=v"))) none [] =
        (.ok result, later) ∧
      ¬ListedAddressable twoPages (parseWarehouses (some (ofString "c=w,c=v"))) none result) ∧
    ∃ result later, lineSeparated.list (parseWarehouses (some (ofString "c")))
        (some (ofString "asset-catalog-c")) [] = (.ok result, later) ∧
      ¬ListedAddressable lineSeparated (parseWarehouses (some (ofString "c")))
        (some (ofString "asset-catalog-c")) result := by
  constructor
  · have shown : (twoPages.list (parseWarehouses (some (ofString "c=w,c=v"))) none []).1 =
        .ok ⟨[catalogNode (ofString "c"), catalogNode (ofString "c")], [NODE_AUTHZ_WARNING]⟩ := by
      decide +kernel
    refine ⟨_, _, Session.eq_of_fst_eq shown, ?_⟩
    intro listed
    exact absurd (listed.distinct rfl) (by decide)
  · have shown : (lineSeparated.list (parseWarehouses (some (ofString "c")))
        (some (ofString "asset-catalog-c")) []).1 =
          .ok ⟨[schemaNode (ofString "c") [[0x2028]]], [NODE_AUTHZ_WARNING]⟩ := by
      decide +kernel
    refine ⟨_, _, Session.eq_of_fst_eq shown, ?_⟩
    intro listed
    rcases listed.addressable _ List.mem_cons_self with ⟨address, _, _, read, _⟩
    have notRead : parseAssetId (schemaNode (ofString "c") [[0x2028]]).id = none := by
      decide +kernel
    rw [notRead] at read
    cases read

end BelugaManager.DomainApi
