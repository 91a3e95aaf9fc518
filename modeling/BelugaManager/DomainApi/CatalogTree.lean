import BelugaManager.DomainApi.LakekeeperAddresses
import BelugaManager.Foundation.Machine

/-!
# The tree of a catalog

A client starts from the catalogs and lists what is below an asset once it has been shown that
asset.  Whatever the service answers, what it is shown is a forest.
-/

namespace BelugaManager.DomainApi

open Foundation Foundation.JsString

/-- A place: a catalog, the namespaces below it, and the table if it is that of a table. -/
structure TreePlace where
  catalog : JsString
  ns : List JsString
  table : Option JsString

namespace TreePlace

/-- Tables are in namespaces. -/
def Standing (place : TreePlace) : Prop := place.table.isSome = true → place.ns ≠ []

def names (place : TreePlace) : List JsString := place.catalog :: (place.ns ++ place.table.toList)

def kind (place : TreePlace) : AddressKind :=
  match place.table with
  | some _ => .table
  | none => if place.ns = [] then .catalog else .schema

def address (place : TreePlace) : AssetAddress := ⟨place.kind, place.names⟩

/-- The asset at a place. -/
def node (place : TreePlace) : DataAsset :=
  match place.table with
  | some table => tableNode place.catalog place.ns table
  | none => if place.ns = [] then catalogNode place.catalog else schemaNode place.catalog place.ns

/-- What is one level below a place. -/
inductive Child : TreePlace → TreePlace → Prop where
  | schema (catalog : JsString) (ns : List JsString) (name : JsString) :
      Child ⟨catalog, ns, none⟩ ⟨catalog, ns ++ [name], none⟩
  | table (catalog : JsString) {ns : List JsString} (nonempty : ns ≠ []) (name : JsString) :
      Child ⟨catalog, ns, none⟩ ⟨catalog, ns, some name⟩

variable {place other : TreePlace}

theorem node_schema (catalog : JsString) {ns : List JsString} (nonempty : ns ≠ []) :
    (⟨catalog, ns, none⟩ : TreePlace).node = schemaNode catalog ns := if_neg nonempty

theorem kind_schema (catalog : JsString) {ns : List JsString} (nonempty : ns ≠ []) :
    (⟨catalog, ns, none⟩ : TreePlace).kind = .schema := if_neg nonempty

theorem node_address (place : TreePlace) : place.node.address = some place.address := by
  rcases place with ⟨catalog, ns, table⟩
  cases table with
  | some table => exact address_tableNode catalog table ns
  | none =>
      by_cases empty : ns = []
      · cases empty
        rfl
      · rw [node_schema catalog empty, address, kind_schema catalog empty, names,
          Option.toList_none, List.append_nil]
        rfl

theorem node_id (place : TreePlace) :
    place.node.id = deriveAssetId place.kind.assetKind place.names := by
  rcases place with ⟨catalog, ns, table⟩
  cases table with
  | some table => rfl
  | none =>
      by_cases empty : ns = []
      · cases empty
        rfl
      · rw [node_schema catalog empty, kind_schema catalog empty, names, Option.toList_none,
          List.append_nil]
        rfl

theorem Standing.admits (standing : place.Standing) : place.kind.Admits place.names.length := by
  rcases place with ⟨catalog, ns, table⟩
  cases table with
  | some table =>
      have nonempty : 0 < ns.length := List.length_pos_iff.mpr (standing rfl)
      simp only [kind, names, AddressKind.Admits, List.length_cons, List.length_append,
        Option.toList_some]
      omega
  | none =>
      by_cases empty : ns = []
      · cases empty
        rfl
      · have nonempty : 0 < ns.length := List.length_pos_iff.mpr empty
        simp only [kind_schema catalog empty, names, AddressKind.Admits, List.length_cons,
          Option.toList_none, List.append_nil]
        omega

theorem Child.standing (below : Child place other) : other.Standing := by
  cases below with
  | schema => exact fun isTable => absurd isTable Bool.false_ne_true
  | table _ nonempty => exact fun _ => nonempty

theorem Child.names_eq (below : Child place other) :
    ∃ name, other.names = place.names ++ [name] := by
  cases below with
  | schema _ _ name => exact ⟨name, by simp [names]⟩
  | table _ _ name => exact ⟨name, by simp [names]⟩

/-- What is below a place names it as its parent and goes on from its path. -/
theorem Child.node_eq (below : Child place other) :
    other.node.parentId = some place.node.id ∧ other.node.path = some place.names ∧
      place.node.kind ≠ .table := by
  cases below with
  | schema catalog ns name =>
      rw [node_schema catalog (List.append_ne_nil_of_right_ne_nil ns (List.cons_ne_nil name []))]
      by_cases empty : ns = []
      · cases empty
        exact ⟨rfl, rfl, DataAssetKind.noConfusion⟩
      · have long : (ns ++ [name]).length ≠ 1 := by
          have nonempty : 0 < ns.length := List.length_pos_iff.mpr empty
          rw [List.length_append, List.length_singleton]
          omega
        rw [node_schema catalog empty, schemaNode, if_neg long, List.dropLast_concat, names,
          Option.toList_none, List.append_nil]
        exact ⟨rfl, rfl, by simp [schemaNode]⟩
  | table catalog nonempty name =>
      rw [node_schema catalog nonempty, names, Option.toList_none, List.append_nil]
      exact ⟨rfl, rfl, by simp [schemaNode]⟩

/-- A place is told by its kind and its names. -/
theorem eq_of_address (same : place.address = other.address) : place = other := by
  rcases place with ⟨catalog, ns, table⟩
  rcases other with ⟨otherCatalog, otherNs, otherTable⟩
  rw [address, address, AssetAddress.mk.injEq] at same
  rcases same with ⟨kinds, allNames⟩
  rw [names, names, List.cons.injEq] at allNames
  rcases allNames with ⟨catalogs, rest⟩
  have sameCatalog : catalog = otherCatalog := catalogs
  cases table with
  | some table =>
      cases otherTable with
      | some otherTable =>
          rcases List.append_inj' rest rfl with ⟨namespaces, tables⟩
          have sameNs : ns = otherNs := namespaces
          rw [sameCatalog, sameNs, List.singleton_inj.mp tables]
      | none =>
          rw [kind, kind] at kinds
          simp only at kinds
          split_ifs at kinds
  | none =>
      cases otherTable with
      | some otherTable =>
          rw [kind, kind] at kinds
          simp only at kinds
          split_ifs at kinds
      | none =>
          simp only [Option.toList_none, List.append_nil] at rest
          rw [sameCatalog, rest]

/-- The names of a place can be told from its id. -/
theorem split_derived {segments : List JsString} (nonempty : segments ≠ []) :
    (split dot (join dot (segments.map encodeIdSegment))).map decodeIdSegment = segments := by
  have pieces : split dot (join dot (segments.map encodeIdSegment)) =
      segments.map encodeIdSegment := by
    apply split_join (by simpa using nonempty)
    intro piece listed
    rcases List.mem_map.mp listed with ⟨segment, _, rfl⟩
    exact dot_notMem_encodeIdSegment segment
  rw [pieces, List.map_map]
  exact List.map_id'' decodeIdSegment_encodeIdSegment segments

theorem names_ne_nil (place : TreePlace) : place.names ≠ [] := List.cons_ne_nil _ _

theorem eq_of_id (same : place.node.id = other.node.id) : place = other := by
  rw [node_id, node_id, deriveAssetId, deriveAssetId] at same
  rcases idPrefix_append_inj same with ⟨kinds, raws⟩
  have allNames : place.names = other.names := by
    rw [← split_derived place.names_ne_nil, raws, split_derived other.names_ne_nil]
  apply eq_of_address
  rw [address, address, kinds, allNames]

/-- The id of a place is read as that place or not at all. -/
theorem parse_node {found : AssetAddress} (read : parseAssetId place.node.id = some found) :
    found = place.address := by
  rcases parseAssetId_eq_some_iff.mp read with ⟨_, raw, same, _, _, _, segments, _, _⟩
  rw [node_id, deriveAssetId] at same
  rcases idPrefix_append_inj same with ⟨kinds, raws⟩
  rw [← raws, split_derived place.names_ne_nil] at segments
  rw [address, kinds, ← segments]

end TreePlace

open TreePlace

section Listed

variable {client : UpstreamClient} {catalogs : List CatalogMapping} {place : TreePlace}
  {mapping : CatalogMapping} {result : DataAssetListResult} {log later : List Exchange}

/-- Where the children of a place can be listed, it is not that of a table. -/
theorem listable_node {found : AssetAddress}
    (isListable : UpstreamClient.listable catalogs place.node.id = some (found, mapping)) :
    found = place.address ∧ place.table = none ∧ byName catalogs place.catalog = some mapping := by
  rcases listable_eq_some_iff.mp isListable with ⟨read, notTable, named⟩
  have isPlace := parse_node read
  cases isPlace
  refine ⟨rfl, ?_, named⟩
  rcases place with ⟨catalog, ns, table⟩
  cases table with
  | none => rfl
  | some table => exact absurd rfl notTable

theorem eq_append_of_isChildOf {ns child : List JsString} (isChild : isChildOf ns child = true) :
    ∃ name, child = ns ++ [name] := by
  rcases dropLast_of_isChildOf isChild with ⟨long, start⟩
  have nonempty : child ≠ [] := by
    rintro rfl
    exact absurd long (by simp)
  exact ⟨child.getLast nonempty, by rw [← start, List.dropLast_append_getLast nonempty]⟩

/-- Whatever the service answers, a listing below a shown asset shows what is one level below it. -/
theorem listed_below
    (returned : client.list catalogs (some place.node.id) log = (.ok result, later)) :
    ∀ asset ∈ result.assets, ∃ below, Child place below ∧ asset = below.node := by
  cases isListable : UpstreamClient.listable catalogs place.node.id with
  | none =>
      rw [UpstreamClient.list, isListable] at returned
      rcases Session.pure_eq_ok_iff.mp returned with ⟨rfl, _⟩
      exact List.forall_mem_nil _
  | some found =>
      rcases found with ⟨address, mapping⟩
      rw [UpstreamClient.list, isListable] at returned
      rcases listable_node isListable with ⟨rfl, noTable, named⟩
      rcases listChildren_spec returned with
        ⟨_, start, namespaces, namespacePages, tables, tablePages, _, listedFrom⟩
      rcases place with ⟨catalog, ns, table⟩
      cases noTable
      have isCatalog : mapping.name = catalog := name_of_byName named
      have tail : (⟨catalog, ns, none⟩ : TreePlace).address.segments.tail = ns := by
        simp [address, names]
      have assets := listedFrom.assets
      rw [tail, isCatalog] at assets
      intro asset member
      rw [assets] at member
      rcases List.mem_append.mp member with isSchema | isTable
      · rcases List.mem_map.mp isSchema with ⟨child, listed, rfl⟩
        have isChild := listedFrom.isChildOf (List.mem_filter.mp listed).1
        rw [tail] at isChild
        rcases eq_append_of_isChildOf isChild with ⟨name, rfl⟩
        refine ⟨_, .schema catalog ns name, ?_⟩
        rw [node_schema catalog (List.append_ne_nil_of_right_ne_nil ns (List.cons_ne_nil name []))]
      · rcases List.mem_map.mp isTable with ⟨id, listed, rfl⟩
        have nonempty : ns ≠ [] := by
          rintro rfl
          have noPages := (listedFrom.noTables (by simp [address, kind])).2
          rw [noPages] at listed
          exact absurd listed List.not_mem_nil
        exact ⟨_, .table catalog nonempty id.name, rfl⟩

theorem listed_catalogs (returned : client.list catalogs none log = (.ok result, later)) :
    ∀ asset ∈ result.assets, ∃ mapping ∈ catalogs,
      asset = (⟨mapping.name, [], none⟩ : TreePlace).node := by
  intro asset member
  rw [(listCatalogs_spec returned).1] at member
  rcases List.mem_map.mp member with ⟨mapping, isMapping, rfl⟩
  exact ⟨mapping, isMapping, rfl⟩

end Listed

/-! ## Explorations -/

/-- What a client was shown: each asset with the parent that was asked for. -/
structure Exploration where
  log : List Exchange
  shown : List (Option JsString × DataAsset)

/-- A request for one page of the assets below a parent, or of the catalogs. -/
structure TreeVisit where
  parentId : Option JsString
  query : DataAssetListQuery

/-- A client asks for pages as the route allows them, of the catalogs and below shown assets. -/
structure Guided (exploration : Exploration) (visit : TreeVisit) : Prop where
  page : 1 ≤ visit.query.page
  pageSize : 1 ≤ visit.query.pageSize ∧ visit.query.pageSize ≤ 100
  parent : ∀ id, visit.parentId = some id → ∃ entry ∈ exploration.shown, entry.2.id = id

namespace Exploration

variable (client : UpstreamClient) (catalogs : List CatalogMapping)

def step (exploration : Exploration) (visit : TreeVisit) : Option Exploration :=
  match client.list catalogs visit.parentId exploration.log with
  | (.ok result, later) => some {
      log := later
      shown := exploration.shown ++
        (listRoute result visit.query).data.map (visit.parentId, ·) }
  | (.error _, later) => some { exploration with log := later }

def machine : Machine Exploration TreeVisit where
  init := ⟨[], []⟩
  step := step client catalogs

end Exploration

/-- Where a shown asset stands: it is a catalog, or one level below an asset that is shown. -/
inductive Placed (catalogs : List CatalogMapping) (shown : List (Option JsString × DataAsset)) :
    Option JsString × DataAsset → Prop where
  | root {mapping : CatalogMapping} (member : mapping ∈ catalogs) :
      Placed catalogs shown (none, (⟨mapping.name, [], none⟩ : TreePlace).node)
  | below {above : Option JsString} {place child : TreePlace}
      (entry : (above, place.node) ∈ shown) (isBelow : Child place child) :
      Placed catalogs shown (some place.node.id, child.node)

section Exploration

variable {client : UpstreamClient} {catalogs : List CatalogMapping}
  {shown more : List (Option JsString × DataAsset)} {exploration next : Exploration}

theorem Placed.mono {entry : Option JsString × DataAsset} (placed : Placed catalogs shown entry)
    (kept : ∀ other ∈ shown, other ∈ more) : Placed catalogs more entry := by
  cases placed with
  | root member => exact .root member
  | below entry isBelow => exact .below (kept _ entry) isBelow

theorem mem_assets_of_listRoute {result : DataAssetListResult} {query : DataAssetListQuery}
    {asset : DataAsset} (member : asset ∈ (listRoute result query).data) :
    asset ∈ result.assets := by
  have inFiltered := List.mem_of_mem_drop (List.mem_of_mem_take member)
  exact (List.mem_filter.mp inFiltered).1

/-- Every asset that is shown is placed. -/
def Grounded (catalogs : List CatalogMapping) (exploration : Exploration) : Prop :=
  ∀ entry ∈ exploration.shown, Placed catalogs exploration.shown entry

theorem Placed.exists_place {entry : Option JsString × DataAsset}
    (placed : Placed catalogs shown entry) : ∃ place : TreePlace, entry.2 = place.node := by
  cases placed with
  | root => exact ⟨⟨_, [], none⟩, rfl⟩
  | below => exact ⟨_, rfl⟩

/-- A visit adds what it lists, and keeps what was shown. -/
theorem step_shown {visit : TreeVisit}
    (stepped : Exploration.step client catalogs exploration visit = some next) :
    (∀ entry ∈ exploration.shown, entry ∈ next.shown) ∧
      ∀ entry ∈ next.shown, entry ∈ exploration.shown ∨ ∃ result later,
        client.list catalogs visit.parentId exploration.log = (.ok result, later) ∧
          entry.1 = visit.parentId ∧ entry.2 ∈ result.assets := by
  rw [Exploration.step] at stepped
  rcases returned : client.list catalogs visit.parentId exploration.log with ⟨outcome, later⟩
  rw [returned] at stepped
  cases outcome with
  | error failure =>
      cases stepped
      exact ⟨fun _ member => member, fun _ member => .inl member⟩
  | ok result =>
      cases stepped
      refine ⟨fun _ member => List.mem_append_left _ member, ?_⟩
      intro entry member
      rcases List.mem_append.mp member with old | new
      · exact .inl old
      · rcases List.mem_map.mp new with ⟨asset, inPage, rfl⟩
        exact .inr ⟨result, later, rfl, rfl, mem_assets_of_listRoute inPage⟩

theorem Grounded.step (grounded : Grounded catalogs exploration) {visit : TreeVisit}
    (guided : Guided exploration visit)
    (stepped : Exploration.step client catalogs exploration visit = some next) :
    Grounded catalogs next := by
  rcases step_shown stepped with ⟨kept, shows⟩
  intro entry member
  rcases shows entry member with old | ⟨result, later, returned, isParent, listed⟩
  · exact (grounded entry old).mono kept
  · rcases entry with ⟨parentId, asset⟩
    cases parent : visit.parentId with
    | none =>
        rw [parent] at returned isParent
        rcases listed_catalogs returned asset listed with ⟨mapping, isMapping, same⟩
        cases isParent
        cases same
        exact .root isMapping
    | some id =>
        rcases guided.parent id parent with ⟨⟨above, node⟩, isShown, isId⟩
        rcases (grounded _ isShown).exists_place with ⟨place, isNode⟩
        cases isNode
        cases isId
        rw [parent] at returned isParent
        rcases listed_below returned asset listed with ⟨child, isBelow, same⟩
        cases isParent
        cases same
        exact .below (kept _ isShown) isBelow

theorem grounded_of_reachable
    (reached : (Exploration.machine client catalogs).Reachable Guided exploration) :
    Grounded catalogs exploration :=
  reached.invariant (Grounded catalogs) (fun _ member => absurd member List.not_mem_nil)
    (fun _ _ _ grounded guided stepped => grounded.step guided stepped)

/-! ### The forest -/

/-- The names of an asset, from its catalog to itself. -/
def DataAsset.names (asset : DataAsset) : List JsString :=
  (asset.address.map (·.segments)).getD []

theorem names_node (place : TreePlace) : place.node.names = place.names := by
  rw [DataAsset.names, node_address]
  rfl

/-- What was shown is a forest: each asset hangs below the asset that it names as its parent, one
name longer, up to a configured catalog, and no id stands for two assets or in two places. -/
structure IsForest (catalogs : List CatalogMapping) (shown : List (Option JsString × DataAsset)) :
    Prop where
  parent : ∀ entry ∈ shown, entry.2.parentId = entry.1
  root : ∀ entry ∈ shown, entry.1 = none → ∃ mapping ∈ catalogs, entry.2 = catalogNode mapping.name
  below : ∀ entry ∈ shown, ∀ id, entry.1 = some id → ∃ above ∈ shown, above.2.id = id ∧
    above.2.kind ≠ .table ∧ entry.2.path = some above.2.names ∧
    ∃ name, entry.2.names = above.2.names ++ [name]
  ancestors : ∀ entry ∈ shown, ∀ start, start ≠ [] → start <+: entry.2.names →
    ∃ above ∈ shown, above.2.names = start
  unique : ∀ first ∈ shown, ∀ second ∈ shown, first.2.id = second.2.id → first = second

theorem Grounded.parent (grounded : Grounded catalogs exploration) :
    ∀ entry ∈ exploration.shown, entry.2.parentId = entry.1 := by
  intro entry member
  cases grounded entry member with
  | root => rfl
  | below _ isBelow => exact isBelow.node_eq.1

theorem Grounded.below (grounded : Grounded catalogs exploration) :
    ∀ entry ∈ exploration.shown, ∀ id, entry.1 = some id → ∃ above ∈ exploration.shown,
      above.2.id = id ∧ above.2.kind ≠ .table ∧ entry.2.path = some above.2.names ∧
      ∃ name, entry.2.names = above.2.names ++ [name] := by
  intro entry member id isId
  cases grounded entry member with
  | root => cases isId
  | below isShown isBelow =>
      cases isId
      rcases isBelow.node_eq with ⟨_, path, notTable⟩
      refine ⟨_, isShown, rfl, notTable, ?_, ?_⟩
      · rw [names_node]
        exact path
      · rw [names_node, names_node]
        exact isBelow.names_eq

/-- Going up one name at a time, every ancestor is met. -/
theorem Grounded.ancestors (grounded : Grounded catalogs exploration) (start : List JsString)
    (nonempty : start ≠ []) (rest : List JsString) :
    ∀ entry ∈ exploration.shown, entry.2.names = start ++ rest →
      ∃ above ∈ exploration.shown, above.2.names = start := by
  induction rest using List.reverseRecOn with
  | nil =>
      intro entry member same
      exact ⟨entry, member, by rw [same, List.append_nil]⟩
  | append_singleton rest last ih =>
      intro entry member same
      cases parent : entry.1 with
      | none =>
          cases grounded entry member with
          | root =>
              rw [names_node] at same
              have short := congrArg List.length same
              have positive : 0 < start.length := List.length_pos_iff.mpr nonempty
              simp [names] at short
              omega
          | below => cases parent
      | some id =>
          rcases grounded.below entry member id parent with ⟨above, isShown, _, _, _, name, longer⟩
          apply ih above isShown
          rw [longer, ← List.append_assoc] at same
          exact (List.append_inj' same rfl).1

theorem Grounded.unique (grounded : Grounded catalogs exploration) :
    ∀ first ∈ exploration.shown, ∀ second ∈ exploration.shown,
      first.2.id = second.2.id → first = second := by
  intro first member second other same
  rcases (grounded first member).exists_place with ⟨place, isPlace⟩
  rcases (grounded second other).exists_place with ⟨secondPlace, isSecond⟩
  rw [isPlace, isSecond] at same
  have assets : first.2 = second.2 := by rw [isPlace, isSecond, eq_of_id same]
  have parents : first.1 = second.1 := by
    rw [← grounded.parent first member, ← grounded.parent second other, assets]
  exact Prod.ext parents assets

/-- In every run of a client that explores the tree, whatever the service answers and whichever
pages are asked for, what was shown is a forest. -/
theorem explored_forest (client : UpstreamClient) (catalogs : List CatalogMapping)
    {exploration : Exploration}
    (reached : (Exploration.machine client catalogs).Reachable Guided exploration) :
    IsForest catalogs exploration.shown := by
  have grounded := grounded_of_reachable reached
  constructor
  · exact grounded.parent
  · intro entry member isRoot
    cases grounded entry member with
    | root isMapping => exact ⟨_, isMapping, rfl⟩
    | below => cases isRoot
  · exact grounded.below
  · intro entry member start nonempty isPrefix
    rcases isPrefix with ⟨rest, same⟩
    exact grounded.ancestors start nonempty rest entry member same.symm
  · exact grounded.unique

def oneCatalog : CatalogMapping := ⟨ofString "c", ofString "w"⟩

theorem explored_forest_sales : ∃ exploration,
    (Exploration.machine salesService [oneCatalog]).Reachable Guided exploration ∧
      exploration.shown.map (fun entry => entry.2.names) =
        [[ofString "c"], [ofString "c", ofString "sales"]] ∧
      IsForest [oneCatalog] exploration.shown := by
  have guidedRoot : Guided (Exploration.machine salesService [oneCatalog]).init
      ⟨none, ⟨1, 20, none, none⟩⟩ :=
    ⟨le_rfl, ⟨by decide, by decide⟩, fun _ same => absurd same.symm (Option.some_ne_none _)⟩
  have catalogsShown := @Machine.Reachable.step _ _ (Exploration.machine salesService [oneCatalog])
    Guided _ _ ⟨none, ⟨1, 20, none, none⟩⟩ .init guidedRoot rfl
  have schemasShown := @Machine.Reachable.step _ _ (Exploration.machine salesService [oneCatalog])
    Guided _ _ ⟨some (catalogId (ofString "c")), ⟨1, 20, none, none⟩⟩ catalogsShown
    ⟨le_rfl, ⟨by decide, by decide⟩,
      fun _ same => ⟨_, List.mem_cons_self, Option.some.inj same⟩⟩ rfl
  exact ⟨_, schemasShown, rfl, explored_forest salesService [oneCatalog] schemasShown⟩

end Exploration

end BelugaManager.DomainApi
