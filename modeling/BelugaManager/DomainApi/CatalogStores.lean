import BelugaManager.DomainApi.CatalogTree

/-!
# Exploring what a service stores

Where the service answers for each catalog from what it stores, a client that explores the tree can
come to everything that the ids and the paths of requests can carry, and to nothing else.
-/

namespace BelugaManager.DomainApi

open Foundation Foundation.JsString TreePlace

/-! ## A service that answers from a store -/

/-- What is stored below a catalog: the namespaces one level below a namespace, and its tables. -/
structure CatalogStore where
  namespaces : List JsString → List (List JsString)
  tables : List JsString → List TableIdentifier

/-- A namespace of a store; the catalog itself counts as one. -/
def CatalogStore.Holds (store : CatalogStore) (ns : List JsString) : Prop :=
  ns = [] ∨ ns ∈ store.namespaces ns.dropLast

/-- The pages that make up a collection, followed from a token. -/
inductive Chain {α : Type} (page : Option JsString → Page α) :
    Nat → Option JsString → List α → Prop where
  | last {rounds : Nat} {token : Option JsString} (ended : (page token).hasNext = false) :
      Chain page (rounds + 1) token (page token).items
  | more {rounds : Nat} {token : Option JsString} {items : List α}
      (continued : (page token).hasNext = true) (rest : Chain page rounds (page token).next items) :
      Chain page (rounds + 1) token ((page token).items ++ items)

/-- The service answers for a catalog from a store, in at most as many pages as are asked for. -/
structure Serves (client : UpstreamClient) (mapping : CatalogMapping) (start : JsString)
    (store : CatalogStore) : Prop where
  config : ∀ log, ∃ body config, client.answer log (configRequest client mapping) = .ok body ∧
    configSchema body = some config ∧ prefixSegment (configuredPrefix config) = .ok start
  namespaces : ∀ ns, store.Holds ns → ∃ page, Chain page MAX_PAGES none (store.namespaces ns) ∧
    ∀ log token, ∃ body,
      client.answer log
        ⟨client.expectedPath (namespacesPath start), listNamespacesQuery ns token⟩ = .ok body ∧
      readChildren ns body = some (page token)
  tables : ∀ ns path, ns ≠ [] → store.Holds ns → (UpstreamObject.tables ns).path = .ok path →
    ∃ page, Chain page MAX_PAGES none (store.tables ns) ∧ ∀ log token, ∃ body,
      client.answer log ⟨client.expectedPath (objectPath start path), listTablesQuery token⟩ =
        .ok body ∧
      listTablesSchema body = some (page token)

section Serves

variable {client : UpstreamClient} {mapping : CatalogMapping} {start : JsString}
  {store : CatalogStore}

/-- A loop over the pages of a collection returns what is kept of it. -/
theorem returns_chain {α : Type} {page : Option JsString → Page α} {keeps : α → Bool}
    {fetchPage : Option JsString → Session (Page α)}
    (fetches : ∀ token, (fetchPage token).Returns
      (· = ⟨(page token).items.filter keeps, (page token).next⟩))
    {rounds : Nat} {token : Option JsString} {items : List α}
    (chain : Chain page rounds token items) (all : List α) (warnings : List ListWarning) :
    (drainFrom fetchPage rounds token all warnings).Returns
      (· = (all ++ items.filter keeps, warnings)) := by
  induction chain generalizing all with
  | @last rounds token ended =>
      apply (fetches token).bind
      rintro _ rfl
      cases next : (page token).next with
      | none => exact Session.returns_pure rfl
      | some following =>
          have empty : following = [] := by
            simpa [Page.hasNext, next] using ended
          simp only [empty, if_true]
          exact Session.returns_pure rfl
  | @more rounds token items continued rest ih =>
      apply (fetches token).bind
      rintro _ rfl
      cases next : (page token).next with
      | none => simp [Page.hasNext, next] at continued
      | some following =>
          have nonempty : following ≠ [] := by
            simpa [Page.hasNext, next] using continued
          simp only [if_neg nonempty]
          rw [next] at ih
          rw [List.filter_append, ← List.append_assoc]
          exact ih (all ++ (page token).items.filter keeps)

/-- The path of an object is sent as it is. -/
theorem unchanged_objectPath (client : UpstreamClient) {object : UpstreamObject}
    {raw start path : JsString} (accepted : prefixSegment raw = .ok start)
    (found : object.path = .ok path) :
    setPathname (client.expectedPath (objectPath start path)) =
      client.expectedPath (objectPath start path) := by
  rcases UpstreamObject.exists_within found with ⟨within, isWithin, spelled⟩
  rcases exists_namespacesPath accepted with ⟨middle, collection, nonempty, normal⟩
  have whole : objectPath start path = pathname (middle ++ within) := by
    rw [objectPath, collection, spelled, pathname_append]
  apply setPathname_expectedPath client whole (by simp [nonempty])
  intro segment listed
  rcases List.mem_append.mp listed with inMiddle | inWithin
  · exact normal segment inMiddle
  · exact isWithin.normal segment inWithin

theorem Serves.returns_prefixFor (serves : Serves client mapping start store) :
    (client.prefixFor mapping).Returns (· = start) := by
  have spelled : ofString "/v1/config" = pathname [ofString "v1", ofString "config"] := by decide
  have normal : ∀ segment ∈ [ofString "v1", ofString "config"], NormalSegment segment := by
    have version : NormalSegment (ofString "v1") :=
      normalSegment_of_all (by decide) (by decide) (by decide)
    have configuration : NormalSegment (ofString "config") :=
      normalSegment_of_all (by decide) (by decide) (by decide)
    simp [version, configuration]
  have unchanged := setPathname_expectedPath client spelled (by simp) normal
  have answered : ∀ log, ∃ body, client.answer log (configRequest client mapping) = .ok body ∧
      ∃ config, configSchema body = some config ∧
        prefixSegment (configuredPrefix config) = .ok start := by
    intro log
    rcases serves.config log with ⟨body, config, isAnswer, read, accepted⟩
    exact ⟨body, isAnswer, config, read, accepted⟩
  apply (returns_getJson unchanged answered).bind
  rintro body ⟨config, read, accepted⟩
  rw [read]
  exact Session.returns_ofExcept accepted

theorem Serves.accepted (serves : Serves client mapping start store) :
    ∃ raw, prefixSegment raw = .ok start := by
  rcases serves.config [] with ⟨_, config, _, _, accepted⟩
  exact ⟨_, accepted⟩

theorem Serves.returns_listNamespaces (serves : Serves client mapping start store)
    {ns : List JsString} (holds : store.Holds ns) (warnings : List ListWarning) :
    (client.listNamespaces start ns warnings).Returns
      (· = ((store.namespaces ns).filter (·.all isSafeUpstreamSegment), warnings)) := by
  rcases serves.accepted with ⟨raw, accepted⟩
  rcases exists_namespacesPath accepted with ⟨segments, spelled, nonempty, normal⟩
  have unchanged := setPathname_expectedPath client spelled nonempty normal
  rcases serves.namespaces ns holds with ⟨page, chain, answered⟩
  apply returns_chain _ chain
  intro token
  apply (returns_getJson unchanged fun log => answered log token).bind
  intro body read
  rcases Option.filter_eq_some_iff.mp read with ⟨isPage, children⟩
  simp only [isPage, children, if_true]
  exact Session.returns_pure rfl

theorem Serves.returns_listTables (serves : Serves client mapping start store)
    {ns : List JsString} {path : JsString} (nonempty : ns ≠ []) (holds : store.Holds ns)
    (found : (UpstreamObject.tables ns).path = .ok path) (warnings : List ListWarning) :
    (client.listTables start ns warnings).Returns
      (· = ((store.tables ns).filter (fun id => isSafeUpstreamSegment id.name), warnings)) := by
  rcases serves.accepted with ⟨raw, accepted⟩
  have unchanged := unchanged_objectPath client accepted found
  rcases serves.tables ns path nonempty holds found with ⟨page, chain, answered⟩
  apply returns_chain _ chain
  intro token
  apply (Session.returns_ofExcept found).bind
  rintro _ rfl
  apply (returns_getJson unchanged fun log => answered log token).bind
  intro body read
  rw [read]
  exact Session.returns_pure rfl

theorem Chain.exists_mem {α : Type} {page : Option JsString → Page α} {rounds : Nat}
    {token : Option JsString} {items : List α} (chain : Chain page rounds token items) {item : α}
    (member : item ∈ items) : ∃ token, item ∈ (page token).items := by
  induction chain with
  | last => exact ⟨_, member⟩
  | more _ _ ih =>
      rcases List.mem_append.mp member with first | later
      · exact ⟨_, first⟩
      · exact ih later

/-- What is stored below a namespace is one level below it. -/
theorem Serves.isChildOf (serves : Serves client mapping start store) {ns child : List JsString}
    (holds : store.Holds ns) (stored : child ∈ store.namespaces ns) :
    isChildOf ns child = true := by
  rcases serves.namespaces ns holds with ⟨page, chain, answered⟩
  rcases chain.exists_mem stored with ⟨token, member⟩
  rcases answered [] token with ⟨body, _, read⟩
  exact List.all_eq_true.mp (Option.filter_eq_some_iff.mp read).2 child member

variable {catalogs : List CatalogMapping} {catalog : JsString} {ns : List JsString}

theorem tail_address (catalog : JsString) (ns : List JsString) :
    (⟨catalog, ns, none⟩ : TreePlace).address.segments.tail = ns := by
  simp [address, names]

/-- What a listing below a place shows of a store. -/
def stored (store : CatalogStore) (catalog : JsString) (ns : List JsString) : List DataAsset :=
  ((store.namespaces ns).filter (·.all isSafeUpstreamSegment)).map (schemaNode catalog) ++
    if ns = [] then []
    else ((store.tables ns).filter fun id => isSafeUpstreamSegment id.name).map
      fun id => tableNode catalog ns id.name

theorem Serves.returns_list (serves : Serves client mapping start store)
    (named : byName catalogs catalog = some mapping)
    (carried : Carried (⟨catalog, ns, none⟩ : TreePlace).address) (holds : store.Holds ns) :
    (client.list catalogs (some (⟨catalog, ns, none⟩ : TreePlace).node.id)).Returns
      fun result => result.assets = stored store catalog ns := by
  have standing : (⟨catalog, ns, none⟩ : TreePlace).Standing :=
    fun isTable => absurd isTable Bool.false_ne_true
  have read : parseAssetId (⟨catalog, ns, none⟩ : TreePlace).node.id =
      some (⟨catalog, ns, none⟩ : TreePlace).address := by
    rw [node_id]
    exact (@parse_derived_iff (⟨catalog, ns, none⟩ : TreePlace).address standing.admits).mpr
      ⟨carried.safe, carried.oneLine, carried.short⟩
  have notTable : (⟨catalog, ns, none⟩ : TreePlace).address.kind ≠ .table := by
    simp only [address, kind]
    split_ifs <;> decide
  have isListable : UpstreamClient.listable catalogs (⟨catalog, ns, none⟩ : TreePlace).node.id =
      some ((⟨catalog, ns, none⟩ : TreePlace).address, mapping) :=
    listable_eq_some_iff.mpr ⟨read, notTable, named⟩
  have isCatalog : mapping.name = catalog := name_of_byName named
  have filled : ∀ segment ∈ catalog :: ns, segment ≠ [] := by
    intro segment listed
    apply nonempty_of_isSafeUpstreamSegment
    apply carried.safe
    simpa [address, names] using listed
  have nameFilled : mapping.name ≠ [] := by
    rw [isCatalog]
    exact filled catalog List.mem_cons_self
  simp only [UpstreamClient.list, isListable, UpstreamClient.listChildren, tail_address]
  apply serves.returns_prefixFor.bind
  rintro _ rfl
  apply (serves.returns_listNamespaces holds [NODE_AUTHZ_WARNING]).bind
  rintro _ rfl
  have valid : ∀ child ∈ (store.namespaces ns).filter (·.all isSafeUpstreamSegment),
      (schemaNode mapping.name child).isValid = true := by
    intro child listed
    rw [List.mem_filter, List.all_eq_true] at listed
    rcases eq_append_of_isChildOf (serves.isChildOf holds listed.1) with ⟨name, rfl⟩
    exact schemaNode_isValid nameFilled (by simp)
      fun segment member => nonempty_of_isSafeUpstreamSegment (listed.2 segment member)
  apply (Session.returns_ofExcept (mapM_parse_eq_ok_iff.mpr ⟨rfl, valid⟩)).bind
  rintro _ rfl
  by_cases empty : ns = []
  · have isCatalogPlace : (⟨catalog, ns, none⟩ : TreePlace).address.kind ≠ .schema := by
      simp [address, kind, empty]
    simp only [if_neg isCatalogPlace]
    apply Session.returns_pure
    rw [stored, if_pos empty, List.append_nil, isCatalog]
  · have isSchema : (⟨catalog, ns, none⟩ : TreePlace).address.kind = .schema :=
      kind_schema catalog empty
    have safe : ∀ segment ∈ ns, isSafeUpstreamSegment segment = true := by
      intro segment listed
      apply carried.safe
      simp [address, names, listed]
    have encodes : ∃ path, nsPath ns = .ok path := by
      apply (nsPath_isOk_iff safe).mpr
      have paired := carried.paired
      rwa [tail_address] at paired
    rcases encodes with ⟨inPath, found⟩
    have path : (UpstreamObject.tables ns).path = .ok (inPath ++ ofString "/tables") := by
      rw [UpstreamObject.path, found]
      rfl
    simp only [if_pos isSchema]
    apply (serves.returns_listTables empty holds path [NODE_AUTHZ_WARNING]).bind
    rintro _ rfl
    have tablesValid : ∀ id ∈ (store.tables ns).filter (fun id => isSafeUpstreamSegment id.name),
        (tableNode mapping.name ns id.name).isValid = true :=
      fun id _ => tableNode_isValid nameFilled
        fun segment listed => filled segment (List.mem_cons_of_mem catalog listed)
    apply (Session.returns_ofExcept (mapM_parse_eq_ok_iff.mpr ⟨rfl, tablesValid⟩)).bind
    rintro _ rfl
    apply Session.returns_pure
    rw [stored, if_neg empty, isCatalog]

end Serves

/-! ## What can be explored -/

/-- What a client can come to: the configured catalogs, and what is stored one level below a place
that it can come to, if the ids and paths carry the names of that place. -/
inductive Offered (catalogs : List CatalogMapping) (stores : CatalogMapping → CatalogStore) :
    TreePlace → Prop where
  | catalog {mapping : CatalogMapping} (member : mapping ∈ catalogs) :
      Offered catalogs stores ⟨mapping.name, [], none⟩
  | schema {catalog name : JsString} {ns : List JsString} {mapping : CatalogMapping}
      (offered : Offered catalogs stores ⟨catalog, ns, none⟩)
      (carried : Carried (⟨catalog, ns, none⟩ : TreePlace).address)
      (named : byName catalogs catalog = some mapping)
      (listed : ns ++ [name] ∈ (stores mapping).namespaces ns)
      (safe : isSafeUpstreamSegment name = true) :
      Offered catalogs stores ⟨catalog, ns ++ [name], none⟩
  | table {catalog : JsString} {ns : List JsString} {id : TableIdentifier}
      {mapping : CatalogMapping} (nonempty : ns ≠ [])
      (offered : Offered catalogs stores ⟨catalog, ns, none⟩)
      (carried : Carried (⟨catalog, ns, none⟩ : TreePlace).address)
      (named : byName catalogs catalog = some mapping) (listed : id ∈ (stores mapping).tables ns)
      (safe : isSafeUpstreamSegment id.name = true) :
      Offered catalogs stores ⟨catalog, ns, some id.name⟩

section Offered

variable {client : UpstreamClient} {catalogs : List CatalogMapping}
  {stores : CatalogMapping → CatalogStore} {catalog : JsString} {ns : List JsString}
  {mapping : CatalogMapping}

/-- The namespace of a place that can be explored is stored. -/
theorem Offered.holds (offered : Offered catalogs stores ⟨catalog, ns, none⟩)
    (named : byName catalogs catalog = some mapping) : (stores mapping).Holds ns := by
  generalize isPlace : (⟨catalog, ns, none⟩ : TreePlace) = place at offered
  cases offered with
  | catalog => exact .inl (TreePlace.mk.inj isPlace).2.1
  | table => exact absurd (TreePlace.mk.inj isPlace).2.2 (Option.some_ne_none _).symm
  | schema _ _ found listed =>
      rcases TreePlace.mk.inj isPlace with ⟨rfl, rfl, _⟩
      rw [named] at found
      cases found
      refine .inr ?_
      rw [List.dropLast_concat]
      exact listed

theorem mem_stored {store : CatalogStore} {asset : DataAsset} :
    asset ∈ stored store catalog ns ↔
      (∃ child ∈ store.namespaces ns, (∀ segment ∈ child, isSafeUpstreamSegment segment = true) ∧
        schemaNode catalog child = asset) ∨
      (ns ≠ [] ∧ ∃ id ∈ store.tables ns, isSafeUpstreamSegment id.name = true ∧
        tableNode catalog ns id.name = asset) := by
  rw [stored, List.mem_append]
  apply or_congr
  · simp only [List.mem_map, List.mem_filter, List.all_eq_true, and_assoc]
  · by_cases empty : ns = []
    · simp [empty]
    · rw [if_neg empty, and_iff_right empty]
      simp only [List.mem_map, List.mem_filter, and_assoc]

/-- What is listed below a place that can be explored can be explored. -/
theorem Offered.of_listed {place : TreePlace} (offered : Offered catalogs stores place)
    (serves : ∀ mapping ∈ catalogs, ∃ start, Serves client mapping start (stores mapping))
    {log later : List Exchange} {result : DataAssetListResult}
    (returned : client.list catalogs (some place.node.id) log = (.ok result, later)) :
    ∀ asset ∈ result.assets, ∃ child, Offered catalogs stores child ∧ asset = child.node := by
  cases isListable : UpstreamClient.listable catalogs place.node.id with
  | none =>
      rw [UpstreamClient.list, isListable] at returned
      rcases Session.pure_eq_ok_iff.mp returned with ⟨rfl, _⟩
      exact List.forall_mem_nil _
  | some found =>
      rcases found with ⟨address, mapping⟩
      rcases listable_node isListable with ⟨rfl, noTable, named⟩
      rcases listable_eq_some_iff.mp isListable with ⟨read, _, _⟩
      rcases place with ⟨catalog, ns, table⟩
      cases noTable
      have standing : (⟨catalog, ns, none⟩ : TreePlace).Standing :=
        fun isTable => absurd isTable Bool.false_ne_true
      rw [node_id] at read
      rcases (@parse_derived_iff (⟨catalog, ns, none⟩ : TreePlace).address standing.admits).mp read
        with ⟨safe, oneLine, short⟩
      have paired : ∀ segment ∈ (⟨catalog, ns, none⟩ : TreePlace).address.segments.tail,
          (codePoints segment).isSome := by
        rw [tail_address]
        by_cases empty : ns = []
        · rw [empty]
          exact List.forall_mem_nil _
        · have children := returned
          simp only [UpstreamClient.list, isListable] at children
          rcases listChildren_spec children with ⟨_, _, _, _, _, _, _, listedFrom⟩
          rcases listedFrom.askedTables (kind_schema catalog empty) with ⟨path, found, _⟩
          have safeNs : ∀ segment ∈ ns, isSafeUpstreamSegment segment = true := by
            intro segment listed
            apply safe
            simp [address, names, listed]
          apply (nsPath_isOk_iff safeNs).mp
          rw [tail_address, UpstreamObject.path] at found
          cases inPath : nsPath ns with
          | ok encoded => exact ⟨encoded, rfl⟩
          | error failure =>
              rw [inPath] at found
              cases found
      have carried : Carried (⟨catalog, ns, none⟩ : TreePlace).address :=
        ⟨safe, oneLine, short, paired⟩
      have isMapping : mapping ∈ catalogs :=
        List.mem_reverse.mp (List.mem_of_find?_eq_some named)
      rcases serves mapping isMapping with ⟨start, serves⟩
      rcases serves.returns_list named carried (offered.holds named) log with
        ⟨value, last, again, assets⟩
      cases returned.symm.trans again
      intro asset member
      rw [assets] at member
      rcases mem_stored.mp member with
        ⟨child, listed, safeChild, rfl⟩ | ⟨nonempty, id, listed, safeId, rfl⟩
      · rcases eq_append_of_isChildOf (serves.isChildOf (offered.holds named) listed) with
          ⟨name, rfl⟩
        refine ⟨_, .schema offered carried named listed
          (safeChild name (List.mem_append_right ns List.mem_cons_self)), ?_⟩
        rw [node_schema catalog (List.append_ne_nil_of_right_ne_nil ns (List.cons_ne_nil name []))]
      · exact ⟨_, .table nonempty offered carried named listed safeId, rfl⟩

/-- Every asset of a listing is on one of the pages of the route. -/
theorem exists_page {result : DataAssetListResult} {asset : DataAsset}
    (member : asset ∈ result.assets) :
    ∃ page, asset ∈ (listRoute result ⟨page + 1, 1, none, none⟩).data := by
  rw [← flatMap_listRoute result Nat.one_pos] at member
  rcases List.mem_flatMap.mp member with ⟨page, _, inPage⟩
  exact ⟨page, inPage⟩

/-- A listing goes on from an exploration, to the page of one asset. -/
theorem exists_visit {parentId : Option JsString} {exploration : Exploration}
    (reached : (Exploration.machine client catalogs).Reachable Guided exploration)
    (parent : ∀ id, parentId = some id → ∃ entry ∈ exploration.shown, entry.2.id = id)
    {assets : List DataAsset}
    (returns : (client.list catalogs parentId).Returns fun result => result.assets = assets)
    {asset : DataAsset} (member : asset ∈ assets) :
    ∃ next, (Exploration.machine client catalogs).Reachable Guided next ∧
      (parentId, asset) ∈ next.shown := by
  rcases returns exploration.log with ⟨result, later, returned, rfl⟩
  rcases exists_page member with ⟨page, inPage⟩
  have stepped : (Exploration.machine client catalogs).step exploration
      ⟨parentId, ⟨page + 1, 1, none, none⟩⟩ = some ⟨later, exploration.shown ++
        (listRoute result ⟨page + 1, 1, none, none⟩).data.map (parentId, ·)⟩ := by
    simp only [Exploration.machine, Exploration.step, returned]
  have guided : Guided exploration ⟨parentId, ⟨page + 1, 1, none, none⟩⟩ :=
    ⟨Nat.succ_pos page, ⟨le_rfl, Nat.le_of_ble_eq_true rfl⟩, parent⟩
  exact ⟨_, .step reached guided stepped,
    List.mem_append_right _ (List.mem_map_of_mem inPage)⟩

/-- The catalogs are listed if each of them is served and named. -/
theorem returns_catalogs (named : ∀ mapping ∈ catalogs, mapping.name ≠ [])
    (serves : ∀ mapping ∈ catalogs, ∃ start, Serves client mapping start (stores mapping)) :
    (client.list catalogs none).Returns
      fun result => result.assets = catalogs.map fun mapping => catalogNode mapping.name := by
  have configured : ∀ mappings : List CatalogMapping, (∀ mapping ∈ mappings, mapping ∈ catalogs) →
      (client.prefixForEach mappings).Returns fun _ => True := by
    intro mappings
    induction mappings with
    | nil => exact fun _ => Session.returns_pure trivial
    | cons mapping rest ih =>
        intro within
        rw [List.forall_mem_cons] at within
        rcases serves mapping within.1 with ⟨start, servesThis⟩
        exact servesThis.returns_prefixFor.bind fun _ _ => ih within.2
  have valid : ∀ mapping ∈ catalogs, (catalogNode mapping.name).isValid = true := by
    intro mapping member
    have filled := named mapping member
    have idSome : catalogId mapping.name ≠ [] := idPrefix_append_ne_nil .catalog _
    have serviceSome : SERVICE_ID ≠ "" := by decide
    rw [DataAsset.isValid_iff]
    simpa [catalogNode, filled, serviceSome] using idSome
  apply (configured catalogs fun _ member => member).bind
  intro _ _
  have parsed := @mapM_parse_eq_ok_iff _ (fun mapping => catalogNode mapping.name) catalogs
    (catalogs.map fun mapping => catalogNode mapping.name)
  apply (Session.returns_ofExcept (parsed.mpr ⟨rfl, valid⟩)).bind
  rintro _ rfl
  exact Session.returns_pure rfl

/-- In every exploration, what is shown can be explored. -/
theorem offered_of_shown
    (serves : ∀ mapping ∈ catalogs, ∃ start, Serves client mapping start (stores mapping))
    {exploration : Exploration}
    (reached : (Exploration.machine client catalogs).Reachable Guided exploration) :
    ∀ entry ∈ exploration.shown, ∃ place, Offered catalogs stores place ∧ entry.2 = place.node := by
  refine reached.invariant (fun exploration => ∀ entry ∈ exploration.shown,
    ∃ place, Offered catalogs stores place ∧ entry.2 = place.node) ?_ ?_
  · exact fun _ member => absurd member List.not_mem_nil
  · intro exploration visit next before guided stepped entry member
    rcases (step_shown stepped).2 entry member with old | ⟨result, later, returned, _, listed⟩
    · exact before entry old
    · cases parent : visit.parentId with
      | none =>
          rw [parent] at returned
          rcases listed_catalogs returned _ listed with ⟨mapping, isMapping, same⟩
          exact ⟨_, .catalog isMapping, same⟩
      | some id =>
          rcases guided.parent id parent with ⟨above, isShown, isId⟩
          rcases before above isShown with ⟨place, offered, isNode⟩
          rw [parent, ← isId, isNode] at returned
          exact offered.of_listed serves returned _ listed

/-- What is stored below a place that was shown is shown by one more visit. -/
theorem exists_shown_below
    (serves : ∀ mapping ∈ catalogs, ∃ start, Serves client mapping start (stores mapping))
    (offered : Offered catalogs stores ⟨catalog, ns, none⟩)
    (carried : Carried (⟨catalog, ns, none⟩ : TreePlace).address)
    (named : byName catalogs catalog = some mapping) {asset : DataAsset}
    (listed : asset ∈ stored (stores mapping) catalog ns)
    (isShown : ∃ exploration, (Exploration.machine client catalogs).Reachable Guided exploration ∧
      ∃ parentId, (parentId, (⟨catalog, ns, none⟩ : TreePlace).node) ∈ exploration.shown) :
    ∃ exploration, (Exploration.machine client catalogs).Reachable Guided exploration ∧
      ∃ parentId, (parentId, asset) ∈ exploration.shown := by
  rcases isShown with ⟨exploration, reached, above, member⟩
  have isMapping : mapping ∈ catalogs := List.mem_reverse.mp (List.mem_of_find?_eq_some named)
  rcases serves mapping isMapping with ⟨start, servesThis⟩
  have parent : ∀ id, some (⟨catalog, ns, none⟩ : TreePlace).node.id = some id →
      ∃ entry ∈ exploration.shown, entry.2.id = id := by
    intro id same
    cases same
    exact ⟨_, member, rfl⟩
  rcases exists_visit reached parent (servesThis.returns_list named carried (offered.holds named))
    listed with ⟨next, nextReached, nextShown⟩
  exact ⟨next, nextReached, _, nextShown⟩

/-- Where the service answers from what it stores, what explorations can show is exactly what is
stored below places whose names are carried. -/
theorem explored_iff_offered (client : UpstreamClient) (catalogs : List CatalogMapping)
    (stores : CatalogMapping → CatalogStore) (named : ∀ mapping ∈ catalogs, mapping.name ≠ [])
    (serves : ∀ mapping ∈ catalogs, ∃ start, Serves client mapping start (stores mapping))
    (place : TreePlace) :
    (∃ exploration, (Exploration.machine client catalogs).Reachable Guided exploration ∧
      ∃ parentId, (parentId, place.node) ∈ exploration.shown) ↔ Offered catalogs stores place := by
  constructor
  · rintro ⟨exploration, reached, parentId, isShown⟩
    rcases offered_of_shown serves reached _ isShown with ⟨other, offered, same⟩
    rw [eq_of_id (congrArg DataAsset.id same)]
    exact offered
  · intro offered
    induction offered with
    | @catalog mapping member =>
        have listed : catalogNode mapping.name ∈
            catalogs.map fun mapping => catalogNode mapping.name := List.mem_map_of_mem member
        rcases exists_visit .init (fun _ same => absurd same.symm (Option.some_ne_none _))
          (returns_catalogs named serves) listed with ⟨next, reached, isShown⟩
        exact ⟨next, reached, _, isShown⟩
    | @schema catalog name ns mapping offered carried isNamed listed safe ih =>
        apply exists_shown_below serves offered carried isNamed _ ih
        refine mem_stored.mpr (.inl ⟨_, listed, ?_, ?_⟩)
        · rw [List.forall_mem_append, List.forall_mem_singleton]
          refine ⟨?_, safe⟩
          intro segment inNs
          apply carried.safe
          simp [address, names, inNs]
        · rw [node_schema catalog
            (List.append_ne_nil_of_right_ne_nil ns (List.cons_ne_nil name []))]
    | @table catalog ns id mapping nonempty offered carried isNamed listed safe ih =>
        apply exists_shown_below serves offered carried isNamed _ ih
        exact mem_stored.mpr (.inr ⟨nonempty, id, listed, safe, rfl⟩)

end Offered

/-- One namespace, which has one table. -/
def salesStore : CatalogStore where
  namespaces ns := if ns = [] then [[ofString "sales"]] else []
  tables _ := [⟨[ofString "sales"], ofString "orders"⟩]

theorem salesService_serves : Serves salesService oneCatalog [] salesStore where
  config := fun _ => ⟨_, _, rfl, rfl, rfl⟩
  namespaces := by
    intro ns _
    cases ns with
    | nil =>
        refine ⟨fun _ => ⟨[[ofString "sales"]], none⟩, .last rfl, ?_⟩
        intro log token
        cases token with
        | none => exact ⟨_, rfl, rfl⟩
        | some token => exact ⟨_, rfl, rfl⟩
    | cons first rest =>
        refine ⟨fun _ => ⟨[], none⟩, .last rfl, ?_⟩
        intro log token
        exact ⟨_, rfl, rfl⟩
  tables := by
    intro ns path _ _ _
    refine ⟨fun _ => ⟨[⟨[ofString "sales"], ofString "orders"⟩], none⟩, .last rfl, ?_⟩
    intro log token
    have whole : salesService.expectedPath (objectPath [] path) =
        ofString "/catalog/v1/namespaces/" ++ path := rfl
    have differs : ∀ text : JsString, text.length ≤ 22 →
        ofString "/catalog/v1/namespaces/" ++ path ≠ text := by
      rintro text short rfl
      have long : (ofString "/catalog/v1/namespaces/").length = 23 := by decide
      rw [List.length_append, long] at short
      omega
    refine ⟨salesTables, ?_, rfl⟩
    rw [whole]
    have notConfig := differs (ofString "/catalog/v1/config") (by decide)
    have notNamespaces := differs (ofString "/catalog/v1/namespaces") (by decide)
    simp only [salesService, if_neg notConfig, if_neg notNamespaces]

theorem carried_catalog : Carried (⟨ofString "c", [], none⟩ : TreePlace).address where
  safe := List.forall_mem_singleton.mpr (by decide)
  oneLine := List.forall_mem_singleton.mpr (by decide)
  short := by decide +kernel
  paired := List.forall_mem_nil _

theorem carried_sales : Carried (⟨ofString "c", [ofString "sales"], none⟩ : TreePlace).address where
  safe := List.forall_mem_cons.mpr ⟨by decide, List.forall_mem_singleton.mpr (by decide)⟩
  oneLine := List.forall_mem_cons.mpr ⟨by decide, List.forall_mem_singleton.mpr (by decide)⟩
  short := by decide +kernel
  paired := List.forall_mem_singleton.mpr (by decide)

theorem explored_iff_offered_sales :
    ∃ exploration, (Exploration.machine salesService [oneCatalog]).Reachable Guided exploration ∧
      ∃ parentId, (parentId, (⟨ofString "c", [ofString "sales"], some (ofString "orders")⟩ :
        TreePlace).node) ∈ exploration.shown := by
  apply (explored_iff_offered salesService [oneCatalog] (fun _ => salesStore)
    (List.forall_mem_singleton.mpr (by decide))
    (List.forall_mem_singleton.mpr ⟨[], salesService_serves⟩) _).mpr
  have root : Offered [oneCatalog] (fun _ => salesStore) ⟨ofString "c", [], none⟩ :=
    @Offered.catalog _ _ oneCatalog List.mem_cons_self
  have named : byName [oneCatalog] (ofString "c") = some oneCatalog := by decide
  have schema : Offered [oneCatalog] (fun _ => salesStore)
      ⟨ofString "c", [] ++ [ofString "sales"], none⟩ :=
    .schema root carried_catalog named (List.mem_singleton.mpr rfl) (by decide)
  have orders : (⟨[ofString "sales"], ofString "orders"⟩ : TableIdentifier) ∈
      salesStore.tables [ofString "sales"] := List.mem_singleton.mpr rfl
  exact .table (List.cons_ne_nil _ _) schema carried_sales named orders (by decide)

end BelugaManager.DomainApi
