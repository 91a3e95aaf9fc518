import BelugaManager.DomainApi.LakekeeperPaths

/-!
# Listings and their pages

What a listing of children asks for and shows: at most ten pages of each collection, each
with the token of the page before it, and of these pages every item that can be addressed.
The pages of the list route make up the listing again.
-/

namespace BelugaManager.DomainApi

open Foundation Foundation.JsString

namespace Session

variable {α β : Type}

theorem bind_eq_ok_iff {call : Session α} {next : α → Session β} {log later : List Exchange}
    {value : β} : (call >>= next) log = (.ok value, later) ↔
      ∃ first middle, call log = (.ok first, middle) ∧ next first middle = (.ok value, later) := by
  rw [bind_apply, followedBy]
  rcases call log with ⟨result, middle⟩
  cases result with
  | error failure => simp
  | ok first => simp

theorem bind_of_ok {call : Session α} {next : α → Session β} {log middle : List Exchange}
    {first : α}
    (returned : call log = (.ok first, middle)) : (call >>= next) log = next first middle := by
  rw [bind_apply, followedBy, returned]

theorem bind_of_error {call : Session α} {next : α → Session β} {log middle : List Exchange}
    {failure : Failure} (threw : call log = (.error failure, middle)) :
    (call >>= next) log = (.error failure, middle) := by
  rw [bind_apply, followedBy, threw]

theorem pure_eq_ok_iff {first value : α} {log later : List Exchange} :
    (pure first : Session α) log = (.ok value, later) ↔ first = value ∧ log = later := by
  have unfolded : (pure first : Session α) log = (.ok first, log) := rfl
  simp [unfolded]

theorem throw_ne_ok {failure : Failure} {value : α} {log later : List Exchange} :
    (Session.throw failure : Session α) log ≠ (.ok value, later) := by
  simp [Session.throw]

theorem ofExcept_eq_ok_iff {result : Except Failure α} {value : α} {log later : List Exchange} :
    Session.ofExcept result log = (.ok value, later) ↔ result = .ok value ∧ log = later := by
  simp [Session.ofExcept]

/-- What a call returned, next to the exchanges after it. -/
theorem eq_of_fst_eq {call : Session α} {log : List Exchange} {outcome : Except Failure α}
    (returned : (call log).1 = outcome) : call log = (outcome, (call log).2) :=
  Prod.ext returned rfl

/-- Whatever was exchanged before, the call returns something of which a property holds. -/
def Returns (call : Session α) (holds : α → Prop) : Prop :=
  ∀ log, ∃ value later, call log = (.ok value, later) ∧ holds value

theorem Returns.bind {call : Session α} {next : α → Session β} {holds : α → Prop}
    {holdsNext : β → Prop} (first : call.Returns holds)
    (second : ∀ value, holds value → (next value).Returns holdsNext) :
    (call >>= next).Returns holdsNext := by
  intro log
  rcases first log with ⟨value, middle, returned, isValue⟩
  rw [bind_of_ok returned]
  exact second value isValue middle

theorem returns_pure {value : α} {holds : α → Prop} (isValue : holds value) :
    (pure value : Session α).Returns holds := fun log => ⟨value, log, rfl, isValue⟩

theorem returns_ofExcept {result : Except Failure α} {value : α} (same : result = .ok value) :
    (Session.ofExcept result).Returns (· = value) := by
  intro log
  rw [same]
  exact ⟨value, log, rfl, rfl⟩

end Session

theorem getJson_apply (client : UpstreamClient) (path : JsString)
    (query : List (JsString × JsString)) (log : List Exchange) :
    client.getJson path query log =
      if setPathname (client.expectedPath path) ≠ client.expectedPath path then
        (.error (.upstream .malformed), log)
      else ((client.answer log ⟨client.expectedPath path, query⟩).mapError .upstream,
        log ++ [(⟨client.expectedPath path, query⟩,
          client.answer log ⟨client.expectedPath path, query⟩)]) := rfl

theorem getJson_eq_ok {client : UpstreamClient} {path : JsString}
    {query : List (JsString × JsString)} {log later : List Exchange} {body : Json}
    (returned : client.getJson path query log = (.ok body, later)) :
    later = log ++ [(⟨client.expectedPath path, query⟩, .ok body)] := by
  rw [getJson_apply] at returned
  split_ifs at returned
  · cases returned
  · cases answered : client.answer log ⟨client.expectedPath path, query⟩ with
    | error kind =>
        rw [answered] at returned
        cases returned
    | ok found =>
        rw [answered] at returned
        cases returned
        rfl

/-- A call whose path stays as it is gets the answer. -/
theorem getJson_of_answer {client : UpstreamClient} {path : JsString}
    {query : List (JsString × JsString)} {log : List Exchange} {body : Json}
    (unchanged : setPathname (client.expectedPath path) = client.expectedPath path)
    (answered : client.answer log ⟨client.expectedPath path, query⟩ = .ok body) :
    client.getJson path query log =
      (.ok body, log ++ [(⟨client.expectedPath path, query⟩, .ok body)]) := by
  rw [getJson_apply, if_neg (not_not.mpr unchanged), answered]
  rfl

/-! ## Pages of a collection -/

section Pages

variable {α : Type}

/-- Whether the service has more after a page. -/
def Page.hasNext (page : Page α) : Bool := page.next.any (· ≠ [])

/-- Exchanges that fetch pages, each with the token of the one before. -/
inductive Fetches (path : JsString) (query : Option JsString → List (JsString × JsString))
    (read : Json → Option (Page α)) : Option JsString → List Exchange → List (Page α) → Prop where
  | nil {token : Option JsString} : Fetches path query read token [] []
  | cons {token : Option JsString} {body : Json} {page : Page α} {exchanges : List Exchange}
      {pages : List (Page α)} :
      read body = some page → Fetches path query read page.next exchanges pages →
        Fetches path query read token ((⟨path, query token⟩, .ok body) :: exchanges) (page :: pages)

/-- The pages that a loop of some rounds fetches, and whether it was cut off. -/
inductive Drains : Nat → List (Page α) → Bool → Prop where
  | cut : Drains 0 [] true
  | last {rounds : Nat} {page : Page α} : page.hasNext = false → Drains (rounds + 1) [page] false
  | more {rounds : Nat} {page : Page α} {pages : List (Page α)} {truncated : Bool} :
      page.hasNext = true → Drains rounds pages truncated →
        Drains (rounds + 1) (page :: pages) truncated

theorem Drains.length_le {rounds : Nat} {pages : List (Page α)} {truncated : Bool}
    (drains : Drains rounds pages truncated) : pages.length ≤ rounds := by
  induction drains with
  | cut => exact le_rfl
  | last ended => simp
  | more continued rest ih => simpa using ih

theorem Drains.truncated_iff {rounds : Nat} {pages : List (Page α)} {truncated : Bool}
    (drains : Drains (rounds + 1) pages truncated) :
    truncated = true ↔ ∃ page, pages[rounds]? = some page ∧ page.hasNext = true := by
  induction rounds generalizing pages with
  | zero =>
      cases drains with
      | last ended => simp [ended]
      | more continued rest =>
          cases rest
          simp [continued]
  | succ rounds ih =>
      cases drains with
      | last ended => simp
      | more continued rest =>
          rw [ih rest]
          simp

/-- Each page but the last one has a next one. -/
theorem Drains.continued {rounds : Nat} {pages : List (Page α)} {truncated : Bool}
    (drains : Drains rounds pages truncated) : ∀ page ∈ pages.dropLast, page.hasNext = true := by
  induction drains with
  | cut => simp
  | last ended => simp
  | @more rounds page pages truncated continued rest ih =>
      intro other member
      cases pages with
      | nil => simp at member
      | cons second others =>
          rw [List.dropLast_cons_of_ne_nil (List.cons_ne_nil second others)] at member
          rcases List.mem_cons.mp member with rfl | later
          · exact continued
          · exact ih other later

/-- A loop that is not cut off ends with a page that has no next one. -/
theorem Drains.ended {rounds : Nat} {pages : List (Page α)}
    (drains : Drains rounds pages false) :
    ∃ page, pages.getLast? = some page ∧ page.hasNext = false := by
  generalize isFalse : false = truncated at drains
  induction drains with
  | cut => cases isFalse
  | last ended => exact ⟨_, rfl, ended⟩
  | more continued rest ih =>
      rcases ih isFalse with ⟨page, isLast, ended⟩
      refine ⟨page, ?_, ended⟩
      rw [List.getLast?_cons, isLast]
      rfl

/-- What is fetched for one page: a body that is read, of which some items are kept. -/
def FetchesPage (path : JsString) (query : Option JsString → List (JsString × JsString))
    (read : Json → Option (Page α)) (keeps : α → Bool)
    (fetchPage : Option JsString → Session (Page α)) : Prop :=
  ∀ token log page later, fetchPage token log = (.ok page, later) →
    ∃ body whole, later = log ++ [(⟨path, query token⟩, .ok body)] ∧ read body = some whole ∧
      page = ⟨whole.items.filter keeps, whole.next⟩

variable {path : JsString} {query : Option JsString → List (JsString × JsString)}
  {read : Json → Option (Page α)} {keeps : α → Bool}
  {fetchPage : Option JsString → Session (Page α)}

theorem drainFrom_spec (fetches : FetchesPage path query read keeps fetchPage) {rounds : Nat}
    {token : Option JsString} {all items : List α} {warnings shown : List ListWarning}
    {log later : List Exchange}
    (returned : drainFrom fetchPage rounds token all warnings log = (.ok (items, shown), later)) :
    ∃ exchanges pages truncated, later = log ++ exchanges ∧
      Fetches path query read token exchanges pages ∧ Drains rounds pages truncated ∧
      items = all ++ (pages.flatMap Page.items).filter keeps ∧
      shown = warnings ++ if truncated then [LISTING_TRUNCATED] else [] := by
  induction rounds generalizing token all log with
  | zero =>
      rcases Session.pure_eq_ok_iff.mp returned with ⟨same, rfl⟩
      cases same
      exact ⟨[], [], true, by simp, .nil, .cut, by simp, rfl⟩
  | succ rounds ih =>
      rw [drainFrom] at returned
      rcases Session.bind_eq_ok_iff.mp returned with ⟨page, middle, fetched, rest⟩
      rcases fetches token log page middle fetched with ⟨body, whole, rfl, isRead, rfl⟩
      have finish : whole.hasNext = false →
          (pure (all ++ whole.items.filter keeps, warnings) : Session _)
            (log ++ [(⟨path, query token⟩, .ok body)]) = (.ok (items, shown), later) →
          ∃ exchanges pages truncated, later = log ++ exchanges ∧
            Fetches path query read token exchanges pages ∧ Drains (rounds + 1) pages truncated ∧
            items = all ++ (pages.flatMap Page.items).filter keeps ∧
            shown = warnings ++ if truncated then [LISTING_TRUNCATED] else [] := by
        intro ended done
        rcases Session.pure_eq_ok_iff.mp done with ⟨same, rfl⟩
        cases same
        exact ⟨_, [whole], false, rfl, .cons isRead .nil, .last ended, by simp, by simp⟩
      cases next : whole.next with
      | none =>
          simp only [next] at rest
          exact finish (by simp [Page.hasNext, next]) rest
      | some following =>
          simp only [next] at rest
          split_ifs at rest with isEmpty
          · exact finish (by simp [Page.hasNext, next, isEmpty]) rest
          · rcases ih rest with ⟨exchanges, pages, truncated, rfl, rounds, drains, rfl, rfl⟩
            rw [← next] at rounds
            refine ⟨_, whole :: pages, truncated, List.append_assoc log _ _, .cons isRead rounds,
              .more (by simp [Page.hasNext, next, isEmpty]) drains, ?_, rfl⟩
            rw [List.flatMap_cons, List.filter_append, List.append_assoc]

/-- Where every page can be fetched, the loop returns what is on the pages. -/
theorem returns_drainFrom {good : α → Prop}
    (fetchable : ∀ token, (fetchPage token).Returns fun page => ∀ item ∈ page.items, good item)
    (rounds : Nat) (token : Option JsString) (all : List α) (warnings : List ListWarning)
    (allGood : ∀ item ∈ all, good item) :
    (drainFrom fetchPage rounds token all warnings).Returns fun found =>
      ∀ item ∈ found.1, good item := by
  induction rounds generalizing token all with
  | zero => exact Session.returns_pure allGood
  | succ rounds ih =>
      apply (fetchable token).bind
      intro page pageGood
      have moreGood : ∀ item ∈ all ++ page.items, good item :=
        List.forall_mem_append.mpr ⟨allGood, pageGood⟩
      cases next : page.next with
      | none => exact Session.returns_pure moreGood
      | some following =>
          simp only []
          split_ifs
          · exact Session.returns_pure moreGood
          · exact ih (some following) (all ++ page.items) moreGood

end Pages

/-- A page of namespaces that are all children of one. -/
def readChildren (parent : List JsString) (body : Json) : Option (Page (List JsString)) :=
  (listNamespacesSchema body).filter fun page => page.items.all (isChildOf parent)

theorem fetches_namespacesPage (client : UpstreamClient) (start : JsString)
    (parent : List JsString) :
    FetchesPage (client.expectedPath (namespacesPath start)) (listNamespacesQuery parent)
      (readChildren parent) (·.all isSafeUpstreamSegment) (client.namespacesPage start parent) := by
  intro token log page later fetched
  rw [UpstreamClient.namespacesPage] at fetched
  rcases Session.bind_eq_ok_iff.mp fetched with ⟨body, middle, got, rest⟩
  have isLater := getJson_eq_ok got
  cases read : listNamespacesSchema body with
  | none =>
      simp only [read] at rest
      exact absurd rest Session.throw_ne_ok
  | some whole =>
      simp only [read] at rest
      split_ifs at rest with children
      · rcases Session.pure_eq_ok_iff.mp rest with ⟨rfl, rfl⟩
        exact ⟨body, whole, isLater, by simp [readChildren, read, children], rfl⟩
      · exact absurd rest Session.throw_ne_ok

theorem fetches_tablesPage (client : UpstreamClient) (start : JsString) {ns : List JsString}
    {path : JsString} (found : (UpstreamObject.tables ns).path = .ok path) :
    FetchesPage (client.expectedPath (objectPath start path)) listTablesQuery listTablesSchema
      (fun id => isSafeUpstreamSegment id.name) (client.tablesPage start ns) := by
  intro token log page later fetched
  rw [UpstreamClient.tablesPage] at fetched
  rcases Session.bind_eq_ok_iff.mp fetched with ⟨other, between, encoded, more⟩
  rcases Session.ofExcept_eq_ok_iff.mp encoded with ⟨otherFound, rfl⟩
  rw [found] at otherFound
  cases otherFound
  rcases Session.bind_eq_ok_iff.mp more with ⟨body, middle, got, rest⟩
  have isLater := getJson_eq_ok got
  cases read : listTablesSchema body with
  | none =>
      simp only [read] at rest
      exact absurd rest Session.throw_ne_ok
  | some whole =>
      simp only [read] at rest
      rcases Session.pure_eq_ok_iff.mp rest with ⟨rfl, rfl⟩
      exact ⟨body, whole, isLater, read, rfl⟩

/-- A page of tables is only asked for where the namespace has a path. -/
theorem exists_path_of_tablesPage {client : UpstreamClient} {start : JsString}
    {ns : List JsString} {token : Option JsString} {log later : List Exchange}
    {page : Page TableIdentifier}
    (fetched : client.tablesPage start ns token log = (.ok page, later)) :
    ∃ path, (UpstreamObject.tables ns).path = .ok path := by
  rw [UpstreamClient.tablesPage] at fetched
  rcases Session.bind_eq_ok_iff.mp fetched with ⟨path, middle, encoded, _⟩
  exact ⟨path, (Session.ofExcept_eq_ok_iff.mp encoded).1⟩

/-! ## The listed assets -/

theorem mapM_parse_eq_ok_iff {α : Type} {node : α → DataAsset} {items : List α}
    {assets : List DataAsset} :
    (items.mapM fun item => (node item).parse) = Except.ok assets ↔
      assets = items.map node ∧ ∀ item ∈ items, (node item).isValid = true := by
  induction items generalizing assets with
  | nil =>
      constructor
      · intro same
        cases same
        exact ⟨rfl, List.forall_mem_nil _⟩
      · intro both
        rw [both.1]
        rfl
  | cons item rest ih =>
      rw [List.mapM_cons]
      cases valid : (node item).isValid with
      | false =>
          have refused : (node item).parse = .error .schemaError := by
            simp [DataAsset.parse, valid]
          rw [refused]
          constructor
          · intro same
            cases same
          · intro both
            exact absurd (both.2 item List.mem_cons_self) (by simp [valid])
      | true =>
          have accepted : (node item).parse = .ok (node item) := by
            simp [DataAsset.parse, valid]
          rw [accepted]
          cases others : rest.mapM fun item => (node item).parse with
          | error failure =>
              have invalid : ¬∀ item ∈ rest, (node item).isValid = true := by
                intro allValid
                rw [ih.mpr ⟨rfl, allValid⟩] at others
                cases others
              constructor
              · intro same
                cases same
              · intro both
                exact absurd (List.forall_mem_cons.mp both.2).2 invalid
          | ok found =>
              rcases ih.mp others with ⟨rfl, allValid⟩
              constructor
              · intro same
                cases same
                exact ⟨rfl, List.forall_mem_cons.mpr ⟨valid, allValid⟩⟩
              · intro both
                rw [both.1]
                rfl

/-- The service still had more after the last page that may be asked for. -/
def TenthHasNext {α : Type} (pages : List (Page α)) : Prop :=
  ∃ page, pages[MAX_PAGES - 1]? = some page ∧ page.hasNext = true

/-- The pages of a collection: at most ten, none left out between them, and the last of the
collection unless there are ten. -/
structure Drained {α : Type} (pages : List (Page α)) : Prop where
  bounded : pages.length ≤ MAX_PAGES
  continued : ∀ page ∈ pages.dropLast, page.hasNext = true
  ended : TenthHasNext pages ∨ ∃ page, pages.getLast? = some page ∧ page.hasNext = false

theorem Drains.drained {α : Type} {pages : List (Page α)} {truncated : Bool}
    (drains : Drains MAX_PAGES pages truncated) :
    Drained pages ∧ (truncated = true ↔ TenthHasNext pages) := by
  have cut : truncated = true ↔ TenthHasNext pages := drains.truncated_iff
  refine ⟨⟨drains.length_le, drains.continued, ?_⟩, cut⟩
  cases truncated with
  | true => exact Or.inl (cut.mp rfl)
  | false => exact Or.inr drains.ended

/-- What a listing of children shows, and the exchanges it comes from: the namespaces below
the parent, and then the tables of a parent that is a schema. -/
structure ListedFrom (client : UpstreamClient) (mapping : CatalogMapping) (parent : AssetAddress)
    (start : JsString) (result : DataAssetListResult) (namespaces : List Exchange)
    (namespacePages : List (Page (List JsString))) (tables : List Exchange)
    (tablePages : List (Page TableIdentifier)) : Prop where
  asked : Fetches (client.expectedPath (namespacesPath start))
    (listNamespacesQuery parent.segments.tail) (readChildren parent.segments.tail) none
    namespaces namespacePages
  drained : Drained namespacePages
  askedTables : parent.kind = .schema → ∃ path,
    (UpstreamObject.tables parent.segments.tail).path = .ok path ∧
      Fetches (client.expectedPath (objectPath start path)) listTablesQuery listTablesSchema none
        tables tablePages
  drainedTables : parent.kind = .schema → Drained tablePages
  noTables : parent.kind ≠ .schema → tables = [] ∧ tablePages = []
  assets : result.assets =
    ((namespacePages.flatMap Page.items).filter (·.all isSafeUpstreamSegment)).map
        (schemaNode mapping.name) ++
      ((tablePages.flatMap Page.items).filter fun id => isSafeUpstreamSegment id.name).map
        fun id => tableNode mapping.name parent.segments.tail id.name
  truncated : LISTING_TRUNCATED.code ∈ result.warnings.map ListWarning.code ↔
    TenthHasNext namespacePages ∨ TenthHasNext tablePages

theorem drain_spec {α : Type} {path : JsString}
    {query : Option JsString → List (JsString × JsString)}
    {read : Json → Option (Page α)} {keeps : α → Bool}
    {fetchPage : Option JsString → Session (Page α)}
    (fetches : FetchesPage path query read keeps fetchPage) {items : List α}
    {warnings shown : List ListWarning} {log later : List Exchange}
    (returned : drain fetchPage warnings log = (.ok (items, shown), later)) :
    ∃ exchanges pages, later = log ++ exchanges ∧ Fetches path query read none exchanges pages ∧
      Drained pages ∧ items = (pages.flatMap Page.items).filter keeps ∧
      (LISTING_TRUNCATED.code ∈ shown.map ListWarning.code ↔
        LISTING_TRUNCATED.code ∈ warnings.map ListWarning.code ∨ TenthHasNext pages) := by
  rcases drainFrom_spec fetches returned with
    ⟨exchanges, pages, truncated, isLater, rounds, drains, isItems, isShown⟩
  refine ⟨exchanges, pages, isLater, rounds, drains.drained.1, isItems, ?_⟩
  rw [← drains.drained.2, isShown]
  cases truncated <;> simp

/-- A first page is fetched if a listing returns. -/
theorem exists_fetched_of_drain {α : Type} {fetchPage : Option JsString → Session (Page α)}
    {items : List α} {warnings shown : List ListWarning} {log later : List Exchange}
    (returned : drain fetchPage warnings log = (.ok (items, shown), later)) :
    ∃ page middle, fetchPage none log = (.ok page, middle) := by
  have unfolded : drain fetchPage warnings = drainFrom fetchPage (9 + 1) none [] warnings := rfl
  rw [unfolded, drainFrom] at returned
  rcases Session.bind_eq_ok_iff.mp returned with ⟨page, middle, fetched, _⟩
  exact ⟨page, middle, fetched⟩

theorem prefixFor_spec {client : UpstreamClient} {mapping : CatalogMapping} {start : JsString}
    {log later : List Exchange} (returned : client.prefixFor mapping log = (.ok start, later)) :
    ∃ exchange raw, later = log ++ [exchange] ∧ prefixSegment raw = .ok start ∧
      exchange.1 = ⟨client.expectedPath (ofString "/v1/config"),
        parameter "warehouse" (some mapping.warehouse)⟩ := by
  rw [UpstreamClient.prefixFor] at returned
  rcases Session.bind_eq_ok_iff.mp returned with ⟨body, middle, got, rest⟩
  have isMiddle := getJson_eq_ok got
  cases read : configSchema body with
  | none =>
      simp only [read] at rest
      exact absurd rest Session.throw_ne_ok
  | some config =>
      simp only [read] at rest
      rcases Session.ofExcept_eq_ok_iff.mp rest with ⟨accepted, rfl⟩
      exact ⟨_, _, isMiddle, accepted, rfl⟩

theorem listChildren_spec {client : UpstreamClient} {mapping : CatalogMapping}
    {parent : AssetAddress} {result : DataAssetListResult} {log later : List Exchange}
    (returned : client.listChildren mapping parent log = (.ok result, later)) :
    ∃ config start namespaces namespacePages tables tablePages,
      later = log ++ config :: (namespaces ++ tables) ∧
      ListedFrom client mapping parent start result namespaces namespacePages tables
        tablePages := by
  rw [UpstreamClient.listChildren] at returned
  rcases Session.bind_eq_ok_iff.mp returned with ⟨start, afterConfig, configured, listing⟩
  rcases prefixFor_spec configured with ⟨config, raw, rfl, _, _⟩
  rcases Session.bind_eq_ok_iff.mp listing with ⟨⟨children, warnings⟩, middle, drained, assembling⟩
  rcases drain_spec (fetches_namespacesPage client start _) drained with
    ⟨namespaces, namespacePages, rfl, asked, pages, rfl, cut⟩
  rcases Session.bind_eq_ok_iff.mp assembling with ⟨schemas, same, parsed, ending⟩
  rcases Session.ofExcept_eq_ok_iff.mp parsed with ⟨isSchemas, rfl⟩
  rw [(mapM_parse_eq_ok_iff.mp isSchemas).1] at ending
  have noWarning : LISTING_TRUNCATED.code ∉ [NODE_AUTHZ_WARNING].map ListWarning.code := by decide
  simp only [noWarning, false_or] at cut
  split_ifs at ending with isSchema
  · rcases Session.bind_eq_ok_iff.mp ending with ⟨⟨ids, shown⟩, last, tablesDrained, finishing⟩
    rcases exists_fetched_of_drain tablesDrained with ⟨_, _, first⟩
    rcases exists_path_of_tablesPage first with ⟨path, found⟩
    rcases drain_spec (fetches_tablesPage client start found) tablesDrained with
      ⟨tables, tablePages, rfl, askedTables, tablesPages, rfl, cutTables⟩
    rcases Session.bind_eq_ok_iff.mp finishing with ⟨assets, _, tablesParsed, done⟩
    rcases Session.ofExcept_eq_ok_iff.mp tablesParsed with ⟨isAssets, rfl⟩
    rcases Session.pure_eq_ok_iff.mp done with ⟨rfl, rfl⟩
    refine ⟨config, start, namespaces, namespacePages, tables, tablePages, by simp, ?_⟩
    constructor
    · exact asked
    · exact pages
    · exact fun _ => ⟨path, found, askedTables⟩
    · exact fun _ => tablesPages
    · exact fun isOther => absurd isSchema isOther
    · rw [(mapM_parse_eq_ok_iff.mp isAssets).1]
    · rw [cutTables, cut]
  · rcases Session.pure_eq_ok_iff.mp ending with ⟨rfl, rfl⟩
    refine ⟨config, start, namespaces, namespacePages, [], [], by simp, ?_⟩
    constructor
    · exact asked
    · exact pages
    · exact fun other => absurd other isSchema
    · exact fun other => absurd other isSchema
    · exact fun _ => ⟨rfl, rfl⟩
    · simp
    · rw [cut]
      simp [TenthHasNext]

theorem Fetches.read_of_mem {α : Type} {path : JsString}
    {query : Option JsString → List (JsString × JsString)} {read : Json → Option (Page α)}
    {token : Option JsString} {exchanges : List Exchange} {pages : List (Page α)}
    (fetches : Fetches path query read token exchanges pages) :
    ∀ page ∈ pages, ∃ body, read body = some page := by
  induction fetches with
  | nil => exact List.forall_mem_nil _
  | cons isRead rest ih => exact List.forall_mem_cons.mpr ⟨⟨_, isRead⟩, ih⟩

/-! ## Well-formed pages -/

theorem listable_eq_some_iff {catalogs : List CatalogMapping} {parentId : JsString}
    {parent : AssetAddress} {mapping : CatalogMapping} :
    UpstreamClient.listable catalogs parentId = some (parent, mapping) ↔
      parseAssetId parentId = some parent ∧ parent.kind ≠ .table ∧
        byName catalogs (parent.segments.headD []) = some mapping := by
  rw [UpstreamClient.listable, Option.bind_eq_bind, Option.bind_eq_some_iff]
  constructor
  · intro found
    rcases found with ⟨other, read, rest⟩
    split_ifs at rest with isTable
    rcases Option.bind_eq_some_iff.mp rest with ⟨named, isNamed, same⟩
    cases same
    exact ⟨read, isTable, isNamed⟩
  · intro facts
    refine ⟨parent, facts.1, ?_⟩
    rw [if_neg facts.2.1, facts.2.2]
    rfl

theorem name_of_byName {catalogs : List CatalogMapping} {name : JsString} {mapping : CatalogMapping}
    (named : byName catalogs name = some mapping) : mapping.name = name := by
  have found := List.find?_some named
  simpa using found

/-- The segments of an address: its catalog, and the names below it. -/
theorem segments_of_parseAssetId {id : JsString} {address : AssetAddress}
    (read : parseAssetId id = some address) :
    address.segments = address.segments.headD [] :: address.segments.tail ∧
      (∀ segment ∈ address.segments, isSafeUpstreamSegment segment = true) ∧
      address.kind.Admits address.segments.length := by
  rcases parseAssetId_eq_some_iff.mp read with ⟨_, raw, _, _, _, _, _, safe, admitted⟩
  refine ⟨?_, safe, admitted⟩
  cases segments : address.segments with
  | nil =>
      rw [segments] at admitted
      cases kind : address.kind <;> rw [kind] at admitted <;> exact absurd admitted (by decide)
  | cons first rest => rfl

/-- The service answers with pages of the shape that was asked for. -/
structure WellFormed (client : UpstreamClient) (mapping : CatalogMapping) (ns : List JsString) :
    Prop where
  config : ∀ log, ∃ body config start,
    client.answer log ⟨client.expectedPath (ofString "/v1/config"),
      parameter "warehouse" (some mapping.warehouse)⟩ = .ok body ∧
    configSchema body = some config ∧ prefixSegment (configuredPrefix config) = .ok start
  namespaces : ∀ log start token, ∃ body page,
    client.answer log ⟨client.expectedPath (namespacesPath start), listNamespacesQuery ns token⟩ =
      .ok body ∧ readChildren ns body = some page
  tables : ∀ log start path token, ∃ body page,
    client.answer log ⟨client.expectedPath (objectPath start path), listTablesQuery token⟩ =
      .ok body ∧ listTablesSchema body = some page

theorem returns_getJson {client : UpstreamClient} {path : JsString}
    {query : List (JsString × JsString)} {holds : Json → Prop}
    (unchanged : setPathname (client.expectedPath path) = client.expectedPath path)
    (answered : ∀ log, ∃ body, client.answer log ⟨client.expectedPath path, query⟩ = .ok body ∧
      holds body) : (client.getJson path query).Returns holds := by
  intro log
  rcases answered log with ⟨body, isAnswer, isBody⟩
  exact ⟨body, _, getJson_of_answer unchanged isAnswer, isBody⟩

section WellFormed

variable {client : UpstreamClient} {mapping : CatalogMapping} {ns : List JsString}

theorem returns_prefixFor (wellFormed : WellFormed client mapping ns) :
    (client.prefixFor mapping).Returns fun start => ∃ raw, prefixSegment raw = .ok start := by
  have spelled : ofString "/v1/config" = pathname [ofString "v1", ofString "config"] := by decide
  have normal : ∀ segment ∈ [ofString "v1", ofString "config"], NormalSegment segment := by
    have version : NormalSegment (ofString "v1") :=
      normalSegment_of_all (by decide) (by decide) (by decide)
    have configuration : NormalSegment (ofString "config") :=
      normalSegment_of_all (by decide) (by decide) (by decide)
    simp [version, configuration]
  have unchanged := setPathname_expectedPath client spelled (by simp) normal
  have answered : ∀ log, ∃ body, client.answer log ⟨client.expectedPath (ofString "/v1/config"),
      parameter "warehouse" (some mapping.warehouse)⟩ = .ok body ∧
        ∃ config start, configSchema body = some config ∧
          prefixSegment (configuredPrefix config) = .ok start := by
    intro log
    rcases wellFormed.config log with ⟨body, config, start, isAnswer, read, accepted⟩
    exact ⟨body, isAnswer, config, start, read, accepted⟩
  apply (returns_getJson unchanged answered).bind
  intro body found
  rcases found with ⟨config, start, read, accepted⟩
  rw [read]
  intro log
  rcases Session.returns_ofExcept accepted log with ⟨value, later, returned, rfl⟩
  exact ⟨value, later, returned, _, accepted⟩

theorem returns_namespacesPage (wellFormed : WellFormed client mapping ns) {raw start : JsString}
    (accepted : prefixSegment raw = .ok start) (token : Option JsString) :
    (client.namespacesPage start ns token).Returns fun page => ∀ item ∈ page.items,
      item ≠ [] ∧ ∀ segment ∈ item, isSafeUpstreamSegment segment = true := by
  rcases exists_namespacesPath accepted with ⟨segments, spelled, nonempty, normal⟩
  have unchanged := setPathname_expectedPath client spelled nonempty normal
  have answered := fun log => wellFormed.namespaces log start token
  simp only [exists_and_left] at answered
  apply (returns_getJson unchanged answered).bind
  intro body found
  rcases found with ⟨page, read⟩
  rcases Option.filter_eq_some_iff.mp read with ⟨isPage, children⟩
  simp only [isPage, children, if_true]
  apply Session.returns_pure
  intro item listed
  rw [List.mem_filter, List.all_eq_true] at listed
  refine ⟨?_, listed.2⟩
  intro empty
  have isChild := List.all_eq_true.mp children item listed.1
  rw [empty, isChildOf] at isChild
  simp at isChild

theorem returns_tablesPage (wellFormed : WellFormed client mapping ns) {raw start path : JsString}
    (accepted : prefixSegment raw = .ok start) (found : (UpstreamObject.tables ns).path = .ok path)
    (token : Option JsString) :
    (client.tablesPage start ns token).Returns fun page => ∀ item ∈ page.items, True := by
  have unchanged := (upstream_paths_confined client _ _ accepted found found).2.unchanged
  have answered := fun log => wellFormed.tables log start path token
  simp only [exists_and_left] at answered
  apply (Session.returns_ofExcept found).bind
  intro value isPath
  rw [isPath]
  apply (returns_getJson unchanged answered).bind
  intro body read
  rcases read with ⟨page, isPage⟩
  rw [isPage]
  exact Session.returns_pure fun _ _ => trivial

/-- A listing returns, unless the names of a schema hold half of a surrogate pair. -/
theorem returns_listChildren {parent : AssetAddress}
    (wellFormed : WellFormed client mapping parent.segments.tail) (named : mapping.name ≠ [])
    (filled : ∀ segment ∈ parent.segments.tail, segment ≠ [])
    (encodes : parent.kind = .schema →
      ∃ path, (UpstreamObject.tables parent.segments.tail).path = .ok path) :
    (client.listChildren mapping parent).Returns fun _ => True := by
  have noItem : ∀ {α : Type} {good : α → Prop}, ∀ item ∈ ([] : List α), good item :=
    fun _ listed => absurd listed List.not_mem_nil
  apply (returns_prefixFor wellFormed).bind
  intro start found
  rcases found with ⟨raw, accepted⟩
  apply (returns_drainFrom (returns_namespacesPage wellFormed accepted) MAX_PAGES none []
    [NODE_AUTHZ_WARNING] noItem).bind
  intro found good
  have valid : ∀ item ∈ found.1, (schemaNode mapping.name item).isValid = true := by
    intro item listed
    rcases good item listed with ⟨nonempty, safe⟩
    exact schemaNode_isValid named nonempty
      fun segment member => nonempty_of_isSafeUpstreamSegment (safe segment member)
  apply (Session.returns_ofExcept (mapM_parse_eq_ok_iff.mpr ⟨rfl, valid⟩)).bind
  intro schemas _
  split_ifs with isSchema
  · rcases encodes isSchema with ⟨path, isPath⟩
    apply (returns_drainFrom (returns_tablesPage wellFormed accepted isPath) MAX_PAGES none []
      found.2 noItem).bind
    intro tables _
    have tablesValid : ∀ id ∈ tables.1,
        (tableNode mapping.name parent.segments.tail id.name).isValid = true :=
      fun id _ => tableNode_isValid named filled
    apply (Session.returns_ofExcept (mapM_parse_eq_ok_iff.mpr ⟨rfl, tablesValid⟩)).bind
    intro assets _
    exact Session.returns_pure trivial
  · exact Session.returns_pure trivial

end WellFormed

/-- `[start, end)` of the items, for a page of at least one. -/
def paginate {α : Type} (items : List α) (page pageSize : Nat) : List α × Nat :=
  ((items.drop ((page - 1) * pageSize)).take pageSize, items.length)

structure ListMeta where
  total : Nat
  page : Nat
  pageSize : Nat
  deriving DecidableEq, Repr

/-- The warnings are left out if there are none. -/
structure ListEnvelope where
  data : List DataAsset
  listMeta : ListMeta
  warnings : Option (List ListWarning)
  deriving DecidableEq

def buildListEnvelope (data : List DataAsset) (listMeta : ListMeta) (warnings : List ListWarning) :
    ListEnvelope :=
  ⟨data, listMeta, if warnings = [] then none else some warnings⟩

structure DataAssetListQuery where
  page : Nat
  pageSize : Nat
  status : Option HealthStatus
  kind : Option DataAssetKind

/-- The response for a listing of a source that adds no warnings of its own for items. -/
def listRoute (result : DataAssetListResult) (query : DataAssetListQuery) : ListEnvelope :=
  let filtered := result.assets.filter fun asset =>
    query.status.all (asset.status = ·) && query.kind.all (asset.kind = ·)
  let (pageItems, total) := paginate filtered query.page query.pageSize
  buildListEnvelope pageItems ⟨total, query.page, query.pageSize⟩ result.warnings

/-- The first pages are the start of the items. -/
theorem flatMap_paginate {α : Type} (items : List α) (pageSize pages : Nat) :
    (List.range pages).flatMap (fun i => (paginate items (i + 1) pageSize).1) =
      items.take (pages * pageSize) := by
  induction pages with
  | zero => simp
  | succ pages ih =>
      rw [List.range_succ, List.flatMap_append, ih, List.flatMap_singleton, paginate,
        Nat.add_sub_cancel, Nat.succ_mul, List.take_add]

/-- As many pages as the items need show all of them. -/
theorem flatMap_pages {α : Type} (items : List α) {pageSize : Nat} (positive : 0 < pageSize) :
    (List.range ((items.length + pageSize - 1) / pageSize)).flatMap
      (fun i => (paginate items (i + 1) pageSize).1) = items := by
  have enough : items.length ≤ (items.length + pageSize - 1) / pageSize * pageSize := by
    have division := Nat.div_add_mod (items.length + pageSize - 1) pageSize
    have remainder := Nat.mod_lt (items.length + pageSize - 1) positive
    rw [Nat.mul_comm] at division
    omega
  rw [flatMap_paginate, List.take_of_length_le enough]

/-- As many pages as there are items show all of them. -/
theorem flatMap_listRoute (result : DataAssetListResult) {pageSize : Nat}
    (positive : 0 < pageSize) :
    (List.range ((result.assets.length + pageSize - 1) / pageSize)).flatMap
      (fun i => (listRoute result ⟨i + 1, pageSize, none, none⟩).data) = result.assets := by
  have shown : ∀ page, (listRoute result ⟨page, pageSize, none, none⟩).data =
      (paginate result.assets page pageSize).1 := by
    intro page
    simp [listRoute, buildListEnvelope]
  have enough : result.assets.length ≤
      (result.assets.length + pageSize - 1) / pageSize * pageSize := by
    have division := Nat.div_add_mod (result.assets.length + pageSize - 1) pageSize
    have remainder := Nat.mod_lt (result.assets.length + pageSize - 1) positive
    rw [Nat.mul_comm] at division
    omega
  simp only [shown]
  rw [flatMap_paginate, List.take_of_length_le enough]

/-! ## Nothing is lost -/

/-- Whatever the service answers, a listing that returns shows every item of the pages it
asked for that can be addressed, and says so if there are more; the pages of the route make
it up again.  Where the service answers with pages of the right shape the listing returns,
unless the names of the parent cannot be percent-encoded. -/
theorem listing_complete (client : UpstreamClient) (catalogs : List CatalogMapping)
    {parentId : JsString} {parent : AssetAddress} {mapping : CatalogMapping}
    (isListable : UpstreamClient.listable catalogs parentId = some (parent, mapping))
    (log : List Exchange) {pageSize : Nat} (positive : 0 < pageSize) :
    (∀ result later, client.list catalogs (some parentId) log = (.ok result, later) →
      (∃ config start namespaces namespacePages tables tablePages,
        later = log ++ config :: (namespaces ++ tables) ∧
        ListedFrom client mapping parent start result namespaces namespacePages tables tablePages) ∧
      (List.range ((result.assets.length + pageSize - 1) / pageSize)).flatMap
          (fun i => (listRoute result ⟨i + 1, pageSize, none, none⟩).data) = result.assets ∧
      ∀ page, (listRoute result ⟨page, pageSize, none, none⟩).listMeta.total =
        result.assets.length) ∧
    (WellFormed client mapping parent.segments.tail →
      encodeURIComponent (join NS_SEP parent.segments.tail) = none ∨
        ∃ result later, client.list catalogs (some parentId) log = (.ok result, later)) := by
  rcases listable_eq_some_iff.mp isListable with ⟨read, _, isNamed⟩
  rcases segments_of_parseAssetId read with ⟨split, safe, _⟩
  have isList : client.list catalogs (some parentId) = client.listChildren mapping parent := by
    simp only [UpstreamClient.list, isListable]
  rw [isList]
  constructor
  · intro result later returned
    refine ⟨listChildren_spec returned, flatMap_listRoute result positive, ?_⟩
    intro page
    simp [listRoute, buildListEnvelope, paginate]
  · intro wellFormed
    have tailSafe : ∀ segment ∈ parent.segments.tail, isSafeUpstreamSegment segment = true :=
      fun segment listed => safe segment (List.mem_of_mem_tail listed)
    have named : mapping.name ≠ [] := by
      rw [name_of_byName isNamed]
      apply nonempty_of_isSafeUpstreamSegment
      apply safe
      rw [split]
      exact List.mem_cons_self
    cases encoded : encodeURIComponent (join NS_SEP parent.segments.tail) with
    | none => exact Or.inl rfl
    | some inPath =>
        right
        have found : nsPath parent.segments.tail = .ok inPath :=
          nsPath_eq_ok_iff.mpr ⟨List.all_eq_true.mpr tailSafe, encoded⟩
        have encodes : ∃ path, (UpstreamObject.tables parent.segments.tail).path = .ok path := by
          rw [UpstreamObject.path, found]
          exact ⟨_, rfl⟩
        have returns := returns_listChildren wellFormed named
          (fun segment listed => nonempty_of_isSafeUpstreamSegment (tailSafe segment listed))
          fun _ => encodes
        rcases returns log with ⟨result, later, returned, _⟩
        exact ⟨result, later, returned⟩

/-- A service with two pages of namespaces, of which one has no address. -/
def twoPages : UpstreamClient where
  base := ofString "/catalog"
  answer _ request :=
    let word (text : String) : Json := .string (ofString text)
    if request.path = ofString "/catalog/v1/config" then .ok (.object [])
    else if (ofString "pageToken", ofString "t2") ∈ request.query then
      .ok (.object [(ofString "namespaces", .array [.array [word "sales"]])])
    else
      .ok (.object
        [(ofString "namespaces", .array [.array [word "raw.v1"], .array [word ".."]]),
          (ofString "next-page-token", word "t2")])

/-- Both pages are shown, one asset a page. -/
theorem listing_complete_twoPages :
    ∃ result later, twoPages.list [⟨ofString "c", ofString "w"⟩]
        (some (ofString "asset-catalog-c")) [] =
        (.ok result, later) ∧
      result.assets.map DataAsset.name = [ofString "raw.v1", ofString "sales"] ∧
      (List.range ((result.assets.length + 1 - 1) / 1)).flatMap
        (fun i => (listRoute result ⟨i + 1, 1, none, none⟩).data) = result.assets := by
  have complete := @listing_complete twoPages [⟨ofString "c", ofString "w"⟩]
    (ofString "asset-catalog-c") ⟨.catalog, [ofString "c"]⟩ ⟨ofString "c", ofString "w"⟩
    (by decide +kernel) [] 1 (by decide)
  have shown :
    (twoPages.list [⟨ofString "c", ofString "w"⟩] (some (ofString "asset-catalog-c")) []).1 =
      .ok ⟨[schemaNode (ofString "c") [ofString "raw.v1"],
        schemaNode (ofString "c") [ofString "sales"]],
        [NODE_AUTHZ_WARNING]⟩ := by
    rfl
  have returned := Session.eq_of_fst_eq shown
  exact ⟨_, _, returned, rfl, (complete.1 _ _ returned).2.1⟩

end BelugaManager.DomainApi
