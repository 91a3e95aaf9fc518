import BelugaManager.DomainApi.AdapterRegistry
import BelugaManager.DomainApi.SqlRedaction

/-!
# The query history

`upstream/trinoQueryHistory.ts` turns the queries that a coordinator retains into entries, and
`routes/queryHistory.ts` pages them.  The memo in front of the load is left out: what it serves is
the result of an earlier load.
-/

namespace BelugaManager.DomainApi

open Foundation Foundation.JsString

structure BasicQueryInfo where
  queryId : JsString
  state : JsString
  query : JsString
  deriving DecidableEq

def basicQueryInfoSchema (body : Json) : Option BasicQueryInfo := do
  let queryId ← (← body.member "queryId").nonemptyText
  let state ← (← body.member "state").nonemptyText
  let query ← (← body.member "query").text
  pure ⟨queryId, state, query⟩

def MAX_HISTORY_ENTRIES : ℕ := 1000

structure QueryHistoryEntry where
  id : JsString
  sql : JsString
  state : JsString
  deriving DecidableEq

/-- `queryHistoryEntrySchema.parse` -/
def QueryHistoryEntry.parse (entry : QueryHistoryEntry) : Except Failure QueryHistoryEntry :=
  if entry.id ≠ [] ∧ entry.sql ≠ [] ∧ entry.state ≠ [] then .ok entry else .error .schemaError

structure QueryHistorySnapshot where
  entries : List QueryHistoryEntry
  truncated : Bool
  upstreamCount : Option ℕ

def EMPTY_SQL : JsString := ofString "<empty>"

/-- The text of a query as it is shown. -/
def shownSql (redact : Bool) (query : JsString) : JsString :=
  let trimmed := trim (if redact then redactSqlLiterals query else query)
  if trimmed = [] then EMPTY_SQL else trimmed

def historyEntry (redact : Bool) (item : BasicQueryInfo) : QueryHistoryEntry :=
  ⟨item.queryId, shownSql redact item.query, item.state⟩

/-- What `load` makes of the answer to `/v1/query`. -/
def loadHistory (redactSql : Option Bool) (answer : Except UpstreamErrorKind Json) :
    Except Failure QueryHistorySnapshot :=
  match answer with
  | .error kind => .error (.upstream kind)
  | .ok body =>
      match body.listOf basicQueryInfoSchema with
      | none => .error (.upstream .malformed)
      | some items => do
          let entries ← ((items.take MAX_HISTORY_ENTRIES).map
            (historyEntry (redactSql.getD true))).mapM QueryHistoryEntry.parse
          return ⟨entries, decide (MAX_HISTORY_ENTRIES < items.length), some items.length⟩

def isCredentialKind (kind : UpstreamErrorKind) : Bool :=
  kind = .forbidden || kind = .unauthenticated

def describeUpstreamFailure (failure : Option Failure) (subject : String) : String :=
  match failure with
  | some (.upstream kind) =>
      if isCredentialKind kind then
        subject ++ " is unavailable: the upstream did not accept Manager's service credential"
      else subject ++ " is currently unavailable"
  | _ => subject ++ " is currently unavailable"

structure HistoryEnvelope where
  data : List QueryHistoryEntry
  listMeta : ListMeta
  warnings : Option (List ListWarning)
  deriving DecidableEq

inductive HistoryResponse where
  | ok (envelope : HistoryEnvelope)
  | serviceUnavailable (message : String)
  deriving DecidableEq

def truncationWarning (shown : ℕ) : ListWarning where
  code := "HISTORY_TRUNCATED"
  message := ofString
    ("Upstream returned more queries than are exposed; only the first " ++ toString shown ++
      " are shown (meta.total counts exposed rows)")
  serviceId := some "svc-trino"

def historyPage (snapshot : QueryHistorySnapshot) (page pageSize : ℕ) :
    Except Failure HistoryEnvelope := do
  let entries ← snapshot.entries.mapM QueryHistoryEntry.parse
  let warnings := if snapshot.truncated then [truncationWarning entries.length] else []
  let (pageItems, total) := paginate entries page pageSize
  return ⟨pageItems, ⟨total, page, pageSize⟩, if warnings = [] then none else some warnings⟩

/-- What the race of the route is won by: the adapter, or the deadline. -/
inductive HistoryEvent where
  | read (result : Except Failure QueryHistorySnapshot)
  | deadline

def HistoryEvent.respond (page pageSize : ℕ) : HistoryEvent → HistoryResponse
  | .deadline => .serviceUnavailable (describeUpstreamFailure none "Query history")
  | .read result =>
      match result.bind (historyPage · page pageSize) with
      | .ok envelope => .ok envelope
      | .error failure =>
          .serviceUnavailable (describeUpstreamFailure (some failure) "Query history")

/-- The response, once something has happened. -/
def queryHistoryRoute (configured : Bool) (events : List HistoryEvent) (page pageSize : ℕ) :
    Option HistoryResponse :=
  if configured then events.head?.map (HistoryEvent.respond page pageSize)
  else some (.serviceUnavailable "Query history is currently unavailable")

theorem EMPTY_SQL_ne_nil : EMPTY_SQL ≠ [] := by decide +kernel

theorem shownSql_ne_nil (redact : Bool) (query : JsString) : shownSql redact query ≠ [] := by
  rw [shownSql]
  by_cases empty : trim (if redact then redactSqlLiterals query else query) = []
  · exact (if_pos empty).trans_ne EMPTY_SQL_ne_nil
  · exact (if_neg empty).trans_ne empty

theorem nonempty_of_basicQueryInfoSchema {body : Json} {item : BasicQueryInfo}
    (accepted : basicQueryInfoSchema body = some item) : item.queryId ≠ [] ∧ item.state ≠ [] := by
  rcases Option.bind_eq_some_iff.mp accepted with ⟨idBody, _, accepted⟩
  rcases Option.bind_eq_some_iff.mp accepted with ⟨queryId, isId, accepted⟩
  rcases Option.bind_eq_some_iff.mp accepted with ⟨stateBody, _, accepted⟩
  rcases Option.bind_eq_some_iff.mp accepted with ⟨state, isState, accepted⟩
  rcases Option.bind_eq_some_iff.mp accepted with ⟨queryBody, _, accepted⟩
  rcases Option.bind_eq_some_iff.mp accepted with ⟨query, _, same⟩
  cases same
  rw [Json.nonemptyText, Option.filter_eq_some_iff, decide_eq_true_eq] at isId isState
  exact ⟨isId.2, isState.2⟩

theorem nonempty_of_listOf {body : Json} {items : List BasicQueryInfo}
    (accepted : body.listOf basicQueryInfoSchema = some items) {item : BasicQueryInfo}
    (member : item ∈ items) : item.queryId ≠ [] ∧ item.state ≠ [] := by
  cases body with
  | array bodies =>
      have each := (mapM_eq_some_iff basicQueryInfoSchema bodies items).mp accepted
      have isImage : some item ∈ bodies.map basicQueryInfoSchema := by
        rw [each]
        exact List.mem_map_of_mem member
      rcases List.mem_map.mp isImage with ⟨itemBody, _, isItem⟩
      exact nonempty_of_basicQueryInfoSchema isItem
  | _ => cases accepted

theorem mapM_parse {entries : List QueryHistoryEntry}
    (filled : ∀ entry ∈ entries, entry.id ≠ [] ∧ entry.sql ≠ [] ∧ entry.state ≠ []) :
    entries.mapM QueryHistoryEntry.parse = .ok entries := by
  induction entries with
  | nil => rfl
  | cons entry entries ih =>
      rw [List.mapM_cons, QueryHistoryEntry.parse, if_pos (filled entry List.mem_cons_self),
        ih fun other member => filled other (List.mem_cons_of_mem _ member)]
      rfl

/-- The entries that are exposed of the queries that a coordinator retains. -/
def exposed (redactSql : Option Bool) (items : List BasicQueryInfo) : List QueryHistoryEntry :=
  (items.take MAX_HISTORY_ENTRIES).map (historyEntry (redactSql.getD true))

/-- Every entry that is exposed passes its own check. -/
theorem mapM_parse_exposed (redactSql : Option Bool) {body : Json} {items : List BasicQueryInfo}
    (accepted : body.listOf basicQueryInfoSchema = some items) :
    (exposed redactSql items).mapM QueryHistoryEntry.parse = .ok (exposed redactSql items) := by
  apply mapM_parse
  intro entry member
  rcases List.mem_map.mp member with ⟨item, taken, rfl⟩
  have filled := nonempty_of_listOf accepted (List.mem_of_mem_take taken)
  exact ⟨filled.1, shownSql_ne_nil _ _, filled.2⟩

theorem loadHistory_eq (redactSql : Option Bool) {body : Json} {items : List BasicQueryInfo}
    (accepted : body.listOf basicQueryInfoSchema = some items) :
    loadHistory redactSql (.ok body) =
      .ok ⟨exposed redactSql items, decide (MAX_HISTORY_ENTRIES < items.length),
        some items.length⟩ := by
  have parsed := mapM_parse_exposed redactSql accepted
  rw [exposed] at parsed
  simp only [loadHistory, accepted]
  rw [parsed]
  rfl

/-! ## Pages -/

/-- The page of the queries that a coordinator retains. -/
def exposedPage (redactSql : Option Bool) (items : List BasicQueryInfo) (page pageSize : ℕ) :
    HistoryEnvelope where
  data := (paginate (exposed redactSql items) page pageSize).1
  listMeta := ⟨(exposed redactSql items).length, page, pageSize⟩
  warnings :=
    if MAX_HISTORY_ENTRIES < items.length then
      some [truncationWarning (exposed redactSql items).length]
    else none

theorem respond_accepted (redactSql : Option Bool) {body : Json} {items : List BasicQueryInfo}
    (accepted : body.listOf basicQueryInfoSchema = some items) (page pageSize : ℕ) :
    HistoryEvent.respond page pageSize (.read (loadHistory redactSql (.ok body))) =
      .ok (exposedPage redactSql items page pageSize) := by
  rw [loadHistory_eq redactSql accepted, HistoryEvent.respond]
  have parsed := mapM_parse_exposed redactSql accepted
  simp only [Except.bind, historyPage, parsed]
  by_cases truncated : MAX_HISTORY_ENTRIES < items.length
  · simp [exposedPage, truncated, paginate, bind, Except.bind, pure, Except.pure]
  · simp [exposedPage, truncated, paginate, bind, Except.bind, pure, Except.pure]

/-- Nothing is shown of an answer that is not a list of queries. -/
inductive Unreadable : Except UpstreamErrorKind Json → UpstreamErrorKind → Prop where
  | failed (kind : UpstreamErrorKind) : Unreadable (.error kind) kind
  | malformed {body : Json} (rejected : body.listOf basicQueryInfoSchema = none) :
      Unreadable (.ok body) .malformed

theorem respond_unreadable (redactSql : Option Bool) {answer : Except UpstreamErrorKind Json}
    {kind : UpstreamErrorKind} (unreadable : Unreadable answer kind) (page pageSize : ℕ) :
    HistoryEvent.respond page pageSize (.read (loadHistory redactSql answer)) =
      .serviceUnavailable (describeUpstreamFailure (some (.upstream kind)) "Query history") := by
  cases unreadable with
  | failed kind => rfl
  | malformed rejected => simp only [loadHistory, rejected, HistoryEvent.respond, Except.bind]

/-- If the adapter answers in time, either its answer is unreadable and no page shows anything of
it, or the pages show the first thousand queries in order, each page with their number and with a
warning exactly when there are more. -/
theorem history_paged (redactSql : Option Bool) (answer : Except UpstreamErrorKind Json)
    (later : List HistoryEvent) {pageSize : ℕ} (positive : 0 < pageSize) :
    (∃ kind, Unreadable answer kind ∧ ∀ page,
      queryHistoryRoute true (.read (loadHistory redactSql answer) :: later) page pageSize =
        some (.serviceUnavailable
          (describeUpstreamFailure (some (.upstream kind)) "Query history"))) ∨
    ∃ body items, answer = .ok body ∧ body.listOf basicQueryInfoSchema = some items ∧
      ∃ pages : ℕ → HistoryEnvelope,
        (∀ page,
          queryHistoryRoute true (.read (loadHistory redactSql answer) :: later) (page + 1)
            pageSize = some (.ok (pages page))) ∧
        (List.range (((exposed redactSql items).length + pageSize - 1) / pageSize)).flatMap
            (fun page => (pages page).data) =
          (items.take MAX_HISTORY_ENTRIES).map (historyEntry (redactSql.getD true)) ∧
        ∀ page, (pages page).listMeta.total = min MAX_HISTORY_ENTRIES items.length ∧
          ((pages page).warnings.isSome ↔ MAX_HISTORY_ENTRIES < items.length) ∧
          ∀ warnings, (pages page).warnings = some warnings →
            warnings.map ListWarning.code = ["HISTORY_TRUNCATED"] := by
  cases answer with
  | error kind =>
      exact Or.inl ⟨kind, .failed kind, fun page =>
        congrArg some (respond_unreadable redactSql (.failed kind) page pageSize)⟩
  | ok body =>
      cases accepted : body.listOf basicQueryInfoSchema with
      | none =>
          exact Or.inl ⟨.malformed, .malformed accepted, fun page =>
            congrArg some (respond_unreadable redactSql (.malformed accepted) page pageSize)⟩
      | some items =>
          refine Or.inr ⟨body, items, rfl, accepted,
            fun page => exposedPage redactSql items (page + 1) pageSize, ?_, ?_, ?_⟩
          · intro page
            exact congrArg some (respond_accepted redactSql accepted (page + 1) pageSize)
          · exact flatMap_pages (exposed redactSql items) positive
          · intro page
            refine ⟨(List.length_map _).trans List.length_take, ?_, ?_⟩
            · by_cases truncated : MAX_HISTORY_ENTRIES < items.length
              · simp [exposedPage, truncated]
              · simp [exposedPage, truncated]
            · intro warnings warned
              rw [← Option.some.inj (Option.ite_none_right_eq_some.mp warned).2]
              rfl

/-- The answer with some queries in it. -/
def historyBody (infos : List BasicQueryInfo) : Json :=
  .array (infos.map fun info => .object [(ofString "queryId", .string info.queryId),
    (ofString "state", .string info.state), (ofString "query", .string info.query)])

def threeInfos : List BasicQueryInfo :=
  [⟨ofString "20261001_000003", ofString "RUNNING", ofString "SELECT 3"⟩,
    ⟨ofString "20261001_000002", ofString "FAILED", ofString "SELEC 'a'"⟩,
    ⟨ofString "20261001_000001", ofString "FINISHED", []⟩]

/-- Three queries on pages of two. -/
theorem history_paged_threeQueries :
    ∃ pages : ℕ → HistoryEnvelope,
      (∀ page,
        queryHistoryRoute true [.read (loadHistory none (.ok (historyBody threeInfos)))]
          (page + 1) 2 = some (.ok (pages page))) ∧
      (pages 0).data ++ (pages 1).data = threeInfos.map (historyEntry true) ∧
      ∀ page, (pages page).listMeta.total = 3 ∧ (pages page).warnings = none := by
  have accepted : (historyBody threeInfos).listOf basicQueryInfoSchema = some threeInfos := by
    decide +kernel
  rcases history_paged none (.ok (historyBody threeInfos)) [] two_pos with
    ⟨kind, unreadable, _⟩ | ⟨body, items, isBody, isItems, pages, responds, shown, counted⟩
  · cases unreadable with
    | malformed rejected =>
        rw [accepted] at rejected
        cases rejected
  · rw [← Except.ok.inj isBody, accepted] at isItems
    cases isItems
    refine ⟨pages, responds, ?_, ?_⟩
    · have twoPages : List.range (((exposed none threeInfos).length + 2 - 1) / 2) = [0, 1] := by
        decide
      rw [twoPages, List.take_of_length_le (by decide)] at shown
      simpa using shown
    · intro page
      rcases counted page with ⟨total, warned, _⟩
      refine ⟨total, ?_⟩
      rw [← Option.not_isSome_iff_eq_none, warned]
      decide

/-! ## What is disclosed -/

/-- Tokens that agree but for contents show the same, if they leave the same identifier open. -/
theorem flatMap_shown_eq {tokens others : List Token}
    (closed : ∀ token ∈ tokens.dropLast, token.isOpen = false)
    (same : tokens.map Token.erased = others.map Token.erased)
    (sameOpen : openIdentifier tokens = openIdentifier others) :
    tokens.flatMap Token.shown = others.flatMap Token.shown := by
  induction tokens generalizing others with
  | nil =>
      rw [List.map_nil] at same
      rw [List.map_eq_nil_iff.mp same.symm]
  | cons token rest ih =>
      cases others with
      | nil => simp at same
      | cons other others =>
          rw [List.map_cons, List.map_cons, List.cons.injEq] at same
          cases rest with
          | nil =>
              have single : others = [] := List.map_eq_nil_iff.mp same.2.symm
              rw [single] at sameOpen ⊢
              have shown : token.shown = other.shown := by
                cases token with
                | identifier body isClosed =>
                    cases other with
                    | identifier body' isClosed' =>
                        cases isClosed <;> cases isClosed' <;>
                          simp_all [Token.erased, openIdentifier]
                    | _ => simp [Token.erased] at same
                | _ => cases other <;> simp_all [Token.erased, Token.shown]
              rw [List.flatMap_singleton, List.flatMap_singleton, shown]
          | cons second rest =>
              cases others with
              | nil => simp at same
              | cons second' others =>
                  have here := shown_eq_of_erased same.1 (closed token (by simp))
                  rw [openIdentifier_cons, openIdentifier_cons] at sameOpen
                  have later := ih (fun token member => closed token (by
                    rw [List.dropLast_cons_of_ne_nil (List.cons_ne_nil _ _)]
                    exact List.mem_cons_of_mem _ member)) same.2 sameOpen
                  rw [@List.flatMap_cons _ _ token, @List.flatMap_cons _ _ other, here, later]

/-- Queries that differ only in the contents of literals and comments, and in those of other
constructs that are left open. -/
structure BasicQueryInfo.Alike (item item' : BasicQueryInfo) : Prop where
  sameId : item.queryId = item'.queryId
  sameState : item.state = item'.state
  sameStructure : SameStructure item.query item'.query
  sameOpen : openIdentifier (lex item.query) = openIdentifier (lex item'.query)

theorem BasicQueryInfo.Alike.historyEntry_eq {item item' : BasicQueryInfo}
    (alike : item.Alike item') : historyEntry true item = historyEntry true item' := by
  have sameShown :
      (lex item.query).flatMap Token.shown = (lex item'.query).flatMap Token.shown :=
    flatMap_shown_eq (fun _ member => isOpen_of_mem_dropLast member) alike.sameStructure
      alike.sameOpen
  have sameSql : redactSqlLiterals item.query = redactSqlLiterals item'.query := by
    rw [redactSqlLiterals_eq, redactSqlLiterals_eq, sameShown]
  rw [historyEntry, historyEntry, alike.sameId, alike.sameState, shownSql, shownSql, if_pos rfl,
    if_pos rfl, sameSql]

/-- There is nothing to redact in the text of a query that is shown. -/
theorem redacted_shownSql (query : JsString) : Redacted none (shownSql true query) := by
  have nothing : (lexFrom none EMPTY_SQL).all Token.isKept = true := by decide +kernel
  rw [shownSql, if_pos rfl, redactSqlLiterals_eq, trim_trim]
  split
  next => exact List.all_eq_true.mp nothing
  next => exact redacted_trim (redacted_shown query none none fun _ => rfl)

/-- Unless redaction is switched off, the responses to two answers that hold the same queries but
for what redaction is about are the same, and show no literal and no comment. -/
theorem history_undisclosed (redactSql : Option Bool) (redacts : redactSql ≠ some false)
    {body body' : Json} {items items' : List BasicQueryInfo}
    (accepted : body.listOf basicQueryInfoSchema = some items)
    (accepted' : body'.listOf basicQueryInfoSchema = some items')
    (alike : List.Forall₂ BasicQueryInfo.Alike items items') (later : List HistoryEvent)
    (page pageSize : ℕ) :
    queryHistoryRoute true (.read (loadHistory redactSql (.ok body)) :: later) page pageSize =
        queryHistoryRoute true (.read (loadHistory redactSql (.ok body')) :: later) page
          pageSize ∧
      ∀ envelope,
        queryHistoryRoute true (.read (loadHistory redactSql (.ok body)) :: later) page pageSize =
          some (.ok envelope) →
        ∀ entry ∈ envelope.data, ∀ token ∈ lex entry.sql, token.isKept = true := by
  have isOn : redactSql.getD true = true := by
    cases redactSql with
    | none => rfl
    | some redact =>
        cases redact with
        | true => rfl
        | false => exact absurd rfl redacts
  constructor
  · have sameExposed : exposed redactSql items = exposed redactSql items' := by
      rw [exposed, exposed, isOn, ← List.forall₂_eq_eq_eq, List.forall₂_map_left_iff,
        List.forall₂_map_right_iff]
      exact (List.forall₂_take _ alike).imp fun _ _ same => same.historyEntry_eq
    have sameLength := alike.length_eq
    have samePage : exposedPage redactSql items page pageSize =
        exposedPage redactSql items' page pageSize := by
      rw [exposedPage, exposedPage, sameExposed, sameLength]
    exact congrArg some ((respond_accepted redactSql accepted page pageSize).trans
      ((congrArg HistoryResponse.ok samePage).trans
        (respond_accepted redactSql accepted' page pageSize).symm))
  · intro envelope responds entry member
    have isPage := (congrArg some (respond_accepted redactSql accepted page pageSize)).symm.trans
      responds
    cases isPage
    have isExposed : entry ∈ exposed redactSql items :=
      List.mem_of_mem_drop (List.mem_of_mem_take member)
    rw [exposed, isOn] at isExposed
    rcases List.mem_map.mp isExposed with ⟨item, _, rfl⟩
    exact redacted_shownSql item.query

/-- One query, and an answer that holds it. -/
def oneInfo (query : String) : BasicQueryInfo :=
  ⟨ofString "20261001_000001", ofString "RUNNING", ofString query⟩

def oneQuery (query : String) : Json := historyBody [oneInfo query]

/-- A literal is not disclosed. -/
theorem history_undisclosed_literals :
    queryHistoryRoute true
        [.read (loadHistory none (.ok (oneQuery "SELECT 'alice', 42")))] 1 20 =
      queryHistoryRoute true
        [.read (loadHistory none (.ok (oneQuery "SELECT 'bob', 7")))] 1 20 := by
  have accepted : (oneQuery "SELECT 'alice', 42").listOf basicQueryInfoSchema =
      some [oneInfo "SELECT 'alice', 42"] := by decide +kernel
  have accepted' : (oneQuery "SELECT 'bob', 7").listOf basicQueryInfoSchema =
      some [oneInfo "SELECT 'bob', 7"] := by decide +kernel
  have alike : (oneInfo "SELECT 'alice', 42").Alike (oneInfo "SELECT 'bob', 7") :=
    ⟨rfl, rfl, by decide +kernel, by decide +kernel⟩
  exact (history_undisclosed none (by decide) accepted accepted' (.cons alike .nil) [] 1 20).1

end BelugaManager.DomainApi
