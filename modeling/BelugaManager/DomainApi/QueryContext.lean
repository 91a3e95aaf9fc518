import BelugaManager.DomainApi.LakekeeperCatalog
import BelugaManager.DomainApi.SqlTokens

/-!
# Query contexts

The address of a table for the query engine, taken from the fields of its asset, and a
statement to start with in which every name is quoted.
-/

namespace BelugaManager.DomainApi

open Foundation Foundation.JsString

def TRINO_CATALOG : JsString := ofString "beluga_lake"

def SAMPLE_ROW_LIMIT : Nat := 20

/-- A name between quotes, the quotes in it doubled. -/
def quote (identifier : JsString) : JsString :=
  doubleQuote :: replaceAll [doubleQuote] [doubleQuote, doubleQuote] identifier ++ [doubleQuote]

def stripNamespacePrefix (name : JsString) (ns : List JsString) : JsString :=
  let start := if ns = [] then [] else join dot ns ++ [dot]
  if start ≠ [] && start.isPrefixOf name then name.drop start.length else name

/-- What the route reads of a service. -/
structure Service where
  id : JsString
  endpoint : Option JsString
  deriving DecidableEq

structure QueryContext where
  assetId : JsString
  catalog : JsString
  schema : JsString
  table : JsString
  trinoServiceId : JsString
  trinoUiUrl : JsString
  sampleSql : JsString
  readOnly : Bool
  rowLimit : Nat
  deriving DecidableEq

/-- `queryContextSchema.parse`, with the check of a URL as a parameter. -/
def QueryContext.isValid (isUrl : JsString → Bool) (context : QueryContext) : Bool :=
  context.assetId ≠ [] && context.catalog ≠ [] && context.schema ≠ [] && context.table ≠ [] &&
    context.trinoServiceId ≠ [] && isUrl context.trinoUiUrl && context.sampleSql ≠ [] &&
      context.readOnly && 0 < context.rowLimit

inductive QueryContextAnswer where
  | notFound
  | serviceUnavailable
  | internalError
  | ok (context : QueryContext)
  deriving DecidableEq

/-- The names below the catalog. -/
def addressParts (asset : DataAsset) : List JsString :=
  match asset.nameSpace with
  | some ns => ns ++ [stripNamespacePrefix asset.name ns]
  | none => split dot asset.name

def sampleSql (names : List JsString) : JsString :=
  ofString "SELECT * FROM " ++ join dot (names.map quote) ++ ofString " LIMIT " ++
    ofString (toString SAMPLE_ROW_LIMIT)

/-- The handler, for what the source has for the id and what the registry has for Trino. -/
def queryContextRoute (isUrl : JsString → Bool) (asset : Option DataAsset)
    (trino : Option Service) :
    QueryContextAnswer :=
  match asset with
  | none => .notFound
  | some asset =>
      match asset.kind, addressParts asset with
      | .table, [schema, table] =>
          match trino.bind fun service =>
            (service.endpoint.filter (· ≠ [])).map (service.id, ·) with
          | none => .serviceUnavailable
          | some (serviceId, endpoint) =>
              let catalog := asset.catalog.getD TRINO_CATALOG
              let context : QueryContext :=
                { assetId := asset.id, catalog := catalog, schema := schema, table := table,
                  trinoServiceId := serviceId, trinoUiUrl := endpoint,
                  sampleSql := sampleSql [catalog, schema, table], readOnly := true,
                  rowLimit := SAMPLE_ROW_LIMIT }
              if context.isValid isUrl then .ok context else .internalError
      | _, _ => .notFound

theorem stripNamespacePrefix_append {ns : List JsString} (nonempty : ns ≠ []) (table : JsString) :
    stripNamespacePrefix (join dot ns ++ dot :: table) ns = table := by
  have spelled : join dot ns ++ dot :: table = (join dot ns ++ [dot]) ++ table := by simp
  have starts : (join dot ns ++ [dot]).isPrefixOf ((join dot ns ++ [dot]) ++ table) = true :=
    List.isPrefixOf_iff_prefix.mpr (List.prefix_append _ table)
  rw [stripNamespacePrefix, if_neg nonempty, spelled, starts]
  simp

theorem addressParts_tableNode (catalog table : JsString) {ns : List JsString}
    (nonempty : ns ≠ []) :
    addressParts (tableNode catalog ns table) = ns ++ [table] := by
  rw [addressParts, tableNode]
  simp only [stripNamespacePrefix_append nonempty]

/-! ## The statement -/

/-- The name that an identifier stands for. -/
def Token.identifierName : Token → Option JsString
  | .identifier body true => some (replaceAll [doubleQuote, doubleQuote] [doubleQuote] body)
  | _ => none

theorem identifierName_doubled (name : JsString) :
    replaceAll [doubleQuote, doubleQuote] [doubleQuote]
      (replaceAll [doubleQuote] [doubleQuote, doubleQuote] name) = name := by
  rw [replaceAll_singleton]
  rw [@replaceAll_flatMap _ _ _ _ _ _ (fun unit => [unit])]
  · exact List.flatMap_singleton' name
  · intro unit rest
    split_ifs with isQuote
    · rw [isQuote]
      exact replaceAll_append_pattern doubleQuote [doubleQuote] [doubleQuote] rest
    · exact replaceAll_cons_of_ne [doubleQuote] [doubleQuote] rest isQuote

/-- A quoted name is read up to its closing quote. -/
theorem quoted_doubled (name : JsString) {rest : JsString} (start : rest.head? ≠ some doubleQuote) :
    quoted doubleQuote (replaceAll [doubleQuote] [doubleQuote, doubleQuote] name ++
      doubleQuote :: rest) =
        (replaceAll [doubleQuote] [doubleQuote, doubleQuote] name, some rest) := by
  rw [replaceAll_singleton]
  induction name with
  | nil => exact quoted_close start
  | cons unit name ih =>
      rw [List.flatMap_cons]
      split_ifs with isQuote
      · rw [List.append_assoc, List.cons_append, List.cons_append, List.nil_append, quoted,
          if_pos rfl, if_pos rfl, ih]
        rfl
      · rw [List.append_assoc, List.singleton_append, quoted_cons_of_ne isQuote (by simp), ih]
        rfl

/-- A unit that is a token of its own whatever stands around it. -/
def isPlainUnit (unit : UInt16) : Bool :=
  unit ≠ singleQuote && unit ≠ doubleQuote && unit ≠ hyphen && unit ≠ slash && !isDigitUnit unit

theorem lexFrom_plain {units : JsString} (plain : units.all isPlainUnit = true)
    (previous : Option UInt16) (rest : JsString) :
    lexFrom previous (units ++ rest) =
      units.map Token.text ++ lexFrom (units.getLast?.or previous) rest := by
  induction units generalizing previous with
  | nil => rfl
  | cons unit units ih =>
      rw [List.all_cons, Bool.and_eq_true] at plain
      have first : ∀ tail, nextToken previous unit tail = (.text unit, tail) := by
        intro tail
        have isPlain := plain.1
        simp only [isPlainUnit, Bool.and_eq_true, decide_eq_true_eq, Bool.not_eq_true'] at isPlain
        simp [nextToken, isPlain]
      rw [List.cons_append, lexFrom, first, ih plain.2]
      have last : units.getLast?.or (some unit) = (unit :: units).getLast?.or previous := by
        rw [List.getLast?_cons]
        cases units.getLast? <;> rfl
      rw [Token.source, List.getLast?_singleton, last]
      rfl

/-- A quoted name is one token, whatever its units. -/
theorem lexFrom_quote (previous : Option UInt16) (name : JsString) {rest : JsString}
    (start : rest.head? ≠ some doubleQuote) :
    lexFrom previous (quote name ++ rest) =
      .identifier (replaceAll [doubleQuote] [doubleQuote, doubleQuote] name) true ::
        lexFrom (some doubleQuote) rest := by
  have spelled : quote name ++ rest = doubleQuote ::
      (replaceAll [doubleQuote] [doubleQuote, doubleQuote] name ++ doubleQuote :: rest) := by
    simp [quote]
  have first : nextToken previous doubleQuote
      (replaceAll [doubleQuote] [doubleQuote, doubleQuote] name ++ doubleQuote :: rest) =
        (.identifier (replaceAll [doubleQuote] [doubleQuote, doubleQuote] name) true, rest) := by
    have other : doubleQuote ≠ singleQuote := by decide
    rw [nextToken, if_neg other, if_pos rfl, closing, quoted_doubled name start]
    rfl
  have last : ∀ body, (Token.identifier body true).source.getLast? = some doubleQuote :=
    fun body => List.getLast?_concat
  rw [spelled, lexFrom, first, last]

/-- The statement: its words, the quoted names and the limit, and nothing else. -/
theorem lex_sampleSql (catalog schema table : JsString) :
    lex (sampleSql [catalog, schema, table]) =
      (ofString "SELECT * FROM ").map Token.text ++
        [.identifier (replaceAll [doubleQuote] [doubleQuote, doubleQuote] catalog) true, .text dot,
          .identifier (replaceAll [doubleQuote] [doubleQuote, doubleQuote] schema) true, .text dot,
          .identifier (replaceAll [doubleQuote] [doubleQuote, doubleQuote] table) true] ++
        (ofString " LIMIT ").map Token.text ++ [.number (ofString "20")] := by
  have spelled : sampleSql [catalog, schema, table] = ofString "SELECT * FROM " ++ (quote catalog ++
      ([dot] ++ (quote schema ++
        ([dot] ++ (quote table ++ (ofString " LIMIT " ++ ofString "20")))))) := by
    have limit : ofString (toString SAMPLE_ROW_LIMIT) = ofString "20" := by decide
    rw [sampleSql, limit]
    simp [join_cons_cons]
  have number : ∀ previous, continuesWord previous = false →
      lexFrom previous (ofString "20") = [.number (ofString "20")] := by
    intro previous starts
    rw [@lexFrom_congr previous none _ starts]
    decide +kernel
  have dotNext : ∀ tail : JsString, ([dot] ++ tail).head? ≠ some doubleQuote :=
    fun _ => show some dot ≠ some doubleQuote by decide
  rw [lex, spelled, lexFrom_plain (by decide), lexFrom_quote _ _ (dotNext _),
    lexFrom_plain (by decide), lexFrom_quote _ _ (dotNext _), lexFrom_plain (by decide),
    lexFrom_quote _ _ (by decide), lexFrom_plain (by decide), number _ (by decide)]
  simp

/-- For a table in a namespace of one level the context has exactly its names, and the
statement has exactly these as identifiers; deeper namespaces have none.  That an endpoint
is a URL is what the schema of services says. -/
theorem queryContext_exact (isUrl : JsString → Bool)
    {catalog schema table endpoint serviceId : JsString}
    (catalogSome : catalog ≠ []) (schemaSome : schema ≠ []) (tableSome : table ≠ [])
    (serviceNamed : serviceId ≠ []) (reported : endpoint ≠ [])
    (isEndpoint : isUrl endpoint = true) :
    (∃ asset sql, tableAsset catalog [schema] table = .ok asset ∧
      queryContextRoute isUrl (some asset) (some ⟨serviceId, some endpoint⟩) = .ok
        { assetId := asset.id, catalog := catalog, schema := schema, table := table,
          trinoServiceId := serviceId, trinoUiUrl := endpoint, sampleSql := sql, readOnly := true,
          rowLimit := SAMPLE_ROW_LIMIT } ∧
      ∃ first second third,
        [first, second, third].map Token.identifierName = [some catalog, some schema, some table] ∧
        lex sql = (ofString "SELECT * FROM ").map Token.text ++
          [first, .text dot, second, .text dot, third] ++
          (ofString " LIMIT ").map Token.text ++ [.number (ofString "20")]) ∧
    ∀ ns : List JsString, 1 < ns.length → ∀ asset, tableAsset catalog ns table = .ok asset →
      ∀ trino, queryContextRoute isUrl (some asset) trino = .notFound := by
  have parsed : ∀ ns asset, tableAsset catalog ns table = .ok asset →
      asset = tableNode catalog ns table := by
    intro ns asset built
    rw [tableAsset, DataAsset.parse] at built
    split_ifs at built
    cases built
    rfl
  constructor
  · have valid : (tableNode catalog [schema] table).isValid = true :=
      tableNode_isValid catalogSome (List.forall_mem_singleton.mpr schemaSome)
    have built : tableAsset catalog [schema] table = .ok (tableNode catalog [schema] table) := by
      rw [tableAsset, DataAsset.parse, if_pos valid]
    have idSome : (tableNode catalog [schema] table).id ≠ [] := (DataAsset.isValid_iff.mp valid).1
    have parts := addressParts_tableNode catalog table (List.cons_ne_nil schema [])
    have sqlSome : sampleSql [catalog, schema, table] ≠ [] :=
      List.append_ne_nil_of_right_ne_nil _ (by decide)
    refine ⟨_, sampleSql [catalog, schema, table], built, ?_, _, _, _, ?_,
      lex_sampleSql catalog schema table⟩
    · have kind : (tableNode catalog [schema] table).kind = .table := rfl
      have named : (tableNode catalog [schema] table).catalog.getD TRINO_CATALOG = catalog := rfl
      have found : ((some endpoint).filter (· ≠ [])).map (serviceId, ·) =
          some (serviceId, endpoint) := by simp [reported]
      have limited : 0 < SAMPLE_ROW_LIMIT := by decide
      rw [queryContextRoute, kind, parts]
      simp only [List.singleton_append, Option.bind_some, found, named]
      rw [if_pos]
      simp [QueryContext.isValid, idSome, catalogSome, schemaSome, tableSome, serviceNamed,
        isEndpoint, sqlSome, limited]
    · simp only [List.map_cons, List.map_nil, Token.identifierName, identifierName_doubled]
  · intro ns several asset built trino
    have nonempty : ns ≠ [] := by
      intro empty
      rw [empty] at several
      exact absurd several (by decide)
    have parts := addressParts_tableNode catalog table nonempty
    rw [parsed ns asset built, queryContextRoute, parts]
    cases ns with
    | nil => exact absurd rfl nonempty
    | cons first rest =>
        cases rest with
        | nil => exact absurd several (by simp)
        | cons second rest =>
            cases rest <;> rfl

/-- A table whose name starts with its namespace and holds quotes. -/
theorem queryContext_exact_quotes :
    ∃ asset sql, tableAsset (ofString "ice") [ofString "raw"] (ofString "raw.\"v1\"") = .ok asset ∧
      queryContextRoute (ofString "https:").isPrefixOf (some asset)
        (some ⟨ofString "svc-trino", some (ofString "https://trino.local")⟩) = .ok
          { assetId := asset.id, catalog := ofString "ice", schema := ofString "raw",
            table := ofString "raw.\"v1\"", trinoServiceId := ofString "svc-trino",
            trinoUiUrl := ofString "https://trino.local", sampleSql := sql, readOnly := true,
            rowLimit := SAMPLE_ROW_LIMIT } := by
  rcases (@queryContext_exact (ofString "https:").isPrefixOf (ofString "ice") (ofString "raw")
    (ofString "raw.\"v1\"") (ofString "https://trino.local") (ofString "svc-trino") (by decide)
    (by decide) (by decide) (by decide) (by decide) (by decide)).1 with
    ⟨asset, sql, built, answered, _⟩
  exact ⟨asset, sql, built, answered⟩

example : sampleSql [ofString "ice", ofString "raw", ofString "raw.\"v1\""] =
    ofString "SELECT * FROM \"ice\".\"raw\".\"raw.\"\"v1\"\"\" LIMIT 20" := by
  decide

end BelugaManager.DomainApi
