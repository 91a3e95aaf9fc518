import BelugaManager.Foundation.SplitText
import BelugaManager.Foundation.SqlSelect

/-!
# Sample queries of the catalog

`views/catalogSql.ts` writes a query for a table of the catalog, and `toCatalogTable` of
`views/DataCatalogView.tsx` makes the table out of a data asset.  Texts are lists of characters.
-/

namespace BelugaManager.Web

open Foundation Foundation.Sql

structure CatalogColumn where
  name : List Char
  type : List Char
  deriving DecidableEq

/-- The fields of a table that its sample query shows. -/
structure CatalogTable where
  catalog : List Char
  schema : List Char
  table : List Char
  columns : List CatalogColumn
  deriving DecidableEq

/-- The fields of a data asset that its table is made of. -/
structure DataAssetDetail where
  name : List Char
  columns : Option (List CatalogColumn)

def LAKE_CATALOG : List Char := "beluga_lake".toList

def DEFAULT_SCHEMA : List Char := "default".toList

def toCatalogTable (asset : DataAssetDetail) : CatalogTable :=
  let parts := asset.name.splitOn '.'
  { catalog := LAKE_CATALOG
    schema := if 1 < parts.length then parts.headD [] else DEFAULT_SCHEMA
    table := if 1 < parts.length then ['.'].intercalate parts.tail else parts.headD []
    columns := asset.columns.getD [] }

def TRINO_RESERVED_WORDS : List String :=
  ["alter", "and", "as", "auto", "between", "by", "case", "cast", "constraint", "create", "cross",
    "cube", "current_catalog", "current_date", "current_path", "current_role", "current_schema",
    "current_time", "current_timestamp", "current_user", "deallocate", "delete", "describe",
    "distinct", "drop", "else", "end", "escape", "except", "exists", "extract", "false", "for",
    "from", "full", "group", "grouping", "having", "in", "inner", "insert", "intersect", "into",
    "is", "join", "json_array", "json_exists", "json_object", "json_query", "json_table",
    "json_value", "left", "like", "listagg", "localtime", "localtimestamp", "natural", "normalize",
    "not", "null", "on", "or", "order", "outer", "overlaps", "prepare", "recursive", "right",
    "rollup", "select", "skip", "table", "then", "trim", "true", "uescape", "union", "unnest",
    "using", "user", "values", "when", "where", "with"]

def isReservedWord (word : List Char) : Bool := TRINO_RESERVED_WORDS.any (·.toList = word)

/-- `[a-z_]` -/
def isPlainStart (c : Char) : Bool := c.isLower || c = '_'

/-- `[a-z0-9_]` -/
def isPlainPart (c : Char) : Bool := isPlainStart c || c.isDigit

/-- `/^[a-z_][a-z0-9_]*$/` -/
def isPlainName : List Char → Bool
  | [] => false
  | start :: text => isPlainStart start && text.all isPlainPart

/-- An identifier that needs no quotes. -/
def isBare (identifier : List Char) : Bool := isPlainName identifier && !isReservedWord identifier

def quoteIdentifier (identifier : List Char) : List Char :=
  if isBare identifier then identifier else '"' :: doubled identifier ++ ['"']

def getCatalogTableName (table : CatalogTable) : List Char :=
  ['.'].intercalate ([table.catalog, table.schema, table.table].map quoteIdentifier)

/-- `/timestamp|time/i` -/
def isTimeType (type : List Char) : Bool :=
  includes "timestamp".toList (type.map Char.toLower) ||
    includes "time".toList (type.map Char.toLower)

/-- `/(?:_at|_time|timestamp)$/i` -/
def isTimeName (name : List Char) : Bool :=
  ["_at", "_time", "timestamp"].any fun ending =>
    ending.toList.isSuffixOf (name.map Char.toLower)

def timestampColumn (table : CatalogTable) : Option CatalogColumn :=
  table.columns.find? fun column => isTimeType column.type || isTimeName column.name

/-- The fixed parts of a query. -/
def SELECT_TEXT : List Char := "SELECT\n".toList

def INDENT : List Char := "  ".toList

def COLUMN_BREAK : List Char := ",\n".toList

def FROM_TEXT : List Char := "\nFROM ".toList

def ORDER_TEXT : List Char := "\nORDER BY ".toList

def DESC_TEXT : List Char := " DESC".toList

def LIMIT_TEXT : List Char := "\nLIMIT 20;".toList

def orderByText (table : CatalogTable) : List Char :=
  (timestampColumn table).elim [] fun column =>
    ORDER_TEXT ++ quoteIdentifier column.name ++ DESC_TEXT

def buildCatalogSampleSql (table : CatalogTable) : List Char :=
  let columns := (table.columns.take 10).map fun column => INDENT ++ quoteIdentifier column.name
  SELECT_TEXT ++ COLUMN_BREAK.intercalate columns ++ FROM_TEXT ++ getCatalogTableName table ++
    orderByText table ++ LIMIT_TEXT

/-- What the query of a table is meant to be. -/
def sampleQuery (table : CatalogTable) : SelectQuery where
  columns := (table.columns.take 10).map (·.name)
  table := [table.catalog, table.schema, table.table]
  orderBy := (timestampColumn table).map (·.name)
  limit := ['2', '0']

/-! ## Lexing -/

/-- What an identifier would go on with. -/
def isNamePart (c : Char) : Bool := isWordPart c || c = '"'

variable {rest : List Char} {tokens : List Token}

theorem isWordStart_of_isPlainStart {c : Char} (plain : isPlainStart c = true) :
    isWordStart c = true := by
  rw [isPlainStart, Bool.or_eq_true] at plain
  rw [isWordStart, Bool.or_eq_true]
  rcases plain with lower | underscore
  · have alpha : (c.isUpper || c.isLower) = true := by rw [lower, Bool.or_true]
    exact Or.inl alpha
  · exact Or.inr underscore

theorem isWordPart_of_isPlainPart {c : Char} (plain : isPlainPart c = true) :
    isWordPart c = true := by
  rw [isPlainPart, Bool.or_eq_true] at plain
  rw [isWordPart, Char.isAlphanum, Bool.or_eq_true, Bool.or_eq_true]
  rcases plain with start | digit
  · have starts := isWordStart_of_isPlainStart start
    rw [isWordStart, Bool.or_eq_true] at starts
    exact starts.imp_left Or.inl
  · exact Or.inl (Or.inr digit)

/-- An identifier is one token, with the name that it quotes. -/
theorem lex_quoteIdentifier (identifier : List Char) (ends : StartsOutside isNamePart rest)
    (later : lex rest = some tokens) :
    lex (quoteIdentifier identifier ++ rest) = some (nameToken isBare identifier :: tokens) := by
  rw [quoteIdentifier, nameToken]
  by_cases bare : isBare identifier = true
  · rw [if_pos bare, if_pos bare]
    rw [isBare, Bool.and_eq_true] at bare
    cases identifier with
    | nil => exact absurd bare.1 (by decide)
    | cons start text =>
        have plain := bare.1
        rw [isPlainName, Bool.and_eq_true, List.all_eq_true] at plain
        exact lex_word (isWordStart_of_isPlainStart plain.1)
          (fun c member => isWordPart_of_isPlainPart (plain.2 c member))
          (ends.narrow fun c part => by rw [isNamePart, part, Bool.true_or]) later
  · rw [if_neg bare, if_neg bare, List.append_assoc, List.singleton_append]
    exact lex_delimited identifier
      (ends.narrow fun c quote => by rw [isNamePart, quote, Bool.or_true]) later

theorem intercalate_eq_flatMap {α : Type} (separator first : List α) (pieces : List (List α)) :
    separator.intercalate (first :: pieces) =
      first ++ pieces.flatMap fun piece => separator ++ piece := by
  induction pieces generalizing first with
  | nil => rw [List.intercalate_singleton, List.flatMap_nil, List.append_nil]
  | cons piece pieces ih =>
      rw [List.intercalate_cons_cons, ih, List.flatMap_cons, List.append_assoc, List.append_assoc]

section Separated

variable {separator : Char} {spacing lead : List Char}
  (alone : between separator = (.code, [.mark separator]))
  (noPart : isNamePart separator = false) (spaces : ∀ c ∈ spacing, Text.isSpace c = true)
  (leads : ∀ c ∈ lead, Text.isSpace c = true) (ends : StartsOutside isNamePart rest)
  (later : lex rest = some tokens)
include alone noPart spaces leads ends later

/-- Names after separators are lexed one by one. -/
theorem lex_following (names : List (List Char)) :
    StartsOutside isNamePart ((names.map fun name => lead ++ quoteIdentifier name).flatMap
        (fun piece => separator :: spacing ++ piece) ++ rest) ∧
      lex ((names.map fun name => lead ++ quoteIdentifier name).flatMap
        (fun piece => separator :: spacing ++ piece) ++ rest) =
          some ((names.flatMap fun name => [.mark separator, nameToken isBare name]) ++
            tokens) := by
  induction names with
  | nil => exact ⟨ends, later⟩
  | cons name names ih =>
      rcases ih with ⟨outside, lexed⟩
      rw [List.map_cons, List.flatMap_cons, List.flatMap_cons]
      simp only [List.cons_append, List.append_assoc, List.nil_append] at outside lexed ⊢
      refine ⟨startsOutside_cons _ noPart, lex_mark alone ?_⟩
      rw [lex_space spaces, lex_space leads]
      exact lex_quoteIdentifier name outside lexed

/-- Names between separators are lexed one by one. -/
theorem lex_separated (names : List (List Char)) :
    lex ((separator :: spacing).intercalate (names.map fun name => lead ++ quoteIdentifier name) ++
      rest) = some (separated isBare separator names ++ tokens) := by
  cases names with
  | nil => exact later
  | cons first names =>
      rcases lex_following alone noPart spaces leads ends later names with ⟨outside, lexed⟩
      rw [List.map_cons, intercalate_eq_flatMap, List.append_assoc, List.append_assoc,
        lex_space leads]
      exact lex_quoteIdentifier first outside lexed

end Separated

def isBlank (c : Char) : Bool := c = ' ' || c = '\n'

theorem isSpace_of_isBlank {c : Char} (blank : isBlank c = true) : Text.isSpace c = true := by
  rw [isBlank, Bool.or_eq_true, decide_eq_true_eq, decide_eq_true_eq] at blank
  rcases blank with rfl | rfl <;> decide

theorem lex_blank (blank : Char) (isBlank : isBlank blank = true) (rest : List Char) :
    lex (blank :: rest) = lex rest := by
  have space : ∀ c ∈ [blank], Text.isSpace c = true := by
    intro c member
    rw [List.mem_singleton.mp member]
    exact isSpace_of_isBlank isBlank
  exact lex_space space

theorem isWordPart_of_isWordStart {c : Char} (starts : isWordStart c = true) :
    isWordPart c = true := by
  rw [isWordStart, Bool.or_eq_true] at starts
  rw [isWordPart, Char.isAlphanum, Bool.or_eq_true, Bool.or_eq_true]
  exact starts.imp_left Or.inl

/-- A keyword before white space. -/
theorem lex_keyword (word : List Char) (letters : word.all isWordStart = true)
    (nonempty : word ≠ []) (blank : Char) (isBlank : isBlank blank = true)
    (later : lex rest = some tokens) :
    lex (word ++ blank :: rest) = some (.word word :: tokens) := by
  rcases List.exists_cons_of_ne_nil nonempty with ⟨start, text, rfl⟩
  rw [List.all_cons, Bool.and_eq_true, List.all_eq_true] at letters
  apply lex_word letters.1 fun c member => isWordPart_of_isWordStart (letters.2 c member)
  · apply startsOutside_cons
    rw [Web.isBlank, Bool.or_eq_true, decide_eq_true_eq, decide_eq_true_eq] at isBlank
    rcases isBlank with rfl | rfl <;> decide
  · exact (lex_blank blank isBlank rest).trans later

theorem lex_LIMIT_TEXT :
    lex LIMIT_TEXT = some [.word LIMIT, .number ['2', '0'], .mark ';'] := by
  decide +kernel

theorem lex_orderByText (table : CatalogTable) :
    StartsOutside isNamePart (orderByText table ++ LIMIT_TEXT) ∧
      lex (orderByText table ++ LIMIT_TEXT) =
        some (descendingTokens isBare (sampleQuery table).orderBy ++
          [.word LIMIT, .number ['2', '0'], .mark ';']) := by
  have start : StartsOutside isNamePart LIMIT_TEXT := startsOutside_cons _ rfl
  rw [orderByText, sampleQuery]
  cases timestampColumn table with
  | none => exact ⟨start, lex_LIMIT_TEXT⟩
  | some column =>
      have order : ORDER_TEXT = '\n' :: (ORDER ++ ' ' :: (BY ++ [' '])) := rfl
      have limit : LIMIT_TEXT = '\n' :: (LIMIT ++ [' ', '2', '0', ';']) := rfl
      have last : lex (DESC_TEXT ++ LIMIT_TEXT) =
          some [.word DESC, .word LIMIT, .number ['2', '0'], .mark ';'] := by
        decide +kernel
      have sorted := lex_quoteIdentifier column.name
        (startsOutside_cons (DESC ++ LIMIT_TEXT) (by decide : isNamePart ' ' = false)) last
      rw [Option.elim_some, order]
      simp only [List.append_assoc, List.cons_append, List.nil_append]
      refine ⟨startsOutside_cons _ rfl, (lex_blank '\n' rfl _).trans ?_⟩
      exact lex_keyword ORDER (by decide) (by decide) ' ' rfl
        (lex_keyword BY (by decide) (by decide) ' ' rfl sorted)

/-- The text of a sample query is the query of its table. -/
theorem lex_buildCatalogSampleSql (table : CatalogTable) :
    lex (buildCatalogSampleSql table) = some ((sampleQuery table).tokens isBare) := by
  rcases lex_orderByText table with ⟨outside, sorted⟩
  have spaces : ∀ text : List Char, text.all isBlank = true →
      ∀ c ∈ text, Text.isSpace c = true := by
    intro text blank c member
    exact isSpace_of_isBlank (List.all_eq_true.mp blank c member)
  have source : lex (getCatalogTableName table ++ (orderByText table ++ LIMIT_TEXT)) =
      some (separated isBare '.' [table.catalog, table.schema, table.table] ++ _) :=
    @lex_separated _ _ '.' [] [] (by decide) (by decide) (by simp) (by simp) outside sorted _
  have columns := @lex_separated _ _ ',' ['\n'] INDENT (by decide) (by decide) (spaces _ rfl)
    (spaces _ rfl) (startsOutside_cons _ rfl)
    ((lex_blank '\n' rfl _).trans (lex_keyword FROM (by decide) (by decide) ' ' rfl source))
    (sampleQuery table).columns
  have shape : buildCatalogSampleSql table = SELECT ++ '\n' ::
      ([',', '\n'].intercalate ((sampleQuery table).columns.map fun name =>
          INDENT ++ quoteIdentifier name) ++
        '\n' :: (FROM ++ ' ' :: (getCatalogTableName table ++
          (orderByText table ++ LIMIT_TEXT)))) := by
    have select : SELECT_TEXT = SELECT ++ ['\n'] := rfl
    have comma : COLUMN_BREAK = [',', '\n'] := rfl
    have source' : FROM_TEXT = '\n' :: (FROM ++ [' ']) := rfl
    rw [buildCatalogSampleSql, select, comma, source', sampleQuery, List.map_map]
    simp only [List.append_assoc, List.cons_append, List.nil_append, Function.comp_def]
  rw [shape]
  exact lex_keyword SELECT (by decide) (by decide) '\n' rfl columns

/-! ## What a query denotes -/

/-- The schema and the table that the name of an asset stands for. -/
def StandsFor (name schema table : List Char) : Prop :=
  '.' ∉ schema ∧ name = schema ++ '.' :: table ∨
    '.' ∉ name ∧ schema = DEFAULT_SCHEMA ∧ table = name

theorem standsFor_toCatalogTable (asset : DataAssetDetail) :
    StandsFor asset.name (toCatalogTable asset).schema (toCatalogTable asset).table := by
  have whole : ['.'].intercalate (asset.name.splitOn '.') = asset.name :=
    List.intercalate_splitOn '.'
  have pieces : ∀ piece ∈ asset.name.splitOn '.', '.' ∉ piece :=
    fun _ member => Text.notMem_of_mem_splitOn member
  rw [StandsFor, toCatalogTable]
  cases parts : asset.name.splitOn '.' with
  | nil => exact absurd parts (List.splitOn_ne_nil '.' asset.name)
  | cons first rest =>
      rw [parts] at whole pieces
      have noDot := pieces first List.mem_cons_self
      cases rest with
      | nil =>
          rw [List.intercalate_singleton] at whole
          exact Or.inr ⟨whole ▸ noDot, rfl, whole⟩
      | cons second rest =>
          rw [List.intercalate_cons_cons, List.append_assoc] at whole
          have several : 1 < (first :: second :: rest).length := by simp
          rw [if_pos several, if_pos several]
          exact Or.inl ⟨noDot, whole.symm⟩

theorem toLower_of_isPlainPart {c : Char} (plain : isPlainPart c = true) : c.toLower = c := by
  have lower : c.isLower = (decide (97 ≤ c.val) && decide (c.val ≤ 122)) := rfl
  have digit : c.isDigit = (decide (48 ≤ c.val) && decide (c.val ≤ 57)) := rfl
  have codes : ¬(65 ≤ c.toNat ∧ c.toNat ≤ 90) := by
    rw [isPlainPart, isPlainStart, lower, digit] at plain
    simp only [Bool.or_eq_true, Bool.and_eq_true, decide_eq_true_eq, UInt32.le_iff_toNat_le]
      at plain
    rcases plain with (⟨atLeast, _⟩ | rfl) | ⟨_, atMost⟩
    · intro upper
      exact absurd (le_trans atLeast upper.2) (by decide)
    · decide
    · intro upper
      exact absurd (le_trans upper.1 atMost) (by decide)
  apply Char.toNat_inj.mp
  rw [Text.toNat_toLower, if_neg codes]

theorem map_toLower_of_isPlainName {name : List Char} (plain : isPlainName name = true) :
    name.map Char.toLower = name := by
  cases name with
  | nil => rfl
  | cons start text =>
      rw [isPlainName, Bool.and_eq_true, List.all_eq_true] at plain
      have every : ∀ c ∈ start :: text, c.toLower = c := by
        rw [List.forall_mem_cons]
        constructor
        · exact toLower_of_isPlainPart (by rw [isPlainPart, plain.1, Bool.true_or])
        · exact fun c member => toLower_of_isPlainPart (plain.2 c member)
      exact (List.map_congr_left every).trans (List.map_id' _)

/-- In every dialect that reserves no word but the listed ones, the sample query of an asset is read
as exactly one query: of the first ten columns, of the table that the name of the asset stands for,
sorted by its first column of times, whatever the names are. -/
theorem sampleSql_reads (dialect : Dialect)
    (listed : ∀ word, dialect.reserved word = true → isReservedWord (word.map Char.toLower) = true)
    (reservesFrom : dialect.reserved FROM = true) (asset : DataAssetDetail) :
    ∃ schema table, StandsFor asset.name schema table ∧
      (lex (buildCatalogSampleSql (toCatalogTable asset))).bind (parseSelect dialect) =
        if asset.columns.getD [] = [] then none
        else some {
          columns := ((asset.columns.getD []).take 10).map (·.name)
          table := [LAKE_CATALOG, schema, table]
          orderBy := (timestampColumn (toCatalogTable asset)).map (·.name)
          limit := ['2', '0'] } := by
  refine ⟨_, _, standsFor_toCatalogTable asset, ?_⟩
  have free : ∀ text, isBare text = true → dialect.reserved text = false := by
    intro text bare
    rw [isBare, Bool.and_eq_true] at bare
    rw [← Bool.not_eq_true]
    intro reserved
    have known := listed text reserved
    rw [map_toLower_of_isPlainName bare.1] at known
    rw [known] at bare
    exact absurd bare.2 (by decide)
  have columns : (sampleQuery (toCatalogTable asset)).columns =
      ((asset.columns.getD []).take 10).map (·.name) := rfl
  rw [lex_buildCatalogSampleSql, Option.bind_some]
  by_cases noColumn : asset.columns.getD [] = []
  · rw [if_pos noColumn]
    exact parseSelect_noColumn reservesFrom (by rw [columns, noColumn]; rfl)
  · rw [if_neg noColumn]
    apply parseSelect_tokens free
    · rw [columns]
      simpa using noColumn
    · exact List.cons_ne_nil _ _

theorem isReservedWord_of_isSpelled (keyword : Keyword) (word : List Char)
    (spelled : keyword.isSpelled word = true) : isReservedWord (word.map Char.toLower) = true := by
  rw [Keyword.isSpelled, decide_eq_true_eq] at spelled
  rw [spelled]
  cases keyword <;> decide +kernel

/-- A dialect that reserves exactly the listed words. -/
def listedDialect : Dialect where
  reserved word := isReservedWord (word.map Char.toLower)
  keywords := isReservedWord_of_isSpelled

/-- The asset of a table with quotes in its name. -/
def quotesAsset : DataAssetDetail :=
  ⟨['a', '"', ';', '.', 'o', 'r'], some [⟨['b', 'y'], ['i', 'n', 't']⟩]⟩

theorem sampleSql_reads_quotes :
    ∃ schema table, StandsFor quotesAsset.name schema table ∧
      (lex (buildCatalogSampleSql (toCatalogTable quotesAsset))).bind (parseSelect listedDialect) =
        some ⟨[['b', 'y']], [LAKE_CATALOG, schema, table], none, ['2', '0']⟩ := by
  rcases sampleSql_reads listedDialect (fun _ reserved => reserved) (by decide +kernel)
    quotesAsset with ⟨schema, table, stands, read⟩
  have unsorted : timestampColumn (toCatalogTable quotesAsset) = none := by decide +kernel
  rw [unsorted, if_neg (by decide)] at read
  exact ⟨schema, table, stands, read⟩

end BelugaManager.Web
