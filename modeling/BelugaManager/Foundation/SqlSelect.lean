import BelugaManager.Foundation.SqlParser

/-!
# Simple queries of SQL

A query that names its columns, its table, at most one column to sort by in descending order and a
limit.  Keywords are words in letters of either case.
-/

namespace Foundation.Sql

structure SelectQuery where
  columns : List (List Char)
  table : List (List Char)
  orderBy : Option (List Char)
  limit : List Char
  deriving DecidableEq

def keyword (spelling : List Char) : Parser Unit
  | .word text :: rest => if text.map Char.toLower = spelling then some ((), rest) else none
  | _ => none

section Grammar

variable (dialect : Dialect)

/-- The column to sort by, if a query is sorted. -/
def descending : Parser (Option (List Char)) := fun tokens =>
  match keyword ['o', 'r', 'd', 'e', 'r'] tokens with
  | none => some (none, tokens)
  | some (_, rest) => do
      let (_, rest) ← keyword ['b', 'y'] rest
      let (column, rest) ← name dialect rest
      let (_, rest) ← keyword ['d', 'e', 's', 'c'] rest
      return (some column, rest)

def selectQuery : Parser SelectQuery := fun tokens => do
  let (_, rest) ← keyword ['s', 'e', 'l', 'e', 'c', 't'] tokens
  let (columns, rest) ← chain (isMark ',') (name dialect) rest
  let (_, rest) ← keyword ['f', 'r', 'o', 'm'] rest
  let (table, rest) ← chain (isMark '.') (name dialect) rest
  let (orderBy, rest) ← descending dialect rest
  let (_, rest) ← keyword ['l', 'i', 'm', 'i', 't'] rest
  match rest with
  | .number limit :: .mark ';' :: rest => some (⟨columns, table, orderBy, limit⟩, rest)
  | _ => none

/-- The query that a list of tokens is. -/
def parseSelect (tokens : List Token) : Option SelectQuery :=
  match selectQuery dialect tokens with
  | some (query, []) => some query
  | _ => none

end Grammar

/-- A name in tokens, without quotes where it is `plain`. -/
def nameToken (plain : List Char → Bool) (name : List Char) : Token :=
  if plain name then .word name else .delimited name

variable {dialect : Dialect} {plain : List Char → Bool} {rest : List Token}

theorem name_nameToken (free : ∀ text, plain text = true → dialect.reserved text = false)
    (text : List Char) (rest : List Token) :
    name dialect (nameToken plain text :: rest) = some (text, rest) := by
  rw [nameToken]
  split
  next isPlain => rw [name, free text isPlain]; rfl
  next => rfl

/-- Names in tokens, between separators. -/
def separated (plain : List Char → Bool) (separator : Char) : List (List Char) → List Token
  | [] => []
  | first :: names =>
      nameToken plain first ::
        names.flatMap fun text => [.mark separator, nameToken plain text]

theorem chain_separated (free : ∀ text, plain text = true → dialect.reserved text = false)
    {separator : Char} {names : List (List Char)} (nonempty : names ≠ [])
    (stops : StartsOutside (isMark separator) rest) :
    chain (isMark separator) (name dialect) (separated plain separator names ++ rest) =
      some (names, rest) := by
  rcases List.exists_cons_of_ne_nil nonempty with ⟨first, names, rfl⟩
  have read : chain (isMark separator) (name dialect) ([nameToken plain first] ++
      ((names.flatMap fun text => .mark separator :: [nameToken plain text]) ++ rest)) =
        some (first :: names.map id, rest) :=
    chain_eq (fun _ => True) (fun _ => .mark separator) (fun text => [nameToken plain text]) id
      (fun rest _ => name_nameToken free first rest) (fun _ _ => by simp [isMark])
      (fun text _ rest _ => name_nameToken free text rest) (fun _ _ _ => trivial) trivial stops
  rw [List.map_id] at read
  exact read

def SELECT : List Char := ['S', 'E', 'L', 'E', 'C', 'T']

def FROM : List Char := ['F', 'R', 'O', 'M']

def ORDER : List Char := ['O', 'R', 'D', 'E', 'R']

def BY : List Char := ['B', 'Y']

def DESC : List Char := ['D', 'E', 'S', 'C']

def LIMIT : List Char := ['L', 'I', 'M', 'I', 'T']

/-- How a query says that it is sorted. -/
def descendingTokens (plain : List Char → Bool) (orderBy : Option (List Char)) : List Token :=
  orderBy.elim [] fun column => [.word ORDER, .word BY, nameToken plain column, .word DESC]

/-- A query in tokens. -/
def SelectQuery.tokens (plain : List Char → Bool) (query : SelectQuery) : List Token :=
  .word SELECT :: (separated plain ',' query.columns ++ .word FROM ::
    (separated plain '.' query.table ++ (descendingTokens plain query.orderBy ++
      [.word LIMIT, .number query.limit, .mark ';'])))

theorem descending_tokens (free : ∀ text, plain text = true → dialect.reserved text = false)
    (orderBy : Option (List Char)) (rest : List Token) :
    descending dialect (descendingTokens plain orderBy ++ .word LIMIT :: rest) =
      some (orderBy, .word LIMIT :: rest) := by
  cases orderBy with
  | none => rfl
  | some column =>
      have read := name_nameToken free column (.word DESC :: .word LIMIT :: rest)
      change (name dialect (nameToken plain column :: .word DESC :: .word LIMIT :: rest)).bind
        (fun read => (keyword ['d', 'e', 's', 'c'] read.2).bind
          fun after => some (some read.1, after.2)) = _
      rw [read]
      rfl

/-- A query is read from its tokens, unless it names no column. -/
theorem parseSelect_tokens (free : ∀ text, plain text = true → dialect.reserved text = false)
    {query : SelectQuery} (someColumn : query.columns ≠ []) (someTable : query.table ≠ []) :
    parseSelect dialect (query.tokens plain) = some query := by
  have table : chain (isMark '.') (name dialect) (separated plain '.' query.table ++
      (descendingTokens plain query.orderBy ++
        [.word LIMIT, .number query.limit, .mark ';'])) =
        some (query.table, descendingTokens plain query.orderBy ++
          [.word LIMIT, .number query.limit, .mark ';']) := by
    apply chain_separated free someTable
    cases query.orderBy <;> exact startsOutside_cons _ rfl
  have columns := @chain_separated _ _ (.word FROM :: (separated plain '.' query.table ++
    (descendingTokens plain query.orderBy ++ [.word LIMIT, .number query.limit, .mark ';'])))
    free ',' _ someColumn (startsOutside_cons _ rfl)
  have sorted := descending_tokens free query.orderBy [.number query.limit, .mark ';']
  have starts : ∀ rest, keyword ['s', 'e', 'l', 'e', 'c', 't'] (.word SELECT :: rest) =
      some ((), rest) := fun _ => rfl
  have goesOn : ∀ rest, keyword ['f', 'r', 'o', 'm'] (.word FROM :: rest) = some ((), rest) :=
    fun _ => rfl
  have ends : ∀ rest, keyword ['l', 'i', 'm', 'i', 't'] (.word LIMIT :: rest) = some ((), rest) :=
    fun _ => rfl
  rw [parseSelect, selectQuery, SelectQuery.tokens]
  simp only [starts, columns, goesOn, table, sorted, ends, Option.bind_eq_bind, Option.bind_some]

/-- No query is without columns where `FROM` is reserved. -/
theorem parseSelect_noColumn (reserved : dialect.reserved FROM = true) {query : SelectQuery}
    (noColumn : query.columns = []) : parseSelect dialect (query.tokens plain) = none := by
  have starts : ∀ rest, keyword ['s', 'e', 'l', 'e', 'c', 't'] (.word SELECT :: rest) =
      some ((), rest) := fun _ => rfl
  have noName : ∀ rest, name dialect (.word FROM :: rest) = none := by
    intro rest
    rw [name, if_pos reserved]
  rw [parseSelect, selectQuery, SelectQuery.tokens, noColumn, separated, List.nil_append]
  simp only [starts, chain, noName, Option.bind_eq_bind, Option.bind_some, Option.bind_none]

end Foundation.Sql
