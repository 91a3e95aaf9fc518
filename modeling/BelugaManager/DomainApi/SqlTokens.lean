import BelugaManager.Foundation.CodeUnits

/-!
# SQL text in tokens

Quoted strings and identifiers in which a doubled quote stands for one, comments up to
the end of the line or between marks, numbers, and single units for everything else.  A
construct that is not closed runs to the end of the input.
-/

namespace BelugaManager.DomainApi

open Foundation Foundation.JsString

def singleQuote : UInt16 := ofChar '\''

def doubleQuote : UInt16 := ofChar '"'

def hyphen : UInt16 := ofChar '-'

def slash : UInt16 := ofChar '/'

def asterisk : UInt16 := ofChar '*'

def lineFeed : UInt16 := ofChar '\n'

def space : UInt16 := ofChar ' '

/-- `[0-9]` -/
def isDigitUnit (unit : UInt16) : Bool := 48 ≤ unit.toNat ∧ unit.toNat ≤ 57

/-- `[A-Za-z0-9_]` -/
def isNameUnit (unit : UInt16) : Bool :=
  isDigitUnit unit || (65 ≤ unit.toNat ∧ unit.toNat ≤ 90) || (97 ≤ unit.toNat ∧ unit.toNat ≤ 122) ||
    unit = ofChar '_'

/-- `[A-Za-z0-9_$]` -/
def isWordUnit (unit : UInt16) : Bool := isNameUnit unit || unit = ofChar '$'

/-- `[0-9A-Za-z_.]` -/
def isNumberUnit (unit : UInt16) : Bool := isNameUnit unit || unit = ofChar '.'

inductive Token where
  | text (unit : UInt16)
  | string (body : JsString) (closed : Bool)
  | identifier (body : JsString) (closed : Bool)
  | lineComment (body : JsString)
  | blockComment (body : JsString) (closed : Bool)
  | number (body : JsString)
  deriving DecidableEq

/-- What stands before a closing quote, with the quotes doubled as they are, and what
follows it if there is one. -/
def quoted (quote : UInt16) : JsString → JsString × Option JsString
  | [] => ([], none)
  | [unit] => if unit = quote then ([], some []) else ([unit], none)
  | unit :: next :: rest =>
      if unit = quote then
        if next = quote then ((quoted quote rest).map (fun body => quote :: quote :: body) id)
        else ([], some (next :: rest))
      else (quoted quote (next :: rest)).map (unit :: ·) id

/-- What stands before the mark that closes a comment, and what follows the mark. -/
def untilMark : JsString → JsString × Option JsString
  | [] => ([], none)
  | [unit] => ([unit], none)
  | unit :: next :: rest =>
      if unit = asterisk ∧ next = slash then ([], some rest)
      else (untilMark (next :: rest)).map (unit :: ·) id

/-- Whether a digit after the unit goes on with a name. -/
def continuesWord (previous : Option UInt16) : Bool := previous.any isWordUnit

/-- A token and what follows it, from a search for its closing mark. -/
def closing (token : JsString → Bool → Token) (found : JsString × Option JsString) :
    Token × JsString :=
  (token found.1 found.2.isSome, found.2.getD [])

/-- The first token, and what follows it. -/
def nextToken (previous : Option UInt16) (unit : UInt16) (rest : JsString) : Token × JsString :=
  if unit = singleQuote then closing .string (quoted singleQuote rest)
  else if unit = doubleQuote then closing .identifier (quoted doubleQuote rest)
  else if unit = hyphen ∧ rest.head? = some hyphen then
    (.lineComment (rest.tail.takeWhile (· ≠ lineFeed)), rest.tail.dropWhile (· ≠ lineFeed))
  else if unit = slash ∧ rest.head? = some asterisk then
    closing .blockComment (untilMark rest.tail)
  else if isDigitUnit unit ∧ continuesWord previous = false then
    (.number (unit :: rest.takeWhile isNumberUnit), rest.dropWhile isNumberUnit)
  else (.text unit, rest)

/-- The units a token is read from. -/
def Token.source : Token → JsString
  | .text unit => [unit]
  | .string body closed => singleQuote :: body ++ if closed then [singleQuote] else []
  | .identifier body closed => doubleQuote :: body ++ if closed then [doubleQuote] else []
  | .lineComment body => hyphen :: hyphen :: body
  | .blockComment body closed => slash :: asterisk :: body ++ if closed then [asterisk, slash]
      else []
  | .number body => body

theorem quoted_source (quote : UInt16) (s : JsString) :
    (quoted quote s).1 ++ ((quoted quote s).2.map (quote :: ·)).getD [] = s := by
  fun_induction quoted quote s with
  | case1 => rfl
  | case2 => rfl
  | case3 => rfl
  | case4 rest ih => simpa using ih
  | case5 next rest other => rfl
  | case6 unit next rest other ih => simpa using ih

theorem untilMark_source (s : JsString) :
    (untilMark s).1 ++ ((untilMark s).2.map (asterisk :: slash :: ·)).getD [] = s := by
  fun_induction untilMark s with
  | case1 => rfl
  | case2 => rfl
  | case3 unit next rest marks => rw [marks.1, marks.2]; rfl
  | case4 unit next rest other ih => simpa using ih

theorem nextToken_source (previous : Option UInt16) (unit : UInt16) (rest : JsString) :
    (nextToken previous unit rest).1.source ++ (nextToken previous unit rest).2 = unit :: rest := by
  rw [nextToken]
  split_ifs with string identifier line block number
  · have whole := quoted_source singleQuote rest
    cases after : (quoted singleQuote rest).2 <;> simp_all [closing, Token.source]
  · have whole := quoted_source doubleQuote rest
    cases after : (quoted doubleQuote rest).2 <;> simp_all [closing, Token.source]
  · rcases List.head?_eq_some_iff.mp line.2 with ⟨later, rfl⟩
    simp [Token.source, line.1]
  · rcases List.head?_eq_some_iff.mp block.2 with ⟨later, rfl⟩
    have whole := untilMark_source later
    cases after : (untilMark later).2 <;> simp_all [closing, Token.source]
  · simp [Token.source]
  · rfl

theorem nextToken_source_ne_nil (previous : Option UInt16) (unit : UInt16) (rest : JsString) :
    (nextToken previous unit rest).1.source ≠ [] := by
  rw [nextToken]
  split_ifs <;> simp [closing, Token.source]

theorem nextToken_shorter (previous : Option UInt16) (unit : UInt16) (rest : JsString) :
    (nextToken previous unit rest).2.length < (unit :: rest).length := by
  rw [← nextToken_source previous unit rest, List.length_append]
  have some' := List.length_pos_iff.mpr (nextToken_source_ne_nil previous unit rest)
  omega

/-- The tokens of a text, given the unit that stands before it. -/
def lexFrom (previous : Option UInt16) : JsString → List Token
  | [] => []
  | unit :: rest =>
      (nextToken previous unit rest).1 ::
        lexFrom (nextToken previous unit rest).1.source.getLast? (nextToken previous unit rest).2
termination_by s => s.length
decreasing_by exact nextToken_shorter previous unit rest

def lex (s : JsString) : List Token := lexFrom none s

theorem source_lexFrom (previous : Option UInt16) (s : JsString) :
    (lexFrom previous s).flatMap Token.source = s := by
  fun_induction lexFrom previous s with
  | case1 => rfl
  | case2 previous unit rest ih => rw [List.flatMap_cons, ih, nextToken_source]

/-- The tokens of a text make up the text. -/
theorem source_lex (s : JsString) : (lex s).flatMap Token.source = s := source_lexFrom none s

/-! ## What the tokens depend on -/

theorem lexFrom_congr {previous other : Option UInt16} (s : JsString)
    (same : continuesWord previous = continuesWord other) :
    lexFrom previous s = lexFrom other s := by
  cases s with
  | nil => rw [lexFrom, lexFrom]
  | cons unit rest => rw [lexFrom, lexFrom, nextToken, nextToken, same]

/-- A closing quote is not doubled. -/
theorem head?_of_quoted {quote : UInt16} {s after : JsString}
    (found : (quoted quote s).2 = some after) :
    after.head? ≠ some quote := by
  fun_induction quoted quote s with
  | case1 => simp at found
  | case2 => simp_all
  | case3 => simp at found
  | case4 rest ih => exact ih (by simpa using found)
  | case5 next rest other =>
      rw [← Option.some.inj found, List.head?_cons, ne_eq, Option.some.injEq]
      exact other
  | case6 unit next rest other ih => exact ih (by simpa using found)

theorem quoted_cons_of_ne {quote unit : UInt16} (other : unit ≠ quote) {tail : JsString}
    (nonempty : tail ≠ []) :
    quoted quote (unit :: tail) = (quoted quote tail).map (unit :: ·) id := by
  cases tail with
  | nil => exact absurd rfl nonempty
  | cons first tail => simp [quoted, other]

/-- A quote that no second one follows closes. -/
theorem quoted_close {quote : UInt16} {rest : JsString} (start : rest.head? ≠ some quote) :
    quoted quote (quote :: rest) = ([], some rest) := by
  cases rest with
  | nil => simp [quoted]
  | cons next rest =>
      have other : next ≠ quote := by simpa using start
      simp [quoted, other]

/-- What follows a closing quote may be replaced. -/
theorem quoted_replace {quote : UInt16} {s after : JsString}
    (found : (quoted quote s).2 = some after)
    {rest : JsString} (start : rest.head? ≠ some quote) :
    quoted quote ((quoted quote s).1 ++ quote :: rest) = ((quoted quote s).1, some rest) := by
  have closes := quoted_close start
  fun_induction quoted quote s with
  | case1 => simp at found
  | case2 => exact closes
  | case3 => simp at found
  | case4 later ih =>
      have again := ih (by simpa using found)
      simp only [Prod.map_fst, List.cons_append, quoted, if_true, again, Prod.map_apply, id]
  | case5 next later other => exact closes
  | case6 unit next later other ih =>
      have again := ih (by simpa using found)
      rw [Prod.map_fst, List.cons_append, quoted_cons_of_ne other (by simp), again]
      rfl

/-- A closing quote that something other than a quote follows stays the closing one. -/
theorem quoted_append {quote : UInt16} {s after : JsString}
    (found : (quoted quote s).2 = some after)
    (nonempty : after ≠ []) (later : JsString) :
    quoted quote (s ++ later) = ((quoted quote s).1, some (after ++ later)) := by
  have whole := quoted_source quote s
  rw [found, Option.map_some, Option.getD_some] at whole
  have start : (after ++ later).head? ≠ some quote := by
    rw [List.head?_append_of_ne_nil _ nonempty]
    exact head?_of_quoted found
  have replaced := quoted_replace found start
  rwa [← List.cons_append, ← List.append_assoc, whole] at replaced

/-- Only the end of the input leaves a construct open. -/
def Token.isOpen : Token → Bool
  | .string _ closed => !closed
  | .identifier _ closed => !closed
  | .blockComment _ closed => !closed
  | _ => false

theorem nextToken_isOpen {previous : Option UInt16} {unit : UInt16} {rest : JsString}
    (isOpen : (nextToken previous unit rest).1.isOpen = true) :
    (nextToken previous unit rest).2 = [] := by
  revert isOpen
  rw [nextToken]
  split_ifs
  · cases found : (quoted singleQuote rest).2 <;> simp [closing, found, Token.isOpen]
  · cases found : (quoted doubleQuote rest).2 <;> simp [closing, found, Token.isOpen]
  · simp [Token.isOpen]
  · cases found : (untilMark rest.tail).2 <;> simp [closing, found, Token.isOpen]
  · simp [Token.isOpen]
  · simp [Token.isOpen]

theorem isOpen_of_mem_dropLast {previous : Option UInt16} {s : JsString} {token : Token}
    (member : token ∈ (lexFrom previous s).dropLast) : token.isOpen = false := by
  fun_induction lexFrom previous s with
  | case1 => exact absurd member List.not_mem_nil
  | case2 previous unit rest ih =>
      cases tail : lexFrom (nextToken previous unit rest).1.source.getLast?
          (nextToken previous unit rest).2 with
      | nil => simp [tail] at member
      | cons second later =>
          rw [tail, List.dropLast_cons_of_ne_nil (List.cons_ne_nil _ _), List.mem_cons] at member
          rcases member with rfl | inTail
          · by_contra isOpen
            rw [nextToken_isOpen (by simpa using isOpen), lexFrom] at tail
            exact absurd tail.symm (List.cons_ne_nil _ _)
          · exact ih (by rwa [tail])

end BelugaManager.DomainApi
