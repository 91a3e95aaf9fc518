import BelugaManager.Foundation.PrefixCode

/-!
# The tokens of SQL

A lexer for the part of SQL in which conditions are written.  A token is as long as it can
be: words and comparison operators are runs of characters, a quote in a literal is doubled,
numbers have no exponent, and comments stand for white space.  White space is what
`Text.isSpace` names.
-/

namespace Foundation.Sql

inductive Token where
  /-- A regular identifier or a keyword. -/
  | word (text : List Char)
  | number (text : List Char)
  | literal (value : List Char)
  /-- An identifier between double quotes. -/
  | delimited (name : List Char)
  | operator (text : List Char)
  | mark (c : Char)
  deriving DecidableEq, Repr

/-- What the lexer is inside of. -/
inductive Mode where
  | code
  | word (text : List Char)
  | whole (text : List Char)
  | fraction (text : List Char)
  | literal (value : List Char)
  /-- After a quote that ends the literal or is the first of two. -/
  | literalEnd (value : List Char)
  | delimited (name : List Char)
  | delimitedEnd (name : List Char)
  | operator (text : List Char)
  | dash
  | lineComment
  | slash
  | blockComment
  | blockStar
  deriving DecidableEq, Repr

def isWordStart (c : Char) : Bool := c.isAlpha || c = '_'

def isWordPart (c : Char) : Bool := c.isAlphanum || c = '_'

def isOperatorPart (c : Char) : Bool := c = '<' || c = '>' || c = '!' || c = '='

/-- A character between tokens. -/
def between (c : Char) : Mode × List Token :=
  if Text.isSpace c then (.code, [])
  else if isWordStart c then (.word [c], [])
  else if c.isDigit then (.whole [c], [])
  else if isOperatorPart c then (.operator [c], [])
  else if c = '\'' then (.literal [], [])
  else if c = '"' then (.delimited [], [])
  else if c = '-' then (.dash, [])
  else if c = '/' then (.slash, [])
  else (.code, [.mark c])

/-- A character that ends a token. -/
def next (token : Token) (c : Char) : Option (Mode × List Token) :=
  some ((between c).1, token :: (between c).2)

/-- The next mode and the tokens that are complete; `none` where a number runs into a word. -/
def step : Mode → Char → Option (Mode × List Token)
  | .code, c => some (between c)
  | .word text, c =>
      if isWordPart c then some (.word (text ++ [c]), []) else next (.word text) c
  | .whole text, c =>
      if c.isDigit then some (.whole (text ++ [c]), [])
      else if c = '.' then some (.fraction (text ++ [c]), [])
      else if isWordStart c then none
      else next (.number text) c
  | .fraction text, c =>
      if c.isDigit then some (.fraction (text ++ [c]), [])
      else if c = '.' || isWordStart c then none
      else next (.number text) c
  | .literal value, c =>
      if c = '\'' then some (.literalEnd value, []) else some (.literal (value ++ [c]), [])
  | .literalEnd value, c =>
      if c = '\'' then some (.literal (value ++ [c]), []) else next (.literal value) c
  | .delimited name, c =>
      if c = '"' then some (.delimitedEnd name, []) else some (.delimited (name ++ [c]), [])
  | .delimitedEnd name, c =>
      if c = '"' then some (.delimited (name ++ [c]), []) else next (.delimited name) c
  | .operator text, c =>
      if isOperatorPart c then some (.operator (text ++ [c]), []) else next (.operator text) c
  | .dash, c => if c = '-' then some (.lineComment, []) else next (.mark '-') c
  | .lineComment, c => some (if c = '\n' then .code else .lineComment, [])
  | .slash, c => if c = '*' then some (.blockComment, []) else next (.mark '/') c
  | .blockComment, c => some (if c = '*' then .blockStar else .blockComment, [])
  | .blockStar, c =>
      some (if c = '/' then .code else if c = '*' then .blockStar else .blockComment, [])

/-- The tokens that the end of the text completes. -/
def finish : Mode → Option (List Token)
  | .code => some []
  | .word text => some [.word text]
  | .whole text => some [.number text]
  | .fraction text => some [.number text]
  | .literalEnd value => some [.literal value]
  | .delimitedEnd name => some [.delimited name]
  | .operator text => some [.operator text]
  | .dash => some [.mark '-']
  | .lineComment => some []
  | .slash => some [.mark '/']
  | _ => none

def lexFrom : Mode → List Char → Option (List Token)
  | mode, [] => finish mode
  | mode, c :: rest =>
      (step mode c).bind fun now => (lexFrom now.1 rest).map fun later => now.2 ++ later

def lex (text : List Char) : Option (List Token) := lexFrom .code text

/-! ## Lexing token by token -/

variable {mode : Mode} {text rest : List Char} {token : Token} {tokens : List Token}

/-- A token is complete before a character that it cannot go on with. -/
theorem lexFrom_complete (ends : finish mode = some [token])
    (closes : ∀ c ∈ rest.head?, step mode c = next token c) (later : lex rest = some tokens) :
    lexFrom mode rest = some (token :: tokens) := by
  cases rest with
  | nil =>
      cases later
      exact ends
  | cons c rest =>
      rw [lex, lexFrom, step, Option.bind_some, Option.map_eq_some_iff] at later
      rcases later with ⟨more, lexed, rfl⟩
      rw [lexFrom, closes c rfl, next, Option.bind_some, lexed]
      rfl

/-- A character that completes nothing. -/
theorem lexFrom_silent {c : Char} {following : Mode} (one : step mode c = some (following, [])) :
    lexFrom mode (c :: rest) = lexFrom following rest := by
  rw [lexFrom, one, Option.bind_some]
  exact Option.map_id'

/-- A run of characters with which a token goes on. -/
theorem lexFrom_run {accepts : Char → Bool} {inside : List Char → Mode}
    (goesOn : ∀ text c, accepts c = true → step (inside text) c = some (inside (text ++ [c]), []))
    (start : List Char) (every : ∀ c ∈ text, accepts c = true) :
    lexFrom (inside start) (text ++ rest) = lexFrom (inside (start ++ text)) rest := by
  induction text generalizing start with
  | nil => rw [List.nil_append, List.append_nil]
  | cons c text ih =>
      rcases List.forall_mem_cons.mp every with ⟨accepted, later⟩
      rw [List.cons_append, lexFrom_silent (goesOn start c accepted), ih _ later,
        List.append_assoc, List.singleton_append]

theorem lex_space (space : ∀ c ∈ text, Text.isSpace c = true) :
    lex (text ++ rest) = lex rest := by
  induction text with
  | nil => rfl
  | cons c text ih =>
      rcases List.forall_mem_cons.mp space with ⟨isSpace, later⟩
      have one : step .code c = some (.code, []) := by
        rw [step, between, if_pos isSpace]
      rw [lex, List.cons_append, lexFrom_silent one]
      exact ih later

/-- A mark that is a token of its own. -/
theorem lex_mark {c : Char} (alone : between c = (.code, [.mark c]))
    (later : lex rest = some tokens) : lex (c :: rest) = some (.mark c :: tokens) := by
  rw [lex] at later
  rw [lex, lexFrom, step, alone, Option.bind_some, later]
  rfl

/-- A sign that starts no comment. -/
theorem lex_dash (alone : StartsOutside (· = '-') rest) (later : lex rest = some tokens) :
    lex ('-' :: rest) = some (.mark '-' :: tokens) := by
  have one : step .code '-' = some (.dash, []) := by decide
  rw [lex, lexFrom_silent one]
  apply lexFrom_complete rfl _ later
  intro c first
  rw [step, if_neg (of_decide_eq_false (alone c first))]

/-! ## Words, operators and numbers -/

theorem isSpace_eq_false_of_isWordStart {c : Char} (starts : isWordStart c = true) :
    Text.isSpace c = false := by
  simp only [isWordStart, Bool.or_eq_true, decide_eq_true_eq] at starts
  rcases starts with alpha | rfl
  · exact Text.isSpace_eq_false_of_isAlpha alpha
  · decide

/-- A word goes on to the next character that is in no word. -/
theorem lex_word {start : Char} (starts : isWordStart start = true)
    (parts : ∀ c ∈ text, isWordPart c = true) (ends : StartsOutside isWordPart rest)
    (later : lex rest = some tokens) :
    lex (start :: text ++ rest) = some (.word (start :: text) :: tokens) := by
  have one : step .code start = some (.word [start], []) := by
    rw [step, between, if_neg (by simp [isSpace_eq_false_of_isWordStart starts]), if_pos starts]
  have goesOn : ∀ text c, isWordPart c = true →
      step (.word text) c = some (.word (text ++ [c]), []) := by
    intro text c part
    rw [step, if_pos part]
  rw [lex, List.cons_append, lexFrom_silent one, lexFrom_run goesOn [start] parts]
  apply lexFrom_complete rfl _ later
  intro c first
  rw [step, if_neg (by simp [ends c first])]
  rfl

theorem between_operator {c : Char} (part : isOperatorPart c = true) :
    between c = (.operator [c], []) := by
  simp only [isOperatorPart, Bool.or_eq_true, decide_eq_true_eq] at part
  rcases part with ((rfl | rfl) | rfl) | rfl
  · decide
  · decide
  · decide
  · decide

theorem lex_operator {start : Char} (every : ∀ c ∈ start :: text, isOperatorPart c = true)
    (ends : StartsOutside isOperatorPart rest) (later : lex rest = some tokens) :
    lex (start :: text ++ rest) = some (.operator (start :: text) :: tokens) := by
  rcases List.forall_mem_cons.mp every with ⟨starts, parts⟩
  have one : step .code start = some (.operator [start], []) := by
    rw [step, between_operator starts]
  have goesOn : ∀ text c, isOperatorPart c = true →
      step (.operator text) c = some (.operator (text ++ [c]), []) := by
    intro text c part
    rw [step, if_pos part]
  rw [lex, List.cons_append, lexFrom_silent one, lexFrom_run goesOn [start] parts]
  apply lexFrom_complete rfl _ later
  intro c first
  rw [step, if_neg (by simp [ends c first])]
  rfl

/-- What a number must not run into. -/
def isNumberPart (c : Char) : Bool := c.isDigit || c = '.' || isWordStart c

theorem lexFrom_whole {start : Char} (every : ∀ c ∈ start :: text, c.isDigit = true)
    (rest : List Char) : lex (start :: text ++ rest) = lexFrom (.whole (start :: text)) rest := by
  rcases List.forall_mem_cons.mp every with ⟨starts, parts⟩
  have noWord : isWordStart start = false := by
    rw [isWordStart, Text.isAlpha_eq_false_of_isDigit starts, Bool.false_or,
      decide_eq_false_iff_not]
    intro underscore
    rw [underscore] at starts
    exact absurd starts (by decide)
  have one : step .code start = some (.whole [start], []) := by
    rw [step, between, if_neg (by simp [Text.isSpace_eq_false_of_isDigit starts]),
      if_neg (by simp [noWord]), if_pos starts]
  have goesOn : ∀ text c, c.isDigit = true →
      step (.whole text) c = some (.whole (text ++ [c]), []) := by
    intro text c digit
    rw [step, if_pos digit]
  rw [lex, List.cons_append, lexFrom_silent one, lexFrom_run goesOn [start] parts]
  rfl

/-- A number without a fraction. -/
theorem lex_whole {start : Char} (every : ∀ c ∈ start :: text, c.isDigit = true)
    (ends : StartsOutside isNumberPart rest) (later : lex rest = some tokens) :
    lex (start :: text ++ rest) = some (.number (start :: text) :: tokens) := by
  rw [lexFrom_whole every]
  apply lexFrom_complete rfl _ later
  intro c first
  have outside := ends c first
  simp only [isNumberPart, Bool.or_eq_false_iff, decide_eq_false_iff_not] at outside
  rcases outside with ⟨⟨noDigit, noDot⟩, noWord⟩
  rw [step, if_neg (by simp [noDigit]), if_neg noDot, if_neg (by simp [noWord])]

/-- A number with a fraction. -/
theorem lex_fraction {start : Char} {fraction : List Char}
    (every : ∀ c ∈ start :: text, c.isDigit = true) (digits : ∀ c ∈ fraction, c.isDigit = true)
    (ends : StartsOutside isNumberPart rest) (later : lex rest = some tokens) :
    lex (start :: text ++ '.' :: fraction ++ rest) =
      some (.number (start :: text ++ '.' :: fraction) :: tokens) := by
  have one : step (.whole (start :: text)) '.' = some (.fraction (start :: text ++ ['.']), []) := by
    rw [step, if_neg (by decide), if_pos rfl]
  have goesOn : ∀ text c, c.isDigit = true →
      step (.fraction text) c = some (.fraction (text ++ [c]), []) := by
    intro text c digit
    rw [step, if_pos digit]
  rw [List.append_assoc, lexFrom_whole every, List.cons_append, lexFrom_silent one,
    lexFrom_run goesOn _ digits, List.append_assoc, List.singleton_append]
  apply lexFrom_complete rfl _ later
  intro c first
  have outside := ends c first
  simp only [isNumberPart, Bool.or_eq_false_iff, decide_eq_false_iff_not] at outside
  rcases outside with ⟨⟨noDigit, noDot⟩, noWord⟩
  rw [step, if_neg (by simp [noDigit]), if_neg (by simp [noDot, noWord])]

/-- A literal without quotes inside. -/
theorem lex_literal (plain : ∀ c ∈ text, c ≠ '\'') (ends : StartsOutside (· = '\'') rest)
    (later : lex rest = some tokens) :
    lex ('\'' :: text ++ '\'' :: rest) = some (.literal text :: tokens) := by
  have one : step .code '\'' = some (.literal [], []) := by decide
  have goesOn : ∀ value c, decide (c ≠ '\'') = true →
      step (.literal value) c = some (.literal (value ++ [c]), []) := by
    intro value c noQuote
    rw [step, if_neg (of_decide_eq_true noQuote)]
  have stop : step (.literal text) '\'' = some (.literalEnd text, []) := by
    rw [step, if_pos rfl]
  rw [lex, List.cons_append, lexFrom_silent one,
    lexFrom_run goesOn [] fun c member => decide_eq_true (plain c member), List.nil_append,
    lexFrom_silent stop]
  apply lexFrom_complete rfl _ later
  intro c first
  rw [step, if_neg (of_decide_eq_false (ends c first))]

/-- A name as it stands between double quotes. -/
def doubled (name : List Char) : List Char :=
  name.flatMap fun c => if c = '"' then ['"', '"'] else [c]

theorem lexFrom_delimited (start name : List Char) (ends : StartsOutside (· = '"') rest)
    (later : lex rest = some tokens) :
    lexFrom (.delimited start) (doubled name ++ '"' :: rest) =
      some (.delimited (start ++ name) :: tokens) := by
  induction name generalizing start with
  | nil =>
      have stop : step (.delimited start) '"' = some (.delimitedEnd start, []) := by
        rw [step, if_pos rfl]
      rw [doubled, List.flatMap_nil, List.nil_append, lexFrom_silent stop, List.append_nil]
      apply lexFrom_complete rfl _ later
      intro c first
      rw [step, if_neg (of_decide_eq_false (ends c first))]
  | cons c name ih =>
      have continued := ih (start ++ [c])
      rw [List.append_assoc, List.singleton_append] at continued
      rw [doubled, List.flatMap_cons, List.append_assoc]
      by_cases quote : c = '"'
      · have first : step (.delimited start) '"' = some (.delimitedEnd start, []) := by
          rw [step, if_pos rfl]
        have second : step (.delimitedEnd start) '"' =
            some (.delimited (start ++ [c]), []) := by
          rw [step, if_pos rfl, quote]
        rw [if_pos quote, List.cons_append, lexFrom_silent first, List.cons_append,
          lexFrom_silent second]
        exact continued
      · have goesOn : step (.delimited start) c = some (.delimited (start ++ [c]), []) := by
          rw [step, if_neg quote]
        rw [if_neg quote, List.cons_append, lexFrom_silent goesOn]
        exact continued

/-- Any name can stand between double quotes. -/
theorem lex_delimited (name : List Char) (ends : StartsOutside (· = '"') rest)
    (later : lex rest = some tokens) :
    lex ('"' :: doubled name ++ '"' :: rest) = some (.delimited name :: tokens) := by
  have one : step .code '"' = some (.delimited [], []) := by decide
  rw [lex, List.cons_append, lexFrom_silent one]
  exact lexFrom_delimited [] name ends later

end Foundation.Sql
