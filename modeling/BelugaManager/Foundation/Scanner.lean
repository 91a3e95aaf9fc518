import BelugaManager.Foundation.PrefixCode

/-!
# Scanning code with comments and literals

A scanner for languages in which a comment runs from `#` to the end of its line and string
literals are those of JSON.  It reads a text character by character, so that a text can be
scanned piece by piece.
-/

namespace Foundation.Scanner

inductive Token where
  | newline
  | comment (text : List Char)
  /-- A literal with what it stands for. -/
  | literal (value : List Char)
  | raw (text : List Char)
  | word (text : List Char)
  | mark (c : Char)
  deriving DecidableEq, Repr

namespace Token

/-- What a literal stands for. -/
def value? : Token → Option (List Char)
  | .literal value => some value
  | _ => none

def isComment : Token → Bool
  | .comment _ => true
  | _ => false

end Token

/-- What the scanner is inside of. -/
inductive Mode where
  | code
  | word (text : List Char)
  | comment (text : List Char)
  | literal (value : List Char)
  | escape (value : List Char)
  | unicode (value : List Char) (code digits : ℕ)
  | raw (text : List Char)
  deriving DecidableEq, Repr

def isWordChar (c : Char) : Bool := c.isAlphanum || c = '_' || c = '.'

def isBlank (c : Char) : Bool := c = ' ' || c = '\t' || c = '\r'

def hexDigit (c : Char) : Option ℕ :=
  if '0' ≤ c ∧ c ≤ '9' then some (c.toNat - 48)
  else if 'a' ≤ c ∧ c ≤ 'f' then some (c.toNat - 87)
  else if 'A' ≤ c ∧ c ≤ 'F' then some (c.toNat - 55)
  else none

/-- What a character after a backslash stands for. -/
def escaped (c : Char) : Option Char :=
  if c = '"' ∨ c = '\\' ∨ c = '/' then some c
  else if c = 'b' then some (Char.ofNat 0x08)
  else if c = 'f' then some (Char.ofNat 0x0C)
  else if c = 'n' then some (Char.ofNat 0x0A)
  else if c = 'r' then some (Char.ofNat 0x0D)
  else if c = 't' then some (Char.ofNat 0x09)
  else none

/-- A character between tokens. -/
def between (c : Char) : Mode × List Token :=
  if c = '#' then (.comment [], [])
  else if c = '"' then (.literal [], [])
  else if c = Char.ofNat 0x60 then (.raw [], [])
  else if c = '\n' then (.code, [.newline])
  else if isBlank c then (.code, [])
  else if isWordChar c then (.word [c], [])
  else (.code, [.mark c])

/-- The next mode and the tokens that are complete; `none` for a malformed literal. -/
def step : Mode → Char → Option (Mode × List Token)
  | .code, c => some (between c)
  | .word text, c =>
      if isWordChar c then some (.word (text ++ [c]), [])
      else some ((between c).1, .word text :: (between c).2)
  | .comment text, c =>
      if c = '\n' then some (.code, [.comment text, .newline])
      else some (.comment (text ++ [c]), [])
  | .literal value, c =>
      if c = '"' then some (.code, [.literal value])
      else if c = '\\' then some (.escape value, [])
      else if c.toNat < 0x20 then none
      else some (.literal (value ++ [c]), [])
  | .escape value, c =>
      if c = 'u' then some (.unicode value 0 0, [])
      else (escaped c).map fun d => (.literal (value ++ [d]), [])
  | .unicode value code digits, c =>
      (hexDigit c).bind fun d =>
        if digits < 3 then some (.unicode value (code * 16 + d) (digits + 1), [])
        else if (code * 16 + d).isValidChar then
          some (.literal (value ++ [Char.ofNat (code * 16 + d)]), [])
        else none
  | .raw text, c =>
      if c = Char.ofNat 0x60 then some (.code, [.raw text]) else some (.raw (text ++ [c]), [])

def scan : Mode → List Char → Option (Mode × List Token)
  | mode, [] => some (mode, [])
  | mode, c :: rest =>
      (step mode c).bind fun now => (scan now.1 rest).map fun later =>
        (later.1, now.2 ++ later.2)

/-- The token that the end of the text completes. -/
def finish : Mode → Option (List Token)
  | .code => some []
  | .word text => some [.word text]
  | .comment text => some [.comment text]
  | _ => none

def lex (text : List Char) : Option (List Token) :=
  (scan .code text).bind fun read => (finish read.1).map fun last => read.2 ++ last

/-! ## Scanning piece by piece -/

/-- A text leads from one mode to another and gives some tokens. -/
def Scans (first : Mode) (text : List Char) (last : Mode) (tokens : List Token) : Prop :=
  scan first text = some (last, tokens)

instance (first last : Mode) (text : List Char) (tokens : List Token) :
    Decidable (Scans first text last tokens) :=
  inferInstanceAs (Decidable (_ = _))

variable {first middle last : Mode} {text more : List Char} {tokens others : List Token}

theorem scans_nil (mode : Mode) : Scans mode [] mode [] := rfl

theorem scans_cons {c : Char} (one : step first c = some (middle, tokens))
    (rest : Scans middle text last others) : Scans first (c :: text) last (tokens ++ others) := by
  rw [Scans] at rest
  rw [Scans, scan, one, Option.bind_some, rest]
  rfl

theorem Scans.append (front : Scans first text middle tokens)
    (back : Scans middle more last others) :
    Scans first (text ++ more) last (tokens ++ others) := by
  induction text generalizing first tokens with
  | nil =>
      cases front
      exact back
  | cons c text ih =>
      rw [Scans, scan] at front
      rcases Option.bind_eq_some_iff.mp front with ⟨now, one, rest⟩
      rcases Option.map_eq_some_iff.mp rest with ⟨later, scanned, same⟩
      rw [Prod.mk.injEq] at same
      rcases same with ⟨rfl, rfl⟩
      rw [List.cons_append, List.append_assoc]
      exact scans_cons one (ih scanned)

theorem Scans.lex (whole : Scans .code text .code tokens) : Scanner.lex text = some tokens := by
  rw [Scanner.lex, whole, Option.bind_some, finish, Option.map_some, List.append_nil]

/-- A comment goes on to the end of its line. -/
theorem scans_comment (start : List Char) (oneLine : '\n' ∉ text) :
    Scans (.comment start) text (.comment (start ++ text)) [] := by
  induction text generalizing start with
  | nil =>
      rw [List.append_nil]
      exact scans_nil _
  | cons c text ih =>
      rw [List.mem_cons, not_or] at oneLine
      have one : step (.comment start) c = some (.comment (start ++ [c]), []) := by
        rw [step, if_neg (Ne.symm oneLine.1)]
      have rest := scans_cons one (ih (start ++ [c]) oneLine.2)
      rwa [List.append_assoc, List.singleton_append, List.append_nil] at rest

theorem scans_comment_line (oneLine : '\n' ∉ text) :
    Scans .code ('#' :: text ++ ['\n']) .code [.comment text, .newline] := by
  have start : Scans .code ['#'] (.comment []) [] := rfl
  have stop : Scans (.comment text) ['\n'] .code [.comment text, .newline] := rfl
  exact (start.append (scans_comment [] oneLine)).append stop

theorem between_wordChar {c : Char} (inWord : isWordChar c = true) :
    between c = (.word [c], []) := by
  have other : ∀ d : Char, isWordChar d = false → c ≠ d := by
    intro d noWord same
    rw [same, noWord] at inWord
    cases inWord
  have noBlank : isBlank c = false := by
    simp [isBlank, other ' ' (by decide), other '\t' (by decide), other '\r' (by decide)]
  rw [between, if_neg (other '#' (by decide)), if_neg (other '"' (by decide)),
    if_neg (other (Char.ofNat 0x60) (by decide)), if_neg (other '\n' (by decide)), noBlank, inWord]
  rfl

theorem scans_word_on (start : List Char) (inWord : ∀ c ∈ text, isWordChar c = true) :
    Scans (.word start) text (.word (start ++ text)) [] := by
  induction text generalizing start with
  | nil =>
      rw [List.append_nil]
      exact scans_nil _
  | cons c text ih =>
      have one : step (.word start) c = some (.word (start ++ [c]), []) := by
        rw [step, if_pos (inWord c List.mem_cons_self)]
      have rest := scans_cons one
        (ih (start ++ [c]) fun d member => inWord d (List.mem_cons_of_mem c member))
      rwa [List.append_assoc, List.singleton_append, List.append_nil] at rest

/-- A word that has begun goes on to the next character that is in no word. -/
theorem scans_word (nonempty : text ≠ []) (inWord : ∀ c ∈ text, isWordChar c = true) :
    Scans .code text (.word text) [] := by
  cases text with
  | nil => exact absurd rfl nonempty
  | cons c text =>
      have one : step .code c = some (.word [c], []) := by
        rw [step, between_wordChar (inWord c List.mem_cons_self)]
      exact scans_cons one
        (scans_word_on [c] fun d member => inWord d (List.mem_cons_of_mem c member))

/-! ## Literals -/

theorem hexDigit_digitChar : ∀ n < 16, hexDigit n.digitChar = some n := by decide

/-- An escaped character is read as the character. -/
theorem scans_jsonEscape (value : List Char) (c : Char) :
    Scans (.literal value) (Text.jsonEscape c) (.literal (value ++ [c])) [] := by
  have named : ∀ n, c.toNat = n → Char.ofNat n = c := by
    intro n code
    rw [← code, Char.ofNat_toNat]
  rw [Text.jsonEscape]
  split_ifs with quote backslash backspace tab newline formFeed carriage control
  · rw [quote]
    rfl
  · rw [backslash]
    rfl
  · rw [← named _ backspace]
    rfl
  · rw [← named _ tab]
    rfl
  · rw [← named _ newline]
    rfl
  · rw [← named _ formFeed]
    rfl
  · rw [← named _ carriage]
    rfl
  · have start : Scans (.literal value) ['\\', 'u', '0', '0'] (.unicode value 0 2) [] := rfl
    have high : step (.unicode value 0 2) (c.toNat / 16).digitChar =
        some (.unicode value (c.toNat / 16) 3, []) := by
      rw [step, hexDigit_digitChar _ (by omega)]
      simp
    have low : step (.unicode value (c.toNat / 16) 3) (c.toNat % 16).digitChar =
        some (.literal (value ++ [c]), []) := by
      have code : c.toNat / 16 * 16 + c.toNat % 16 = c.toNat := by omega
      have valid : c.toNat.isValidChar := c.valid
      rw [step, hexDigit_digitChar _ (by omega), Option.bind_some, code, if_neg (by omega),
        if_pos valid, Char.ofNat_toNat]
    exact start.append (scans_cons high (scans_cons low (scans_nil _)))
  · have one : step (.literal value) c = some (.literal (value ++ [c]), []) := by
      rw [step, if_neg quote, if_neg backslash, if_neg control]
    exact scans_cons one (scans_nil _)

theorem scans_jsonEscapes (start value : List Char) :
    Scans (.literal start) (value.flatMap Text.jsonEscape) (.literal (start ++ value)) [] := by
  induction value generalizing start with
  | nil =>
      rw [List.append_nil]
      exact scans_nil _
  | cons c value ih =>
      have rest := (scans_jsonEscape start c).append (ih (start ++ [c]))
      rwa [List.append_assoc, List.singleton_append] at rest

/-- A quoted string is read as one literal that stands for the string. -/
theorem scans_jsonQuote (s : String) :
    Scans .code (Text.jsonQuote s).toList .code [.literal s.toList] := by
  have start : Scans .code ['"'] (.literal []) [] := rfl
  have stop : Scans (.literal s.toList) ['"'] .code [.literal s.toList] := rfl
  rw [Text.jsonQuote, String.toList_ofList]
  exact (start.append (scans_jsonEscapes [] s.toList)).append stop

end Foundation.Scanner
