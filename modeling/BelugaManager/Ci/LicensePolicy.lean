import BelugaManager.Foundation.CodeUnits
import BelugaManager.Foundation.SplitText

/-!
# The license gate

`isLicenseApproved` of `scripts/ci/check-license-policy.mjs` against SPDX expressions.  The
function splits the text of an expression at its operators without looking at the
parentheses between them, so that its answer is compared with the meaning of the expression
that the text is written for.
-/

namespace BelugaManager.Ci

open Foundation

def openUnit : UInt16 := JsString.ofChar '('

def closeUnit : UInt16 := JsString.ofChar ')'

def spaceUnit : UInt16 := JsString.ofChar ' '

/-- Items without a first one of some kind. -/
def dropFirst {α : Type} (drops : α → Bool) : List α → List α
  | [] => []
  | item :: rest => if drops item then rest else item :: rest

/-- Items without a first one of one kind and a last one of another. -/
def stripEnds {α : Type} (opens closes : α → Bool) (items : List α) : List α :=
  (dropFirst closes (dropFirst opens items).reverse).reverse

/-- `text.replace(/^\(|\)$/g, '')` -/
def stripParens (text : JsString) : JsString := stripEnds (· = openUnit) (· = closeUnit) text

inductive Operator where
  | or
  | and
  deriving DecidableEq

/-- How an operator is written. -/
def Operator.word : Operator → JsString
  | .or => JsString.ofString "OR"
  | .and => JsString.ofString "AND"

/-- An operator with the spaces around it. -/
def Operator.separator (op : Operator) : JsString := spaceUnit :: (op.word ++ [spaceUnit])

/-- `clean.split(' OR ').map((part) => part.trim().replace(...))` -/
def parts (op : Operator) (clean : JsString) : List JsString :=
  (splitAll op.separator clean).map fun part => stripParens (JsString.trim part)

/-- `approvedSet.has(s)` -/
def has (approvedSet : List JsString) (s : JsString) : Bool := approvedSet.any (· = s)

def isLicenseApproved (licenseStr : JsString) (approvedSet : List JsString) : Bool :=
  if has approvedSet licenseStr then true
  else
    let clean := JsString.trim (stripParens licenseStr)
    if includes Operator.or.separator clean then (parts .or clean).any (has approvedSet)
    else if includes Operator.and.separator clean then (parts .and clean).all (has approvedSet)
    else false

/-! ## Expressions -/

/-- A unit that neither separates words nor groups them. -/
def isWordUnit (unit : UInt16) : Bool :=
  !JsString.isSpaceUnit unit && unit ≠ openUnit && unit ≠ closeUnit

/-- A license identifier. -/
structure LicenseId where
  name : JsString
  nonempty : name ≠ []
  word : ∀ unit ∈ name, isWordUnit unit = true
  notOperator : ∀ op : Operator, name ≠ op.word

theorem LicenseId.ext_name {left right : LicenseId} (same : left.name = right.name) :
    left = right := by
  cases left
  cases right
  cases same
  rfl

inductive Level where
  | primary
  | conjunction
  | disjunction

/-- Expressions as they are written: `AND` binds tighter than `OR`, and parentheses group
anything. -/
inductive Expression : Level → Type where
  | license (id : LicenseId) : Expression .primary
  | group (inner : Expression .disjunction) : Expression .primary
  | conjunct (operand : Expression .primary) : Expression .conjunction
  | and (left : Expression .conjunction) (right : Expression .primary) : Expression .conjunction
  | disjunct (operand : Expression .conjunction) : Expression .disjunction
  | or (left : Expression .disjunction) (right : Expression .conjunction) :
      Expression .disjunction

inductive Token where
  | leftParen
  | rightParen
  | operator (op : Operator)
  | license (id : LicenseId)

def Token.text : Token → JsString
  | .leftParen => [openUnit]
  | .rightParen => [closeUnit]
  | .operator op => op.separator
  | .license id => id.name

def textOf (tokens : List Token) : JsString := tokens.flatMap Token.text

namespace Expression

variable {level : Level}

def tokens : {level : Level} → Expression level → List Token
  | _, .license id => [.license id]
  | _, .group inner => .leftParen :: (inner.tokens ++ [.rightParen])
  | _, .conjunct operand => operand.tokens
  | _, .and left right => left.tokens ++ .operator .and :: right.tokens
  | _, .disjunct operand => operand.tokens
  | _, .or left right => left.tokens ++ .operator .or :: right.tokens

/-- The text of an expression, with single spaces around the operators. -/
def text (e : Expression level) : JsString := textOf e.tokens

/-- An expression holds when exactly the approved licenses are true. -/
def Satisfied (approved : List LicenseId) : {level : Level} → Expression level → Prop
  | _, .license id => id ∈ approved
  | _, .group inner => inner.Satisfied approved
  | _, .conjunct operand => operand.Satisfied approved
  | _, .and left right => left.Satisfied approved ∧ right.Satisfied approved
  | _, .disjunct operand => operand.Satisfied approved
  | _, .or left right => left.Satisfied approved ∨ right.Satisfied approved

/-- More approved licenses satisfy more. -/
theorem Satisfied.mono {approved more : List LicenseId} (subset : ∀ id ∈ approved, id ∈ more)
    {e : Expression level} (satisfied : e.Satisfied approved) : e.Satisfied more := by
  induction e with
  | license id => exact subset id satisfied
  | group inner ih => exact ih satisfied
  | conjunct operand ih => exact ih satisfied
  | and left right leftIH rightIH => exact ⟨leftIH satisfied.1, rightIH satisfied.2⟩
  | disjunct operand ih => exact ih satisfied
  | or left right leftIH rightIH =>
      cases satisfied with
      | inl holds => exact Or.inl (leftIH holds)
      | inr holds => exact Or.inr (rightIH holds)

/-- An expression all of whose licenses are approved holds. -/
theorem satisfied_of_all {approved : List LicenseId} {e : Expression level}
    (all : ∀ id, Token.license id ∈ e.tokens → id ∈ approved) : e.Satisfied approved := by
  induction e with
  | license id => exact all id (List.mem_singleton_self _)
  | group inner ih =>
      apply ih
      intro id member
      exact all id (List.mem_cons_of_mem _ (List.mem_append_left _ member))
  | conjunct operand ih => exact ih all
  | and left right leftIH rightIH =>
      constructor
      · exact leftIH fun id member => all id (List.mem_append_left _ member)
      · apply rightIH
        intro id member
        exact all id (List.mem_append_right _ (List.mem_cons_of_mem _ member))
  | disjunct operand ih => exact ih all
  | or left right leftIH rightIH =>
      exact Or.inl (leftIH fun id member => all id (List.mem_append_left _ member))

end Expression

def Token.isLeft : Token → Bool
  | .leftParen => true
  | _ => false

def Token.isRight : Token → Bool
  | .rightParen => true
  | _ => false

def Token.isOperator (op : Operator) : Token → Bool
  | .operator other => other = op
  | _ => false

/-- Tokens without a parenthesis at either end. -/
def stripTokens (tokens : List Token) : List Token := stripEnds Token.isLeft Token.isRight tokens

/-- The license of a part that has nothing else in it. -/
def alone : List Token → Option LicenseId
  | [.license id] => some id
  | _ => none

/-- The licenses that stand alone between two operators or at an end, up to a parenthesis on
either side, and up to another one at the ends of the whole. -/
def Expression.standingAlone {level : Level} (op : Operator) (e : Expression level) :
    List LicenseId :=
  ((stripTokens e.tokens).splitOnP (Token.isOperator op)).filterMap fun part =>
    alone (stripTokens part)

/-- A token that an operand starts with. -/
def Token.startsOperand : Token → Bool
  | .leftParen => true
  | .license _ => true
  | _ => false

/-- A token after which an operand is due. -/
def Token.needsOperand : Token → Bool
  | .leftParen => true
  | .operator _ => true
  | _ => false

/-- Operands and what follows them alternate; an operand is due before the tokens, and after
them, as said. -/
def Reads (due : Bool) : List Token → Bool → Prop
  | [], after => due = after
  | token :: rest, after => token.startsOperand = due ∧ Reads token.needsOperand rest after

theorem reads_append {due after : Bool} (left right : List Token) :
    Reads due (left ++ right) after ↔
      ∃ middle, Reads due left middle ∧ Reads middle right after := by
  induction left generalizing due with
  | nil => simp [Reads]
  | cons token left ih =>
      rw [List.cons_append, Reads, ih]
      simp only [Reads, and_assoc, exists_and_left]

/-- Tokens that begin and end as an expression does. -/
def Complete (tokens : List Token) : Prop := Reads true tokens false

theorem complete_operator (left right : List Token) (op : Operator) :
    Complete (left ++ .operator op :: right) ↔ Complete left ∧ Complete right := by
  rw [Complete, reads_append, Complete, Complete]
  simp only [Reads, Token.startsOperand, Token.needsOperand]
  constructor
  · intro split
    rcases split with ⟨middle, first, rfl, second⟩
    exact ⟨first, second⟩
  · intro both
    exact ⟨false, both.1, rfl, both.2⟩

theorem complete_leftParen (rest : List Token) :
    Complete (.leftParen :: rest) ↔ Complete rest := by
  simp [Complete, Reads, Token.startsOperand, Token.needsOperand]

theorem complete_rightParen (front : List Token) :
    Complete (front ++ [.rightParen]) ↔ Complete front := by
  rw [Complete, reads_append]
  simp only [Reads, Token.startsOperand, Token.needsOperand]
  constructor
  · intro split
    rcases split with ⟨middle, first, rfl, _⟩
    exact first
  · intro first
    exact ⟨false, first, rfl, trivial⟩

theorem Expression.complete_tokens {level : Level} (e : Expression level) : Complete e.tokens := by
  induction e with
  | license id => exact ⟨rfl, rfl⟩
  | group inner ih =>
      apply (complete_leftParen _).mpr
      exact (complete_rightParen _).mpr ih
  | conjunct operand ih => exact ih
  | and left right leftIH rightIH => exact (complete_operator _ _ .and).mpr ⟨leftIH, rightIH⟩
  | disjunct operand ih => exact ih
  | or left right leftIH rightIH => exact (complete_operator _ _ .or).mpr ⟨leftIH, rightIH⟩

theorem complete_dropFirst {tokens : List Token} (complete : Complete tokens) :
    Complete (dropFirst Token.isLeft tokens) := by
  cases tokens with
  | nil => exact complete
  | cons token rest =>
      cases token with
      | leftParen => exact (complete_leftParen rest).mp complete
      | rightParen => exact complete
      | operator op => exact complete
      | license id => exact complete

theorem complete_dropLast {tokens : List Token} (complete : Complete tokens) :
    Complete (dropFirst Token.isRight tokens.reverse).reverse := by
  rcases List.eq_nil_or_concat tokens with rfl | ⟨front, last, rfl⟩
  · exact complete
  · rw [List.concat_eq_append, List.reverse_append, List.reverse_singleton, List.singleton_append,
      dropFirst]
    rw [List.concat_eq_append] at complete
    cases last with
    | rightParen =>
        rw [Token.isRight, if_pos rfl, List.reverse_reverse]
        exact (complete_rightParen front).mp complete
    | leftParen => simpa [Token.isRight] using complete
    | operator op => simpa [Token.isRight] using complete
    | license id => simpa [Token.isRight] using complete

theorem complete_stripTokens {tokens : List Token} (complete : Complete tokens) :
    Complete (stripTokens tokens) := complete_dropLast (complete_dropFirst complete)

/-- The parts between the operators of one kind are complete. -/
theorem reads_splitOnP (op : Operator) {due : Bool} {tokens : List Token}
    (reads : Reads due tokens false) : ∃ first others,
      tokens.splitOnP (Token.isOperator op) = first :: others ∧ Reads due first false ∧
        ∀ part ∈ others, Complete part := by
  induction tokens generalizing due with
  | nil =>
      refine ⟨[], [], rfl, reads, ?_⟩
      intro part member
      cases member
  | cons token rest ih =>
      rcases ih reads.2 with ⟨first, others, split, firstReads, othersComplete⟩
      rw [List.splitOnP_cons_eq_if_modifyHead, split]
      by_cases isOp : Token.isOperator op token = true
      · have isOperator : token = .operator op := by
          cases token with
          | operator other =>
              have same : other = op := by simpa [Token.isOperator] using isOp
              rw [same]
          | leftParen => cases isOp
          | rightParen => cases isOp
          | license id => cases isOp
        rw [isOperator] at reads firstReads
        rw [if_pos isOp]
        refine ⟨[], first :: others, rfl, reads.1.symm, ?_⟩
        intro part member
        cases List.mem_cons.mp member with
        | inl isFirst => rw [isFirst]; exact firstReads
        | inr later => exact othersComplete part later
      · rw [if_neg isOp]
        exact ⟨token :: first, others, rfl, ⟨reads.1, firstReads⟩, othersComplete⟩

theorem complete_of_mem_splitOnP {op : Operator} {tokens part : List Token}
    (complete : Complete tokens) (member : part ∈ tokens.splitOnP (Token.isOperator op)) :
    Complete part := by
  rcases reads_splitOnP op complete with ⟨first, others, split, firstReads, othersComplete⟩
  rw [split] at member
  cases List.mem_cons.mp member with
  | inl isFirst => rw [isFirst]; exact firstReads
  | inr later => exact othersComplete part later

/-! ## Tokens and their text -/

theorem spaceUnit_not_word : isWordUnit spaceUnit = false := by decide

theorem word_units (op : Operator) : op.word.all isWordUnit = true := by
  cases op with
  | or => decide
  | and => decide

theorem takeWhile_word {word rest : JsString} (units : ∀ unit ∈ word, isWordUnit unit = true)
    (ends : rest.takeWhile isWordUnit = []) : (word ++ rest).takeWhile isWordUnit = word := by
  rw [List.takeWhile_append_of_pos units, ends, List.append_nil]

/-- Where no operand is due, the text does not go on with a word. -/
theorem takeWhile_textOf {tokens : List Token} {after : Bool} (reads : Reads false tokens after) :
    (textOf tokens).takeWhile isWordUnit = [] := by
  cases tokens with
  | nil => rfl
  | cons token rest =>
      cases token with
      | leftParen => cases reads.1
      | license id => cases reads.1
      | rightParen => rfl
      | operator op => cases op <;> rfl

/-- The word at the start of a text that an operand is due in is not an operator. -/
theorem takeWhile_ne_word {tokens : List Token} (reads : Reads true tokens false)
    (op : Operator) : (textOf tokens).takeWhile isWordUnit ≠ op.word := by
  cases tokens with
  | nil => cases reads
  | cons token rest =>
      cases token with
      | leftParen => cases op <;> exact (List.cons_ne_nil _ _).symm
      | rightParen => cases reads.1
      | operator other => cases reads.1
      | license id =>
          have whole : (textOf (.license id :: rest)).takeWhile isWordUnit = id.name :=
            takeWhile_word id.word (takeWhile_textOf reads.2)
          rw [whole]
          exact id.notOperator op

/-- A separator at a space shows in the word after it. -/
theorem not_separator_prefix {op : Operator} {rest : JsString}
    (differs : rest.takeWhile isWordUnit ≠ op.word) : ¬op.separator <+: spaceUnit :: rest := by
  intro starts
  rcases (List.cons_prefix_cons.mp starts).2 with ⟨after, same⟩
  rw [← same, List.append_assoc] at differs
  apply differs
  apply takeWhile_word
  · intro unit member
    exact List.all_eq_true.mp (word_units op) unit member
  · rfl

/-- Splitting the text at an operator is splitting the tokens at it. -/
theorem splitAll_textOf (op : Operator) {due : Bool} {tokens : List Token}
    (reads : Reads due tokens false) : splitAll op.separator (textOf tokens) =
      (tokens.splitOnP (Token.isOperator op)).map textOf := by
  induction tokens generalizing due with
  | nil => rfl
  | cons token rest ih =>
      have onward := ih reads.2
      have prepended : ∀ (isOther : Token.isOperator op token = false),
          splitAll op.separator (token.text ++ textOf rest) =
            (splitAll op.separator (textOf rest)).modifyHead (token.text ++ ·) →
          splitAll op.separator (textOf (token :: rest)) =
            ((token :: rest).splitOnP (Token.isOperator op)).map textOf := by
        intro isOther split
        have unfolded : textOf (token :: rest) = token.text ++ textOf rest := rfl
        rw [unfolded, split, onward, List.splitOnP_cons_eq_if_modifyHead,
          if_neg (by simp [isOther])]
        cases rest.splitOnP (Token.isOperator op) with
        | nil => rfl
        | cons first others => rfl
      have plain : spaceUnit ∉ token.text → splitAll op.separator (token.text ++ textOf rest) =
          (splitAll op.separator (textOf rest)).modifyHead (token.text ++ ·) := by
        intro free
        exact splitAll_append free _
      cases token with
      | leftParen => exact prepended rfl (plain (by decide))
      | rightParen => exact prepended rfl (plain (by decide))
      | license id =>
          apply prepended rfl
          apply plain
          intro member
          have word := id.word _ member
          rw [spaceUnit_not_word] at word
          cases word
      | operator other =>
          by_cases same : other = op
          · rw [same, List.splitOnP_cons_eq_if_modifyHead, if_pos (by simp [Token.isOperator]),
              List.map_cons,
              ← onward]
            have unfolded : textOf (.operator op :: rest) =
                spaceUnit :: ((op.word ++ [spaceUnit]) ++ textOf rest) := rfl
            rw [unfolded]
            exact splitAll_separator spaceUnit (op.word ++ [spaceUnit]) (textOf rest)
          · apply prepended (by simpa [Token.isOperator] using same)
            have otherWord : ∀ unit ∈ other.word, isWordUnit unit = true := fun unit member =>
              List.all_eq_true.mp (word_units other) unit member
            have free : spaceUnit ∉ other.word := by
              intro member
              have word := otherWord _ member
              rw [spaceUnit_not_word] at word
              cases word
            have differ : other.word ≠ op.word := by
              cases op <;> cases other <;> first | exact absurd rfl same | decide
            have before : ¬op.separator <+:
                spaceUnit :: (other.word ++ spaceUnit :: textOf rest) := by
              apply not_separator_prefix
              rw [takeWhile_word otherWord rfl]
              exact differ
            have after : ¬op.separator <+: spaceUnit :: textOf rest :=
              not_separator_prefix (takeWhile_ne_word reads.2 op)
            have unfolded : (Token.operator other).text ++ textOf rest =
                spaceUnit :: (other.word ++ spaceUnit :: textOf rest) := by
              simp [Token.text, Operator.separator]
            have middle : splitAll op.separator (other.word ++ spaceUnit :: textOf rest) =
                (splitAll op.separator (spaceUnit :: textOf rest)).modifyHead (other.word ++ ·) :=
              splitAll_append free _
            rw [unfolded, splitAll_cons before, middle, splitAll_cons after]
            cases splitAll op.separator (textOf rest) with
            | nil => rfl
            | cons piece pieces => simp [Token.text, Operator.separator]

/-- Taking off a first item that stands for a whole token takes off the token. -/
theorem dropFirst_flatMap {code : Token → JsString} {drops : UInt16 → Bool}
    {dropsToken : Token → Bool} (codes : ∀ token, ∃ first rest, code token = first :: rest ∧
      drops first = dropsToken token ∧ (dropsToken token = true → rest = []))
    (tokens : List Token) :
    dropFirst drops (tokens.flatMap code) = (dropFirst dropsToken tokens).flatMap code := by
  cases tokens with
  | nil => rfl
  | cons token others =>
      rcases codes token with ⟨first, rest, written, same, single⟩
      rw [List.flatMap_cons, written, List.cons_append, dropFirst, dropFirst, same]
      split
      next drops => rw [single drops, List.nil_append]
      next => rw [List.flatMap_cons, written, List.cons_append]

theorem isWordUnit_ne {unit : UInt16} (word : isWordUnit unit = true) :
    JsString.isSpaceUnit unit = false ∧ unit ≠ openUnit ∧ unit ≠ closeUnit := by
  simpa [isWordUnit, and_assoc] using word

theorem stripParens_textOf (tokens : List Token) :
    stripParens (textOf tokens) = textOf (stripTokens tokens) := by
  have notOpen : decide (spaceUnit = openUnit) = false := by decide
  have notClose : decide (spaceUnit = closeUnit) = false := by decide
  have opening : ∀ token : Token, ∃ first rest, token.text = first :: rest ∧
      decide (first = openUnit) = token.isLeft ∧ (token.isLeft = true → rest = []) := by
    intro token
    cases token with
    | leftParen => exact ⟨openUnit, [], rfl, by decide, fun _ => rfl⟩
    | rightParen => exact ⟨closeUnit, [], rfl, by decide, fun _ => rfl⟩
    | operator op =>
        exact ⟨spaceUnit, op.word ++ [spaceUnit], rfl, notOpen, fun left => by cases left⟩
    | license id =>
        rcases List.exists_cons_of_ne_nil id.nonempty with ⟨first, rest, written⟩
        have word := isWordUnit_ne (id.word first (by simp [written]))
        exact ⟨first, rest, written, by simp [Token.isLeft, word.2.1], fun left => by cases left⟩
  have closing : ∀ token : Token, ∃ first rest, token.text.reverse = first :: rest ∧
      decide (first = closeUnit) = token.isRight ∧ (token.isRight = true → rest = []) := by
    intro token
    cases token with
    | leftParen => exact ⟨openUnit, [], rfl, by decide, fun _ => rfl⟩
    | rightParen => exact ⟨closeUnit, [], rfl, by decide, fun _ => rfl⟩
    | operator op =>
        refine ⟨spaceUnit, op.word.reverse ++ [spaceUnit], ?_, notClose,
          fun right => by cases right⟩
        simp [Token.text, Operator.separator]
    | license id =>
        have some : id.name.reverse ≠ [] := by simpa using id.nonempty
        rcases List.exists_cons_of_ne_nil some with ⟨first, rest, written⟩
        have member : first ∈ id.name := by
          rw [← List.mem_reverse, written]
          exact List.mem_cons_self
        have word := isWordUnit_ne (id.word first member)
        exact ⟨first, rest, written, by simp [Token.isRight, word.2.2], fun right => by cases right⟩
  have backwards : ∀ tokens : List Token,
      (textOf tokens).reverse = tokens.reverse.flatMap fun token => token.text.reverse := by
    intro tokens
    exact List.reverse_flatMap ..
  rw [stripParens, stripEnds, textOf, dropFirst_flatMap opening, ← textOf, backwards,
    dropFirst_flatMap closing, stripTokens, stripEnds, List.reverse_flatMap]
  rw [textOf]
  congr 1
  funext token
  exact List.reverse_reverse _

theorem dropWhile_eq_self_of_head {α : Type} {p : α → Bool} {items : List α}
    (head : ∀ item, items.head? = some item → p item = false) : items.dropWhile p = items := by
  cases items with
  | nil => rfl
  | cons item rest => rw [List.dropWhile_cons_of_neg (by simp [head item rfl])]

/-- The text of an expression or of a part of one has no space at its ends. -/
theorem trim_textOf {tokens : List Token} (complete : Complete tokens) :
    JsString.trim (textOf tokens) = textOf tokens := by
  have first : (textOf tokens).dropWhile JsString.isSpaceUnit = textOf tokens := by
    apply dropWhile_eq_self_of_head
    intro unit isHead
    cases tokens with
    | nil => cases complete
    | cons token rest =>
        cases token with
        | leftParen => cases isHead; decide
        | rightParen => cases complete.1
        | operator op => cases complete.1
        | license id =>
            rcases List.exists_cons_of_ne_nil id.nonempty with ⟨head, others, written⟩
            have unfolded : textOf (.license id :: rest) = id.name ++ textOf rest := rfl
            rw [unfolded, written, List.cons_append, List.head?_cons, Option.some.injEq] at isHead
            exact (isWordUnit_ne (id.word unit (by simp [written, isHead]))).1
  have last : (textOf tokens).reverse.dropWhile JsString.isSpaceUnit = (textOf tokens).reverse := by
    apply dropWhile_eq_self_of_head
    intro unit isLast
    rcases List.eq_nil_or_concat tokens with rfl | ⟨front, token, rfl⟩
    · cases complete
    · rw [List.concat_eq_append] at complete isLast
      rw [Complete, reads_append] at complete
      rcases complete with ⟨due, _, _, after⟩
      have unfolded : textOf (front ++ [token]) = textOf front ++ token.text := by
        simp [textOf]
      rw [unfolded, List.reverse_append] at isLast
      cases token with
      | leftParen => cases after
      | rightParen => cases isLast; decide
      | operator op => cases after
      | license id =>
          have some : id.name.reverse ≠ [] := by simpa using id.nonempty
          rcases List.exists_cons_of_ne_nil some with ⟨head, others, written⟩
          rw [Token.text, written, List.cons_append, List.head?_cons, Option.some.injEq] at isLast
          have member : unit ∈ id.name := by
            rw [← List.mem_reverse, written, isLast]
            exact List.mem_cons_self
          exact (isWordUnit_ne (id.word unit member)).1
  rw [JsString.trim, first, last, List.reverse_reverse]

theorem parts_textOf (op : Operator) {tokens : List Token} (complete : Complete tokens) :
    parts op (textOf tokens) =
      (tokens.splitOnP (Token.isOperator op)).map fun part => textOf (stripTokens part) := by
  rw [parts, splitAll_textOf op complete, List.map_map]
  apply List.map_congr_left
  intro part member
  rw [Function.comp_apply, trim_textOf (complete_of_mem_splitOnP complete member),
    stripParens_textOf]

/-- Only a license has the text of a license. -/
theorem textOf_eq_name {tokens : List Token} (complete : Complete tokens) {id : LicenseId}
    (same : textOf tokens = id.name) : tokens = [.license id] := by
  have word : ∀ unit ∈ textOf tokens, isWordUnit unit = true := by
    rw [same]
    exact id.word
  cases tokens with
  | nil => cases complete
  | cons token rest =>
      cases token with
      | leftParen => exact absurd (word openUnit List.mem_cons_self) (by decide)
      | rightParen => cases complete.1
      | operator op => cases complete.1
      | license other =>
          have unfolded : textOf (.license other :: rest) = other.name ++ textOf rest := rfl
          rw [unfolded] at same word
          cases rest with
          | nil =>
              have sameName : other.name = id.name := by simpa [textOf] using same
              rw [LicenseId.ext_name sameName]
          | cons next others =>
              cases next with
              | leftParen => cases complete.2.1
              | license third => cases complete.2.1
              | rightParen =>
                  have inside : closeUnit ∈ other.name ++ textOf (.rightParen :: others) :=
                    List.mem_append_right _ List.mem_cons_self
                  exact absurd (word closeUnit inside) (by decide)
              | operator op =>
                  have inside : spaceUnit ∈ other.name ++ textOf (.operator op :: others) :=
                    List.mem_append_right _ List.mem_cons_self
                  exact absurd (word spaceUnit inside) (by decide)

/-! ## The answer -/

variable {level : Level}

theorem has_names_iff (approved : List LicenseId) (s : JsString) :
    has (approved.map LicenseId.name) s = true ↔ ∃ id ∈ approved, id.name = s := by
  simp [has]

/-- A part is approved if it is an approved license up to its parentheses. -/
theorem has_part_iff (approved : List LicenseId) {part : List Token} (complete : Complete part) :
    has (approved.map LicenseId.name) (textOf (stripTokens part)) = true ↔
      ∃ id ∈ approved, stripTokens part = [.license id] := by
  rw [has_names_iff]
  constructor
  · intro found
    rcases found with ⟨id, listed, same⟩
    exact ⟨id, listed, textOf_eq_name (complete_stripTokens complete) same.symm⟩
  · intro found
    rcases found with ⟨id, listed, same⟩
    refine ⟨id, listed, ?_⟩
    rw [same]
    exact (List.append_nil _).symm

theorem license_mem_dropFirst {drops : Token → Bool} {id : LicenseId}
    (keeps : drops (.license id) = false) {tokens : List Token}
    (member : Token.license id ∈ tokens) : Token.license id ∈ dropFirst drops tokens := by
  cases tokens with
  | nil => cases member
  | cons token rest =>
      rw [dropFirst]
      split
      next dropped =>
        cases List.mem_cons.mp member with
        | inl isFirst =>
            rw [← isFirst, keeps] at dropped
            cases dropped
        | inr later => exact later
      next => exact member

theorem license_mem_stripTokens {id : LicenseId} {tokens : List Token}
    (member : Token.license id ∈ tokens) : Token.license id ∈ stripTokens tokens := by
  rw [stripTokens, stripEnds, List.mem_reverse]
  apply license_mem_dropFirst rfl
  rw [List.mem_reverse]
  exact license_mem_dropFirst rfl member

/-- Every license stands in some part. -/
theorem exists_part (op : Operator) {id : LicenseId} {tokens : List Token}
    (member : Token.license id ∈ tokens) :
    ∃ part ∈ tokens.splitOnP (Token.isOperator op), Token.license id ∈ part := by
  induction tokens with
  | nil => cases member
  | cons token rest ih =>
      rw [List.splitOnP_cons_eq_if_modifyHead]
      cases split : rest.splitOnP (Token.isOperator op) with
      | nil => exact absurd split (List.splitOnP_ne_nil _ _)
      | cons first others =>
          rw [split] at ih
          cases List.mem_cons.mp member with
          | inl isFirst =>
              rw [← isFirst, if_neg (by simp [Token.isOperator])]
              exact ⟨_, List.mem_cons_self, List.mem_cons_self⟩
          | inr later =>
              rcases ih later with ⟨part, listed, inside⟩
              split
              next => exact ⟨part, List.mem_cons_of_mem _ listed, inside⟩
              next =>
                cases List.mem_cons.mp listed with
                | inl isFirst =>
                    refine ⟨token :: first, List.mem_cons_self, ?_⟩
                    exact List.mem_cons_of_mem _ (isFirst ▸ inside)
                | inr later => exact ⟨part, List.mem_cons_of_mem _ later, inside⟩

theorem mem_standingAlone_iff (op : Operator) (e : Expression level) (id : LicenseId) :
    id ∈ e.standingAlone op ↔ ∃ part ∈ (stripTokens e.tokens).splitOnP (Token.isOperator op),
      stripTokens part = [.license id] := by
  have isAlone : ∀ tokens : List Token, alone tokens = some id ↔ tokens = [.license id] := by
    intro tokens
    constructor
    · intro found
      cases tokens with
      | nil => cases found
      | cons token rest =>
          cases rest with
          | nil =>
              cases token with
              | license other =>
                  rw [Option.some.inj found]
              | leftParen => cases found
              | rightParen => cases found
              | operator op => cases found
          | cons next rest => cases token <;> cases found
    · intro same
      rw [same]
      rfl
  rw [Expression.standingAlone, List.mem_filterMap]
  simp only [isAlone]

/-- Where every part is the same license, or each is some approved one, all licenses of the
expression are. -/
theorem satisfied_of_parts {approved : List LicenseId} (op : Operator) {e : Expression level}
    (each : ∀ part ∈ (stripTokens e.tokens).splitOnP (Token.isOperator op),
      ∃ id ∈ approved, stripTokens part = [.license id]) : e.Satisfied approved := by
  apply Expression.satisfied_of_all
  intro id member
  rcases exists_part op (license_mem_stripTokens member) with ⟨part, listed, inside⟩
  rcases each part listed with ⟨other, isApproved, same⟩
  have kept := license_mem_stripTokens inside
  rw [same, List.mem_singleton, Token.license.injEq] at kept
  rw [kept]
  exact isApproved

theorem eq_of_length_le_one {α : Type} {items : List α} (few : items.length ≤ 1) {a b : α}
    (memberA : a ∈ items) (memberB : b ∈ items) : a = b := by
  cases items with
  | nil => cases memberA
  | cons item rest =>
      have empty : rest = [] := by simpa using few
      rw [empty, List.mem_singleton] at memberA memberB
      rw [memberA, memberB]

theorem trim_stripParens (e : Expression level) :
    JsString.trim (stripParens e.text) = textOf (stripTokens e.tokens) := by
  rw [Expression.text, stripParens_textOf, trim_textOf (complete_stripTokens e.complete_tokens)]

/-- An approved license that stands alone between the `OR`s is enough for the function, or for
the expression if it has no `OR`. -/
theorem approved_of_standingAlone (e : Expression level) {approved : List LicenseId}
    {id : LicenseId} (alone : id ∈ e.standingAlone .or) (isApproved : id ∈ approved) :
    isLicenseApproved e.text (approved.map LicenseId.name) = true ∨ e.Satisfied approved := by
  have complete := complete_stripTokens e.complete_tokens
  rcases (mem_standingAlone_iff .or e id).mp alone with ⟨part, listed, same⟩
  by_cases hasOr : includes Operator.or.separator (textOf (stripTokens e.tokens)) = true
  · left
    rw [isLicenseApproved]
    split
    next => rfl
    next =>
      rw [trim_stripParens, if_pos hasOr, parts_textOf .or complete, List.any_map,
        List.any_eq_true]
      refine ⟨part, listed, ?_⟩
      apply (has_part_iff approved (complete_of_mem_splitOnP complete listed)).mpr
      exact ⟨id, isApproved, same⟩
  · -- Without an `OR` the part is the whole, and the license its only one.
    right
    apply satisfied_of_parts .or
    intro other otherListed
    rw [Operator.separator, includes_iff, ← Operator.separator, splitAll_textOf .or complete,
      List.length_map, not_lt] at hasOr
    exact ⟨id, isApproved, eq_of_length_le_one hasOr otherListed listed ▸ same⟩

/-- The function approves an expression that holds, or one between the `OR`s of which an
approved license stands alone. -/
theorem satisfied_or_standingAlone (e : Expression level) {approved : List LicenseId}
    (answer : isLicenseApproved e.text (approved.map LicenseId.name) = true) :
    e.Satisfied approved ∨ ∃ id ∈ e.standingAlone .or, id ∈ approved := by
  have complete := complete_stripTokens e.complete_tokens
  rw [isLicenseApproved] at answer
  split at answer
  next whole =>
    left
    rcases (has_names_iff approved e.text).mp whole with ⟨id, isApproved, same⟩
    apply Expression.satisfied_of_all
    intro other member
    rw [textOf_eq_name e.complete_tokens same.symm, List.mem_singleton,
      Token.license.injEq] at member
    rw [member]
    exact isApproved
  next =>
    rw [trim_stripParens] at answer
    dsimp only at answer
    split at answer
    next =>
      right
      rw [parts_textOf .or complete, List.any_map, List.any_eq_true] at answer
      rcases answer with ⟨part, listed, approvedPart⟩
      rcases (has_part_iff approved
        (complete_of_mem_splitOnP complete listed)).mp approvedPart with
        ⟨id, isApproved, same⟩
      exact ⟨id, (mem_standingAlone_iff .or e id).mpr ⟨part, listed, same⟩, isApproved⟩
    next =>
      split at answer
      next =>
        left
        rw [parts_textOf .and complete, List.all_map, List.all_eq_true] at answer
        apply satisfied_of_parts .and
        intro part listed
        exact (has_part_iff approved (complete_of_mem_splitOnP complete listed)).mp
          (answer part listed)
      next => cases answer

/-- For every expression: the function approves it under any set of approved licenses only if
it holds, exactly when each license that stands alone between the `OR`s is enough for the
whole; and under one set, exactly when the expression holds if one of the set stands there. -/
theorem isLicenseApproved_sound_iff (e : Expression level) :
    ((∀ approved : List LicenseId,
      isLicenseApproved e.text (approved.map LicenseId.name) = true → e.Satisfied approved) ↔
        ∀ id ∈ e.standingAlone .or, e.Satisfied [id]) ∧
    ∀ approved : List LicenseId,
      ((isLicenseApproved e.text (approved.map LicenseId.name) = true → e.Satisfied approved) ↔
        ((∃ id ∈ e.standingAlone .or, id ∈ approved) → e.Satisfied approved)) := by
  have fixed : ∀ approved : List LicenseId,
      ((isLicenseApproved e.text (approved.map LicenseId.name) = true → e.Satisfied approved) ↔
        ((∃ id ∈ e.standingAlone .or, id ∈ approved) → e.Satisfied approved)) := by
    intro approved
    constructor
    · rintro sound ⟨id, alone, isApproved⟩
      exact (approved_of_standingAlone e alone isApproved).elim sound fun satisfied => satisfied
    · intro enough answer
      exact (satisfied_or_standingAlone e answer).elim (fun satisfied => satisfied) enough
  refine ⟨?_, fixed⟩
  constructor
  · intro sound id alone
    exact (fixed [id]).mp (sound [id]) ⟨id, alone, List.mem_singleton_self id⟩
  · intro enough approved
    apply (fixed approved).mpr
    rintro ⟨id, alone, isApproved⟩
    apply (enough id alone).mono
    intro other member
    rw [List.mem_singleton.mp member]
    exact isApproved

def mit : LicenseId where
  name := JsString.ofString "MIT"
  nonempty := by decide
  word := List.all_eq_true.mp (by decide)
  notOperator op := by cases op <;> decide

def apache : LicenseId where
  name := JsString.ofString "Apache-2.0"
  nonempty := by decide
  word := List.all_eq_true.mp (by decide)
  notOperator op := by cases op <;> decide

def gpl : LicenseId where
  name := JsString.ofString "GPL-3.0"
  nonempty := by decide
  word := List.all_eq_true.mp (by decide)
  notOperator op := by cases op <;> decide

/-- `GPL-3.0 AND (Apache-2.0 OR MIT)` -/
def choiceUnderAnd : Expression .disjunction :=
  .disjunct (.and (.conjunct (.license gpl))
    (.group (.or (.disjunct (.conjunct (.license apache))) (.conjunct (.license mit)))))

/-- It is approved where only `MIT` is. -/
theorem choiceUnderAnd_approved :
    choiceUnderAnd.text = JsString.ofString "GPL-3.0 AND (Apache-2.0 OR MIT)" ∧
      isLicenseApproved choiceUnderAnd.text [mit.name] = true ∧
      ¬choiceUnderAnd.Satisfied [mit] ∧
      ¬∀ (e : Expression .disjunction) (approved : List LicenseId),
        isLicenseApproved e.text (approved.map LicenseId.name) = true →
          e.Satisfied approved := by
  have approved : isLicenseApproved choiceUnderAnd.text [mit.name] = true := by decide
  have unsatisfied : ¬choiceUnderAnd.Satisfied [mit] := by
    intro satisfied
    have same : gpl = mit := List.mem_singleton.mp satisfied.1
    exact absurd (congrArg LicenseId.name same) (by decide)
  refine ⟨by decide, approved, unsatisfied, ?_⟩
  intro sound
  exact unsatisfied (sound choiceUnderAnd [mit] approved)

end BelugaManager.Ci
