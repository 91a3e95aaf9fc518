import BelugaManager.Foundation.SqlLexer
import Mathlib.Algebra.BigOperators.Group.List.Basic

/-!
# Conditions of SQL

A parser for the part of SQL's search conditions that compares columns with values.  A
connective binds the more loosely the later it is tried: `OR` joins what `AND` joins, `AND` joins
what `NOT` negates, and `NOT` negates a predicate or a condition in parentheses.  What is
left out (arithmetic, functions, subqueries) does not parse.
-/

namespace Foundation.Sql

/-- The keywords of conditions. -/
inductive Keyword where
  | and
  | or
  | not
  | membership
  | currentUser
  deriving DecidableEq, Repr

def Keyword.text : Keyword → List Char
  | .and => ['a', 'n', 'd']
  | .or => ['o', 'r']
  | .not => ['n', 'o', 't']
  | .membership => ['i', 'n']
  | .currentUser => ['c', 'u', 'r', 'r', 'e', 'n', 't', '_', 'u', 's', 'e', 'r']

/-- A word is a keyword in letters of either case. -/
def Keyword.isSpelled (keyword : Keyword) (word : List Char) : Bool :=
  word.map Char.toLower = keyword.text

/-- What a dialect of SQL reserves: the keywords of conditions, and any other words. -/
structure Dialect where
  reserved : List Char → Bool
  keywords : ∀ keyword word, Keyword.isSpelled keyword word = true → reserved word = true

inductive Operand where
  /-- A name with its qualifiers. -/
  | column (names : List (List Char))
  | number (text : List Char)
  | literal (value : List Char)
  | currentUser
  | minus (operand : Operand)
  deriving DecidableEq, Repr

inductive Condition where
  | comparison (left : Operand) (operator : List Char) (right : Operand)
  | membership (left : Operand) (values : List Operand)
  | negation (condition : Condition)
  | conjunction (conditions : List Condition)
  | disjunction (conditions : List Condition)

/-- What `AND` joins; a single condition stays as it is. -/
def Condition.all : List Condition → Condition
  | [condition] => condition
  | conditions => .conjunction conditions

/-- What `OR` joins; a single condition stays as it is. -/
def Condition.any : List Condition → Condition
  | [condition] => condition
  | conditions => .disjunction conditions

/-! ## Parsers -/

/-- What is read from the front, and the tokens that are left. -/
abbrev Parser (α : Type) := List Token → Option (α × List Token)

/-- The read value replaced. -/
def Parser.map {α β : Type} (f : α → β) (parser : Parser α) : Parser β := fun tokens =>
  (parser tokens).map fun read => (f read.1, read.2)

/-- What stands before a closing parenthesis. -/
def Parser.closed {α : Type} (parser : Parser α) : Parser α := fun tokens =>
  match parser tokens with
  | some (value, .mark ')' :: rest) => some (value, rest)
  | _ => none

/-- Items, each with a separator before it, at most as many as there is fuel. -/
def more {α : Type} (separates : Token → Bool) (item : Parser α) : ℕ → Parser (List α)
  | fuel + 1, token :: rest =>
      if separates token then
        (item rest).bind fun read =>
          (more separates item fuel read.2).map fun later => (read.1 :: later.1, later.2)
      else some ([], token :: rest)
  | _, tokens => some ([], tokens)

/-- One item or more between separators. -/
def chain {α : Type} (separates : Token → Bool) (item : Parser α) : Parser (List α) := fun tokens =>
  (item tokens).bind fun read =>
    (more separates item read.2.length read.2).map fun later => (read.1 :: later.1, later.2)

def isMark (c : Char) (token : Token) : Bool := token = .mark c

def isKeyword (keyword : Keyword) : Token → Bool
  | .word text => keyword.isSpelled text
  | _ => false

section Grammar

variable (dialect : Dialect)

def name : Parser (List Char)
  | .word text :: rest => if dialect.reserved text then none else some (text, rest)
  | .delimited text :: rest => some (text, rest)
  | _ => none

def column : Parser Operand := (chain (isMark '.') (name dialect)).map .column

def primary : Parser Operand
  | .number text :: rest => some (.number text, rest)
  | .literal value :: rest => some (.literal value, rest)
  | .word text :: rest =>
      if Keyword.currentUser.isSpelled text then some (.currentUser, rest)
      else column dialect (.word text :: rest)
  | tokens => column dialect tokens

def operand : Parser Operand
  | .mark '-' :: rest => (operand rest).map fun read => (.minus read.1, read.2)
  | tokens => primary dialect tokens

theorem operand_word (text : List Char) (rest : List Token) :
    operand dialect (.word text :: rest) = primary dialect (.word text :: rest) := rfl

def comparisons : List (List Char) :=
  [['='], ['<', '>'], ['!', '='], ['<'], ['>'], ['<', '='], ['>', '=']]

/-- What a predicate says about its left side. -/
def relation (left : Operand) : Parser Condition
  | .operator text :: rest =>
      if text ∈ comparisons then (operand dialect).map (.comparison left text) rest else none
  | .word text :: .mark '(' :: rest =>
      if Keyword.membership.isSpelled text then
        (chain (isMark ',') (operand dialect)).closed.map (.membership left) rest
      else none
  | _ => none

def predicate : Parser Condition := fun tokens =>
  (operand dialect tokens).bind fun read => relation dialect read.1 read.2

/-- A predicate or a nested condition, with what negates it. -/
def factor (nested : Parser Condition) : Parser Condition
  | .word text :: rest =>
      if Keyword.not.isSpelled text then (factor nested rest).map fun read =>
        (.negation read.1, read.2)
      else predicate dialect (.word text :: rest)
  | .mark '(' :: rest => nested.closed rest
  | tokens => predicate dialect tokens

/-- A condition whose parentheses are nested less deep than a given depth. -/
def condition : ℕ → Parser Condition
  | 0 => fun _ => none
  | depth + 1 =>
      (chain (isKeyword .or)
        ((chain (isKeyword .and) (factor dialect (condition depth))).map .all)).map .any

/-- The condition that a list of tokens is. -/
def parse (tokens : List Token) : Option Condition :=
  match condition dialect tokens.length tokens with
  | some (condition, []) => some condition
  | _ => none

end Grammar

/-! ## Parsing a chain -/

variable {ι α : Type} {separates : Token → Bool} {item : Parser α} {rest : List Token}

/-- Items are read up to what they are separated from; `follows` is what an item may stand
before. -/
theorem more_eq (follows : List Token → Prop) {items : List ι} {separator : ι → Token}
    {body : ι → List Token} {value : ι → α}
    (separators : ∀ x ∈ items, separates (separator x) = true)
    (reads : ∀ x ∈ items, ∀ rest, follows rest → item (body x ++ rest) = some (value x, rest))
    (continues : ∀ x ∈ items, ∀ rest, follows (separator x :: rest)) (ends : follows rest)
    (stops : StartsOutside separates rest) {fuel : ℕ} (enough : items.length ≤ fuel) :
    more separates item fuel (items.flatMap (fun x => separator x :: body x) ++ rest) =
      some (items.map value, rest) := by
  induction items generalizing fuel with
  | nil =>
      rw [List.flatMap_nil, List.nil_append, List.map_nil]
      cases fuel with
      | zero => rfl
      | succ fuel =>
          cases rest with
          | nil => rfl
          | cons token rest => rw [more, if_neg (by simp [stops token rfl])]
  | cons x items ih =>
      rcases List.forall_mem_cons.mp separators with ⟨isSeparator, laterSeparators⟩
      rcases List.forall_mem_cons.mp reads with ⟨readsItem, readsLater⟩
      rcases List.forall_mem_cons.mp continues with ⟨_, continuesLater⟩
      have following : follows (items.flatMap (fun x => separator x :: body x) ++ rest) := by
        cases items with
        | nil => exact ends
        | cons other items => exact continuesLater other List.mem_cons_self _
      cases fuel with
      | zero => exact absurd enough (Nat.not_succ_le_zero _)
      | succ fuel =>
          rw [List.flatMap_cons, List.cons_append, List.cons_append, more, if_pos isSeparator,
            List.append_assoc, readsItem _ following, Option.bind_some,
            ih laterSeparators readsLater continuesLater (Nat.le_of_succ_le_succ enough)]
          rfl

/-- A chain is read whole, whatever the items are joined by. -/
theorem chain_eq (follows : List Token → Prop) (separator : ι → Token) (body : ι → List Token)
    (value : ι → α) {items : List ι} {first : List Token} {firstValue : α}
    (readsFirst : ∀ rest, follows rest → item (first ++ rest) = some (firstValue, rest))
    (separators : ∀ x ∈ items, separates (separator x) = true)
    (reads : ∀ x ∈ items, ∀ rest, follows rest → item (body x ++ rest) = some (value x, rest))
    (continues : ∀ x ∈ items, ∀ rest, follows (separator x :: rest)) (ends : follows rest)
    (stops : StartsOutside separates rest) :
    chain separates item (first ++ (items.flatMap (fun x => separator x :: body x) ++ rest)) =
      some (firstValue :: items.map value, rest) := by
  have following : follows (items.flatMap (fun x => separator x :: body x) ++ rest) := by
    cases items with
    | nil => exact ends
    | cons x items => exact continues x List.mem_cons_self _
  have enough : items.length ≤
      (items.flatMap (fun x => separator x :: body x) ++ rest).length := by
    have nonempty : ∀ length ∈ items.map fun x => (separator x :: body x).length, 1 ≤ length := by
      intro length member
      rcases List.mem_map.mp member with ⟨x, _, rfl⟩
      exact Nat.succ_pos _
    have counted := List.length_le_sum_of_one_le _ nonempty
    rw [List.length_map] at counted
    rw [List.length_append, List.length_flatMap]
    exact Nat.le_add_right_of_le counted
  rw [chain, readsFirst _ following, Option.bind_some,
    more_eq follows separators reads continues ends stops enough]
  rfl

/-- A chain of one item. -/
theorem chain_single {tokens : List Token} {value : α} (reads : item tokens = some (value, rest))
    (stops : StartsOutside separates rest) :
    chain separates item tokens = some ([value], rest) := by
  have none : more separates item rest.length rest = some ([], rest) := by
    cases rest with
    | nil => rfl
    | cons token rest => rw [List.length_cons, more, if_neg (by simp [stops token rfl])]
  rw [chain, reads, Option.bind_some, none]
  rfl

section Flat

variable {dialect : Dialect} {items : List ι} {separator : ι → Token} {first : List Token}
  {body : ι → List Token} {firstValue : Condition} {value : ι → Condition}
  (nonempty : first ≠ [])
  (readsFirst : ∀ nested rest, factor dialect nested (first ++ rest) = some (firstValue, rest))
  (reads : ∀ x ∈ items, ∀ nested rest,
    factor dialect nested (body x ++ rest) = some (value x, rest))
include nonempty readsFirst reads

/-- Factors joined by `AND` are one conjunction. -/
theorem parse_conjunction (joined : ∀ x ∈ items, isKeyword .and (separator x) = true) :
    parse dialect (first ++ items.flatMap fun x => separator x :: body x) =
      some (.all (firstValue :: items.map value)) := by
  rcases List.exists_cons_of_ne_nil nonempty with ⟨token, tail, spelled⟩
  have depth : ∃ depth, (first ++ items.flatMap fun x => separator x :: body x).length =
      depth + 1 := by
    rw [spelled]
    exact ⟨_, rfl⟩
  rcases depth with ⟨depth, length⟩
  have inner := chain_eq (fun _ => True) separator body value
    (fun rest _ => readsFirst (condition dialect depth) rest) joined
    (fun x member rest _ => reads x member (condition dialect depth) rest)
    (fun _ _ _ => trivial) trivial (startsOutside_nil (isKeyword .and))
  rw [List.append_nil] at inner
  rw [parse, length, condition, Parser.map, chain_single _ (startsOutside_nil _)]
  · rfl
  · rw [Parser.map, inner]
    rfl

/-- Factors joined by `OR` are one disjunction. -/
theorem parse_disjunction (joined : ∀ x ∈ items, isKeyword .or (separator x) = true) :
    parse dialect (first ++ items.flatMap fun x => separator x :: body x) =
      some (.any (firstValue :: items.map value)) := by
  rcases List.exists_cons_of_ne_nil nonempty with ⟨token, tail, spelled⟩
  have depth : ∃ depth, (first ++ items.flatMap fun x => separator x :: body x).length =
      depth + 1 := by
    rw [spelled]
    exact ⟨_, rfl⟩
  rcases depth with ⟨depth, length⟩
  have noAnd : ∀ x ∈ items, ∀ rest : List Token,
      StartsOutside (isKeyword .and) (separator x :: rest) := by
    intro x member rest
    apply startsOutside_cons
    have isOr := joined x member
    cases spelledOr : separator x with
    | word text =>
        rw [spelledOr, isKeyword, Keyword.isSpelled, decide_eq_true_eq] at isOr
        rw [isKeyword, Keyword.isSpelled, isOr]
        rfl
    | number => rfl
    | literal => rfl
    | delimited => rfl
    | operator => rfl
    | mark => rfl
  -- each item of the disjunction is a conjunction of a single factor
  have alone : ∀ {tokens rest : List Token} {condition : Condition} {nested : Parser Condition},
      factor dialect nested tokens = some (condition, rest) →
      StartsOutside (isKeyword .and) rest →
      ((chain (isKeyword .and) (factor dialect nested)).map Condition.all) tokens =
        some (condition, rest) := by
    intro tokens rest condition nested one ends
    rw [Parser.map, chain_single one ends]
    rfl
  have outer := chain_eq (StartsOutside (isKeyword .and)) separator body value
    (fun rest ends => alone (readsFirst (condition dialect depth) rest) ends)
    joined (fun x member rest ends => alone (reads x member (condition dialect depth) rest) ends)
    noAnd (startsOutside_nil _) (startsOutside_nil (isKeyword .or))
  rw [List.append_nil] at outer
  rw [parse, length, condition, Parser.map, outer]
  rfl

end Flat

end Foundation.Sql
