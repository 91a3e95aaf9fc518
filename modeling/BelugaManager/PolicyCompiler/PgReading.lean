import BelugaManager.PolicyCompiler.GrantScript

/-!
# How PostgreSQL reads a GRANT line

The facts that a line denotes, with PostgreSQL's own white space and syntax of
identifiers: double quotes delimit a name, a doubled quote stands for a quote, a dot
inside quotes belongs to the name, and names without quotes are folded to lower case.
A line outside the frame of the pattern denotes nothing; the comparison reports each of
them.
-/

namespace BelugaManager.PolicyCompiler

open Foundation

def pgSpace (c : Char) : Bool := c.toNat = 0x20 || 0x09 ≤ c.toNat && c.toNat ≤ 0x0D

/-- A character that can start a name without quotes; all beyond ASCII can. -/
def isBareStart (c : Char) : Bool := isIdentStart c || 0x80 ≤ c.toNat

def isBarePart (c : Char) : Bool := isBareStart c || c.isDigit || c = '$'

/-- Where the reader of a qualified name is, and what it has read of the current name. -/
inductive NameState where
  | start
  | bare (name : List Char)
  | quoted (name : List Char)
  | closed (name : List Char)

/-- Read the rest of a qualified name. After a closing quote another quote reopens the
name, and then stands for itself. -/
def readNames : NameState → List Char → Option (List PgName)
  | .start, [] => none
  | .start, c :: rest =>
      if c = '"' then readNames (.quoted []) rest
      else if isBareStart c then readNames (.bare [c]) rest
      else none
  | .bare name, [] => some [.bare (String.ofList name)]
  | .bare name, c :: rest =>
      if c = '.' then (readNames .start rest).map (.bare (String.ofList name) :: ·)
      else if isBarePart c then readNames (.bare (name ++ [c])) rest
      else none
  | .quoted _, [] => none
  | .quoted name, c :: rest =>
      if c = '"' then readNames (.closed name) rest else readNames (.quoted (name ++ [c])) rest
  | .closed name, [] => if name = [] then none else some [.quoted (String.ofList name)]
  | .closed name, c :: rest =>
      if c = '"' then readNames (.quoted (name ++ ['"'])) rest
      else if c = '.' ∧ name ≠ [] then
        (readNames .start rest).map (.quoted (String.ofList name) :: ·)
      else none

/-- A GRANT on a table as PostgreSQL reads it. -/
structure PgGrant where
  table : List PgName
  grantee : PgName
  privileges : List String
  grantable : Bool
  deriving DecidableEq, Repr

/-- The privileges between the commas; none may be missing. -/
def readPrivileges (rawPrivileges : List Char) : Option (List String) :=
  let words := (Text.split ',' (String.ofList rawPrivileges)).map fun word =>
    Text.upperAscii (Text.trimWith pgSpace word)
  if "" ∈ words then none else some words

def readGrantee (rawRole : List Char) : Option PgName :=
  match readNames .start rawRole with
  | some [grantee] => some grantee
  | _ => none

def readGrantLine (line : String) : Option PgGrant := do
  let m ← grantPieces pgSpace line
  let table ← readNames .start m.rawTable
  let grantee ← readGrantee m.rawRole
  let privileges ← readPrivileges m.rawPrivileges
  return { table := table, grantee := grantee, privileges := privileges
           grantable := m.grantOption }

/-- One privilege on one table for one grantee, under the names that are stored. -/
structure PgFact where
  table : List String
  grantee : String
  privilege : String
  grantable : Bool
  deriving DecidableEq, Repr

def PgGrant.facts (grant : PgGrant) : List PgFact :=
  grant.privileges.map fun privilege =>
    { table := grant.table.map PgName.stored, grantee := grant.grantee.stored
      privilege := privilege, grantable := grant.grantable }

/-- A fact that some line denotes. -/
def Denotes (lines : List String) (fact : PgFact) : Prop :=
  ∃ line ∈ lines, ∃ grant, readGrantLine line = some grant ∧ fact ∈ grant.facts

example : readNames .start "\"a\"\"b.c\".Orders".toList =
    some [.quoted "a\"b.c", .bare "Orders"] := by decide

theorem readGrantLine_eq_some_iff (line : String) (grant : PgGrant) :
    readGrantLine line = some grant ↔ ∃ m, grantPieces pgSpace line = some m ∧
      readNames .start m.rawTable = some grant.table ∧
      readNames .start m.rawRole = some [grant.grantee] ∧
      readPrivileges m.rawPrivileges = some grant.privileges ∧ grant.grantable = m.grantOption := by
  have single : ∀ (raw : List Char) (grantee : PgName),
      readGrantee raw = some grantee ↔ readNames .start raw = some [grantee] := by
    intro raw grantee
    rw [readGrantee]
    split
    next read => simp [read]
    next other =>
      simp only [reduceCtorEq, false_iff]
      exact other grantee
  simp only [readGrantLine, bind, Option.bind_eq_some_iff, pure, Option.some.injEq, single]
  constructor
  · rintro ⟨m, pieces, table, readTable, grantee, readRole, privileges, readWords, rfl⟩
    exact ⟨m, pieces, readTable, readRole, readWords, rfl⟩
  · rintro ⟨m, pieces, readTable, readRole, readWords, grantable⟩
    refine ⟨m, pieces, grant.table, readTable, grant.grantee, readRole, grant.privileges,
      readWords, ?_⟩
    rw [← grantable]

theorem readGrantLine_of_pieces {line : String} {m : GrantPieces} {table : List PgName}
    {grantee : PgName} {privileges : List String} (pieces : grantPieces pgSpace line = some m)
    (readTable : readNames .start m.rawTable = some table)
    (readRole : readNames .start m.rawRole = some [grantee])
    (readWords : readPrivileges m.rawPrivileges = some privileges) :
    readGrantLine line = some ⟨table, grantee, privileges, m.grantOption⟩ :=
  (readGrantLine_eq_some_iff _ _).mpr ⟨m, pieces, readTable, readRole, readWords, rfl⟩

theorem readPrivileges_eq_some_iff (rawPrivileges : List Char) (words : List String) :
    readPrivileges rawPrivileges = some words ↔
      words = (Text.split ',' (String.ofList rawPrivileges)).map (fun word =>
        Text.upperAscii (Text.trimWith pgSpace word)) ∧ "" ∉ words := by
  rw [readPrivileges]
  split
  next missing =>
    simp only [reduceCtorEq, false_iff]
    rintro ⟨rfl, noneMissing⟩
    exact noneMissing missing
  next noneMissing =>
    rw [Option.some.injEq]
    constructor
    · rintro rfl
      exact ⟨rfl, noneMissing⟩
    · exact fun read => read.1.symm

/-! ## What a token says about its names -/

/-- The characters of a name, without its quotes. -/
def PgName.content : PgName → String
  | .bare name => name
  | .quoted name => name

/-- What has been read of the current name. -/
def NameState.pending : NameState → List Char
  | .start => []
  | .bare name => name
  | .quoted name => name
  | .closed name => name

theorem isBarePart_ne {c : Char} (part : isBarePart c = true) : c ≠ '"' ∧ c ≠ '.' := by
  constructor
  · rintro rfl
    exact absurd part (by decide)
  · rintro rfl
    exact absurd part (by decide)

/-- The characters that are left when quotes are dropped. -/
def dropQuotes (chars : List Char) : List Char := chars.filter (· ≠ '"')

theorem dropQuotes_eq_self {chars : List Char} (free : ∀ c ∈ chars, c ≠ '"') :
    dropQuotes chars = chars := by
  rw [dropQuotes, List.filter_eq_self]
  intro c member
  simpa using free c member

/-- What the names read from a state and some characters have to do with these. -/
structure Reads (state : NameState) (chars : List Char) (names : List PgName) : Prop where
  nonempty : names ≠ []
  /-- Without quotes, the characters are the names with dots between them. -/
  text : ['.'].intercalate (names.map fun name => dropQuotes name.content.toList) =
    dropQuotes state.pending ++ dropQuotes chars
  /-- Names without quotes consist of the characters for them. -/
  bareParts : (∀ name, state = .bare name → ∀ c ∈ name, isBarePart c = true) →
    ∀ name, PgName.bare name ∈ names → ∀ c ∈ name.toList, isBarePart c = true

/-- A dot ends a name, and the next one starts. -/
theorem Reads.cons {state : NameState} {rest : List Char} {name : PgName} {names : List PgName}
    (reads : Reads .start rest names) (sameContent : name.content.toList = state.pending)
    (notStart : ∀ other, name = .bare other → state = .bare other.toList) :
    Reads state ('.' :: rest) (name :: names) where
  nonempty := List.cons_ne_nil _ _
  text := by
    have more : names.map (fun name => dropQuotes name.content.toList) ≠ [] := by
      simpa using reads.nonempty
    rw [List.map_cons, List.intercalate_cons_of_ne_nil more, reads.text, sameContent]
    simp [NameState.pending, dropQuotes]
  bareParts := by
    intro parts other member
    rcases List.mem_cons.mp member with isName | later
    · exact parts other.toList (notStart other isName.symm)
    · exact reads.bareParts (by simp) other later

theorem reads_of_readNames {state : NameState} {chars : List Char} {names : List PgName}
    (read : readNames state chars = some names) : Reads state chars names := by
  fun_induction readNames state chars generalizing names with
  | case1 => simp at read
  | case2 rest ih =>
      have reads := ih read
      refine ⟨reads.nonempty, ?_, fun _ => reads.bareParts (by simp)⟩
      rw [reads.text]
      simp [NameState.pending, dropQuotes]
  | case3 c rest noQuote starts ih =>
      have reads := ih read
      refine ⟨reads.nonempty, ?_, ?_⟩
      · rw [reads.text]
        simp [NameState.pending, dropQuotes, noQuote]
      · intro _
        apply reads.bareParts
        rintro _ ⟨⟩ other member
        rw [List.mem_singleton.mp member, isBarePart, starts]
        rfl
  | case4 => simp at read
  | case5 name =>
      cases read
      refine ⟨List.cons_ne_nil _ _, ?_, ?_⟩
      · simp [NameState.pending, PgName.content, dropQuotes]
      · rintro parts other member
        cases List.mem_singleton.mp member
        rw [String.toList_ofList]
        exact parts name rfl
  | case6 name rest ih =>
      rcases Option.map_eq_some_iff.mp read with ⟨more, readRest, rfl⟩
      apply (ih readRest).cons
      · exact String.toList_ofList
      · rintro _ ⟨⟩
        rw [String.toList_ofList]
  | case7 name c rest _ part ih =>
      have reads := ih read
      refine ⟨reads.nonempty, ?_, ?_⟩
      · rw [reads.text]
        simp [NameState.pending, dropQuotes, (isBarePart_ne part).1]
      · intro parts
        apply reads.bareParts
        rintro _ ⟨⟩ other member
        rcases List.mem_append.mp member with earlier | isLast
        · exact parts name rfl other earlier
        · rw [List.mem_singleton.mp isLast]
          exact part
  | case8 => simp at read
  | case9 => simp at read
  | case10 name rest ih =>
      have reads := ih read
      refine ⟨reads.nonempty, ?_, fun _ => reads.bareParts (by simp)⟩
      rw [reads.text]
      simp [NameState.pending, dropQuotes]
  | case11 name c rest noQuote ih =>
      have reads := ih read
      refine ⟨reads.nonempty, ?_, fun _ => reads.bareParts (by simp)⟩
      rw [reads.text]
      simp [NameState.pending, dropQuotes, noQuote]
  | case12 => simp at read
  | case13 name =>
      cases read
      refine ⟨List.cons_ne_nil _ _, ?_, by simp⟩
      simp [NameState.pending, PgName.content, dropQuotes]
  | case14 name rest ih =>
      have reads := ih read
      refine ⟨reads.nonempty, ?_, fun _ => reads.bareParts (by simp)⟩
      rw [reads.text]
      simp [NameState.pending, dropQuotes]
  | case15 name c rest _ ends ih =>
      rcases ends with ⟨rfl, _⟩
      rcases Option.map_eq_some_iff.mp read with ⟨more, readRest, rfl⟩
      apply (ih readRest).cons
      · exact String.toList_ofList
      · rintro _ ⟨⟩
  | case16 => simp at read

/-- Quotes around these names change nothing: they are written as they would be stored
without quotes. -/
def PlainlyQuoted (names : List PgName) : Prop :=
  ∀ name, PgName.quoted name ∈ names → ∀ c ∈ name.toList, isPlain c = true

theorem isPlain_facts {c : Char} (plain : isPlain c = true) :
    isIdentPart c = true ∧ c.toLower = c ∧ c ≠ '"' ∧ c ≠ '.' ∧ c.toNat < 128 := by
  rw [isPlain, Bool.and_eq_true, decide_eq_true_eq] at plain
  have facts := nameChar_facts (Or.inl plain.1)
  refine ⟨plain.1, plain.2, facts.2.1, ?_, facts.2.2.2.2⟩
  rintro rfl
  exact absurd plain.1 (by decide)

theorem lowerAscii_eq_self {s : String} (plain : ∀ c ∈ s.toList, isPlain c = true) :
    Text.lowerAscii s = s := by
  have same : ∀ c ∈ s.toList, c.toLower = id c := fun c member =>
    (isPlain_facts (plain c member)).2.1
  rw [Text.lowerAscii, List.map_congr_left same, List.map_id, String.ofList_toList]

/-- A token with idle quotes says what it says without them. -/
theorem names_of_plain {token : List Char} {names : List PgName}
    (read : readNames .start token = some names) (plain : PlainlyQuoted names) :
    stripQuotes (String.ofList token) = Text.join "." (names.map PgName.content) ∧
      ∀ name ∈ names, '.' ∉ name.content.toList ∧ name.stored = Text.lowerAscii name.content := by
  have reads := reads_of_readNames read
  have bare := reads.bareParts (by simp)
  constructor
  · have kept : ∀ name ∈ names, dropQuotes name.content.toList = name.content.toList := by
      intro name member
      apply dropQuotes_eq_self
      intro c inName
      cases name with
      | bare text => exact (isBarePart_ne (bare text member c inName)).1
      | quoted text => exact (isPlain_facts (plain text member c inName)).2.2.1
    have text := reads.text
    rw [List.map_congr_left kept] at text
    apply String.toList_inj.mp
    simp only [stripQuotes, Text.removeChar, Text.join, String.toList_ofList, List.map_map]
    exact text.symm
  · intro name member
    cases name with
    | bare text =>
        exact ⟨fun dot => (isBarePart_ne (bare text member _ dot)).2 rfl, rfl⟩
    | quoted text =>
        refine ⟨fun dot => (isPlain_facts (plain text member _ dot)).2.2.2.1 rfl, ?_⟩
        exact (lowerAscii_eq_self (plain text member)).symm

/-- The parts of a table name as they are stored when it is written without quotes. -/
def foldedParts (table : String) : List String :=
  (Text.split '.' table).map Text.lowerAscii

theorem stored_of_plain {token : List Char} {names : List PgName}
    (read : readNames .start token = some names) (plain : PlainlyQuoted names) :
    names.map PgName.stored = foldedParts (stripQuotes (String.ofList token)) := by
  rcases names_of_plain read plain with ⟨text, each⟩
  have nonempty : names.map PgName.content ≠ [] := by
    simpa using (reads_of_readNames read).nonempty
  have free : ∀ piece ∈ names.map PgName.content, '.' ∉ piece.toList := by
    intro piece member
    rcases List.mem_map.mp member with ⟨name, inNames, rfl⟩
    exact (each name inNames).1
  have separator : "." = String.singleton '.' := by decide
  rw [foldedParts, text, separator, Text.split_join nonempty free, List.map_map]
  exact List.map_congr_left fun name member => (each name member).2

theorem stored_of_plain_single {token : List Char} {name : PgName}
    (read : readNames .start token = some [name]) (plain : PlainlyQuoted [name]) :
    name.stored = Text.lowerAscii (stripQuotes (String.ofList token)) := by
  rcases names_of_plain read plain with ⟨text, each⟩
  rw [text, List.map_singleton, Text.join_singleton]
  exact (each name List.mem_cons_self).2

/-! ## Identifiers read as themselves -/

/-- An identifier of letters, digits and underscores. -/
def IsIdentifier (s : String) : Prop :=
  ∃ first rest, s.toList = first :: rest ∧ isIdentStart first = true ∧
    ∀ c ∈ rest, isIdentPart c = true

theorem isBarePart_of_isIdentPart {c : Char} (part : isIdentPart c = true) :
    isBarePart c = true ∧ c ≠ '.' := by
  constructor
  · simp only [isIdentPart, Char.isAlphanum, Bool.or_eq_true] at part
    simp only [isBarePart, isBareStart, isIdentStart, Bool.or_eq_true]
    rcases part with (alpha | digit) | underscore
    · exact Or.inl (Or.inl (Or.inl (Or.inl alpha)))
    · exact Or.inl (Or.inr digit)
    · exact Or.inl (Or.inl (Or.inl (Or.inr underscore)))
  · rintro rfl
    exact absurd part (by decide)

theorem readNames_bare {name rest : List Char} (tail : List Char)
    (parts : ∀ c ∈ rest, isIdentPart c = true) :
    readNames (.bare name) (rest ++ tail) = readNames (.bare (name ++ rest)) tail := by
  induction rest generalizing name with
  | nil => simp
  | cons c rest ih =>
      rcases isBarePart_of_isIdentPart (parts c List.mem_cons_self) with ⟨part, noDot⟩
      rw [List.cons_append, readNames, if_neg noDot, if_pos part,
        ih fun other member => parts other (List.mem_cons_of_mem c member), List.append_assoc,
        List.singleton_append]

theorem readNames_identifier {s : String} (identifier : IsIdentifier s) (tail : List Char) :
    readNames .start (s.toList ++ tail) = readNames (.bare s.toList) tail := by
  rcases identifier with ⟨first, rest, chars, start, parts⟩
  have noQuote : first ≠ '"' := by
    rintro rfl
    exact absurd start (by decide)
  have bareStart : isBareStart first = true := by rw [isBareStart, start, Bool.true_or]
  rw [chars, List.cons_append, readNames, if_neg noQuote, if_pos bareStart,
    readNames_bare tail parts, List.singleton_append]

theorem readNames_name {s : String} (identifier : IsIdentifier s) :
    readNames .start s.toList = some [.bare s] := by
  have read := readNames_identifier identifier []
  rw [List.append_nil] at read
  rw [read, readNames, String.ofList_toList]

theorem readNames_qualified {schema table : String} (schemaId : IsIdentifier schema)
    (tableId : IsIdentifier table) :
    readNames .start (schema ++ "." ++ table).toList = some [.bare schema, .bare table] := by
  have text : (schema ++ "." ++ table).toList = schema.toList ++ '.' :: table.toList := by simp
  rw [text, readNames_identifier schemaId, readNames, if_pos rfl, readNames_name tableId,
    String.ofList_toList]
  rfl

theorem isIdentifier_of_identifier {s : String} (identifier : IDENTIFIER.test s = true) :
    IsIdentifier s :=
  (Regex.test_seq_star_iff _ _ s).mp identifier

theorem isIdentifier_toPgRole {name : String} (declared : ROLE_NAME.test name = true) :
    IsIdentifier (toPgRole name) := by
  rcases (Regex.test_seq_star_iff _ _ name).mp declared with ⟨first, rest, chars, start, parts⟩
  have noHyphen : first ≠ '-' := by
    rintro rfl
    exact absurd start (by decide)
  have lowered : (toPgRole name).toList =
      first.toLower :: rest.map (fun c => (if c = '-' then '_' else c).toLower) := by
    simp [toPgRole, Text.lowerAscii, Text.replaceChar, chars, noHyphen]
  refine ⟨_, _, lowered, ?_, ?_⟩
  · simp only [isIdentStart, Bool.or_eq_true, decide_eq_true_eq] at start ⊢
    rcases start with alpha | rfl
    · exact Or.inl (Text.isAlpha_of_toLower_eq (Text.toLower_toLower first) alpha)
    · exact Or.inr (by decide)
  · intro c member
    have inName : c ∈ (toPgRole name).toList := lowered ▸ List.mem_cons_of_mem _ member
    have plain := (toPgRole_plain declared).2 c inName
    exact (isPlain_facts plain).1

end BelugaManager.PolicyCompiler
