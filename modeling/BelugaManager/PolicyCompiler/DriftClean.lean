import BelugaManager.PolicyCompiler.DriftApplied
import BelugaManager.PolicyCompiler.PgReading

/-!
# What an empty report guarantees

A report without items says that the comparison found no difference.  Roles and groups
then agree with the declaration unless a role name hides in a joined list, and the
grants agree unless a line says something else to PostgreSQL than it says when its
quotes are dropped.
-/

namespace BelugaManager.PolicyCompiler

open Foundation

/-! ## Lines in ASCII -/

theorem isSpace_eq_pgSpace {c : Char} (ascii : c.toNat < 128) : Text.isSpace c = pgSpace c := by
  rw [Bool.eq_iff_iff]
  simp [Text.isSpace, pgSpace]
  omega

section

variable {allowed : Char → Prop} {left right : Char → Bool}
  (same : ∀ c, allowed c → left c = right c)
include same

theorem agreeOn_between (keyword : String) :
    Pattern.AgreeOn allowed (between left keyword) (between right keyword) := by
  apply Pattern.agreeOn_bind (Pattern.agreeOn_plus same)
  intro _
  apply Pattern.agreeOn_bind (Pattern.agreeOn_word keyword)
  intro _
  apply Pattern.agreeOn_bind (Pattern.agreeOn_plus same)
  exact fun _ => Pattern.agreeOn_pure ()

/-- Two classes of white space that agree on the characters of a line cut it alike. -/
theorem agreeOn_GRANT_LINE_RE :
    Pattern.AgreeOn allowed (GRANT_LINE_RE left) (GRANT_LINE_RE right) := by
  have sameOutside : ∀ c, allowed c → (!left c) = (!right c) := fun c member => by
    rw [same c member]
  apply Pattern.agreeOn_bind (Pattern.agreeOn_word _)
  intro _
  apply Pattern.agreeOn_bind (Pattern.agreeOn_plus same)
  intro _
  apply Pattern.agreeOn_bind (Pattern.agreeOn_lazyPlus fun _ _ => rfl)
  intro _
  apply Pattern.agreeOn_bind (agreeOn_between same _)
  intro _
  apply Pattern.agreeOn_bind
  · apply Pattern.agreeOn_opt
    apply Pattern.agreeOn_bind (Pattern.agreeOn_word _)
    intro _
    apply Pattern.agreeOn_bind (Pattern.agreeOn_plus same)
    exact fun _ => Pattern.agreeOn_pure ()
  intro _
  apply Pattern.agreeOn_bind (Pattern.agreeOn_plus sameOutside)
  intro _
  apply Pattern.agreeOn_bind (agreeOn_between same _)
  intro _
  apply Pattern.agreeOn_bind (Pattern.agreeOn_lazyPlus sameOutside)
  intro _
  apply Pattern.agreeOn_bind
  · apply Pattern.agreeOn_opt
    apply Pattern.agreeOn_bind (agreeOn_between same _)
    intro _
    apply Pattern.agreeOn_bind (Pattern.agreeOn_word _)
    intro _
    apply Pattern.agreeOn_bind (Pattern.agreeOn_plus same)
    exact fun _ => Pattern.agreeOn_word _
  intro _
  apply Pattern.agreeOn_bind (Pattern.agreeOn_opt (Pattern.agreeOn_word _))
  intro _
  apply Pattern.agreeOn_bind Pattern.agreeOn_atEnd
  exact fun _ => Pattern.agreeOn_pure _

end

/-- Both readers find the same pieces in a line of ASCII characters. -/
theorem grantPieces_ascii {line : String} (ascii : ∀ c ∈ line.toList, c.toNat < 128) :
    grantPieces pgSpace line = grantPieces Text.isSpace line := by
  have trimmed : Text.trimWith pgSpace line = Text.trimWith Text.isSpace line :=
    Text.trimWith_congr fun c member => (isSpace_eq_pgSpace (ascii c member)).symm
  have agree := @agreeOn_GRANT_LINE_RE (fun c => c.toNat < 128) pgSpace Text.isSpace
    (fun c below => (isSpace_eq_pgSpace below).symm) (Text.trimWith pgSpace line).toList
    (fun c member => ascii c (Text.mem_of_mem_trimWith member))
  rw [grantPieces, grantPieces, Pattern.exec, Pattern.exec, agree.1, trimmed]

/-- In ASCII, what the comparison takes for privileges are those that PostgreSQL reads. -/
theorem listedPrivileges_of_read (upper : CaseMapping) {raw : List Char} {words : List String}
    (ascii : ∀ c ∈ raw, c.toNat < 128) (read : readPrivileges raw = some words) :
    listedPrivileges upper (String.ofList raw) = words := by
  rcases (readPrivileges_eq_some_iff raw words).mp read with ⟨rfl, noneMissing⟩
  have same : ∀ piece ∈ Text.split ',' (String.ofList raw),
      upper.toUpperCase (Text.trim piece) = Text.upperAscii (Text.trimWith pgSpace piece) := by
    intro piece member
    have below : ∀ c ∈ piece.toList, c.toNat < 128 := by
      intro c inPiece
      have inRaw := Text.mem_of_mem_split member inPiece
      rw [String.toList_ofList] at inRaw
      exact ascii c inRaw
    have trimmed : Text.trimWith pgSpace piece = Text.trim piece :=
      Text.trimWith_congr fun c inPiece => (isSpace_eq_pgSpace (below c inPiece)).symm
    rw [trimmed]
    exact upper.ascii _ fun c inTrimmed => below c (Text.mem_of_mem_trimWith inTrimmed)
  rw [listedPrivileges, List.map_congr_left same, List.filter_eq_self]
  intro word member
  simpa using fun empty : word = "" => noneMissing (empty ▸ member)

theorem readPrivileges_privilegeWords {ps : List Privilege} (nonempty : ps ≠ []) :
    readPrivileges (privilegeWords ps).toList = some (ps.map PRIV_SQL) := by
  have same : ∀ piece ∈ Text.split ',' (privilegeWords ps),
      Text.trimWith pgSpace piece = Text.trim piece := by
    intro piece member
    apply Text.trimWith_congr
    intro c inPiece
    apply (isSpace_eq_pgSpace _).symm
    rcases (privilegeWords_shape nonempty).2.1 c (Text.mem_of_mem_split member inPiece) with
      letter | rfl | rfl
    · rw [Text.isAlpha_iff] at letter
      omega
    · decide
    · decide
  have raised : ∀ p : Privilege, Text.upperAscii (PRIV_SQL p) = PRIV_SQL p := by
    intro p
    cases p <;> decide
  have twice := congrArg (List.map Text.upperAscii) (trimmed_privilegeWords nonempty)
  rw [readPrivileges_eq_some_iff, String.ofList_toList]
  constructor
  · rw [List.map_map, List.map_map] at twice
    rw [show ps.map PRIV_SQL = ps.map (Text.upperAscii ∘ PRIV_SQL) from
      List.map_congr_left fun p _ => (raised p).symm, ← twice]
    exact List.map_congr_left fun piece member => congrArg Text.upperAscii (same piece member).symm
  · intro missing
    rcases List.mem_map.mp missing with ⟨p, _, empty⟩
    exact privSql_ne_empty p empty

/-- What is declared, as PostgreSQL stores it. -/
def declaredFact (table role : String) (privilege : Privilege) : PgFact where
  table := foldedParts table
  grantee := toPgRole role
  privilege := PRIV_SQL privilege
  grantable := false

theorem ascii_grantTableLine {ps : List Privilege} (nonempty : ps ≠ []) {table role : String}
    (tableName : IsName table) (roleName : IsName role) :
    ∀ c ∈ (grantTableLine ps table role ";").toList, c.toNat < 128 := by
  intro c member
  simp only [grantTableLine, String.toList_append, List.mem_append] at member
  have literal : ∀ text : String, (∀ c ∈ text.toList, c.toNat < 128) → c ∈ text.toList →
      c.toNat < 128 := fun text below inText => below c inText
  rcases member with (((((lead | words) | on) | inTable) | separator) | inRole) | semicolon
  · exact literal _ (Text.forall_mem_of_all (by decide)) lead
  · rcases (privilegeWords_shape nonempty).2.1 c words with letter | rfl | rfl
    · rw [Text.isAlpha_iff] at letter
      omega
    · decide
    · decide
  · exact literal _ (Text.forall_mem_of_all (by decide)) on
  · exact (nameChar_facts (tableName.2 c inTable)).2.2.2.2
  · exact literal _ (Text.forall_mem_of_all (by decide)) separator
  · exact (nameChar_facts (roleName.2 c inRole)).2.2.2.2
  · exact literal _ (Text.forall_mem_of_all (by decide)) semicolon

theorem readGrantLine_grantTableLine {ps : List Privilege} (nonempty : ps ≠ [])
    {table role : String} {names : List PgName} (tableName : IsName table)
    (roleName : IsName role) (readTable : readNames .start table.toList = some names)
    (readRole : readNames .start role.toList = some [.bare role]) :
    readGrantLine (grantTableLine ps table role ";") =
      some ⟨names, .bare role, ps.map PRIV_SQL, false⟩ := by
  have cut := grantPieces_grantTableLine nonempty (Or.inr (rfl : ";" = ";")) tableName roleName
  rw [← grantPieces_ascii (ascii_grantTableLine nonempty tableName roleName)] at cut
  exact readGrantLine_of_pieces cut readTable readRole (readPrivileges_privilegeWords nonempty)

section

variable (upper : CaseMapping) {d : Declaration} (checked : Checked d)
include checked

/-- PostgreSQL reads in a printed line what is declared. -/
theorem Checked.facts_grantTableLine {res : Resource} (declared : res ∈ d.resources)
    {grant : Grant} (inGrants : grant ∈ res.grants) {role : String} (listed : role ∈ grant.roles) :
    ∃ read, readGrantLine (grantTableLine (sortedPrivileges grant) res.resource
      (toPgRole role) ";") =
        some read ∧
      ∀ fact, fact ∈ read.facts ↔ ∃ privilege ∈ grant.privileges,
        fact = declaredFact res.resource role privilege := by
  have known := checked.grantRoleKnown res declared grant inGrants role listed
  rcases List.mem_map.mp known with ⟨r, rDeclared, rfl⟩
  rcases checked.isName_of_grant declared inGrants listed with ⟨tableName, roleName⟩
  rcases parts_of_isSchemaTable (checked.schemaTable res declared) with
    ⟨schema, table, schemaId, tableId, joined⟩
  have someWord := sortedPrivileges_ne_nil grant
  have readTable : readNames .start res.resource.toList = some [.bare schema, .bare table] := by
    rw [joined]
    exact readNames_qualified (isIdentifier_of_identifier schemaId)
      (isIdentifier_of_identifier tableId)
  have stored := stored_of_plain readTable (by simp [PlainlyQuoted])
  rw [String.ofList_toList, stripQuotes_of_isName tableName] at stored
  have readRole := readNames_name (isIdentifier_toPgRole (checked.roleName r rDeclared))
  refine ⟨_, readGrantLine_grantTableLine someWord tableName roleName readTable readRole, ?_⟩
  · intro fact
    have members : ∀ privilege, privilege ∈ sortedPrivileges grant ↔ privilege ∈ grant.privileges :=
      fun privilege => Text.mem_sortBy _ _ _
    have text : ∀ privilege : Privilege,
        PgFact.mk ([PgName.bare schema, .bare table].map PgName.stored)
          (PgName.bare (toPgRole r.name)).stored (PRIV_SQL privilege) false =
            declaredFact res.resource r.name privilege := by
      intro privilege
      rw [declaredFact, ← stored]
      exact congrArg (fun grantee => PgFact.mk _ grantee _ _) (lowerAscii_toPgRole r.name)
    simp only [PgGrant.facts, List.map_map, List.mem_map, Function.comp_apply, members]
    constructor
    · rintro ⟨privilege, inGrant, rfl⟩
      exact ⟨privilege, inGrant, text privilege⟩
    · rintro ⟨privilege, inGrant, rfl⟩
      exact ⟨privilege, inGrant, text privilege⟩

/-- The lines that grant privileges on tables denote what is declared. -/
theorem Checked.denotes_tableGrantLines (fact : PgFact) :
    Denotes (tableGrantLines d) fact ↔ ∃ table role privilege,
      Listed d (.table privilege table) role ∧ fact = declaredFact table role privilege := by
  constructor
  · rintro ⟨line, inTable, read, isRead, inFacts⟩
    rcases (mem_tableGrantLines d line).mp inTable with
      ⟨res, declared, engine, grant, inGrants, role, listed, rfl⟩
    rcases checked.facts_grantTableLine declared inGrants listed with ⟨found, isFound, facts⟩
    obtain rfl : found = read := Option.some.inj (isFound.symm.trans isRead)
    rcases (facts fact).mp inFacts with ⟨privilege, inGrant, rfl⟩
    exact ⟨res.resource, role, privilege,
      ⟨res, declared, engine, rfl, grant, inGrants, inGrant, listed⟩, rfl⟩
  · rintro ⟨_, role, privilege, ⟨res, declared, engine, rfl, grant, inGrants, inGrant, listed⟩, rfl⟩
    rcases checked.facts_grantTableLine declared inGrants listed with ⟨found, isFound, facts⟩
    exact ⟨_, (mem_tableGrantLines d _).mpr
      ⟨res, declared, engine, grant, inGrants, role, listed, rfl⟩, found, isFound,
      (facts _).mpr ⟨privilege, inGrant, rfl⟩⟩

end

/-! ## Lines that both readers read alike -/

/-- A line that says with its quotes what it says without them. -/
structure ReadAlike (line : String) (read : PgGrant) : Prop where
  ascii : ∀ c ∈ line.toList, c.toNat < 128
  plain : PlainlyQuoted (read.grantee :: read.table)

theorem ReadAlike.exists_parsed {line : String} {read : PgGrant} (alike : ReadAlike line read)
    (upper : CaseMapping) (isRead : readGrantLine line = some read) :
    ∃ g, parseGrantLine upper line = some g ∧
      read.table.map PgName.stored = foldedParts g.table ∧
      read.grantee.stored = Text.lowerAscii g.role ∧
      ∀ p, p ∈ g.privileges ↔ p ∈ read.privileges ∨ read.grantable = true ∧ p = "GRANT OPTION" := by
  rcases (readGrantLine_eq_some_iff line read).mp isRead with
    ⟨m, cut, readTable, readRole, readWords, grantable⟩
  have tablePlain : PlainlyQuoted read.table := fun name member =>
    alike.plain name (List.mem_cons_of_mem _ member)
  have rolePlain : PlainlyQuoted [read.grantee] := by
    intro name member
    exact alike.plain name (List.mem_singleton.mp member ▸ List.mem_cons_self)
  have belowInPrivileges : ∀ c ∈ m.rawPrivileges, c.toNat < 128 := by
    intro c member
    apply alike.ascii c
    rcases Pattern.mem_of_exec cut with ⟨_, inWays⟩
    rcases exists_cutInto inWays with ⟨_, _, _, _, _, parts⟩
    apply @Text.mem_of_mem_trimWith pgSpace
    rw [parts.joined]
    simp [member]
  rw [grantPieces_ascii alike.ascii] at cut
  refine ⟨parsedGrant upper m, by rw [parseGrantLine, cut]; rfl,
    stored_of_plain readTable tablePlain,
    stored_of_plain_single readRole rolePlain, ?_⟩
  intro p
  rw [mem_parsedGrant_privileges, listedPrivileges_of_read upper belowInPrivileges readWords,
    grantable]

/-- A character of a name whose folded form is ASCII. -/
theorem ascii_of_mem_names {token : List Char} {names : List PgName}
    (read : readNames .start token = some names)
    (stored : ∀ name ∈ names, ∀ c ∈ name.stored.toList, c.toNat < 128) :
    ∀ c ∈ token, c.toNat < 128 := by
  intro c member
  by_cases isQuote : c = '"'
  · rw [isQuote]
    decide
  · have kept : c ∈ dropQuotes token := by simp [dropQuotes, member, isQuote]
    have text := (reads_of_readNames read).text
    rw [NameState.pending, dropQuotes, List.filter_nil, List.nil_append] at text
    rw [← text] at kept
    rcases Text.mem_intercalate kept with isDot | ⟨list, listed, inList⟩
    · rw [List.mem_singleton.mp isDot]
      decide
    · rcases List.mem_map.mp listed with ⟨name, inNames, rfl⟩
      have inContent := (List.mem_filter.mp inList).1
      have below := stored name inNames
      cases name with
      | bare text =>
          have lowered : c.toLower ∈ (Text.lowerAscii text).toList := by
            rw [Text.lowerAscii, String.toList_ofList]
            exact List.mem_map_of_mem inContent
          have code := below c.toLower lowered
          rw [Text.toNat_toLower] at code
          split at code
          next => omega
          next => exact code
      | quoted text => exact below c inContent

/-- Privileges that are words of letters come from ASCII text. -/
theorem ascii_of_mem_privileges {raw : List Char} {words : List String}
    (read : readPrivileges raw = some words)
    (letters : ∀ word ∈ words, ∀ c ∈ word.toList, c.isAlpha = true) :
    ∀ c ∈ raw, c.toNat < 128 := by
  intro c member
  rcases (readPrivileges_eq_some_iff raw words).mp read with ⟨rfl, _⟩
  rw [← String.toList_ofList (l := raw)] at member
  rcases @Text.mem_pieces_of_mem ',' c _ member with rfl | ⟨piece, inPieces, inPiece⟩
  · decide
  · by_cases inTrimmed : c ∈ (Text.trimWith pgSpace piece).toList
    · have raised : c.toUpper ∈ (Text.upperAscii (Text.trimWith pgSpace piece)).toList := by
        rw [Text.upperAscii, String.toList_ofList]
        exact List.mem_map_of_mem inTrimmed
      have letter := letters _ (List.mem_map_of_mem inPieces) _ raised
      rw [Text.isAlpha_iff, Text.toNat_toUpper] at letter
      split at letter
      next => omega
      next => omega
    · have blank := Text.dropped_of_notMem_trimWith inPiece inTrimmed
      simp [pgSpace] at blank
      omega

theorem Spells.ascii {keyword : String} {word : List Char} (spells : Spells keyword word)
    (letters : ∀ c ∈ keyword.toList, c.isAlpha = true) : ∀ c ∈ word, c.toNat < 128 := by
  intro c member
  have letter := spells.letters letters c member
  rw [Text.isAlpha_iff] at letter
  omega

theorem IsGap.ascii {gap : List Char} (isGap : IsGap pgSpace gap) : ∀ c ∈ gap, c.toNat < 128 := by
  intro c member
  have blank := isGap.2 c member
  simp [pgSpace] at blank
  omega

theorem Leading.ascii {keyword : String} {part : List Char} (leading : Leading pgSpace keyword part)
    (letters : ∀ c ∈ keyword.toList, c.isAlpha = true) : ∀ c ∈ part, c.toNat < 128 := by
  rcases leading with ⟨word, gap, rfl, spells, isGap⟩
  rw [List.forall_mem_append]
  exact ⟨spells.ascii letters, isGap.ascii⟩

theorem Surrounded.ascii {keyword : String} {part : List Char}
    (surrounded : Surrounded pgSpace keyword part)
    (letters : ∀ c ∈ keyword.toList, c.isAlpha = true) : ∀ c ∈ part, c.toNat < 128 := by
  rcases surrounded with ⟨gap, rest, rfl, isGap, leading⟩
  rw [List.forall_mem_append]
  exact ⟨isGap.ascii, leading.ascii letters⟩

theorem ClosesGrant.ascii {grantOption : Bool} {tail : List Char}
    (closes : ClosesGrant pgSpace grantOption tail) : ∀ c ∈ tail, c.toNat < 128 := by
  rcases closes with ⟨semicolon, isEnd, closing⟩
  have ending : ∀ c ∈ semicolon, c.toNat < 128 := by
    rcases isEnd with rfl | rfl
    · exact fun _ absent => absurd absent List.not_mem_nil
    · exact Text.forall_mem_of_all (by decide)
  rcases closing with ⟨_, rfl⟩ | ⟨withPart, grantPart, optionWord, rfl, inWith, inGrant, spells⟩
  · exact ending
  · simp only [List.forall_mem_append]
    exact ⟨inWith.ascii (Text.forall_mem_of_all (by decide)),
      inGrant.ascii (Text.forall_mem_of_all (by decide)),
      spells.ascii (Text.forall_mem_of_all (by decide)), ending⟩

/-- A line that matches is ASCII if the pieces are. -/
theorem ascii_of_pieces {line : String} {m : GrantPieces} (cut : grantPieces pgSpace line = some m)
    (privileges : ∀ c ∈ m.rawPrivileges, c.toNat < 128) (table : ∀ c ∈ m.rawTable, c.toNat < 128)
    (role : ∀ c ∈ m.rawRole, c.toNat < 128) : ∀ c ∈ line.toList, c.toNat < 128 := by
  rcases Pattern.mem_of_exec cut with ⟨_, inWays⟩
  rcases exists_cutInto inWays with ⟨grantPart, onPart, tablePart, toPart, tail, parts⟩
  have keyword : ∀ c ∈ tablePart, c.toNat < 128 := by
    rcases parts.leadsTable with rfl | leads
    · exact fun _ absent => absurd absent List.not_mem_nil
    · exact leads.ascii (Text.forall_mem_of_all (by decide))
  have inside : ∀ c ∈ (Text.trimWith pgSpace line).toList, c.toNat < 128 := by
    rw [parts.joined]
    simp only [List.forall_mem_append]
    exact ⟨parts.leadsGrant.ascii (Text.forall_mem_of_all (by decide)), privileges,
      parts.surroundsOn.ascii (Text.forall_mem_of_all (by decide)),
      keyword, table, parts.surroundsTo.ascii (Text.forall_mem_of_all (by decide)), role,
      parts.closes.ascii⟩
  intro c member
  by_cases kept : c ∈ (Text.trimWith pgSpace line).toList
  · exact inside c kept
  · have blank := Text.dropped_of_notMem_trimWith member kept
    simp [pgSpace] at blank
    omega

/-! ## Grants without a difference -/

/-- The fact that is granted by a line if its quotes are dropped. -/
def foldedFact (g : ParsedGrant) (p : String) : PgFact where
  table := foldedParts g.table
  grantee := Text.lowerAscii g.role
  privilege := p
  grantable := false

/-- Lines that PostgreSQL reads say without their quotes what they say with them, and
what the comparison reads in any other line is granted anyway. -/
structure FaithfulLines (upper : CaseMapping) (lines : List String) : Prop where
  readable : ∀ line ∈ lines, ∀ read, readGrantLine line = some read → ReadAlike line read
  unreadable : ∀ line ∈ lines, readGrantLine line = none →
    ∀ g, parseGrantLine upper line = some g → ∀ p ∈ g.privileges, Denotes lines (foldedFact g p)

theorem privSql_letters (p : Privilege) : ∀ c ∈ (PRIV_SQL p).toList, c.isAlpha = true := by
  cases p <;> exact Text.forall_mem_of_all (by decide)

theorem privSql_ne_grantOption (p : Privilege) : PRIV_SQL p ≠ "GRANT OPTION" := by
  cases p <;> decide

theorem foldedFact_eq {g : ParsedGrant} {role : String} (sameRole : g.role = toPgRole role)
    (privilege : Privilege) :
    foldedFact g (PRIV_SQL privilege) = declaredFact g.table role privilege := by
  rw [foldedFact, declaredFact, sameRole, lowerAscii_toPgRole]

section

variable {upper : CaseMapping} {d : Declaration} (checked : Checked d) {artifacts : Artifacts}
  {lines : List String} (compiled : artifacts.pgddl = compilePgDdl d)
  (clean : diffPgGrants upper artifacts lines = [])
include checked compiled clean

/-- Whatever the comparison reads is declared. -/
theorem Checked.listed_of_parsed {line : String} (reported : line ∈ lines) {g : ParsedGrant}
    (parsed : parseGrantLine upper line = some g) {p : String} (inSet : p ∈ g.privileges) :
    ∃ role privilege, Listed d (.table privilege g.table) role ∧ g.role = toPgRole role ∧
      PRIV_SQL privilege = p := by
  rw [diffPgGrants_eq_nil_iff, compiled] at clean
  rcases clean with ⟨_, _, same⟩
  rcases (checked.read_script upper _ _).mp ((same (grantKey g) p).mpr
    ⟨g, List.mem_filterMap.mpr ⟨line, reported, parsed⟩, rfl, inSet⟩) with
    ⟨table, role, privilege, listed, sameKey, word⟩
  have names := listed
  rcases names with ⟨res, declared, _, rfl, grant, inGrants, _, inRoles⟩
  rcases checked.isName_of_grant declared inGrants inRoles with ⟨tableName, roleName⟩
  rcases key_inj tableName roleName sameKey.symm with ⟨sameTable, sameRole⟩
  exact ⟨role, privilege, sameTable ▸ listed, sameRole, word⟩

/-- Whatever is declared is read by the comparison. -/
theorem Checked.exists_parsed_of_listed {table role : String} {privilege : Privilege}
    (listed : Listed d (.table privilege table) role) :
    ∃ line ∈ lines, ∃ g, parseGrantLine upper line = some g ∧ g.table = table ∧
      g.role = toPgRole role ∧ PRIV_SQL privilege ∈ g.privileges := by
  rw [diffPgGrants_eq_nil_iff, compiled] at clean
  rcases clean with ⟨_, _, same⟩
  rcases (same (declaredKey table role) (PRIV_SQL privilege)).mp
    ((checked.read_script upper _ _).mpr ⟨table, role, privilege, listed, rfl, rfl⟩) with
    ⟨g, parsed, sameKey, inSet⟩
  rcases List.mem_filterMap.mp parsed with ⟨line, reported, read⟩
  rcases listed with ⟨res, declared, _, rfl, grant, inGrants, _, inRoles⟩
  rcases checked.isName_of_grant declared inGrants inRoles with ⟨tableName, roleName⟩
  rcases key_inj tableName roleName sameKey with ⟨sameTable, sameRole⟩
  exact ⟨line, reported, g, read, sameTable, sameRole, inSet⟩

/-- No line gives a grant option, and a line that both readers read alike says what the
comparison makes of it. -/
theorem Checked.facts_of_alike {line : String} (reported : line ∈ lines) {read : PgGrant}
    (isRead : readGrantLine line = some read) (alike : ReadAlike line read) {g : ParsedGrant}
    (parsed : parseGrantLine upper line = some g) (fact : PgFact) :
    fact ∈ read.facts ↔ ∃ p ∈ g.privileges, fact = foldedFact g p := by
  rcases alike.exists_parsed upper isRead with ⟨found, isFound, table, grantee, privileges⟩
  obtain rfl : found = g := Option.some.inj (isFound.symm.trans parsed)
  have noOption : "GRANT OPTION" ∉ found.privileges := by
    intro inSet
    rcases checked.listed_of_parsed compiled clean reported parsed inSet with
      ⟨_, privilege, _, _, word⟩
    exact privSql_ne_grantOption privilege word
  have notGrantable : read.grantable = false := by
    cases grantable : read.grantable with
    | false => rfl
    | true => exact absurd ((privileges _).mpr (Or.inr ⟨grantable, rfl⟩)) noOption
  have same : ∀ p, p ∈ found.privileges ↔ p ∈ read.privileges := by
    intro p
    rw [privileges, notGrantable]
    simp
  simp only [PgGrant.facts, List.mem_map, same, foldedFact, table, grantee, notGrantable, eq_comm]

/-- The facts are those declared when every line is read faithfully. -/
theorem Checked.denotes_iff_of_faithful (faithful : FaithfulLines upper lines) (fact : PgFact) :
    Denotes lines fact ↔ Denotes (tableGrantLines d) fact := by
  have parses : ∀ line ∈ lines, ∃ g, parseGrantLine upper line = some g := by
    intro line reported
    exact Option.ne_none_iff_exists'.mp
      (((diffPgGrants_eq_nil_iff upper artifacts lines).mp clean).1 line reported)
  rw [checked.denotes_tableGrantLines]
  constructor
  · rintro ⟨line, reported, read, isRead, inFacts⟩
    rcases parses line reported with ⟨g, parsed⟩
    rcases (checked.facts_of_alike compiled clean reported isRead
      (faithful.readable line reported read isRead) parsed fact).mp inFacts with ⟨p, inSet, rfl⟩
    rcases checked.listed_of_parsed compiled clean reported parsed inSet with
      ⟨role, privilege, listed, sameRole, rfl⟩
    exact ⟨g.table, role, privilege, listed, foldedFact_eq sameRole privilege⟩
  · rintro ⟨_, role, privilege, listed, rfl⟩
    rcases checked.exists_parsed_of_listed compiled clean listed with
      ⟨line, reported, g, parsed, rfl, sameRole, inSet⟩
    rw [← foldedFact_eq sameRole]
    cases isRead : readGrantLine line with
    | none => exact faithful.unreadable line reported isRead g parsed _ inSet
    | some read =>
        refine ⟨line, reported, read, isRead, ?_⟩
        exact (checked.facts_of_alike compiled clean reported isRead
          (faithful.readable line reported read isRead) parsed _).mpr ⟨_, inSet, rfl⟩

end

section

variable {d : Declaration} (checked : Checked d)
include checked

/-- The names in a declared fact are plain. -/
theorem Checked.plain_of_listed {table role : String} {privilege : Privilege}
    (listed : Listed d (.table privilege table) role) :
    (∀ part ∈ foldedParts table, ∀ c ∈ part.toList, isPlain c = true) ∧
      ∀ c ∈ (toPgRole role).toList, isPlain c = true := by
  rcases listed with ⟨res, declared, _, rfl, grant, inGrants, _, inRoles⟩
  rcases checked.isName_of_grant declared inGrants inRoles with ⟨tableName, _⟩
  constructor
  · intro part member c inPart
    rcases List.mem_map.mp member with ⟨piece, inPieces, rfl⟩
    rw [Text.lowerAscii, String.toList_ofList] at inPart
    rcases List.mem_map.mp inPart with ⟨original, inPiece, rfl⟩
    rcases tableName.2 original (Text.mem_of_mem_split inPieces inPiece) with identPart | isDot
    · exact isPlain_toLower identPart
    · exact absurd (isDot ▸ inPiece) (Text.notMem_of_mem_split inPieces)
  · rcases List.mem_map.mp (checked.grantRoleKnown res declared grant inGrants role inRoles) with
      ⟨r, rDeclared, rfl⟩
    exact (toPgRole_plain (checked.roleName r rDeclared)).2

/-- A line that PostgreSQL reads reads alike when all it says is declared. -/
theorem Checked.readAlike_of_declared {line : String} {read : PgGrant}
    (isRead : readGrantLine line = some read)
    (declared : ∀ fact ∈ read.facts, ∃ table role privilege,
      Listed d (.table privilege table) role ∧ fact = declaredFact table role privilege) :
    ReadAlike line read := by
  rcases (readGrantLine_eq_some_iff line read).mp isRead with
    ⟨m, cut, readTable, readRole, readWords, _⟩
  have facts : ∀ p ∈ read.privileges, ∃ table role privilege,
      Listed d (.table privilege table) role ∧ read.table.map PgName.stored = foldedParts table ∧
        read.grantee.stored = toPgRole role ∧ p = PRIV_SQL privilege := by
    intro p member
    rcases declared _ (List.mem_map_of_mem member) with ⟨table, role, privilege, listed, same⟩
    rw [declaredFact, PgFact.mk.injEq] at same
    exact ⟨table, role, privilege, listed, same.1, same.2.1, same.2.2.1⟩
  have somePrivilege : ∃ p, p ∈ read.privileges := by
    apply List.exists_mem_of_ne_nil
    rw [((readPrivileges_eq_some_iff _ _).mp readWords).1, Ne, List.map_eq_nil_iff]
    exact Text.split_ne_nil _ _
  rcases somePrivilege with ⟨first, inPrivileges⟩
  rcases facts first inPrivileges with ⟨table, role, privilege, listed, sameTable, sameRole, _⟩
  rcases checked.plain_of_listed listed with ⟨tablePlain, rolePlain⟩
  have storedPlain : ∀ name ∈ read.grantee :: read.table, ∀ c ∈ name.stored.toList,
      isPlain c = true := by
    intro name member
    rcases List.mem_cons.mp member with rfl | inTable
    · rw [sameRole]
      exact rolePlain
    · exact tablePlain _ (sameTable ▸ List.mem_map_of_mem inTable)
  have storedAscii : ∀ name ∈ read.grantee :: read.table, ∀ c ∈ name.stored.toList,
      c.toNat < 128 := fun name member c inName =>
    (isPlain_facts (storedPlain name member c inName)).2.2.2.2
  constructor
  · apply ascii_of_pieces cut
    · apply ascii_of_mem_privileges readWords
      intro word member
      rcases facts word member with ⟨_, _, q, _, _, _, rfl⟩
      exact privSql_letters q
    · apply ascii_of_mem_names readTable
      exact fun name member => storedAscii name (List.mem_cons_of_mem _ member)
    · apply ascii_of_mem_names readRole
      intro name member
      exact storedAscii name (List.mem_singleton.mp member ▸ List.mem_cons_self)
  · intro name member
    exact storedPlain _ member

end

/-! ## The whole state -/

/-- The systems have the declared roles, the declared groups with the declared roles, and
the grants that the printed lines denote. -/
structure Agrees (d : Declaration) (actual : ActualState) : Prop where
  roles : ∀ name, name ∈ actual.keycloakRoles ↔ name ∈ d.roleNames
  groupNames : ∀ name, name ∈ actual.keycloakGroups.keys ↔ name ∈ d.groups.map Group.name
  groupRoles : ∀ group ∈ d.groups, ∃ roles, actual.keycloakGroups.get? group.name = some roles ∧
    ∀ role, role ∈ roles ↔ role ∈ group.roles
  grants : ∀ fact, Denotes actual.pgGrants fact ↔ Denotes (tableGrantLines d) fact

/-- The states on which the comparison works with what is there: every role of a group is
separate in a joined list, and every line is read faithfully. -/
structure FaithfullyRead (upper : CaseMapping) (actual : ActualState) : Prop where
  groups : ∀ name roles, actual.keycloakGroups.get? name = some roles →
    ∀ role ∈ roles, IsSeparate role
  grants : FaithfulLines upper actual.pgGrants

section

variable {upper : CaseMapping} {d : Declaration} (checked : Checked d) {artifacts : Artifacts}
include checked

/-- Lines without a difference denote the declared grants when they are read faithfully,
and only then. -/
theorem Checked.denotes_iff_faithful {lines : List String}
    (compiled : artifacts.pgddl = compilePgDdl d)
    (clean : diffPgGrants upper artifacts lines = []) :
    (∀ fact, Denotes lines fact ↔ Denotes (tableGrantLines d) fact) ↔
      FaithfulLines upper lines := by
  constructor
  · intro same
    constructor
    · intro line reported read isRead
      apply checked.readAlike_of_declared isRead
      intro fact inFacts
      exact (checked.denotes_tableGrantLines fact).mp
        ((same fact).mp ⟨line, reported, read, isRead, inFacts⟩)
    · intro line reported _ g parsed p inSet
      rcases checked.listed_of_parsed compiled clean reported parsed inSet with
        ⟨role, privilege, listed, sameRole, rfl⟩
      apply (same _).mpr
      exact (checked.denotes_tableGrantLines _).mpr
        ⟨g.table, role, privilege, listed, foldedFact_eq sameRole privilege⟩
  · exact checked.denotes_iff_of_faithful compiled clean

/-- Groups without a difference have the declared roles when the roles they have are
separate, and only then. -/
theorem Checked.groupRoles_iff_separate {actualGroups : OrderedMap String (List String)}
    (compiled : artifacts.keycloak = compileKeycloak d)
    (clean : diffKeycloakGroups artifacts actualGroups = .ok []) :
    (∀ group ∈ d.groups, ∃ roles, actualGroups.get? group.name = some roles ∧
        ∀ role, role ∈ roles ↔ role ∈ group.roles) ↔
      ∀ name roles, actualGroups.get? name = some roles → ∀ role ∈ roles, IsSeparate role := by
  rw [diffKeycloakGroups_eq_ok_nil_iff, compiled] at clean
  rcases clean with ⟨each, known⟩
  have declaredSeparate : ∀ group ∈ d.groups, ∀ role ∈ group.roles, IsSeparate role :=
    fun group declared role listed =>
      checked.isSeparate (checked.groupRoleKnown group declared role listed)
  constructor
  · intro same name roles stored role member
    have isGroup := known name ((OrderedMap.mem_keys_iff _ _).mpr ⟨roles, stored⟩)
    rcases List.mem_map.mp ((mem_keycloakGroupNames d name).mp isGroup) with
      ⟨group, declared, rfl⟩
    rcases same group declared with ⟨found, isFound, members⟩
    obtain rfl : found = roles := Option.some.inj (isFound.symm.trans stored)
    exact declaredSeparate group declared role ((members role).mp member)
  · intro separate group declared
    rcases each _ ((mem_keycloakGroups d _).mpr ⟨group, declared, rfl⟩) with
      ⟨roles, stored, joined⟩
    refine ⟨roles, stored, ?_⟩
    have perm := (joinedRoles_eq_iff
      (fun role member => declaredSeparate group declared role ((Text.mem_sortBy _ _ _).mp member))
      (separate group.name roles stored)).mp joined
    intro role
    rw [← perm.mem_iff, Text.mem_sortBy]

end

/-- When nothing is reported, the systems agree with the declaration exactly if the
comparison worked with what is there. -/
theorem clean_report_agrees_iff (upper : CaseMapping) {d : Declaration} {actual : ActualState}
    {artifacts : Artifacts} {report : DriftReport} (valid : validateDeclaration d = [])
    (compiled : compileAll d = .ok artifacts)
    (compared : diffState upper artifacts actual.whole = .ok report) (empty : report.items = []) :
    Agrees d actual ↔ FaithfullyRead upper actual := by
  have checked := checked_of_valid valid
  rcases compileAll_eq_ok compiled with ⟨_, keycloak, pgddl⟩
  rcases (diffState_whole_iff upper artifacts actual).mp ⟨report, compared, empty⟩ with
    ⟨roles, groups, grants⟩
  have groupsIff := checked.groupRoles_iff_separate keycloak groups
  have grantsIff := checked.denotes_iff_faithful pgddl grants
  constructor
  · intro agrees
    exact ⟨groupsIff.mp agrees.groupRoles, grantsIff.mp agrees.grants⟩
  · intro faithful
    rw [diffKeycloakRoles_eq_nil_iff, keycloak] at roles
    have groupRoles := groupsIff.mpr faithful.groups
    rw [diffKeycloakGroups_eq_ok_nil_iff, keycloak] at groups
    refine ⟨?_, ?_, groupRoles, grantsIff.mpr faithful.grants⟩
    · intro name
      rw [← roles name, mem_realmRoles]
    · intro name
      constructor
      · exact fun member => (mem_keycloakGroupNames d name).mp (groups.2 name member)
      · intro isGroup
        rcases List.mem_map.mp isGroup with ⟨group, declared, rfl⟩
        rcases groupRoles group declared with ⟨found, stored, _⟩
        exact (OrderedMap.mem_keys_iff _ _).mpr ⟨found, stored⟩

theorem ordersState_clean {artifacts : Artifacts}
    (compiled : compileAll (ordersPolicy "public.orders") = .ok artifacts) :
    ∃ report, diffState asciiCase artifacts ordersState.whole = .ok report ∧ report.items = [] := by
  rcases compileAll_eq_ok compiled with ⟨_, keycloak, pgddl⟩
  have checked := checked_of_valid ordersPolicy_valid
  have applied : Applied (ordersPolicy "public.orders") ordersState :=
    ordersState_applied (by decide)
  rcases applied.report_clean_iff asciiCase checked keycloak pgddl with ⟨report, compared, clean⟩
  refine ⟨report, compared, clean.mpr ⟨?_, ?_, ?_⟩⟩
  · intro table role privilege listed
    rw [← ((listed_ordersPolicy _ _ _ _).mp listed).1]
    decide
  · intro group declared
    rw [List.mem_singleton.mp declared]
    decide
  · intro group declared other otherDeclared _ role
    rw [List.mem_singleton.mp declared, List.mem_singleton.mp otherDeclared]

theorem clean_report_agrees_iff_orders :
    ∃ artifacts report, compileAll (ordersPolicy "public.orders") = .ok artifacts ∧
      diffState asciiCase artifacts ordersState.whole = .ok report ∧ report.items = [] ∧
      (Agrees (ordersPolicy "public.orders") ordersState ↔
        FaithfullyRead asciiCase ordersState) := by
  rcases exists_compileAll ordersPolicy_valid with ⟨artifacts, compiled⟩
  rcases ordersState_clean compiled with ⟨report, compared, empty⟩
  exact ⟨artifacts, report, compiled, compared, empty,
    clean_report_agrees_iff asciiCase ordersPolicy_valid compiled compared empty⟩

/-- The grant is on a table whose name contains the dot. -/
def quotedOrdersState : ActualState :=
  { ordersState with pgGrants := ["GRANT SELECT ON TABLE \"public.orders\" TO analysts"] }

theorem parse_quotedOrdersState :
    quotedOrdersState.pgGrants.map (parseGrantLine asciiCase) =
      ordersState.pgGrants.map (parseGrantLine asciiCase) := by
  decide +kernel

theorem read_quotedOrdersState :
    quotedOrdersState.pgGrants.map readGrantLine =
      [some ⟨[.quoted "public.orders"], .bare "analysts", ["SELECT"], false⟩] := by
  decide +kernel

/-- A grant on another table passes for the declared one. -/
theorem quoted_table_hidden :
    ¬ ∀ (upper : CaseMapping) (d : Declaration) (actual : ActualState) (artifacts : Artifacts)
      (report : DriftReport), validateDeclaration d = [] → compileAll d = .ok artifacts →
        diffState upper artifacts actual.whole = .ok report → report.items = [] →
          Agrees d actual := by
  intro always
  rcases exists_compileAll ordersPolicy_valid with ⟨artifacts, compiled⟩
  rcases ordersState_clean compiled with ⟨report, compared, empty⟩
  rcases (diffState_whole_iff asciiCase artifacts ordersState).mp ⟨report, compared, empty⟩ with
    ⟨roles, groups, grants⟩
  have hidden := (diffPgGrants_eq_nil_congr artifacts parse_quotedOrdersState).mpr grants
  rcases (diffState_whole_iff asciiCase artifacts quotedOrdersState).mpr
    ⟨roles, groups, hidden⟩ with
    ⟨quotedReport, quotedCompared, quotedEmpty⟩
  have agrees := always asciiCase _ _ artifacts quotedReport ordersPolicy_valid compiled
    quotedCompared quotedEmpty
  have declared := ((checked_of_valid ordersPolicy_valid).denotes_tableGrantLines
    (declaredFact "public.orders" "analysts" .select)).mpr ⟨"public.orders", "analysts", .select,
      (listed_ordersPolicy _ _ _ _).mpr ⟨rfl, rfl, rfl⟩, rfl⟩
  rcases (agrees.grants _).mpr declared with ⟨line, reported, read, isRead, inFacts⟩
  have onlyRead := List.mem_map_of_mem (f := readGrantLine) reported
  rw [read_quotedOrdersState, isRead, List.mem_singleton, Option.some.injEq] at onlyRead
  rw [onlyRead] at inFacts
  exact absurd inFacts (by decide)

end BelugaManager.PolicyCompiler
