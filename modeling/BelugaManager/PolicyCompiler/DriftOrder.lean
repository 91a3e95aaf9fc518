import BelugaManager.PolicyCompiler.Drift
import BelugaManager.PolicyCompiler.GrantFrame
import Mathlib.Logic.Relation

/-!
# The report does not depend on how the state is written down

Adapters may list roles, groups, grants and privileges in any order, and several
privileges on one line or on one line each.  None of it changes the report.
-/

namespace BelugaManager.PolicyCompiler

open Foundation

def itemKey (item : DriftItem) : Lex (List Nat × List Nat) :=
  toLex (Text.utf16 (item.kind.text ++ "|" ++ item.target), Text.utf16 item.detail)

theorem comparesBy_compareItems : Text.ComparesBy compareItems itemKey := by
  apply Text.ComparesBy.thenBy
  · exact fun left right => Text.comparesBy_compareUnits _ _
  · exact fun left right => Text.compareUnits_eq_zero_iff _ _
  · exact fun left right => Text.comparesBy_compareUnits _ _

/-- No two items share a key: the kinds are words that end before the bar. -/
theorem itemKey_injective : Function.Injective itemKey := by
  intro left right same
  rcases Prod.mk.inj (toLex_inj.mp same) with ⟨sameTarget, sameDetail⟩
  have chars := congrArg String.toList (Text.utf16_injective sameTarget)
  simp only [String.toList_append, List.append_assoc] at chars
  rcases left with ⟨kind, target, detail⟩
  rcases right with ⟨kind', target', detail'⟩
  have sameKind : kind = kind' := by
    cases kind <;> cases kind' <;> simp_all [DriftKind.text]
  have equalDetail : detail = detail' := Text.utf16_injective sameDetail
  rw [sameKind] at chars
  have equalTarget : target = target' :=
    String.toList_inj.mp (List.append_cancel_left (List.append_cancel_left chars))
  rw [sameKind, equalTarget, equalDetail]

theorem sortBy_compareItems_eq_of_perm {left right : List DriftItem} (perm : left.Perm right) :
    Text.sortBy compareItems left = Text.sortBy compareItems right :=
  comparesBy_compareItems.sortBy_eq_of_perm (fun _ _ _ _ same => itemKey_injective same) perm

theorem diffKeycloakRoles_perm (desired : Artifacts) {left right : List String}
    (perm : left.Perm right) :
    (diffKeycloakRoles desired left).Perm (diffKeycloakRoles desired right) := by
  have absent : ∀ name : String, decide (name ∉ left) = decide (name ∉ right) := by
    intro name
    rw [decide_eq_decide, perm.mem_iff]
  simp only [diffKeycloakRoles, absent]
  exact List.Perm.append_left _ ((perm.filter _).map _)

/-- The comparison of groups ends alike: with the same exception or with the same items. -/
inductive SameItems : Except String (List DriftItem) → Except String (List DriftItem) → Prop where
  | error (message : String) : SameItems (.error message) (.error message)
  | ok {left right : List DriftItem} (perm : left.Perm right) : SameItems (.ok left) (.ok right)

theorem diffKeycloakGroup_congr {left right : OrderedMap String (List String)} (g : KeycloakGroup)
    (same : (left.get? g.name).map joinedRoles = (right.get? g.name).map joinedRoles) :
    diffKeycloakGroup left g = diffKeycloakGroup right g := by
  rw [diffKeycloakGroup, diffKeycloakGroup]
  cases inLeft : left.get? g.name with
  | none =>
      cases inRight : right.get? g.name with
      | none => rfl
      | some roles => simp [inLeft, inRight] at same
  | some roles =>
      cases inRight : right.get? g.name with
      | none => simp [inLeft, inRight] at same
      | some others =>
          rw [inLeft, inRight, Option.map_some, Option.map_some, Option.some.injEq] at same
          simp only [same]

/-- The comparison of groups looks up the roles of each name in no order and goes through the
names once. -/
theorem sameItems_of_groups (desired : Artifacts) {left right : OrderedMap String (List String)}
    (same : ∀ name, (left.get? name).map joinedRoles = (right.get? name).map joinedRoles)
    (keys : left.keys.Perm right.keys) :
    SameItems (diffKeycloakGroups desired left) (diffKeycloakGroups desired right) := by
  have groupwise : diffKeycloakGroup left = diffKeycloakGroup right := by
    funext g
    exact diffKeycloakGroup_congr g (same g.name)
  rw [diffKeycloakGroups, diffKeycloakGroups, groupwise]
  cases desired.keycloak.groups.mapM (diffKeycloakGroup right) with
  | error message => exact .error message
  | ok declared => exact .ok (List.Perm.append_left _ ((keys.filter _).map _))

/-- Lists of lines that are alike to the comparison. -/
structure SameLines (upper : CaseMapping) (left right : List String) : Prop where
  grants : SameGrants upper left right
  unparsed : (unparsedLines upper left).Perm (unparsedLines upper right)

theorem formatPrivileges_congr {left right : ParsedGrant}
    (same : ∀ p, p ∈ left.privileges ↔ p ∈ right.privileges) :
    formatPrivileges left.privileges = formatPrivileges right.privileges := by
  have perm := (List.perm_ext_iff_of_nodup left.privileges_nodup right.privileges_nodup).mpr same
  exact congrArg (Text.join ", ") (Text.sortBy_compareUnits_eq_of_perm perm)

section Merged

variable {upper : CaseMapping} {left right : List String} (same : SameGrants upper left right)
include same

/-- Under each key both sides hold a set with the same members, or neither holds one. -/
theorem merged_of_sameGrants (key : String) :
    (mergeGrantLines upper left).get? key = none ∧ (mergeGrantLines upper right).get? key = none ∨
      ∃ a b, (mergeGrantLines upper left).get? key = some a ∧
        (mergeGrantLines upper right).get? key = some b ∧
        ∀ p, p ∈ a.privileges ↔ p ∈ b.privileges := by
  have sameKeys := same.1 key
  have samePrivileges := same.2 key
  simp only [← mem_keys_mergeGrantLines, ← mem_privileges_mergeGrantLines]
    at sameKeys samePrivileges
  cases inLeft : (mergeGrantLines upper left).get? key with
  | none =>
      left
      refine ⟨rfl, ?_⟩
      rw [OrderedMap.get?_eq_none_iff, ← sameKeys, ← OrderedMap.get?_eq_none_iff]
      exact inLeft
  | some a =>
      right
      have known := sameKeys.mp ((OrderedMap.mem_keys_iff _ _).mpr ⟨a, inLeft⟩)
      rcases (OrderedMap.mem_keys_iff _ _).mp known with ⟨b, inRight⟩
      refine ⟨a, b, rfl, inRight, ?_⟩
      intro p
      have members := samePrivileges p
      simp only [inLeft, inRight, Option.some.injEq, exists_eq_left'] at members
      exact members

theorem diffDeclaredGrant_congr (declared : String × ParsedGrant) :
    diffDeclaredGrant (mergeGrantLines upper left) declared =
      diffDeclaredGrant (mergeGrantLines upper right) declared := by
  rw [diffDeclaredGrant, diffDeclaredGrant]
  rcases merged_of_sameGrants same declared.1 with
    ⟨inLeft, inRight⟩ | ⟨a, b, inLeft, inRight, members⟩
  · simp only [inLeft, inRight]
  · have equal : privilegesEqual a declared.2 = privilegesEqual b declared.2 := by
      rw [Bool.eq_iff_iff, privilegesEqual_iff, privilegesEqual_iff]
      simp only [members]
    simp only [inLeft, inRight, equal, formatPrivileges_congr members]

/-- An entry in the form in which it is reported. -/
def shownEntry (entry : String × ParsedGrant) : String × String :=
  (entry.1, formatPrivileges entry.2.privileges)

omit same in
theorem nodup_shownEntries (map : OrderedMap String ParsedGrant) :
    (map.entries.map shownEntry).Nodup := by
  apply List.Nodup.of_map Prod.fst
  rw [List.map_map]
  exact map.keys_nodup

theorem shownEntries_subset {shown : String × String}
    (member : shown ∈ (mergeGrantLines upper left).entries.map shownEntry) :
    shown ∈ (mergeGrantLines upper right).entries.map shownEntry := by
  rcases List.mem_map.mp member with ⟨⟨key, a⟩, inEntries, rfl⟩
  have inLeft := (OrderedMap.get?_eq_some_iff _ _ _).mpr inEntries
  rcases merged_of_sameGrants same key with ⟨absent, _⟩ | ⟨a', b, found, inRight, members⟩
  · exact absurd (inLeft.symm.trans absent) (Option.some_ne_none a)
  · obtain rfl : a = a' := Option.some.inj (inLeft.symm.trans found)
    refine List.mem_map.mpr ⟨(key, b), (OrderedMap.get?_eq_some_iff _ _ _).mp inRight, ?_⟩
    rw [shownEntry, shownEntry, formatPrivileges_congr members]

theorem sameGrants_symm : SameGrants upper right left :=
  ⟨fun key => (same.1 key).symm, fun key p => (same.2 key p).symm⟩

theorem shownEntries_perm :
    ((mergeGrantLines upper left).entries.map shownEntry).Perm
      ((mergeGrantLines upper right).entries.map shownEntry) := by
  apply (List.perm_ext_iff_of_nodup (nodup_shownEntries _) (nodup_shownEntries _)).mpr
  intro shown
  exact ⟨shownEntries_subset same, shownEntries_subset (sameGrants_symm same)⟩

end Merged

/-- The report on the grants depends on what the lines say, not on how they say it. -/
theorem diffPgGrants_perm (desired : Artifacts) {upper : CaseMapping} {left right : List String}
    (same : SameLines upper left right) :
    (diffPgGrants upper desired left).Perm (diffPgGrants upper desired right) := by
  have declared : diffDeclaredGrant (mergeGrantLines upper left) =
      diffDeclaredGrant (mergeGrantLines upper right) := by
    funext entry
    exact diffDeclaredGrant_congr same.grants entry
  have manual : ∀ lines : List String, ((mergeGrantLines upper lines).entries.filter
      (·.1 ∉ (desiredPgGrants upper desired).keys)).map (fun actual => ({
        kind := .manual, target := "pg.grant/" ++ actual.1
        detail := "실제에만 존재 — 수동 변경 의심 (" ++ formatPrivileges actual.2.privileges ++ ")" } :
          DriftItem)) =
      (((mergeGrantLines upper lines).entries.map shownEntry).filter
        (·.1 ∉ (desiredPgGrants upper desired).keys)).map fun shown => {
          kind := .manual, target := "pg.grant/" ++ shown.1
          detail := "실제에만 존재 — 수동 변경 의심 (" ++ shown.2 ++ ")" } := by
    intro lines
    rw [List.filter_map, List.map_map]
    rfl
  rw [diffPgGrants, diffPgGrants, declared, manual, manual]
  apply List.Perm.append _ (((shownEntries_perm same.grants).filter _).map _)
  exact (same.unparsed.map _).append_right _

/-! ## Ways to write the same lines -/

theorem sameLines_of_perm (upper : CaseMapping) {left right : List String}
    (perm : left.Perm right) :
    SameLines upper left right := by
  have parsed := perm.filterMap (parseGrantLine upper)
  refine ⟨⟨?_, ?_⟩, perm.filter _⟩
  · intro key
    simp only [parsed.mem_iff]
  · intro key p
    simp only [parsed.mem_iff]

theorem SameLines.append {upper : CaseMapping} {left right left' right' : List String}
    (first : SameLines upper left right) (second : SameLines upper left' right') :
    SameLines upper (left ++ left') (right ++ right') := by
  refine ⟨⟨?_, ?_⟩, ?_⟩
  · intro key
    have firstKeys := first.grants.1 key
    have secondKeys := second.grants.1 key
    simp only [List.filterMap_append, List.mem_append, or_and_right, exists_or]
    rw [firstKeys, secondKeys]
  · intro key p
    have firstSet := first.grants.2 key p
    have secondSet := second.grants.2 key p
    simp only [List.filterMap_append, List.mem_append, or_and_right, exists_or]
    rw [firstSet, secondSet]
  · rw [unparsedLines, unparsedLines, List.filter_append, List.filter_append]
    exact first.unparsed.append second.unparsed

/-- A text stands for the privileges on a line of the frame. -/
def OnFrame (frame : GrantFrame) (raw : List Char) (line : String) : Prop :=
  IsListing raw ∧ ∃ opening closing, IsGap Text.isSpace opening ∧ IsGap Text.isSpace closing ∧
    line = frame.line opening raw closing

section Frame

variable {frame : GrantFrame} {upper : CaseMapping}

theorem parse_onFrame {raw : List Char} {line : String} (onFrame : OnFrame frame raw line) :
    parseGrantLine upper line = some (parsedGrant upper (frame.pieces.withPrivileges raw)) := by
  rcases onFrame with ⟨listing, _, _, opens, closes, rfl⟩
  exact frame.parseGrantLine_line upper opens closes listing

theorem filterMap_onFrame {raws : List (List Char)} {lines : List String}
    (onFrame : List.Forall₂ (OnFrame frame) raws lines) :
    lines.filterMap (parseGrantLine upper) =
      raws.map fun raw => parsedGrant upper (frame.pieces.withPrivileges raw) := by
  induction onFrame with
  | nil => rfl
  | cons here later ih =>
      rw [List.filterMap_cons_some (parse_onFrame here), ih, List.map_cons]

theorem unparsed_onFrame {raws : List (List Char)} {lines : List String}
    (onFrame : List.Forall₂ (OnFrame frame) raws lines) : unparsedLines upper lines = [] := by
  induction onFrame with
  | nil => rfl
  | cons here later ih =>
      rw [unparsedLines, List.filter_cons_of_neg (by simp [parse_onFrame here])]
      exact ih

/-- Lines of one frame are alike when together they list the same privileges. -/
theorem sameLines_onFrame {raws raws' : List (List Char)} {lines lines' : List String}
    (onFrame : List.Forall₂ (OnFrame frame) raws lines)
    (onFrame' : List.Forall₂ (OnFrame frame) raws' lines')
    (nonempty : raws ≠ []) (nonempty' : raws' ≠ [])
    (same : ∀ p, (∃ raw ∈ raws, Lists upper raw p) ↔ ∃ raw ∈ raws', Lists upper raw p) :
    SameLines upper lines lines' := by
  have key : ∀ raw, grantKey (parsedGrant upper (frame.pieces.withPrivileges raw)) =
      grantKey (parsedGrant upper frame.pieces) := fun raw => rfl
  have members : ∀ {raws : List (List Char)} (wanted p : String), raws ≠ [] →
      ((∃ raw ∈ raws, grantKey (parsedGrant upper frame.pieces) = wanted ∧
          (Lists upper raw p ∨ frame.pieces.grantOption = true ∧ p = "GRANT OPTION")) ↔
        grantKey (parsedGrant upper frame.pieces) = wanted ∧
          ((∃ raw ∈ raws, Lists upper raw p) ∨
            frame.pieces.grantOption = true ∧ p = "GRANT OPTION")) := by
    intro raws wanted p someRaw
    constructor
    · rintro ⟨raw, inRaws, isKey, listed | option⟩
      · exact ⟨isKey, Or.inl ⟨raw, inRaws, listed⟩⟩
      · exact ⟨isKey, Or.inr option⟩
    · rintro ⟨isKey, ⟨raw, inRaws, listed⟩ | option⟩
      · exact ⟨raw, inRaws, isKey, Or.inl listed⟩
      · rcases List.exists_mem_of_ne_nil raws someRaw with ⟨raw, inRaws⟩
        exact ⟨raw, inRaws, isKey, Or.inr option⟩
  refine ⟨⟨?_, ?_⟩, by rw [unparsed_onFrame onFrame, unparsed_onFrame onFrame']⟩
  · intro wanted
    rw [filterMap_onFrame onFrame, filterMap_onFrame onFrame']
    simp only [List.mem_map, exists_exists_and_eq_and, key]
    constructor
    · rintro ⟨_, _, isKey⟩
      rcases List.exists_mem_of_ne_nil raws' nonempty' with ⟨raw, inRaws⟩
      exact ⟨raw, inRaws, isKey⟩
    · rintro ⟨_, _, isKey⟩
      rcases List.exists_mem_of_ne_nil raws nonempty with ⟨raw, inRaws⟩
      exact ⟨raw, inRaws, isKey⟩
  · intro wanted p
    rw [filterMap_onFrame onFrame, filterMap_onFrame onFrame']
    simp only [List.mem_map, exists_exists_and_eq_and, key, frame.mem_privileges]
    rw [members wanted p nonempty, members wanted p nonempty', same]

end Frame

/-! ## Rearranging a state -/

/-- A privilege of one word in ASCII letters. -/
def IsKeyword (text : String) : Prop := text ≠ "" ∧ ∀ c ∈ text.toList, c.isAlpha = true

instance (text : String) : Decidable (IsKeyword text) :=
  decidable_of_iff (text ≠ "" ∧ text.toList.all Char.isAlpha = true)
    (and_congr_right fun _ => List.all_eq_true)

/-- The same privilege, a keyword in whatever case. -/
def SamePrivilege (left right : String) : Prop :=
  left = right ∨ IsKeyword left ∧ IsKeyword right ∧ Text.upperAscii left = Text.upperAscii right

/-- Texts that list the same privileges, in another order, case or spacing. -/
def Relisted (raw raw' : List Char) : Prop :=
  ∃ order, (privilegeTexts raw).Perm order ∧ List.Forall₂ SamePrivilege order (privilegeTexts raw')

theorem SamePrivilege.toUpperCase_eq (upper : CaseMapping) {left right : String}
    (same : SamePrivilege left right) : upper.toUpperCase left = upper.toUpperCase right := by
  have ascii : ∀ text : String, IsKeyword text → upper.toUpperCase text = Text.upperAscii text := by
    intro text keyword
    apply upper.ascii
    intro c member
    have codes := (Text.isAlpha_iff c).mp (keyword.2 c member)
    omega
  rcases same with rfl | ⟨isLeft, isRight, raised⟩
  · rfl
  · rw [ascii left isLeft, ascii right isRight, raised]

theorem toUpperCase_of_same (upper : CaseMapping) {left right : List String}
    (same : List.Forall₂ SamePrivilege left right) :
    left.map upper.toUpperCase = right.map upper.toUpperCase := by
  induction same with
  | nil => rfl
  | cons here later ih => rw [List.map_cons, List.map_cons, here.toUpperCase_eq upper, ih]

theorem Relisted.lists_iff (upper : CaseMapping) {raw raw' : List Char}
    (relisted : Relisted raw raw')
    (p : String) : Lists upper raw p ↔ Lists upper raw' p := by
  rcases relisted with ⟨order, perm, same⟩
  have mapped := perm.map upper.toUpperCase
  rw [toUpperCase_of_same upper same] at mapped
  have members : p ∈ (privilegeTexts raw).map upper.toUpperCase ↔
      p ∈ (privilegeTexts raw').map upper.toUpperCase := mapped.mem_iff
  rw [Lists, Lists, ← List.mem_map, ← List.mem_map, members]

/-- One way to write the same state differently. -/
inductive Rearranges : PartialState → PartialState → Prop where
  | roles {actual : PartialState} {roles roles' : List String}
      (read : actual.keycloakRoles = some roles) (perm : roles.Perm roles') :
      Rearranges actual { actual with keycloakRoles := some roles' }
  | groupRoles {actual : PartialState} {groups groups' : OrderedMap String (List String)}
      {before after : List (String × List String)} {name : String} {roles roles' : List String}
      (read : actual.keycloakGroups = some groups)
      (stands : groups.entries = before ++ (name, roles) :: after)
      (replaced : groups'.entries = before ++ (name, roles') :: after) (perm : roles.Perm roles') :
      Rearranges actual { actual with keycloakGroups := some groups' }
  | groupOrder {actual : PartialState} {groups groups' : OrderedMap String (List String)}
      (read : actual.keycloakGroups = some groups) (perm : groups.entries.Perm groups'.entries) :
      Rearranges actual { actual with keycloakGroups := some groups' }
  | grantOrder {actual : PartialState} {lines lines' : List String}
      (read : actual.pgGrants = some lines) (perm : lines.Perm lines') :
      Rearranges actual { actual with pgGrants := some lines' }
  /-- The privileges of a line in another order, case or spacing. -/
  | privileges {actual : PartialState} {before after : List String} {frame : GrantFrame}
      {raw raw' : List Char} {line line' : String}
      (read : actual.pgGrants = some (before ++ line :: after))
      (onFrame : OnFrame frame raw line) (onFrame' : OnFrame frame raw' line')
      (relisted : Relisted raw raw') :
      Rearranges actual { actual with pgGrants := some (before ++ line' :: after) }
  /-- One line for each privilege. -/
  | split {actual : PartialState} {before after lines : List String} {frame : GrantFrame}
      {raw : List Char} {line : String}
      (read : actual.pgGrants = some (before ++ line :: after)) (onFrame : OnFrame frame raw line)
      (someText : privilegeTexts raw ≠ [])
      (each : List.Forall₂ (fun text => OnFrame frame text.toList) (privilegeTexts raw) lines) :
      Rearranges actual { actual with pgGrants := some (before ++ lines ++ after) }

/-- A text lists what its privileges list one by one. -/
theorem lists_privilegeTexts (upper : CaseMapping) {raw : List Char} (listing : IsListing raw)
    (p : String) :
    Lists upper raw p ↔ ∃ text ∈ privilegeTexts raw, Lists upper text.toList p := by
  have alone : ∀ text ∈ privilegeTexts raw,
      (Lists upper text.toList p ↔ p ≠ "" ∧ upper.toUpperCase text = p) := by
    intro text member
    rw [Lists, (of_mem_privilegeTexts listing member).2]
    simp
  constructor
  · rintro ⟨nonempty, text, member, raised⟩
    exact ⟨text, member, (alone text member).mpr ⟨nonempty, raised⟩⟩
  · rintro ⟨text, member, listed⟩
    rcases (alone text member).mp listed with ⟨nonempty, raised⟩
    exact ⟨nonempty, text, member, raised⟩

/-- Every line that is taken apart and has privileges stands on a frame. -/
theorem exists_onFrame {line : String} {m : GrantPieces}
    (parsed : grantPieces Text.isSpace line = some m)
    (filled : ∃ c ∈ m.rawPrivileges, Text.isSpace c = false) :
    ∃ frame, OnFrame frame m.rawPrivileges line := by
  rcases exists_frame parsed filled with ⟨frame, opening, closing, opens, closes, listing, isLine⟩
  exact ⟨frame, listing, opening, closing, opens, closes, isLine⟩

/-! ## The report stays the same -/

theorem get?_of_perm {left right : OrderedMap String (List String)}
    (perm : left.entries.Perm right.entries) (name : String) :
    left.get? name = right.get? name := by
  apply Option.ext
  intro roles
  rw [OrderedMap.get?_eq_some_iff, OrderedMap.get?_eq_some_iff, perm.mem_iff]

theorem joinedRoles_of_perm {left right : List String} (perm : left.Perm right) :
    joinedRoles left = joinedRoles right :=
  congrArg (Text.join ",") (Text.sortBy_compareUnits_eq_of_perm perm)

/-- Replacing the roles of one group keeps what is looked up up to the order. -/
theorem get?_of_replaced {left right : OrderedMap String (List String)}
    {before after : List (String × List String)} {name : String} {roles roles' : List String}
    (stands : left.entries = before ++ (name, roles) :: after)
    (replaced : right.entries = before ++ (name, roles') :: after)
    (perm : roles.Perm roles') (wanted : String) :
    (left.get? wanted).map joinedRoles = (right.get? wanted).map joinedRoles := by
  by_cases isName : wanted = name
  · have inLeft : left.get? name = some roles := by
      rw [OrderedMap.get?_eq_some_iff, stands]
      exact List.mem_append_right before List.mem_cons_self
    have inRight : right.get? name = some roles' := by
      rw [OrderedMap.get?_eq_some_iff, replaced]
      exact List.mem_append_right before List.mem_cons_self
    rw [isName, inLeft, inRight, Option.map_some, Option.map_some, joinedRoles_of_perm perm]
  · apply congrArg (Option.map joinedRoles)
    apply Option.ext
    intro found
    rw [OrderedMap.get?_eq_some_iff, OrderedMap.get?_eq_some_iff, stands, replaced]
    simp [isName]

/-- The items of the groups, none if they were not read. -/
def groupItems (desired : Artifacts) (field : Option (OrderedMap String (List String))) :
    Except String (List DriftItem) :=
  match field with
  | none => .ok []
  | some actualGroups => diffKeycloakGroups desired actualGroups

theorem sameItems_refl (items : Except String (List DriftItem)) : SameItems items items := by
  cases items with
  | error message => exact .error message
  | ok items => exact .ok (List.Perm.refl items)

theorem diffState_eq (upper : CaseMapping) (desired : Artifacts) (actual : PartialState) :
    diffState upper desired actual = (groupItems desired actual.keycloakGroups).map fun groups => {
      items := Text.sortBy compareItems
        (whenRead actual.keycloakRoles (diffKeycloakRoles desired) ++
        groups ++ whenRead actual.pgGrants (diffPgGrants upper desired))
      checked := checkedCategories actual } := by
  rw [diffState]
  cases actual.keycloakGroups with
  | none => rfl
  | some actualGroups =>
      cases found : diffKeycloakGroups desired actualGroups with
      | error message => simp only [groupItems, found]; rfl
      | ok groups => simp only [groupItems, found]; rfl

/-- The report is determined by what is found in each category, in whatever order. -/
theorem diffState_congr (upper : CaseMapping) (desired : Artifacts) {left right : PartialState}
    (checked : checkedCategories left = checkedCategories right)
    (roles : (whenRead left.keycloakRoles (diffKeycloakRoles desired)).Perm
      (whenRead right.keycloakRoles (diffKeycloakRoles desired)))
    (groups : SameItems (groupItems desired left.keycloakGroups)
      (groupItems desired right.keycloakGroups))
    (grants : (whenRead left.pgGrants (diffPgGrants upper desired)).Perm
      (whenRead right.pgGrants (diffPgGrants upper desired))) :
    diffState upper desired left = diffState upper desired right := by
  rw [diffState_eq, diffState_eq, checked]
  generalize groupItems desired left.keycloakGroups = leftGroups at groups ⊢
  generalize groupItems desired right.keycloakGroups = rightGroups at groups ⊢
  cases groups with
  | error message => rfl
  | ok perm =>
      rw [Except.map, Except.map,
        sortBy_compareItems_eq_of_perm ((roles.append perm).append grants)]

section Fields

variable (upper : CaseMapping) (desired : Artifacts) {actual : PartialState}

theorem diffState_roles {roles roles' : List String} (read : actual.keycloakRoles = some roles)
    (perm : roles.Perm roles') :
    diffState upper desired actual =
      diffState upper desired { actual with keycloakRoles := some roles' } := by
  apply diffState_congr
  · simp [checkedCategories, read]
  · rw [read]
    exact diffKeycloakRoles_perm desired perm
  · exact sameItems_refl _
  · exact List.Perm.refl _

theorem diffState_groups {groups groups' : OrderedMap String (List String)}
    (read : actual.keycloakGroups = some groups)
    (same : ∀ name, (groups.get? name).map joinedRoles = (groups'.get? name).map joinedRoles)
    (keys : groups.keys.Perm groups'.keys) :
    diffState upper desired actual =
      diffState upper desired { actual with keycloakGroups := some groups' } := by
  apply diffState_congr
  · simp [checkedCategories, read]
  · exact List.Perm.refl _
  · rw [read]
    exact sameItems_of_groups desired same keys
  · exact List.Perm.refl _

theorem diffState_grants {lines lines' : List String} (read : actual.pgGrants = some lines)
    (same : SameLines upper lines lines') :
    diffState upper desired actual =
      diffState upper desired { actual with pgGrants := some lines' } := by
  apply diffState_congr
  · simp [checkedCategories, read]
  · exact List.Perm.refl _
  · exact sameItems_refl _
  · rw [read]
    exact diffPgGrants_perm desired same

end Fields

/-- One rearrangement leaves the report alone. -/
theorem diffState_rearranges (upper : CaseMapping) (desired : Artifacts)
    {actual actual' : PartialState} (rearranges : Rearranges actual actual') :
    diffState upper desired actual = diffState upper desired actual' := by
  have inPlace : ∀ {before after lines lines' : List String}, SameLines upper lines lines' →
      SameLines upper (before ++ lines ++ after) (before ++ lines' ++ after) := by
    intro before after lines lines' same
    have kept := fun others => sameLines_of_perm upper (List.Perm.refl others)
    exact ((kept before).append same).append (kept after)
  cases rearranges with
  | roles read perm => exact diffState_roles upper desired read perm
  | groupRoles read stands replaced perm =>
      apply diffState_groups upper desired read (get?_of_replaced stands replaced perm)
      rw [OrderedMap.keys, OrderedMap.keys, stands, replaced]
      simp
  | groupOrder read perm =>
      apply diffState_groups upper desired read _ (perm.map Prod.fst)
      intro name
      rw [get?_of_perm perm]
  | grantOrder read perm => exact diffState_grants upper desired read (sameLines_of_perm upper perm)
  | @privileges before after frame raw raw' line line' read onFrame onFrame' relisted =>
      apply diffState_grants upper desired read
      have same : SameLines upper [line] [line'] := by
        apply sameLines_onFrame (.cons onFrame .nil) (.cons onFrame' .nil) (by simp) (by simp)
        intro p
        simpa using relisted.lists_iff upper p
      have placed := @inPlace before after [line] [line'] same
      rwa [List.append_assoc, List.append_assoc] at placed
  | @split before after lines frame raw line read onFrame someText each =>
      apply diffState_grants upper desired read
      have same : SameLines upper [line] lines := by
        apply sameLines_onFrame (.cons onFrame .nil) (List.forall₂_map_left_iff.mpr each) (by simp)
          (by simpa using someText)
        exact fun p => by simpa using lists_privilegeTexts upper onFrame.1 p
      have placed := @inPlace before after [line] lines same
      rwa [List.append_assoc before [line]] at placed

/-- Whatever is rearranged, and however often, the report stays the same. -/
theorem diffState_rearranged (upper : CaseMapping) (desired : Artifacts)
    {actual actual' : PartialState} (rearranged : Relation.ReflTransGen Rearranges actual actual') :
    diffState upper desired actual' = diffState upper desired actual := by
  induction rearranged with
  | refl => rfl
  | tail _ last ih => rw [← diffState_rearranges upper desired last, ih]

def ordersRest : List Char := "ON public.orders TO analyst WITH GRANT OPTION;".toList

theorem isListing_ordersRest : IsListing ordersRest := by decide

def ordersFrame : GrantFrame where
  lead := []
  word := "GRANT".toList
  rest := ordersRest
  trail := []
  pieces := { rawPrivileges := [], rawTable := "public.orders".toList, rawRole := "analyst".toList
              grantOption := true }
  lead_space := fun c absent => absurd absent List.not_mem_nil
  trail_space := fun c absent => absurd absent List.not_mem_nil
  spells := by decide
  rest_first := isListing_ordersRest.first
  rest_last := isListing_ordersRest.last
  reads := by decide

def ordersActual : PartialState where
  keycloakRoles := some ["analyst", "writer"]
  pgGrants := some ["GRANT select,\tInsert ON public.orders TO analyst WITH GRANT OPTION;"]

def ordersSplit : PartialState where
  keycloakRoles := some ["writer", "analyst"]
  pgGrants := some ["GRANT  INSERT ON public.orders TO analyst WITH GRANT OPTION;",
    "GRANT Select\tON public.orders TO analyst WITH GRANT OPTION;"]

def ordersArtifacts : Artifacts where
  keycloak := {
    realmRoles := [{ name := "analyst", composite := false, composites := [] }]
    groups := [] }
  rego := ""
  pgddl := "GRANT SELECT ON TABLE public.orders TO analyst;"

theorem onFrame_orders {raw opening closing : List Char} (listing : IsListing raw)
    (opens : IsGap Text.isSpace opening) (closes : IsGap Text.isSpace closing) :
    OnFrame ordersFrame raw (ordersFrame.line opening raw closing) :=
  ⟨listing, opening, closing, opens, closes, rfl⟩

/-- The same state, its roles and privileges in another order and the latter on two lines. -/
theorem diffState_rearranged_orders :
    diffState asciiCase ordersArtifacts ordersSplit =
      diffState asciiCase ordersArtifacts ordersActual := by
  have roles :
    Rearranges ordersActual { ordersActual with keycloakRoles := some ["writer", "analyst"] } :=
    .roles rfl (List.Perm.swap "writer" "analyst" [])
  have listed : OnFrame ordersFrame "select,\tInsert".toList
      "GRANT select,\tInsert ON public.orders TO analyst WITH GRANT OPTION;" :=
    @onFrame_orders _ [' '] [' '] (by decide) (by decide) (by decide)
  have relisted : OnFrame ordersFrame "INSERT , Select".toList
      "GRANT INSERT , Select ON public.orders TO analyst WITH GRANT OPTION;" :=
    @onFrame_orders _ [' '] [' '] (by decide) (by decide) (by decide)
  have insert : OnFrame ordersFrame "INSERT".toList
      "GRANT  INSERT ON public.orders TO analyst WITH GRANT OPTION;" :=
    @onFrame_orders _ [' ', ' '] [' '] (by decide) (by decide) (by decide)
  have select : OnFrame ordersFrame "Select".toList
      "GRANT Select\tON public.orders TO analyst WITH GRANT OPTION;" :=
    @onFrame_orders _ [' '] ['\t'] (by decide) (by decide) (by decide)
  have texts : privilegeTexts "INSERT , Select".toList = ["INSERT", "Select"] := by decide
  have same : Relisted "select,\tInsert".toList "INSERT , Select".toList := by
    refine ⟨["Insert", "select"], ?_, ?_⟩
    · exact List.Perm.swap "Insert" "select" []
    · rw [texts]
      exact .cons (Or.inr (by decide)) (.cons (Or.inr (by decide)) .nil)
  have reordered :=
    @Rearranges.privileges { ordersActual with keycloakRoles := some ["writer", "analyst"] }
    [] [] ordersFrame _ _ _ _ rfl listed relisted same
  have split := @Rearranges.split { ordersActual with
      keycloakRoles := some ["writer", "analyst"]
      pgGrants := some ["GRANT INSERT , Select ON public.orders TO analyst WITH GRANT OPTION;"] }
    [] [] ["GRANT  INSERT ON public.orders TO analyst WITH GRANT OPTION;",
      "GRANT Select\tON public.orders TO analyst WITH GRANT OPTION;"] ordersFrame _ _ rfl relisted
    (by rw [texts]; exact List.cons_ne_nil _ _)
    (by rw [texts]; exact .cons insert (.cons select .nil))
  exact diffState_rearranged asciiCase ordersArtifacts
    (((Relation.ReflTransGen.single roles).tail reordered).tail split)

end BelugaManager.PolicyCompiler
