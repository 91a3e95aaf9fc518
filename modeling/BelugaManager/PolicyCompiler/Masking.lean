import BelugaManager.PolicyCompiler.Access
import BelugaManager.PolicyCompiler.MaskConflict

/-!
# Masked columns

Two properties of the mask rules that rest on what the validator computes: personal
data is masked for everyone who can read it and was not opted out, and the
validator reports a mask conflict exactly when some role or group can meet one.
-/

namespace BelugaManager.PolicyCompiler

open Foundation

/-- A request about a column of a table of the deployed catalog. -/
def columnRequest (operation schema table col : String) (token : List String) : Request where
  operation := operation
  resource := .column DEPLOYED_CATALOG schema table col
  groups := token

/-- The request to read from a table of the deployed catalog. -/
def selectRequest (schema table : String) (token : List String) : Request where
  operation := "SelectFromColumns"
  resource := .table DEPLOYED_CATALOG schema table
  groups := token

/-- The guard keeps a token with an unmasked holder away from a grant that does not
opt out itself. -/
theorem conditions_unmaskedGuard (d : Declaration) (res : Resource) (grant : Grant)
    (request : Request) :
    Conditions request (unmaskedGuard d res grant) ↔
      (grant.optsOut = false → ¬ Meets request.groups (unmaskedGroups d res)) := by
  rw [unmaskedGuard]
  split
  next guarded => simp [Guard.Holds, guarded.1]
  next unguarded =>
    simp only [conditions_nil, true_iff]
    intro normal meets
    rcases meets with ⟨held, _, unmasked⟩
    exact unguarded ⟨normal, List.ne_nil_of_mem unmasked⟩

/-- A grant's masks are in force for a token. -/
def MaskInForce (d : Declaration) (res : Resource) (grant : Grant) (token : List String) :
    Prop :=
  Meets token grant.roles ∧
    (grant.optsOut = false → ¬ Meets token (unmaskedGroups d res))

instance (d : Declaration) (res : Resource) (grant : Grant) (token : List String) :
    Decidable (MaskInForce d res grant token) := by
  unfold MaskInForce
  infer_instance

theorem mem_maskRules (d : Declaration) (res : Resource) (schema table : String)
    (grant : Grant) (rule : Rule) :
    rule ∈ maskRules d res schema table grant ↔
      ∃ col kind, (col, kind) ∈ grant.masks ∧
      rule = maskRule d res schema table grant col kind := by
  simp only [maskRules, List.mem_map, Text.mem_sortBy, Prod.exists, eq_comm]

theorem maskRule_fires_iff (d : Declaration) (res : Resource) (schema table : String)
    (grant : Grant) (col : String) (kind : MaskKind) (request : Request) :
    (maskRule d res schema table grant col kind).Fires request ↔
      request.resource = .column DEPLOYED_CATALOG schema table col ∧
        MaskInForce d res grant request.groups := by
  simp only [Rule.Fires, maskRule, conditions_append, conditions_cons, conditions_nil, and_true,
    conditions_columnGuards, conditions_unmaskedGuard, Guard.Holds, MaskInForce, and_assoc]

/-! ## Personal data -/

/-- A token that is closed under `includes` has every role that one of its declared
roles inherits. -/
theorem meets_of_heldBy {d : Declaration} {token roles : List String}
    (closed : ClosedUnderIncludes d token) (held : HeldBy d token roles) :
    Meets token roles := by
  rcases held with ⟨role, listed, holder, inToken, holds⟩
  exact ⟨role, closed.expandRoles_subset inToken ((mem_holdersOf d role holder).mp holds).2,
    listed⟩

theorem meets_unmaskedGroups (d : Declaration) (res : Resource) (token : List String) :
    Meets token (unmaskedGroups d res) ↔
      ∃ grant ∈ res.grants, grant.optsOut = true ∧ HeldBy d token grant.roles := by
  simp only [Meets, mem_unmaskedGroups, HeldBy]
  constructor
  · intro meets
    rcases meets with ⟨holder, inToken, grant, listed, optsOut, role, granted, holds⟩
    exact ⟨grant, listed, optsOut, role, granted, holder, inToken, holds⟩
  · intro meets
    rcases meets with ⟨grant, listed, optsOut, role, granted, holder, inToken, holds⟩
    exact ⟨holder, inToken, grant, listed, optsOut, role, granted, holds⟩

theorem operationOf_eq_select (priv : Privilege)
    (select : "SelectFromColumns" = operationOf priv) : priv = .select := by
  cases priv <;> simp [operationOf] at select ⊢

/-- Some grant of the resource can be used to read the table. -/
def Readable (d : Declaration) (res : Resource) (schema table : String) (token : List String) :
    Prop :=
  ∃ grant ∈ res.grants,
    Allowed (allowRules d res schema table grant) (selectRequest schema table token)

/-- A mask rule for a column of the resource is true, whatever the operation is. -/
def ColumnMasked (d : Declaration) (rules : List Rule) (res : Resource)
    (schema table col : String) (token : List String) : Prop :=
  ∃ grant ∈ res.grants, ∃ rule ∈ maskRules d res schema table grant,
    rule ∈ rules ∧ (∃ expression, rule.head = .columnMask expression) ∧
      ∀ operation, rule.Fires (columnRequest operation schema table col token)

/-- Whoever may read personal data sees the mask of a sensitive column, unless the
token has a holder of a grant that opts out of masking. -/
theorem pii_masked_or_optedOut (d : Declaration) (valid : validateDeclaration d = [])
    (res : Resource) (declared : res ∈ d.resources) (isTrino : res.engineOrDefault = .trino)
    (isPii : res.classification = .pii) (col : String) (sensitive : col ∈ res.sensitive)
    (token : List String) (closed : ClosedUnderIncludes d token) :
    ∃ rules schema table, regoRules d = .ok rules ∧
      splitResource res.resource = .ok (schema, table) ∧
      (Readable d res schema table token →
        ColumnMasked d rules res schema table col token ∨
          ∃ grant ∈ res.grants, grant.optsOut = true ∧ HeldBy d token grant.roles) := by
  have checked := checked_of_valid valid
  rcases checked.mem_regoRules with ⟨rules, compiled, emitted⟩
  rcases splitResource_of_isSchemaTable (checked.schemaTable res declared) with
    ⟨schema, table, splits, _⟩
  refine ⟨rules, schema, table, compiled, splits, ?_⟩
  intro readable
  rcases readable with ⟨grant, listed, allows⟩
  rcases (allowed_allowRules d res schema table grant _).mp allows with
    ⟨_, ⟨priv, granted, operation⟩, held⟩
  have select := operationOf_eq_select priv operation
  subst select
  cases out : grant.optsOut with
  | true => exact Or.inr ⟨grant, listed, out, held⟩
  | false =>
      by_cases unmasked : Meets token (unmaskedGroups d res)
      · exact Or.inr ((meets_unmaskedGroups d res token).mp unmasked)
      · have covered := checked.piiMasked res declared isPii grant listed granted out col sensitive
        rcases List.mem_map.mp covered with ⟨⟨_, kind⟩, masked, rfl⟩
        have member := (mem_maskRules d res schema table grant _).mpr ⟨_, kind, masked, rfl⟩
        refine Or.inl ⟨grant, listed, _, member, ?_, ⟨_, rfl⟩, ?_⟩
        · exact (emitted _).mpr (Or.inl ⟨res, declared, isTrino, schema, table, splits, grant,
            listed, List.mem_append_right _ member⟩)
        · intro operation
          exact (maskRule_fires_iff ..).mpr
            ⟨rfl, meets_of_heldBy closed held, fun _ => unmasked⟩

theorem pii_masked_or_optedOut_customers :
    ∃ rules schema table, regoRules lakehouse = .ok rules ∧
      splitResource customers.resource = .ok (schema, table) ∧
      (Readable lakehouse customers schema table ["analysts"] →
        ColumnMasked lakehouse rules customers schema table "email" ["analysts"] ∨
          ∃ grant ∈ customers.grants, grant.optsOut = true ∧
            HeldBy lakehouse ["analysts"] grant.roles) :=
  pii_masked_or_optedOut lakehouse lakehouse_valid customers List.mem_cons_self rfl rfl "email"
    (by decide) ["analysts"] (by decide)

/-! ## Tokens of roles and groups -/

/-- The token of the members of the groups declared under a name. -/
def groupToken (d : Declaration) (name : String) : List String :=
  (d.groups.filter (·.name = name)).flatMap (groupEffectiveRoles d)

/-- The token that a single role or a single group gives. -/
def SingleToken (d : Declaration) (token : List String) : Prop :=
  (∃ role ∈ d.roles, token = expandRoles d role.name) ∨
    ∃ group ∈ d.groups, token = groupToken d group.name

/-- The validator's name for a holder stands for a token when it holds the roles of
the token and no others. -/
def StandsFor (d : Declaration) (holder : String) (token : List String) : Prop :=
  ∀ role, role ∈ token ↔ holder ∈ holdersOfIncludingGroups d role

theorem mem_groupToken (d : Declaration) (name role : String) :
    role ∈ groupToken d name ↔
      ∃ group ∈ d.groups, group.name = name ∧ role ∈ groupEffectiveRoles d group := by
  simp only [groupToken, List.mem_flatMap, List.mem_filter, decide_eq_true_eq, and_assoc]

/-- Such a token has everything its roles inherit. -/
theorem SingleToken.inherits {d : Declaration} {token : List String}
    (single : SingleToken d token) {name other : String} (held : name ∈ token)
    (inherited : other ∈ expandRoles d name) : other ∈ token := by
  rcases single with ⟨role, declared, rfl⟩ | ⟨group, declared, rfl⟩
  · exact expandRoles_trans held inherited
  · rw [mem_groupToken] at held ⊢
    rcases held with ⟨member, inGroups, sameName, effective⟩
    rcases (mem_groupEffectiveRoles d member name).mp effective with ⟨listed, inRoles, reached⟩
    exact ⟨member, inGroups, sameName, (mem_groupEffectiveRoles d member other).mpr
      ⟨listed, inRoles, expandRoles_trans reached inherited⟩⟩

theorem mem_holdersOfIncludingGroups (d : Declaration) (role holder : String) :
    holder ∈ holdersOfIncludingGroups d role ↔
      holder ∈ holdersOf d role ∨
        ∃ group ∈ d.groups,
          role ∈ groupEffectiveRoles d group ∧ "group:" ++ group.name = holder := by
  simp only [holdersOfIncludingGroups, taggedGroupHolders, List.mem_eraseDups, List.mem_append,
    List.mem_map, List.mem_filter, decide_eq_true_eq, and_assoc]

/-- No role is named like a tagged group. -/
theorem Checked.tag_not_roleName {d : Declaration} (checked : Checked d) (name : String) :
    "group:" ++ name ∉ d.roleNames := by
  intro member
  rcases List.mem_map.mp member with ⟨role, declared, named⟩
  have chars := (roleName_chars (checked.roleName role declared)).2 ':'
  rw [named] at chars
  exact absurd (chars (by simp)) (by decide)

theorem Checked.standsFor_role {d : Declaration} (checked : Checked d) {name : String}
    (known : name ∈ d.roleNames) : StandsFor d name (expandRoles d name) := by
  intro role
  rw [mem_holdersOfIncludingGroups, mem_holdersOf]
  constructor
  · intro inherited
    exact Or.inl ⟨known, inherited⟩
  · intro holds
    rcases holds with ⟨_, inherited⟩ | ⟨group, _, _, rfl⟩
    · exact inherited
    · exact absurd known (checked.tag_not_roleName group.name)

theorem Checked.standsFor_group {d : Declaration} (checked : Checked d) (name : String) :
    StandsFor d ("group:" ++ name) (groupToken d name) := by
  intro role
  rw [mem_holdersOfIncludingGroups, mem_holdersOf, mem_groupToken]
  constructor
  · intro held
    rcases held with ⟨group, declared, rfl, effective⟩
    exact Or.inr ⟨group, declared, effective, rfl⟩
  · intro holds
    rcases holds with ⟨known, _⟩ | ⟨group, declared, effective, tagged⟩
    · exact absurd known (checked.tag_not_roleName name)
    · exact ⟨group, declared, by simpa using tagged, effective⟩

/-- Every such token has a holder that stands for it. -/
theorem Checked.exists_standsFor {d : Declaration} (checked : Checked d) {token : List String}
    (single : SingleToken d token) : ∃ holder, StandsFor d holder token := by
  rcases single with ⟨role, declared, rfl⟩ | ⟨group, declared, rfl⟩
  · exact ⟨role.name, checked.standsFor_role (List.mem_map_of_mem declared)⟩
  · exact ⟨"group:" ++ group.name, checked.standsFor_group group.name⟩

/-- Every holder of a role stands for such a token. -/
theorem Checked.exists_token {d : Declaration} (checked : Checked d) {role holder : String}
    (holds : holder ∈ holdersOfIncludingGroups d role) :
    ∃ token, SingleToken d token ∧ StandsFor d holder token := by
  rcases (mem_holdersOfIncludingGroups d role holder).mp holds with
    isRole | ⟨group, declared, _, rfl⟩
  · have known := ((mem_holdersOf d role holder).mp isRole).1
    rcases List.mem_map.mp known with ⟨entry, declared, rfl⟩
    exact ⟨_, Or.inl ⟨entry, declared, rfl⟩, checked.standsFor_role known⟩
  · exact ⟨_, Or.inr ⟨group, declared, rfl⟩, checked.standsFor_group group.name⟩

section Standing

variable {d : Declaration} {holder : String} {token : List String}

theorem StandsFor.mem_grantHolders (stands : StandsFor d holder token) (grant : Grant) :
    holder ∈ grantHolders d grant ↔ Meets token grant.roles := by
  simp only [grantHolders, List.mem_eraseDups, List.mem_flatMap, ← stands _, Meets, and_comm]

/-- The validator's excused holders are the tokens that the guard excludes. -/
theorem StandsFor.mem_resourceUnmasked (stands : StandsFor d holder token) (checked : Checked d)
    (single : SingleToken d token) {res : Resource} (declared : res ∈ d.resources) :
    holder ∈ resourceUnmasked d res ↔ Meets token (unmaskedGroups d res) := by
  simp only [resourceUnmasked, List.mem_eraseDups, List.mem_flatMap, List.mem_filter, ← stands _,
    meets_unmaskedGroups, HeldBy, and_assoc]
  constructor
  · intro excused
    rcases excused with ⟨grant, listed, optsOut, role, granted, inToken⟩
    have known := checked.grantRoleKnown res declared grant listed role granted
    exact ⟨grant, listed, optsOut, role, granted, role, inToken, mem_holdersOf_self known⟩
  · intro excluded
    rcases excluded with ⟨grant, listed, optsOut, role, granted, held, inToken, holds⟩
    exact ⟨grant, listed, optsOut, role, granted,
      single.inherits inToken ((mem_holdersOf d role held).mp holds).2⟩

theorem StandsFor.maskInForce_iff (stands : StandsFor d holder token) (checked : Checked d)
    (single : SingleToken d token) {res : Resource} (declared : res ∈ d.resources)
    (grant : Grant) :
    MaskInForce d res grant token ↔
      holder ∈ grantHolders d grant ∧
        (grant.optsOut = false → holder ∉ resourceUnmasked d res) := by
  rw [MaskInForce, stands.mem_grantHolders grant,
    stands.mem_resourceUnmasked checked single declared]

end Standing

/-! ## Conflicts at run time -/

/-- The masks that the policy asks for are those of the grants in force. -/
theorem masked_iff {rules : List Rule} {d : Declaration}
    (emitted : ∀ rule, rule ∈ rules ↔
      FromResource d rule ∨ ∃ cg ∈ d.catalogGrantList, rule ∈ catalogRules d cg)
    (request : Request) (expression : String) :
    Masked rules request expression ↔
      ∃ res ∈ d.resources, res.engineOrDefault = .trino ∧
        ∃ schema table, splitResource res.resource = .ok (schema, table) ∧
          ∃ grant ∈ res.grants, ∃ col kind, (col, kind) ∈ grant.masks ∧
            expression = MASK_EXPR kind col ∧
            request.resource = .column DEPLOYED_CATALOG schema table col ∧
            MaskInForce d res grant request.groups := by
  constructor
  · intro masked
    rcases masked with ⟨rule, member, isMask, fires⟩
    rcases (emitted rule).mp member with
      ⟨res, declared, isTrino, schema, table, splits, grant, listed, ofGrant⟩ |
      ⟨cg, _, ofCatalog⟩
    · rw [grantRules, List.mem_append, List.mem_append] at ofGrant
      rcases ofGrant with (ofAllow | ofRowFilter) | ofMask
      · simp [head_of_mem_allowRules ofAllow] at isMask
      · rcases head_of_mem_rowFilterRules ofRowFilter with ⟨_, isRowFilter⟩
        simp [isRowFilter] at isMask
      · rcases (mem_maskRules ..).mp ofMask with ⟨col, kind, hasMask, rfl⟩
        rcases (maskRule_fires_iff ..).mp fires with ⟨resource, inForce⟩
        exact ⟨res, declared, isTrino, schema, table, splits, grant, listed, col, kind, hasMask,
          (Head.columnMask.inj isMask).symm, resource, inForce⟩
    · simp [head_of_mem_catalogRules ofCatalog] at isMask
  · intro masked
    rcases masked with ⟨res, declared, isTrino, schema, table, splits, grant, listed, col, kind,
      hasMask, rfl, resource, inForce⟩
    have member := (mem_maskRules d res schema table grant _).mpr ⟨col, kind, hasMask, rfl⟩
    refine ⟨_, ?_, rfl, (maskRule_fires_iff ..).mpr ⟨resource, inForce⟩⟩
    exact (emitted _).mpr (Or.inl ⟨res, declared, isTrino, schema, table, splits, grant, listed,
      List.mem_append_right _ member⟩)

/-- The first character tells the kinds of masks apart. -/
theorem MASK_EXPR_head (kind : MaskKind) (col : String) :
    (MASK_EXPR kind col).toList.head? = some (match kind with
      | .hash => 't'
      | .partialMask => 'c'
      | .null => 'n') := by
  cases kind with
  | hash =>
      show ("to_hex(sha256(cast(" ++ col ++ " as varbinary)))").toList.head? = some 't'
      simp
  | partialMask =>
      show ("concat(substr(" ++ col ++ ", 1, 2), '***')").toList.head? = some 'c'
      simp
  | null =>
      show "null".toList.head? = some 'n'
      simp

theorem MASK_EXPR_injective (col : String) : Function.Injective (MASK_EXPR · col) := by
  intro left right same
  have heads := congrArg (fun expression => expression.toList.head?) same
  simp only [MASK_EXPR_head, Option.some.injEq] at heads
  cases left <;> cases right <;> simp at heads ⊢

/-- Grants that differ in opting out are never in force together: a token that has a
role of the one is excluded by the guard of the other. -/
theorem Checked.optsOut_eq_of_inForce {d : Declaration} (checked : Checked d) {res : Resource}
    (declared : res ∈ d.resources) {a b : Grant} (listedA : a ∈ res.grants)
    (listedB : b ∈ res.grants) {token : List String} (inForceA : MaskInForce d res a token)
    (inForceB : MaskInForce d res b token) : a.optsOut = b.optsOut := by
  have excluded : ∀ {one other : Grant}, one ∈ res.grants → MaskInForce d res one token →
      MaskInForce d res other token → one.optsOut = true → other.optsOut ≠ false := by
    intro one other listed inForce otherInForce optsOut normal
    rcases inForce.1 with ⟨role, inToken, granted⟩
    have known := checked.grantRoleKnown res declared one listed role granted
    exact otherInForce.2 normal ((meets_unmaskedGroups d res token).mpr
      ⟨one, listed, optsOut, role, granted, role, inToken, mem_holdersOf_self known⟩)
  cases outA : a.optsOut with
  | true => exact (Bool.ne_false_iff.mp (excluded listedA inForceA inForceB outA)).symm
  | false =>
      cases outB : b.optsOut with
      | true => exact absurd outA (excluded listedB inForceB inForceA outB)
      | false => rfl

/-- A reported clash is a conflict for the token of the common holder. -/
theorem Checked.conflict_of_clash {d : Declaration} (checked : Checked d) {rules : List Rule}
    (emitted : ∀ rule, rule ∈ rules ↔
      FromResource d rule ∨ ∃ cg ∈ d.catalogGrantList, rule ∈ catalogRules d cg)
    {res : Resource} (declared : res ∈ d.resources) {col holder : String} {a b : Grant}
    (clash : Clash d res col a b holder) :
    ∃ token, SingleToken d token ∧ ∃ operation schema table col,
      MaskConflict rules (columnRequest operation schema table col token) := by
  rcases clash.kinds with ⟨kindA, kindB, maskA, maskB, kinds⟩
  have isTrino : res.engineOrDefault = .trino := by
    cases engine : res.engine with
    | none => simp [Resource.engineOrDefault, engine]
    | some engine' =>
        cases engine' with
        | trino => simp [Resource.engineOrDefault, engine]
        | postgres =>
            have noMask := checked.postgresUnmasked res declared engine a clash.listed.1
            simp [Grant.masks, noMask] at maskA
  rcases splitResource_of_isSchemaTable (checked.schemaTable res declared) with
    ⟨schema, table, splits, _⟩
  have holdsRole : ∃ role, holder ∈ holdersOfIncludingGroups d role := by
    have holds := clash.holders.1
    rw [grantHolders, List.mem_eraseDups, List.mem_flatMap] at holds
    rcases holds with ⟨role, _, holds⟩
    exact ⟨role, holds⟩
  rcases holdsRole with ⟨role, holds⟩
  rcases checked.exists_token holds with ⟨token, single, stands⟩
  have inForceA := (stands.maskInForce_iff checked single declared a).mpr
    ⟨clash.holders.1, clash.masked⟩
  have inForceB := (stands.maskInForce_iff checked single declared b).mpr
    ⟨clash.holders.2, fun normal => clash.masked (clash.optsOut.trans normal)⟩
  refine ⟨token, single, "", schema, table, col, MASK_EXPR kindA col, MASK_EXPR kindB col,
    ?_, ?_, fun same => kinds (MASK_EXPR_injective col same)⟩
  · exact (masked_iff emitted _ _).mpr ⟨res, declared, isTrino, schema, table, splits, a,
      clash.listed.1, col, kindA, maskA, rfl, rfl, inForceA⟩
  · exact (masked_iff emitted _ _).mpr ⟨res, declared, isTrino, schema, table, splits, b,
      clash.listed.2, col, kindB, maskB, rfl, rfl, inForceB⟩

/-- A conflict for the token of a holder is a clash of two grants of one resource. -/
theorem Checked.clash_of_conflict {d : Declaration} (checked : Checked d) {rules : List Rule}
    (emitted : ∀ rule, rule ∈ rules ↔
      FromResource d rule ∨ ∃ cg ∈ d.catalogGrantList, rule ∈ catalogRules d cg)
    {request : Request} (single : SingleToken d request.groups)
    (conflict : MaskConflict rules request) :
    ∃ res ∈ d.resources, ∃ col a b holder, Clash d res col a b holder := by
  rcases conflict with ⟨left, right, leftMasked, rightMasked, different⟩
  rcases (masked_iff emitted _ _).mp leftMasked with ⟨res, declared, isTrino, schema, table,
    splits, a, listedA, col, kindA, maskA, rfl, resource, inForceA⟩
  rcases (masked_iff emitted _ _).mp rightMasked with ⟨other, otherDeclared, otherTrino,
    otherSchema, otherTable, otherSplits, b, listedB, otherCol, kindB, maskB, rfl,
    otherResource, inForceB⟩
  rw [resource] at otherResource
  cases otherResource
  have sameResource : res = other := by
    apply checked.resource_unique declared otherDeclared (isTrino.trans otherTrino.symm)
    rw [((splitResource_eq_ok_iff _ _ _).mp splits).1,
      ((splitResource_eq_ok_iff _ _ _).mp otherSplits).1]
  subst sameResource
  rcases checked.exists_standsFor single with ⟨holder, stands⟩
  have holderA := (stands.maskInForce_iff checked single declared a).mp inForceA
  have holderB := (stands.maskInForce_iff checked single declared b).mp inForceB
  refine ⟨res, declared, col, a, b, holder, ⟨listedA, listedB⟩,
    ⟨kindA, kindB, maskA, maskB, ?_⟩,
    checked.optsOut_eq_of_inForce declared listedA listedB inForceA inForceB,
    ⟨holderA.1, holderB.1⟩, holderA.2⟩
  intro same
  exact different (by rw [same])

/-- If nothing else is wrong with a declaration, the validator reports a mask conflict
exactly when the token of some role or group meets one. -/
theorem conflict_reported_iff (d : Declaration) (clear : Clear (validateDeclaration d)) :
    ∃ rules, regoRules d = .ok rules ∧
      ((∃ error ∈ validateDeclaration d, error.code = .conflictingMask) ↔
        ∃ token, SingleToken d token ∧ ∃ operation schema table col,
          MaskConflict rules (columnRequest operation schema table col token)) := by
  have checked := checked_of_clear clear
  rcases checked.mem_regoRules with ⟨rules, compiled, emitted⟩
  refine ⟨rules, compiled, ?_⟩
  rw [conflict_iff]
  simp only [conflictErrors_ne_nil_iff]
  constructor
  · intro reported
    rcases reported with ⟨res, declared, col, a, b, holder, clash⟩
    exact checked.conflict_of_clash emitted declared clash
  · intro met
    rcases met with ⟨token, single, operation, schema, table, col, conflict⟩
    exact checked.clash_of_conflict emitted single conflict

/-- A role that inherits two roles whose masks of a column differ. -/
def doublyMasked : Declaration where
  roles := [{ name := "sales" }, { name := "support" },
    { name := "leads", includes := some ["sales", "support"] }]
  groups := []
  resources :=
    [{ resource := "lake.orders", classification := .internal
       grants :=
        [readGrant ["sales"] (some (.single "email" .hash)),
          readGrant ["support"] (some (.single "email" .null))] }]

theorem doublyMasked_clear : Clear (validateDeclaration doublyMasked) := by
  show ∀ error ∈ validateDeclaration doublyMasked, error.code = .conflictingMask
  decide +kernel

theorem conflict_reported_iff_doublyMasked :
    (∃ error ∈ validateDeclaration doublyMasked, error.code = .conflictingMask) ∧
      ∃ rules, regoRules doublyMasked = .ok rules ∧
        ((∃ error ∈ validateDeclaration doublyMasked, error.code = .conflictingMask) ↔
          ∃ token, SingleToken doublyMasked token ∧ ∃ operation schema table col,
            MaskConflict rules (columnRequest operation schema table col token)) :=
  ⟨by decide +kernel, conflict_reported_iff doublyMasked doublyMasked_clear⟩

end BelugaManager.PolicyCompiler
