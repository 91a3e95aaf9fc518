import BelugaManager.Foundation.StableSort
import BelugaManager.PolicyCompiler.Permuted
import BelugaManager.PolicyCompiler.RegoText

/-!
# The policy of a rearranged declaration

The rules of a table are written in the order of its grants, and with the roles of a
restricting grant in the order in which they are listed.  `clauses` is what remains of
them apart from the table, and two policies agree exactly when the clauses do.
-/

namespace BelugaManager.PolicyCompiler

open Foundation

/-- What a rule of a table says, apart from the table. -/
inductive Clause where
  | allow (privilege : Privilege) (holders : List String)
  | rowFilter (expression : String) (roles excluded : List String)
  | columnMask (column : String) (kind : MaskKind) (roles excluded : List String)

/-- The holders whom the restrictions of a grant do not concern. -/
def excludedHolders (d : Declaration) (res : Resource) (grant : Grant) : List String :=
  if grant.optsOut then [] else unmaskedGroups d res

/-- The row filter of a grant, unless it is empty. -/
def activeFilter (grant : Grant) : Option String := grant.rowFilter.filter (· ≠ "")

/-- What one grant says: its privileges and its masks by name, the roles of a restriction
as they are listed. -/
def grantClauses (d : Declaration) (res : Resource) (grant : Grant) : List Clause :=
  ((Text.sortBy (fun a b => cmp a.text b.text) grant.privileges).map fun priv =>
      .allow priv (effectiveHolders d grant.roles)) ++
    ((activeFilter grant).toList.map fun expression =>
      .rowFilter expression grant.roles (excludedHolders d res grant)) ++
    (Text.sortBy (fun a b => cmp (maskText a) (maskText b)) grant.masks).map fun (col, kind) =>
      .columnMask col kind grant.roles (excludedHolders d res grant)

/-- What the grants of a table say, in the order in which they are visited. -/
def clauses (d : Declaration) (res : Resource) : List Clause :=
  (sortedGrants res).flatMap (grantClauses d res)

/-- The condition that keeps holders out, if there are any. -/
def guardAgainst (excluded : List String) : List Guard :=
  if excluded = [] then [] else [.everyGroupNotIn excluded]

def Clause.rule (resource schema table : String) : Clause → Rule
  | .allow priv holders =>
      { comment := sanitizeComment resource ++ s!" — {priv.text} (" ++
          Text.join ", " (holders.map sanitizeComment) ++ ")"
        head := .allow
        body := .equals .operation (operationOf priv) :: tableGuards schema table ++
          [.someGroupIn holders] }
  | .rowFilter expression roles excluded =>
      { comment := sanitizeComment resource ++ " — 행 필터"
        head := .rowFilters expression
        body := tableGuards schema table ++ [.someGroupIn roles] ++ guardAgainst excluded }
  | .columnMask col kind roles excluded =>
      { comment := sanitizeComment resource ++ "." ++ sanitizeComment col ++
          s!" — 마스킹({kind.text})"
        head := .columnMask (MASK_EXPR kind col)
        body := columnGuards schema table col ++ [.someGroupIn roles] ++ guardAgainst excluded }

theorem unmaskedGuard_eq (d : Declaration) (res : Resource) (grant : Grant) :
    unmaskedGuard d res grant = guardAgainst (excludedHolders d res grant) := by
  rw [unmaskedGuard, guardAgainst, excludedHolders]
  cases optsOut : grant.optsOut with
  | true => simp
  | false => by_cases nobody : unmaskedGroups d res = [] <;> simp [nobody]

theorem rowFilterRules_eq (d : Declaration) (res : Resource) (schema table : String)
    (grant : Grant) :
    rowFilterRules d res schema table grant =
      ((activeFilter grant).toList.map fun expression =>
        .rowFilter expression grant.roles (excludedHolders d res grant)).map
          (Clause.rule res.resource schema table) := by
  rw [rowFilterRules, activeFilter]
  cases grant.rowFilter with
  | none => rfl
  | some rowFilter =>
      by_cases blank : rowFilter = ""
      · simp [blank]
      · have active : (decide (rowFilter ≠ "")) = true := decide_eq_true blank
        simp only [if_neg blank, Option.filter_some, active, unmaskedGuard_eq]
        rfl

theorem grantRules_eq (d : Declaration) (res : Resource) (schema table : String) (grant : Grant) :
    grantRules d res schema table grant =
      (grantClauses d res grant).map (Clause.rule res.resource schema table) := by
  rw [grantRules, grantClauses, List.map_append, List.map_append, ← rowFilterRules_eq, allowRules,
    maskRules, List.map_map, List.map_map]
  congr 1
  apply List.map_congr_left
  intro entry _
  simp only [maskRule, unmaskedGuard_eq]
  rfl

theorem guardAgainst_injective : Function.Injective guardAgainst := by
  intro excluded other same
  simp only [guardAgainst] at same
  split_ifs at same with nobody nobody'
  · rw [nobody, nobody']
  · simpa using same

theorem operationOf_injective : Function.Injective operationOf := by
  intro priv other
  cases priv <;> cases other <;> decide

theorem MaskKind.text_injective : Function.Injective MaskKind.text := by
  intro kind other
  cases kind <;> cases other <;> decide

theorem Clause.rule_injective (resource schema table : String) :
    Function.Injective (Clause.rule resource schema table) := by
  intro clause other same
  have head := congrArg Rule.head same
  have body := congrArg Rule.body same
  cases clause with
  | allow priv holders =>
      cases other with
      | allow priv' holders' =>
          simp only [Clause.rule, tableGuards, List.cons_append, List.nil_append, List.cons.injEq,
            Guard.equals.injEq, Guard.someGroupIn.injEq, true_and, and_true] at body
          rw [operationOf_injective body.1, body.2]
      | rowFilter expression roles excluded => simp [Clause.rule] at head
      | columnMask col kind roles excluded => simp [Clause.rule] at head
  | rowFilter expression roles excluded =>
      cases other with
      | allow priv holders => simp [Clause.rule] at head
      | rowFilter expression' roles' excluded' =>
          simp only [Clause.rule, tableGuards, List.cons_append, List.nil_append, List.cons.injEq,
            Guard.someGroupIn.injEq, true_and] at body
          simp only [Clause.rule, Head.rowFilters.injEq] at head
          rw [head, body.1, guardAgainst_injective body.2]
      | columnMask col kind roles excluded => simp [Clause.rule] at head
  | columnMask col kind roles excluded =>
      cases other with
      | allow priv holders => simp [Clause.rule] at head
      | rowFilter expression' roles' excluded' => simp [Clause.rule] at head
      | columnMask col' kind' roles' excluded' =>
          simp only [Clause.rule, columnGuards, List.cons_append, List.nil_append, List.cons.injEq,
            Guard.equals.injEq, Guard.someGroupIn.injEq, true_and] at body
          rcases body with ⟨rfl, rfl, sameGuard⟩
          have comment := congrArg Rule.comment same
          have chars := congrArg String.toList comment
          simp only [Clause.rule, String.toList_append, List.append_cancel_left_eq,
            List.append_cancel_right_eq,
            String.toList_inj, toString] at chars
          rw [MaskKind.text_injective chars, guardAgainst_injective sameGuard]

theorem length_grantClauses (d : Declaration) (res : Resource) (grant : Grant) :
    (grantClauses d res grant).length =
      grant.privileges.length + (activeFilter grant).toList.length + grant.masks.length := by
  simp [grantClauses, (Text.sortBy_perm _ _).length_eq, Nat.add_assoc]

/-- A name of a table in its two parts. -/
def tableParts (resource : String) : String × String :=
  ((Text.splitLast '.' resource.toList).map fun (schema, table) =>
    (String.ofList schema, String.ofList table)).getD ("", "")

def tableRules (d : Declaration) (res : Resource) : List Rule :=
  (clauses d res).map (Clause.rule res.resource (tableParts res.resource).1
    (tableParts res.resource).2)

theorem resourceRules_eq {d : Declaration} {res : Resource}
    (named : isSchemaTable res.resource = true) :
    resourceRules d res = .ok (tableRules d res) := by
  rcases splitResource_of_isSchemaTable named with ⟨schema, table, splits, _⟩
  have parts : tableParts res.resource = (schema, table) := by
    rw [splitResource] at splits
    rw [tableParts]
    cases found : Text.splitLast '.' res.resource.toList with
    | none => simp [found] at splits
    | some pair => simpa [found] using splits
  rw [resourceRules, splits, tableRules, clauses, parts, List.map_flatMap]
  simp only [← grantRules_eq]
  rfl

theorem mapM_eq_ok {ι β ε : Type*} {step : ι → Except ε β} {result : ι → β} {items : List ι}
    (succeeds : ∀ item ∈ items, step item = .ok (result item)) :
    items.mapM step = .ok (items.map result) := by
  induction items with
  | nil => rfl
  | cons item rest ih =>
      rw [List.mapM_cons, succeeds item List.mem_cons_self,
        ih fun other member => succeeds other (List.mem_cons_of_mem item member)]
      rfl

/-- What an entry for a catalog says: its operations by name, and who holds its roles. -/
def catalogEntry (d : Declaration) (cg : CatalogGrant) : List QueryOperation × List String :=
  (Text.sortBy (fun a b => cmp a.text b.text) cg.operations, effectiveHolders d cg.roles)

def holdersComment (effective : List String) : String :=
  if effective = [] then "알 수 없는 롤 — 검증 우회" else Text.join ", " (effective.map sanitizeComment)

def operationRule (catalog : String) (effective : List String) (op : QueryOperation) : Rule where
  comment := "카탈로그 " ++ sanitizeComment catalog ++ s!" — {op.text} ({holdersComment effective})"
  head := .allow
  body := .equals .operation op.text ::
    resourceGuard catalog (OPERATION_RESOURCE_SHAPE op) ++ [.someGroupIn effective]

def entryRules (catalog : String) (entry : List QueryOperation × List String) : List Rule :=
  entry.1.map (operationRule catalog entry.2) ++
    informationSchemaRule ⟨catalog, [], []⟩ entry.2 (holdersComment entry.2) ::
    if .accessCatalog ∈ entry.1 then systemRules entry.2 (holdersComment entry.2) else []

theorem catalogRules_eq (d : Declaration) (cg : CatalogGrant) :
    catalogRules d cg = entryRules cg.catalog (catalogEntry d cg) := by
  rw [catalogRules, entryRules, catalogEntry, List.append_assoc]
  simp only [Text.mem_sortBy]
  rfl

theorem QueryOperation.text_injective : Function.Injective QueryOperation.text := by
  intro op other
  cases op <;> cases other <;> decide

/-- The rules of an entry end after the rule on the information schema, or after the fixed
number of rules on the system catalog. -/
theorem prefixFree_entryRules (catalog : String) : PrefixFree (entryRules catalog) := by
  intro entry entry' rest rest' same
  rcases entry with ⟨ops, effective⟩
  rcases entry' with ⟨ops', effective'⟩
  have reading : ∀ op : QueryOperation, op.text ≠ "SelectFromColumns" := by
    intro op
    cases op <;> decide
  have sameEntry : ∀ {tail tail' : List Rule},
      ops.map (operationRule catalog effective) ++
          informationSchemaRule ⟨catalog, [], []⟩ effective (holdersComment effective) :: tail =
        ops'.map (operationRule catalog effective') ++
          informationSchemaRule ⟨catalog, [], []⟩ effective' (holdersComment effective') :: tail' →
      ops = ops' ∧ effective = effective' ∧ tail = tail' := by
    clear same
    induction ops generalizing ops' with
    | nil =>
        intro tail tail' same
        cases ops' with
        | nil =>
            have body := congrArg Rule.body (List.cons.inj same).1
            simp only [informationSchemaRule, List.cons.injEq, Guard.someGroupIn.injEq, true_and,
              and_true] at body
            exact ⟨rfl, body, (List.cons.inj same).2⟩
        | cons op' ops' =>
            have body := congrArg Rule.body (List.cons.inj same).1
            simp only [informationSchemaRule, operationRule, List.cons_append, List.cons.injEq,
              Guard.equals.injEq, true_and] at body
            exact absurd body.1.symm (reading op')
    | cons op ops ih =>
        intro tail tail' same
        cases ops' with
        | nil =>
            have body := congrArg Rule.body (List.cons.inj same).1
            simp only [informationSchemaRule, operationRule, List.cons_append, List.cons.injEq,
              Guard.equals.injEq, true_and] at body
            exact absurd body.1 (reading op)
        | cons op' ops' =>
            have body := congrArg Rule.body (List.cons.inj same).1
            simp only [operationRule, List.cons_append, List.cons.injEq,
              Guard.equals.injEq, true_and] at body
            rcases ih ops' (List.cons.inj same).2 with ⟨rfl, sameHolders, sameTail⟩
            exact ⟨by rw [QueryOperation.text_injective body.1], sameHolders, sameTail⟩
  simp only [entryRules, List.append_assoc, List.cons_append] at same
  rcases sameEntry same with ⟨rfl, rfl, sameTail⟩
  exact ⟨rfl, List.append_cancel_left sameTail⟩

/-! ## The whole policy -/

theorem comparesBy_name {ι : Type*} (name : ι → String) :
    Text.ComparesBy (fun a b => cmp (name a) (name b)) fun item => Text.utf16 (name item) :=
  fun a b => Text.comparesBy_compareUnits (name a) (name b)

theorem Checked.regoRules_eq {d : Declaration} (checked : Checked d) :
    regoRules d = .ok ((trinoResources d).flatMap (tableRules d) ++
      (d.catalogGrantList.map (catalogEntry d)).flatMap (entryRules DEPLOYED_CATALOG)) := by
  have tables : (trinoResources d).mapM (resourceRules d) =
      .ok ((trinoResources d).map (tableRules d)) := by
    apply mapM_eq_ok
    intro res member
    rw [trinoResources, Text.mem_sortBy, List.mem_filter] at member
    exact resourceRules_eq (checked.schemaTable res member.1)
  have catalogs : Text.sortBy (fun a b => cmp a.catalog b.catalog) d.catalogGrantList =
      d.catalogGrantList := by
    apply Text.sortBy_eq_self
    intro a inA b inB
    rw [checked.catalogDeployed a inA, checked.catalogDeployed b inB]
    decide
  have entries : d.catalogGrantList.flatMap (catalogRules d) =
      (d.catalogGrantList.map (catalogEntry d)).flatMap (entryRules DEPLOYED_CATALOG) := by
    rw [List.flatMap_map]
    apply List.flatMap_congr
    intro cg member
    rw [catalogRules_eq, checked.catalogDeployed cg member]
  simp only [regoRules, tables, catalogs, entries]
  rfl

theorem PermutedResource.length_clauses {d d' : Declaration} {res res' : Resource}
    (matches' : PermutedResource res res') :
    (clauses d res).length = (clauses d' res').length := by
  have counted : ((sortedGrants res).map fun grant => (grantClauses d res grant).length).Perm
      ((sortedGrants res').map fun grant => (grantClauses d' res' grant).length) := by
    apply (matches'.grants.of_perm (Text.sortBy_perm _ _) (Text.sortBy_perm _ _).symm).map_perm
    intro g g' alike
    rw [length_grantClauses, length_grantClauses, alike.privileges.length_eq, activeFilter,
      activeFilter,
      alike.rowFilter, alike.masks]
  rw [clauses, clauses, List.length_flatMap, List.length_flatMap]
  exact counted.sum_nat

namespace Permuted

variable {d d' : Declaration} (permuted : Permuted d d') (checked : Checked d)
include permuted checked

/-- The resources of one kind come in pairs of the same name. -/
theorem resources_forall₂ {kind : Resource → Bool} {engine : Engine}
    (ofEngine : ∀ res, kind res = true → res.engineOrDefault = engine)
    (same : ∀ res res', PermutedResource res res' → kind res = kind res') :
    List.Forall₂ PermutedResource
      (Text.sortBy (fun a b => cmp a.resource b.resource) (d.resources.filter kind))
      (Text.sortBy (fun a b => cmp a.resource b.resource) (d'.resources.filter kind)) := by
  apply (permuted.resources.filter same).sortBy_forall₂ (comparesBy_name Resource.resource)
    (comparesBy_name Resource.resource)
  · intro res res' matches'
    rw [matches'.resource]
  · apply List.Nodup.map_on
    · intro res inLeft other inRight sameName
      rw [List.mem_filter] at inLeft inRight
      apply checked.resource_unique inLeft.1 inRight.1
      · rw [ofEngine res inLeft.2, ofEngine other inRight.2]
      · exact Text.utf16_injective sameName
    · exact checked.resourceKey_nodup.of_map.filter _

theorem trinoResources_forall₂ :
    List.Forall₂ PermutedResource (trinoResources d) (trinoResources d') := by
  apply permuted.resources_forall₂ checked
  · intro res isTrino
    exact of_decide_eq_true isTrino
  · intro res res' matches'
    rw [matches'.engineOrDefault]

/-- Two policies agree if and only if the clauses of each table and the entries for catalogs do. -/
theorem regoRules_eq_iff (checked' : Checked d') : regoRules d = regoRules d' ↔
    List.Forall₂ (fun res res' => PermutedResource res res' ∧ clauses d res = clauses d' res')
        (trinoResources d) (trinoResources d') ∧
      d.catalogGrantList.map (catalogEntry d) = d'.catalogGrantList.map (catalogEntry d') := by
  rw [checked.regoRules_eq, checked'.regoRules_eq, Except.ok.injEq]
  have paired := permuted.trinoResources_forall₂ checked
  have tableLength : ∀ res res', PermutedResource res res' →
      (tableRules d res).length = (tableRules d' res').length := by
    intro res res' matches'
    rw [tableRules, tableRules, List.length_map, List.length_map, matches'.length_clauses]
  constructor
  · intro same
    rcases flatMap_append_inj paired tableLength same with ⟨tables, entries⟩
    constructor
    · apply tables.imp
      intro res res' ⟨matches', sameRules⟩
      rw [tableRules, tableRules, matches'.resource] at sameRules
      exact ⟨matches', (List.map_injective_iff.mpr (Clause.rule_injective _ _ _)) sameRules⟩
    · exact (prefixFree_entryRules DEPLOYED_CATALOG).flatMap_injective
        (by simp [entryRules]) entries
  · intro alike
    rcases alike with ⟨tables, entries⟩
    congr 1
    · have same : (trinoResources d).map (tableRules d) =
        (trinoResources d').map (tableRules d') := by
        apply map_eq_of_forall₂ tables
        intro res res' both
        rw [tableRules, tableRules, both.2, both.1.resource]
      rw [List.flatMap_def, List.flatMap_def, same]
    · rw [entries]

end Permuted

end BelugaManager.PolicyCompiler
