import BelugaManager.PolicyCompiler.Checked

/-!
# Reported mask conflicts

Which section of the validator reports a mask conflict, and for which pairs of
grants it does.
-/

namespace BelugaManager.PolicyCompiler

open Foundation

/-- No error is a mask conflict. -/
def FreeOfConflict (errors : List ValidationError) : Prop :=
  EveryCode (· ≠ .conflictingMask) errors

theorem freeOfConflict_append (left right : List ValidationError) :
    FreeOfConflict (left ++ right) ↔ FreeOfConflict left ∧ FreeOfConflict right :=
  everyCode_append _ left right

theorem freeOfConflict_flatMap {ι : Type*} (items : List ι)
    (errors : ι → List ValidationError) :
    FreeOfConflict (items.flatMap errors) ↔ ∀ item ∈ items, FreeOfConflict (errors item) :=
  everyCode_flatMap _ items errors

theorem freeOfConflict_errorUnless (condition : Prop) [Decidable condition] {code : ErrorCode}
    (other : code ≠ .conflictingMask) (message : String) :
    FreeOfConflict (errorUnless condition code message) :=
  everyCode_errorUnless (· ≠ .conflictingMask) other message

theorem freeOfConflict_roleReferenceErrors (d : Declaration) (role unknown invalid : String) :
    FreeOfConflict (roleReferenceErrors d role unknown invalid) := by
  rw [roleReferenceErrors, freeOfConflict_append]
  exact ⟨freeOfConflict_errorUnless _ (by decide) _, freeOfConflict_errorUnless _ (by decide) _⟩

theorem freeOfConflict_grantErrors (d : Declaration) (res : Resource) (grant : Grant) :
    FreeOfConflict (grantErrors d res grant) := by
  have rowFilter : FreeOfConflict (rowFilterErrors res grant.rowFilter) := by
    cases grant.rowFilter with
    | none => simp [FreeOfConflict, EveryCode, rowFilterErrors]
    | some filter => exact freeOfConflict_errorUnless _ (by decide) _
  simp only [grantErrors, freeOfConflict_append, freeOfConflict_flatMap]
  exact ⟨⟨⟨⟨⟨freeOfConflict_errorUnless _ (by decide) _,
    freeOfConflict_errorUnless _ (by decide) _⟩,
    fun role _ => freeOfConflict_roleReferenceErrors d role _ _⟩,
    fun column _ => freeOfConflict_errorUnless _ (by decide) _⟩, rowFilter⟩,
    freeOfConflict_errorUnless _ (by decide) _⟩

/-- Only the comparison of the grants of a resource reports a mask conflict. -/
theorem conflict_of_mem {d : Declaration} {error : ValidationError}
    (reported : error ∈ validateDeclaration d) (conflict : error.code = .conflictingMask) :
    ∃ res ∈ d.resources, error ∈ conflictErrors d res := by
  have elsewhere : ∀ {errors : List ValidationError}, FreeOfConflict errors → error ∉ errors :=
    fun free member => free error member conflict
  have cycle : FreeOfConflict (cycleErrors d) := by
    cases search : findCycle d <;> simp [FreeOfConflict, EveryCode, cycleErrors, search]
  have references := freeOfConflict_roleReferenceErrors d
  have checks : ∀ (condition : Prop) [Decidable condition] (code : ErrorCode) (message : String),
      code ≠ .conflictingMask → FreeOfConflict (errorUnless condition code message) :=
    fun condition _ _ message other => freeOfConflict_errorUnless condition other message
  have roles : FreeOfConflict (d.roles.flatMap (roleErrors d)) := by
    simp only [roleErrors, freeOfConflict_append, freeOfConflict_flatMap]
    exact fun role _ => ⟨checks _ _ _ (by decide), fun parent _ => references parent _ _⟩
  have collisions : FreeOfConflict (roleNameCollisionErrors d) := by
    simp only [roleNameCollisionErrors, freeOfConflict_flatMap]
    exact fun entry _ => checks _ _ _ (by decide)
  have groups : FreeOfConflict (d.groups.flatMap (groupErrors d)) := by
    simp only [groupErrors, freeOfConflict_append, freeOfConflict_flatMap]
    exact fun group _ => ⟨checks _ _ _ (by decide), fun role _ => references role _ _⟩
  have duplicates : FreeOfConflict (duplicateResourceErrors d) := by
    simp only [duplicateResourceErrors, freeOfConflict_flatMap]
    exact fun entry _ => checks _ _ _ (by decide)
  have catalogs : FreeOfConflict (d.catalogGrantList.flatMap (catalogGrantErrors d)) := by
    simp only [catalogGrantErrors, freeOfConflict_append, freeOfConflict_flatMap]
    exact fun cg _ => ⟨checks _ _ _ (by decide), fun role _ => references role _ _⟩
  have catalogDuplicates : FreeOfConflict (duplicateCatalogGrantErrors d) := by
    simp only [duplicateCatalogGrantErrors, freeOfConflict_flatMap]
    exact fun entry _ => checks _ _ _ (by decide)
  have logins : FreeOfConflict (d.loginList.flatMap (loginErrors d)) := by
    simp only [loginErrors, freeOfConflict_append, freeOfConflict_flatMap]
    exact fun login _ => ⟨⟨⟨checks _ _ _ (by decide), checks _ _ _ (by decide)⟩,
      checks _ _ _ (by decide)⟩, fun role _ => checks _ _ _ (by decide)⟩
  simp only [validateDeclaration, List.mem_append, elsewhere cycle, elsewhere roles,
    elsewhere collisions, elsewhere groups, elsewhere duplicates, elsewhere catalogs,
    elsewhere catalogDuplicates, elsewhere logins, false_or, or_false, List.mem_flatMap]
    at reported
  rcases reported with ⟨res, declared, ofResource⟩
  refine ⟨res, declared, ?_⟩
  rw [resourceErrors, List.mem_append] at ofResource
  refine ofResource.resolve_left (elsewhere ?_)
  simp only [freeOfConflict_append, freeOfConflict_flatMap]
  exact ⟨⟨⟨checks _ _ _ (by decide), fun column _ => checks _ _ _ (by decide)⟩,
    checks _ _ _ (by decide)⟩, fun grant _ => freeOfConflict_grantErrors d res grant⟩

/-- A comparison of grants only reports mask conflicts. -/
theorem code_of_mem_conflictErrors {d : Declaration} {res : Resource} {error : ValidationError}
    (reported : error ∈ conflictErrors d res) : error.code = .conflictingMask := by
  simp only [conflictErrors, List.mem_flatMap, errorUnless] at reported
  rcases reported with ⟨entry, _, pair, _, inErrors⟩
  split at inErrors
  next => exact absurd inErrors List.not_mem_nil
  next => rw [List.mem_singleton.mp inErrors]

theorem conflict_iff (d : Declaration) :
    (∃ error ∈ validateDeclaration d, error.code = .conflictingMask) ↔
      ∃ res ∈ d.resources, conflictErrors d res ≠ [] := by
  constructor
  · intro reported
    rcases reported with ⟨error, member, conflict⟩
    rcases conflict_of_mem member conflict with ⟨res, declared, inErrors⟩
    exact ⟨res, declared, List.ne_nil_of_mem inErrors⟩
  · intro reported
    rcases reported with ⟨res, declared, nonempty⟩
    rcases List.exists_mem_of_ne_nil _ nonempty with ⟨error, inErrors⟩
    refine ⟨error, ?_, code_of_mem_conflictErrors inErrors⟩
    simp only [validateDeclaration, List.mem_append, List.mem_flatMap]
    have ofResource : error ∈ resourceErrors d res := List.mem_append_right _ inErrors
    exact Or.inl (Or.inl (Or.inl (Or.inr ⟨res, declared, ofResource⟩)))

/-! ## Which pairs of grants conflict -/

theorem mem_orderedPairs_or {ι : Type*} {items : List ι} {left right : ι}
    (leftMember : left ∈ items) (rightMember : right ∈ items) (different : left ≠ right) :
    (left, right) ∈ orderedPairs items ∨ (right, left) ∈ orderedPairs items := by
  induction items with
  | nil => exact absurd leftMember List.not_mem_nil
  | cons first rest ih =>
      simp only [orderedPairs, List.mem_append, List.mem_map, Prod.mk.injEq]
      rcases List.mem_cons.mp leftMember with rfl | leftRest
      · rcases List.mem_cons.mp rightMember with rfl | rightRest
        · exact absurd rfl different
        · exact Or.inl (Or.inl ⟨right, rightRest, rfl, rfl⟩)
      · rcases List.mem_cons.mp rightMember with rfl | rightRest
        · exact Or.inr (Or.inl ⟨left, leftRest, rfl, rfl⟩)
        · exact (ih leftRest rightRest).imp Or.inr Or.inr

theorem mem_of_mem_orderedPairs {ι : Type*} {items : List ι} {pair : ι × ι}
    (member : pair ∈ orderedPairs items) : pair.1 ∈ items ∧ pair.2 ∈ items := by
  induction items with
  | nil => simp [orderedPairs] at member
  | cons first rest ih =>
      rw [orderedPairs, List.mem_append, List.mem_map] at member
      rcases member with ⟨other, inRest, rfl⟩ | inPairs
      · exact ⟨List.mem_cons_self, List.mem_cons_of_mem first inRest⟩
      · exact (ih inPairs).imp (List.mem_cons_of_mem first) (List.mem_cons_of_mem first)

theorem mem_maskOverlap (unmasked : List String) (a b : MaskEntry) (holder : String) :
    holder ∈ maskOverlap unmasked a b ↔
      a.kind ≠ b.kind ∧ a.grant.optsOut = b.grant.optsOut ∧
        holder ∈ a.holders ∧ holder ∈ b.holders ∧
        (a.grant.optsOut = false → holder ∉ unmasked) := by
  rw [maskOverlap]
  split
  next excluded => simp; tauto
  next compared =>
    rw [not_or, not_not] at compared
    cases out : a.grant.optsOut
    · simp [compared.1, ← compared.2, out]
      tauto
    · simp [compared.1, ← compared.2, out]

/-- The entries under a column stem from the grants that mask it. -/
theorem mem_maskedBy (d : Declaration) (res : Resource) (column : String) (entry : MaskEntry) :
    entry ∈ (((maskedBy d res).get? column).getD []).map Prod.snd ↔
      ∃ grant ∈ res.grants, ∃ kind, (column, kind) ∈ grant.masks ∧
        entry = ⟨grant, grantHolders d grant, kind⟩ := by
  simp only [maskedBy, OrderedMap.get?_group, List.mem_map, List.mem_filter, List.mem_flatMap,
    decide_eq_true_eq]
  constructor
  · intro member
    rcases member with ⟨_, ⟨⟨grant, listed, ⟨masked, kind⟩, hasMask, rfl⟩, rfl⟩, rfl⟩
    exact ⟨grant, listed, kind, hasMask, rfl⟩
  · intro member
    rcases member with ⟨grant, listed, kind, hasMask, rfl⟩
    exact ⟨_, ⟨⟨grant, listed, (column, kind), hasMask, rfl⟩, rfl⟩, rfl⟩

theorem conflictErrors_ne_nil_iff_overlap (d : Declaration) (res : Resource) :
    conflictErrors d res ≠ [] ↔
      ∃ column entries, (maskedBy d res).get? column = some entries ∧
        ∃ pair ∈ orderedPairs (entries.map Prod.snd),
          maskOverlap (resourceUnmasked d res) pair.1 pair.2 ≠ [] := by
  simp only [conflictErrors, ne_eq, List.flatMap_eq_nil_iff, Text.mem_sortBy, errorUnless,
    ite_eq_left_iff, reduceCtorEq, imp_false, not_not, not_forall, Prod.forall, Prod.exists,
    OrderedMap.get?_eq_some_iff, exists_prop]

/-- Both grants of a pair mask the column, differently, agree on opting out, and
have a holder in common who is not excused from masking. -/
structure Clash (d : Declaration) (res : Resource) (column : String) (a b : Grant)
    (holder : String) : Prop where
  listed : a ∈ res.grants ∧ b ∈ res.grants
  kinds : ∃ kindA kindB, (column, kindA) ∈ a.masks ∧ (column, kindB) ∈ b.masks ∧ kindA ≠ kindB
  optsOut : a.optsOut = b.optsOut
  holders : holder ∈ grantHolders d a ∧ holder ∈ grantHolders d b
  masked : a.optsOut = false → holder ∉ resourceUnmasked d res

theorem conflictErrors_ne_nil_iff (d : Declaration) (res : Resource) :
    conflictErrors d res ≠ [] ↔ ∃ column a b holder, Clash d res column a b holder := by
  rw [conflictErrors_ne_nil_iff_overlap]
  constructor
  · intro reported
    rcases reported with ⟨column, entries, stored, pair, inPairs, nonempty⟩
    rcases List.exists_mem_of_ne_nil _ nonempty with ⟨holder, inOverlap⟩
    rcases (mem_maskOverlap _ _ _ _).mp inOverlap with
      ⟨kinds, optsOut, holderA, holderB, masked⟩
    have origin := mem_maskedBy d res column
    rw [stored, Option.getD_some] at origin
    rcases (origin pair.1).mp (mem_of_mem_orderedPairs inPairs).1 with
      ⟨a, listedA, kindA, maskA, isA⟩
    rcases (origin pair.2).mp (mem_of_mem_orderedPairs inPairs).2 with
      ⟨b, listedB, kindB, maskB, isB⟩
    rw [isA, isB] at kinds optsOut
    rw [isA] at holderA masked
    rw [isB] at holderB
    exact ⟨column, a, b, holder, ⟨listedA, listedB⟩, ⟨kindA, kindB, maskA, maskB, kinds⟩,
      optsOut, ⟨holderA, holderB⟩, masked⟩
  · intro clash
    rcases clash with ⟨column, a, b, holder, clash⟩
    rcases clash.kinds with ⟨kindA, kindB, maskA, maskB, kinds⟩
    have inA := (mem_maskedBy d res column _).mpr ⟨a, clash.listed.1, kindA, maskA, rfl⟩
    have inB := (mem_maskedBy d res column _).mpr ⟨b, clash.listed.2, kindB, maskB, rfl⟩
    cases stored : (maskedBy d res).get? column with
    | none => simp [stored] at inA
    | some entries =>
        rw [stored, Option.getD_some] at inA inB
        have different : (⟨a, grantHolders d a, kindA⟩ : MaskEntry) ≠
            ⟨b, grantHolders d b, kindB⟩ := by
          intro same
          exact kinds (MaskEntry.mk.inj same).2.2
        -- the pair is compared in the order of the grants, which does not matter here
        rcases mem_orderedPairs_or inA inB different with forwards | backwards
        · refine ⟨column, entries, stored, _, forwards, List.ne_nil_of_mem (a := holder) ?_⟩
          exact (mem_maskOverlap _ _ _ _).mpr
            ⟨kinds, clash.optsOut, clash.holders.1, clash.holders.2, clash.masked⟩
        · refine ⟨column, entries, stored, _, backwards, List.ne_nil_of_mem (a := holder) ?_⟩
          exact (mem_maskOverlap _ _ _ _).mpr ⟨kinds.symm, clash.optsOut.symm,
            clash.holders.2, clash.holders.1, fun normal =>
              clash.masked (clash.optsOut.trans normal)⟩

end BelugaManager.PolicyCompiler
