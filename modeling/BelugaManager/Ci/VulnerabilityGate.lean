import BelugaManager.Foundation.Json

/-!
# The vulnerability gate

`scripts/ci/check-dependency-vulnerabilities.mjs`: the reviewed exceptions are read, and a
report of `npm audit` is evaluated against them.  What the runtime supplies, the lower case
of strings and the reading of dates, is a parameter.
-/

namespace BelugaManager.Ci

open Foundation

/-- `String.prototype.toLowerCase`, `new Date(text).getTime()` and the texts of numbers. -/
structure Runtime where
  toLowerCase : JsString → JsString
  toLowerCase_nil : toLowerCase [] = []
  toLowerCase_idempotent : ∀ s, toLowerCase (toLowerCase s) = toLowerCase s
  parseDate : JsString → Option ℤ
  rounding : Rounding

/-- A string with more than white space in it. -/
abbrev NonBlank := { s : JsString // JsString.trim s ≠ [] }

/-- A reviewed exception, as it is after validation. -/
structure AuditException (runtime : Runtime) where
  advisoryId : NonBlank
  package : NonBlank
  reason : NonBlank
  reviewedBy : NonBlank
  expiresAt : JsString
  expires : ℤ
  dated : runtime.parseDate expiresAt = some expires

/-- `!v || typeof v !== 'string' || !v.trim()` fails. -/
def nonBlank : Option Json → Option NonBlank
  | some (.string s) => if given : JsString.trim s ≠ [] then some ⟨s, given⟩ else none
  | _ => none

/-- A string that is read as a date. -/
def dated (runtime : Runtime) :
    Option Json → Option { date : JsString × ℤ // runtime.parseDate date.1 = some date.2 }
  | some (.string s) =>
      if s = [] then none
      else
        match read : runtime.parseDate s with
        | some time => some ⟨(s, time), read⟩
        | none => none
  | _ => none

/-- `exception at index <idx> <complaint>` -/
def exceptionError (idx : ℕ) (complaint : JsString) : JsString :=
  JsString.ofString "exception at index " ++ JsString.ofString (toString idx) ++
    JsString.ofString " " ++ complaint

def missing (field : String) : JsString := JsString.ofString ("missing non-empty '" ++ field ++ "'")

def readException (runtime : Runtime) (idx : ℕ) (entry : Json) :
    Except JsString (AuditException runtime) := do
  if entry.isObject = false then
    throw (JsString.ofString "exception entry at index " ++ JsString.ofString (toString idx) ++
      JsString.ofString " must be an object")
  let some advisoryId := nonBlank (entry.member "advisoryId")
    | throw (exceptionError idx (missing "advisoryId"))
  let some package := nonBlank (entry.member "package")
    | throw (exceptionError idx (missing "package"))
  let some reason := nonBlank (entry.member "reason")
    | throw (exceptionError idx (missing "reason"))
  let some reviewedBy := nonBlank (entry.member "reviewedBy")
    | throw (exceptionError idx (missing "reviewedBy"))
  let some date := dated runtime (entry.member "expiresAt")
    | throw (exceptionError idx (JsString.ofString "for " ++ package.1 ++
        JsString.ofString " missing valid 'expiresAt' date string (e.g. YYYY-MM-DD)"))
  return ⟨advisoryId, package, reason, reviewedBy, date.1.1, date.1.2, date.2⟩

def readExceptions (runtime : Runtime) : ℕ → List Json →
    Except JsString (List (AuditException runtime))
  | _, [] => .ok []
  | idx, entry :: rest => do
      let first ← readException runtime idx entry
      let others ← readExceptions runtime (idx + 1) rest
      return first :: others

/-- `loadExceptions` on what the file contains. -/
def loadExceptions (runtime : Runtime) : Json → Except JsString (List (AuditException runtime))
  | .array items => readExceptions runtime 0 items
  | _ => .error (JsString.ofString "vulnerability exceptions file must contain a JSON array")

/-- A letter, a digit or a hyphen, in either case. -/
def isAdvisoryUnit (unit : UInt16) : Bool :=
  let lower := (JsString.lowerUnit unit).toNat
  (97 ≤ lower && lower ≤ 122) || (48 ≤ lower && lower ≤ 57) || unit = JsString.ofChar '-'

/-- The first match of `/GHSA-[a-z0-9-]+/i`. -/
def matchAdvisory : JsString → Option JsString
  | [] => none
  | unit :: rest =>
      let s := unit :: rest
      let after := (s.drop 5).takeWhile isAdvisoryUnit
      if (s.take 5).map JsString.lowerUnit = JsString.ofString "ghsa-" ∧ after ≠ [] then
        some (s.take 5 ++ after)
      else matchAdvisory rest

structure Finding where
  package : JsString
  severity : JsString
  title : Json
  url : Json
  advisoryIds : List JsString
  range : Json

/-- Why a finding fails although it has an exception. -/
structure UnsuppressedFinding where
  finding : Finding
  failureReason : Option JsString

structure Evaluation (runtime : Runtime) where
  ok : Bool
  prodDepsCount : Json
  vulnCounts : Json
  unsuppressedFindings : List UnsuppressedFinding
  suppressedFindings : List (Finding × AuditException runtime)
  expiredExceptions : List (AuditException runtime × JsString)

section Evaluate

variable (runtime : Runtime)

/-- The text of an id that is a string or a number. -/
def idText : Option Json → Option JsString
  | some (.string s) => some s
  | some (.number value) => some (value.toText runtime.rounding)
  | _ => none

/-- The text of a source, if there is one; it may throw. -/
def sourceTexts : Option Json → Option (List JsString)
  | none => some []
  | some .null => some []
  | some source => (source.toText runtime.rounding).map ([·])

def extractAdvisoryIds (viaItem : Json) : Option (List JsString) :=
  if viaItem.isObject = false then some []
  else
    let fromUrl :=
      match viaItem.member "url" with
      | some (.string url) => (matchAdvisory url).toList
      | _ => []
    (sourceTexts runtime (viaItem.member "source")).map fun fromSource =>
      fromUrl ++ fromSource ++ (idText runtime (viaItem.member "id")).toList

/-- `v.toLowerCase()`, which only strings have. -/
def lowered : Json → Option JsString
  | .string s => some (runtime.toLowerCase s)
  | _ => none

/-- The advisory of a package. -/
def advisoryFinding (pkgName : JsString) (vuln : Json) (severity : JsString) (adv : Json) :
    Option Finding := do
  let advIds ← extractAdvisoryIds runtime adv
  let own ← lowered runtime (Json.orElse (adv.member "severity") (.string severity))
  return {
    package := pkgName
    severity := own
    title := Json.orElse (adv.member "title") (Json.orElse (vuln.member "name") (.string pkgName))
    url := Json.orElse (adv.member "url") (.string [])
    advisoryIds := advIds
    range := Json.orElse (adv.member "range") (Json.orElse (vuln.member "range") (.string [])) }

/-- `vuln.via` if it is an array. -/
def viasOf (vuln : Json) : List Json :=
  match vuln.member "via" with
  | some (.array vias) => vias
  | _ => []

/-- An item as `join` writes it; it is not asked of an item that is an object. -/
def chainItem : Json → JsString
  | .null => []
  | item => (item.toText runtime.rounding).getD []

/-- The title of a package without advisories. -/
def chainTitle (vias : List Json) : JsString :=
  JsString.ofString "Vulnerable dependency in chain (" ++
    (JsString.ofString ", ").intercalate (vias.map (chainItem runtime)) ++ JsString.ofString ")"

/-- The findings of one package. -/
def findingsForPkg (pkgName : JsString) (vuln : Json) : Option (List Finding) :=
  match vuln with
  | .null => none
  | vuln => do
      let severity ← lowered runtime (Json.orElse (vuln.member "severity") (.string []))
      let advisoryObjects := (viasOf vuln).filter Json.isObject
      if !advisoryObjects.isEmpty then
        advisoryObjects.mapM (advisoryFinding runtime pkgName vuln severity)
      else
        return [{
          package := pkgName
          severity := severity
          title := .string (chainTitle runtime (viasOf vuln))
          url := .string []
          advisoryIds := []
          range := Json.orElse (vuln.member "range") (.string []) }]

def isHighOrCritical (severity : JsString) : Bool :=
  severity = JsString.ofString "high" || severity = JsString.ofString "critical"

variable {runtime} in
/-- An exception for the package that names all its advisories or one of these ids. -/
def AuditException.isFor (exc : AuditException runtime) (package : JsString)
    (advisoryIds : List JsString) : Bool :=
  exc.package.1 = package && (exc.advisoryId.1 = JsString.ofString "*" ||
    advisoryIds.any fun id => runtime.toLowerCase id = runtime.toLowerCase exc.advisoryId.1)

variable {runtime} in
def AuditException.hasExpired (exc : AuditException runtime) (now : ℤ) : Bool := exc.expires ≤ now

/-- The first exception for a finding. -/
def matchedException (exceptions : List (AuditException runtime)) (finding : Finding) :
    Option (AuditException runtime) :=
  exceptions.find? (·.isFor finding.package finding.advisoryIds)

def failing (exceptions : List (AuditException runtime)) (now : ℤ) (finding : Finding) :
    Option UnsuppressedFinding :=
  match matchedException runtime exceptions finding with
  | some exc =>
      if exc.hasExpired now then
        some ⟨finding, some (JsString.ofString "Exception EXPIRED on " ++ exc.expiresAt)⟩
      else none
  | none => some ⟨finding, none⟩

def suppressed (exceptions : List (AuditException runtime)) (now : ℤ) (finding : Finding) :
    Option (Finding × AuditException runtime) :=
  match matchedException runtime exceptions finding with
  | some exc => if exc.hasExpired now then none else some (finding, exc)
  | none => none

variable {runtime} in
def AuditException.expiryReason (exc : AuditException runtime) : JsString :=
  JsString.ofString "Policy exception for " ++ exc.package.1 ++ JsString.ofString " (" ++
    exc.advisoryId.1 ++ JsString.ofString ") EXPIRED on " ++ exc.expiresAt

/-- Counts of a report that has none. -/
def noCounts : Json :=
  .object (["info", "low", "moderate", "high", "critical", "total"].map fun name =>
    (JsString.ofString name, .number (.ofNat 0)))

def prodDepsCount (meta_ : Json) : Json :=
  match (meta_.member "dependencies").bind (Json.member "prod") with
  | none => .string (JsString.ofString "unknown")
  | some .null => .string (JsString.ofString "unknown")
  | some count => count

/-- The packages that are gone through. -/
def listedPackages (report : List (JsString × Json)) : List (JsString × Json) :=
  (Json.orElse ((Json.object report).member "vulnerabilities") (.object [])).entries

/-- `evaluateAudit` on a report that is an object; it may throw. -/
def evaluateAudit (report : List (JsString × Json)) (exceptions : List (AuditException runtime))
    (now : ℤ) : Option (Evaluation runtime) := do
  let meta_ := Json.orElse ((Json.object report).member "metadata") (.object [])
  let expired := exceptions.filter (·.hasExpired now)
  let findings ← (listedPackages report).mapM fun listed =>
    findingsForPkg runtime listed.1 listed.2
  let severe := findings.flatten.filter fun finding => isHighOrCritical finding.severity
  let unsuppressed := severe.filterMap (failing runtime exceptions now)
  return {
    ok := unsuppressed.isEmpty && expired.isEmpty
    prodDepsCount := prodDepsCount meta_
    vulnCounts := Json.orElse (meta_.member "vulnerabilities") noCounts
    unsuppressedFindings := unsuppressed
    suppressedFindings := severe.filterMap (suppressed runtime exceptions now)
    expiredExceptions := expired.map fun exc => (exc, exc.expiryReason) }

/-- `main` from what the exceptions file and the report contain to the evaluation; it may
throw. -/
def mainEvaluation (file : Json) (report : List (JsString × Json)) (now : ℤ) :
    Option (Evaluation runtime) := do
  let exceptions ← (loadExceptions runtime file).toOption
  evaluateAudit runtime report exceptions now

/-! ## What the gate is for -/

/-- An entry of the exceptions file states an exception in full. -/
structure States (entry : Json) (exc : AuditException runtime) : Prop where
  advisoryId : entry.member "advisoryId" = some (.string exc.advisoryId.1)
  package : entry.member "package" = some (.string exc.package.1)
  reason : entry.member "reason" = some (.string exc.reason.1)
  reviewedBy : entry.member "reviewedBy" = some (.string exc.reviewedBy.1)
  expiresAt : entry.member "expiresAt" = some (.string exc.expiresAt)
  given : exc.expiresAt ≠ []

/-- A string that is stated and not empty, else a fallback. -/
def statedOr (value : Option Json) (fallback : JsString) : JsString :=
  match value with
  | some (.string s) => if s = [] then fallback else s
  | _ => fallback

/-- The severity that a package states. -/
def packageSeverity (vuln : Json) : JsString := statedOr (vuln.member "severity") []

/-- The severity of an advisory: its own, else that of the package. -/
def severityOf (vuln adv : Json) : JsString :=
  statedOr (adv.member "severity") (packageSeverity vuln)

/-- High or critical, in whatever case it is written. -/
def Severe (severity : JsString) : Prop := isHighOrCritical (runtime.toLowerCase severity) = true

/-- Some exception for exactly this package names all its advisories or one of the ids, and
has not expired. -/
def Excepted (exceptions : List (AuditException runtime)) (now : ℤ) (package : JsString)
    (ids : List JsString) : Prop :=
  ∃ exc ∈ exceptions, exc.package.1 = package ∧ now < exc.expires ∧
    (exc.advisoryId.1 = JsString.ofString "*" ∨
      ∃ id ∈ ids, runtime.toLowerCase id = runtime.toLowerCase exc.advisoryId.1)

/-- Every high or critical finding of a listed package is excepted. -/
structure PackageExcepted (exceptions : List (AuditException runtime)) (now : ℤ)
    (package : JsString) (vuln : Json) : Prop where
  advisories : ∀ adv ∈ viasOf vuln, adv.isObject = true → Severe runtime (severityOf vuln adv) →
    ∃ ids, extractAdvisoryIds runtime adv = some ids ∧
      Excepted runtime exceptions now package ids
  chain : (∀ adv ∈ viasOf vuln, adv.isObject = false) → Severe runtime (packageSeverity vuln) →
    Excepted runtime exceptions now package []

/-- What a passed gate stands for. -/
structure GateHolds (report : List (JsString × Json)) (exceptions : List (AuditException runtime))
    (now : ℤ) : Prop where
  map : ∃ packages, (Json.object report).member "vulnerabilities" = some (.object packages) ∧
    ∀ listed ∈ packages, PackageExcepted runtime exceptions now listed.1 listed.2
  unexpired : ∀ exc ∈ exceptions, now < exc.expires

/-- A value that can be put in lower case, or that counts as none. -/
def StringOrFalsy (value : Option Json) : Prop :=
  ∀ found, value = some found → found.isTruthy = true → found.isString = true

/-- A listed package on which the evaluation does not throw. -/
structure Readable (vuln : Json) : Prop where
  notNull : vuln ≠ .null
  severity : StringOrFalsy (vuln.member "severity")
  advisories : ∀ adv ∈ viasOf vuln, adv.isObject = true →
    StringOrFalsy (adv.member "severity") ∧ ∃ ids, extractAdvisoryIds runtime adv = some ids

/-- When a passed gate stands for what it is for: the report has a map of vulnerable packages,
or it is stopped anyway, by an expired exception or by an item of a list in its place. -/
def MapOrStopped (report : List (JsString × Json)) (exceptions : List (AuditException runtime))
    (now : ℤ) : Prop :=
  (∃ packages, (Json.object report).member "vulnerabilities" = some (.object packages)) ∨
  (∃ exc ∈ exceptions, exc.expires ≤ now) ∨
  ∃ items, (Json.object report).member "vulnerabilities" = some (.array items) ∧
    ∃ listed ∈ (Json.array items).entries,
      ¬(Readable runtime listed.2 ∧ PackageExcepted runtime exceptions now listed.1 listed.2)

/-! ## What the exceptions file and the evaluation do -/

variable {runtime}

theorem nonBlank_eq_some_iff (value : Option Json) (found : NonBlank) :
    nonBlank value = some found ↔ value = some (.string found.1) := by
  cases value with
  | none => simp [nonBlank]
  | some value =>
      cases value with
      | string s =>
          rw [nonBlank]
          split
          next => simp [Subtype.ext_iff]
          next blank =>
            have other : s ≠ found.1 := fun same => blank (same ▸ found.2)
            simp [other]
      | _ => simp [nonBlank]

theorem dated_eq_some_iff (value : Option Json)
    (date : { date : JsString × ℤ // runtime.parseDate date.1 = some date.2 }) :
    dated runtime value = some date ↔ value = some (.string date.1.1) ∧ date.1.1 ≠ [] := by
  rcases date with ⟨⟨s, time⟩, read⟩
  cases value with
  | none => simp [dated]
  | some value =>
      cases value with
      | string other =>
          have same : Json.string other = .string s ↔ other = s := by simp
          rw [Option.some.injEq, same, dated]
          split
          next empty =>
            refine iff_of_false (by simp) ?_
            intro stated
            exact stated.2 (stated.1 ▸ empty)
          next given =>
            split
            next found isDate =>
              constructor
              · intro isThis
                cases isThis
                exact ⟨rfl, given⟩
              · intro stated
                cases stated.1
                rw [isDate, Option.some.injEq] at read
                cases read
                rfl
            next noDate =>
              refine iff_of_false (by simp) ?_
              intro stated
              cases stated.1
              exact absurd (noDate.symm.trans read) (by simp)
      | _ => simp [dated]

theorem readException_eq_ok_iff (idx : ℕ) (entry : Json) (exc : AuditException runtime) :
    readException runtime idx entry = .ok exc ↔ States runtime entry exc := by
  constructor
  · intro read
    simp only [readException] at read
    split at read
    next => cases read
    next =>
      split at read
      next advisoryId isAdvisory =>
        split at read
        next package isPackage =>
          split at read
          next reason isReason =>
            split at read
            next reviewedBy isReviewer =>
              split at read
              next date isDate =>
                cases read
                have dateStated := (dated_eq_some_iff _ date).mp isDate
                exact {
                  advisoryId := (nonBlank_eq_some_iff _ _).mp isAdvisory
                  package := (nonBlank_eq_some_iff _ _).mp isPackage
                  reason := (nonBlank_eq_some_iff _ _).mp isReason
                  reviewedBy := (nonBlank_eq_some_iff _ _).mp isReviewer
                  expiresAt := dateStated.1
                  given := dateStated.2 }
              next => cases read
            next => cases read
          next => cases read
        next => cases read
      next => cases read
  · intro states
    have isObject : entry.isObject = true := by
      cases entry with
      | object entries => rfl
      | _ => cases states.advisoryId
    have date := (dated_eq_some_iff _ ⟨(exc.expiresAt, exc.expires), exc.dated⟩).mpr
      ⟨states.expiresAt, states.given⟩
    simp only [readException, isObject, Bool.true_eq_false, if_false, date,
      (nonBlank_eq_some_iff _ _).mpr states.advisoryId,
      (nonBlank_eq_some_iff _ _).mpr states.package, (nonBlank_eq_some_iff _ _).mpr states.reason,
      (nonBlank_eq_some_iff _ _).mpr states.reviewedBy]
    rfl

/-- All entries are read, each into the exception that it states. -/
theorem readExceptions_eq_ok_iff (entries : List Json) (exceptions : List (AuditException runtime))
    (idx : ℕ) : readExceptions runtime idx entries = .ok exceptions ↔
      List.Forall₂ (States runtime) entries exceptions := by
  induction entries generalizing idx exceptions with
  | nil => simp [readExceptions, eq_comm]
  | cons entry rest ih =>
      rw [List.forall₂_cons_left_iff, readExceptions]
      simp only [← ih _ (idx + 1), ← readException_eq_ok_iff idx entry]
      cases readException runtime idx entry with
      | error message => simp [bind, Except.bind]
      | ok first =>
          cases readExceptions runtime (idx + 1) rest with
          | error message => simp [bind, Except.bind]
          | ok others => simp [bind, Except.bind, pure, Except.pure, eq_comm]

/-- A file is loaded exactly if it is a list whose entries all state an exception. -/
theorem loadExceptions_eq_ok_iff (file : Json) (exceptions : List (AuditException runtime)) :
    loadExceptions runtime file = .ok exceptions ↔
      ∃ entries, file = .array entries ∧ List.Forall₂ (States runtime) entries exceptions := by
  cases file with
  | array items => simp [loadExceptions, readExceptions_eq_ok_iff]
  | _ => simp [loadExceptions]

theorem exists_mapM_iff {ι β : Type} {step : ι → Option β} {good : β → Prop} (items : List ι) :
    (∃ results, items.mapM step = some results ∧ ∀ result ∈ results, good result) ↔
      ∀ item ∈ items, ∃ result, step item = some result ∧ good result := by
  induction items with
  | nil => simp [pure]
  | cons item rest ih =>
      rw [List.forall_mem_cons, ← ih, List.mapM_cons]
      cases first : step item with
      | none => simp
      | some found =>
          cases others : rest.mapM step with
          | none => simp
          | some results => simp

theorem lowered_orElse_eq_some_iff (value : Option Json) (fallback lower : JsString) :
    lowered runtime (Json.orElse value (.string fallback)) = some lower ↔
      StringOrFalsy value ∧ runtime.toLowerCase (statedOr value fallback) = lower := by
  have plain : StringOrFalsy none := by
    intro found isFound
    cases isFound
  cases value with
  | none => simp [Json.orElse, lowered, statedOr, plain]
  | some found =>
      have one : StringOrFalsy (some found) ↔
          (found.isTruthy = true → found.isString = true) := by
        constructor
        · intro each
          exact each found rfl
        · intro each other isFound
          cases isFound
          exact each
      rw [one, Json.orElse]
      cases found with
      | string s =>
          by_cases empty : s = []
          · simp [Json.isTruthy, Json.isString, lowered, statedOr, empty]
          · simp [Json.isTruthy, Json.isString, lowered, statedOr, empty]
      | null => simp [Json.isTruthy, lowered, statedOr]
      | boolean value => cases value <;> simp [Json.isTruthy, Json.isString, lowered, statedOr]
      | number value =>
          by_cases truthy : (Json.number value).isTruthy = true
          · simp [truthy, Json.isString, lowered]
          · simp [truthy, lowered, statedOr]
      | array items => simp [Json.isTruthy, Json.isString, lowered]
      | object entries => simp [Json.isTruthy, Json.isString, lowered]

theorem toLowerCase_statedOr (value : Option Json) (fallback : JsString) :
    runtime.toLowerCase (statedOr value (runtime.toLowerCase fallback)) =
      runtime.toLowerCase (statedOr value fallback) := by
  have same := runtime.toLowerCase_idempotent fallback
  cases value with
  | none => exact same
  | some found =>
      cases found with
      | string s =>
          rw [statedOr, statedOr]
          split
          next => exact same
          next => rfl
      | _ => exact same

section Now

variable {exceptions : List (AuditException runtime)} {now : ℤ}

/-- A finding is not passed on as failing. -/
def Handled (exceptions : List (AuditException runtime)) (now : ℤ) (finding : Finding) : Prop :=
  isHighOrCritical finding.severity = true → failing runtime exceptions now finding = none

/-- Where no exception has expired it does not matter which of them is found first. -/
theorem failing_eq_none_iff (unexpired : ∀ exc ∈ exceptions, now < exc.expires)
    (finding : Finding) : failing runtime exceptions now finding = none ↔
      Excepted runtime exceptions now finding.package finding.advisoryIds := by
  have named : ∀ exc : AuditException runtime,
      exc.isFor finding.package finding.advisoryIds = true ↔
        exc.package.1 = finding.package ∧ (exc.advisoryId.1 = JsString.ofString "*" ∨
          ∃ id ∈ finding.advisoryIds,
            runtime.toLowerCase id = runtime.toLowerCase exc.advisoryId.1) := by
    intro exc
    simp [AuditException.isFor]
  rw [failing, matchedException]
  cases found : exceptions.find? (·.isFor finding.package finding.advisoryIds) with
  | none =>
      rw [List.find?_eq_none] at found
      refine iff_of_false (by simp) ?_
      intro excepted
      rcases excepted with ⟨exc, listed, samePackage, _, ids⟩
      exact found exc listed ((named exc).mpr ⟨samePackage, ids⟩)
  | some exc =>
      have listed := List.mem_of_find?_eq_some found
      have chosen := @List.find?_some _ _ exc _ found
      have both := (named exc).mp chosen
      have live := unexpired exc listed
      refine iff_of_true ?_ ⟨exc, listed, both.1, live, both.2⟩
      have notExpired : exc.hasExpired now = false := by
        simpa [AuditException.hasExpired] using live
      simp [notExpired]

theorem advisoryFinding_handled_iff (unexpired : ∀ exc ∈ exceptions, now < exc.expires)
    (pkgName : JsString) (vuln adv : Json) :
    (∃ finding, advisoryFinding runtime pkgName vuln
        (runtime.toLowerCase (packageSeverity vuln)) adv = some finding ∧
          Handled exceptions now finding) ↔
      StringOrFalsy (adv.member "severity") ∧ ∃ ids, extractAdvisoryIds runtime adv = some ids ∧
        (Severe runtime (severityOf vuln adv) → Excepted runtime exceptions now pkgName ids) := by
  rw [advisoryFinding]
  cases extracted : extractAdvisoryIds runtime adv with
  | none => simp
  | some ids =>
      cases severity : lowered runtime (Json.orElse (adv.member "severity")
          (.string (runtime.toLowerCase (packageSeverity vuln)))) with
      | none =>
          have unreadable : ¬StringOrFalsy (adv.member "severity") := by
            intro readable
            have read := (@lowered_orElse_eq_some_iff runtime (adv.member "severity")
              (runtime.toLowerCase (packageSeverity vuln)) _).mpr ⟨readable, rfl⟩
            rw [severity] at read
            cases read
          simp [unreadable]
      | some lower =>
          have read := (lowered_orElse_eq_some_iff _ _ _).mp severity
          rw [toLowerCase_statedOr] at read
          have severe : isHighOrCritical lower = true ↔ Severe runtime (severityOf vuln adv) := by
            rw [← read.2, Severe, severityOf]
          simp only [Option.bind_eq_bind, Option.bind_some, Option.pure_def, Option.some.injEq,
            exists_eq_left', Handled, severe, failing_eq_none_iff unexpired, read.1, true_and]

theorem findingsForPkg_handled_iff (unexpired : ∀ exc ∈ exceptions, now < exc.expires)
    (pkgName : JsString) (vuln : Json) :
    (∃ findings, findingsForPkg runtime pkgName vuln = some findings ∧
        ∀ finding ∈ findings, Handled exceptions now finding) ↔
      Readable runtime vuln ∧ PackageExcepted runtime exceptions now pkgName vuln := by
  by_cases isNull : vuln = .null
  · have unreadable : ¬Readable runtime vuln := fun readable => readable.notNull isNull
    simp [isNull, findingsForPkg, isNull ▸ unreadable]
  have unfolded : findingsForPkg runtime pkgName vuln =
      (lowered runtime (Json.orElse (vuln.member "severity") (.string []))).bind fun severity =>
        if !((viasOf vuln).filter Json.isObject).isEmpty then
          ((viasOf vuln).filter Json.isObject).mapM (advisoryFinding runtime pkgName vuln severity)
        else
          some [{
            package := pkgName
            severity := severity
            title := .string (chainTitle runtime (viasOf vuln))
            url := .string []
            advisoryIds := []
            range := Json.orElse (vuln.member "range") (.string []) }] := by
    cases vuln with
    | null => exact absurd rfl isNull
    | _ => rfl
  rw [unfolded]
  cases severity : lowered runtime (Json.orElse (vuln.member "severity") (.string [])) with
  | none =>
      have unreadable : ¬Readable runtime vuln := by
        intro readable
        have read := (@lowered_orElse_eq_some_iff runtime (vuln.member "severity") []
          _).mpr ⟨readable.severity, rfl⟩
        rw [severity] at read
        cases read
      simp [unreadable]
  | some lower =>
      have read := (lowered_orElse_eq_some_iff _ _ _).mp severity
      have stated : lower = runtime.toLowerCase (packageSeverity vuln) := read.2.symm
      rw [Option.bind_some, stated]
      by_cases some : ((viasOf vuln).filter Json.isObject).isEmpty = true
      · -- No advisory: the package is its own finding.
        have none : ∀ adv ∈ viasOf vuln, adv.isObject = false := by
          rw [List.isEmpty_iff, List.filter_eq_nil_iff] at some
          intro adv listed
          simpa using some adv listed
        rw [some, Bool.not_true, if_neg Bool.false_ne_true]
        simp only [Option.some.injEq, exists_eq_left', List.forall_mem_singleton, Handled,
          failing_eq_none_iff unexpired]
        constructor
        · intro handled
          refine ⟨⟨isNull, read.1, ?_⟩, ?_, ?_⟩
          · intro adv listed isObject
            rw [none adv listed] at isObject
            cases isObject
          · intro adv listed isObject
            rw [none adv listed] at isObject
            cases isObject
          · intro _ severe
            exact handled severe
        · intro both severe
          exact both.2.chain none severe
      · have given : ¬∀ adv ∈ viasOf vuln, adv.isObject = false := by
          intro none
          apply some
          rw [List.isEmpty_iff, List.filter_eq_nil_iff]
          intro adv listed
          simp [none adv listed]
        rw [Bool.not_eq_true] at some
        rw [some, Bool.not_false, if_pos rfl, exists_mapM_iff]
        simp only [advisoryFinding_handled_iff unexpired, List.mem_filter]
        constructor
        · intro each
          refine ⟨⟨isNull, read.1, ?_⟩, ?_, fun none => absurd none given⟩
          · intro adv listed isObject
            rcases each adv ⟨listed, isObject⟩ with ⟨readable, ids, extracted, _⟩
            exact ⟨readable, ids, extracted⟩
          · intro adv listed isObject severe
            rcases each adv ⟨listed, isObject⟩ with ⟨_, ids, extracted, excepted⟩
            exact ⟨ids, extracted, excepted severe⟩
        · intro both adv listed
          rcases both.1.advisories adv listed.1 listed.2 with ⟨readable, ids, extracted⟩
          refine ⟨readable, ids, extracted, ?_⟩
          intro severe
          rcases both.2.advisories adv listed.1 listed.2 severe with ⟨others, same, excepted⟩
          rw [extracted, Option.some.injEq] at same
          rw [same]
          exact excepted

/-- The evaluation passes exactly when nothing has expired and every listed package can be
read and is excepted. -/
theorem evaluateAudit_ok_iff (report : List (JsString × Json)) :
    (∃ evaluation, evaluateAudit runtime report exceptions now = some evaluation ∧
        evaluation.ok = true) ↔
      (∀ exc ∈ exceptions, now < exc.expires) ∧ ∀ listed ∈ listedPackages report,
        Readable runtime listed.2 ∧ PackageExcepted runtime exceptions now listed.1 listed.2 := by
  have passes : (∃ evaluation, evaluateAudit runtime report exceptions now = some evaluation ∧
      evaluation.ok = true) ↔ (∀ exc ∈ exceptions, now < exc.expires) ∧
        ∃ findings, ((listedPackages report).mapM fun listed =>
          findingsForPkg runtime listed.1 listed.2) = some findings ∧
            ∀ each ∈ findings, ∀ finding ∈ each, Handled exceptions now finding := by
    have quiet : (exceptions.filter (·.hasExpired now)).isEmpty = true ↔
        ∀ exc ∈ exceptions, now < exc.expires := by
      simp [List.filter_eq_nil_iff, AuditException.hasExpired]
    rw [evaluateAudit]
    cases found : (listedPackages report).mapM fun listed =>
        findingsForPkg runtime listed.1 listed.2 with
    | none => simp
    | some findings =>
        simp only [Option.bind_eq_bind, Option.bind_some, Option.pure_def, Option.some.injEq,
          exists_eq_left', Bool.and_eq_true, quiet]
        rw [and_comm]
        apply and_congr_right
        intro _
        simp only [List.isEmpty_iff, List.filterMap_eq_nil_iff, List.mem_filter, List.mem_flatten,
          Handled]
        constructor
        · intro all each listed finding member severe
          exact all finding ⟨⟨each, listed, member⟩, severe⟩
        · intro all finding member
          rcases member with ⟨⟨each, listed, member⟩, severe⟩
          exact all each listed finding member severe
  rw [passes]
  apply and_congr_right
  intro unexpired
  rw [exists_mapM_iff]
  simp only [findingsForPkg_handled_iff unexpired]

end Now

/-- From the file on: the gate passes exactly when every entry of the file states an exception,
none of these has expired, and every listed package can be read and is excepted by them. -/
theorem mainEvaluation_ok_iff (file : Json) (report : List (JsString × Json)) (now : ℤ) :
    (∃ evaluation, mainEvaluation runtime file report now = some evaluation ∧
        evaluation.ok = true) ↔
      ∃ entries exceptions, file = .array entries ∧
        List.Forall₂ (States runtime) entries exceptions ∧
        (∀ exc ∈ exceptions, now < exc.expires) ∧ ∀ listed ∈ listedPackages report,
          Readable runtime listed.2 ∧
            PackageExcepted runtime exceptions now listed.1 listed.2 := by
  have loads := @loadExceptions_eq_ok_iff runtime file
  constructor
  · intro passes
    rcases passes with ⟨evaluation, evaluated, ok⟩
    rw [mainEvaluation] at evaluated
    cases loaded : loadExceptions runtime file with
    | error message =>
        rw [loaded] at evaluated
        cases evaluated
    | ok exceptions =>
        rw [loaded] at evaluated
        rcases (loads exceptions).mp loaded with ⟨entries, isList, states⟩
        have passed := (evaluateAudit_ok_iff report).mp ⟨evaluation, evaluated, ok⟩
        exact ⟨entries, exceptions, isList, states, passed⟩
  · intro given
    rcases given with ⟨entries, exceptions, isList, states, passed⟩
    rcases (evaluateAudit_ok_iff report).mpr passed with ⟨evaluation, evaluated, ok⟩
    refine ⟨evaluation, ?_, ok⟩
    rw [mainEvaluation, (loads exceptions).mpr ⟨entries, isList, states⟩]
    exact evaluated

/-! ## When the gate fails closed -/

/-- A unit of a string is no package that could stop the evaluation. -/
theorem passes_string (exceptions : List (AuditException runtime)) (now : ℤ)
    (package s : JsString) :
    Readable runtime (.string s) ∧ PackageExcepted runtime exceptions now package (.string s) := by
  refine ⟨⟨by simp, ?_, ?_⟩, ?_, ?_⟩
  · intro found isFound
    cases isFound
  · intro adv listed
    cases listed
  · intro adv listed
    cases listed
  · intro _ severe
    have empty : packageSeverity (.string s) = [] := rfl
    rw [Severe, empty, runtime.toLowerCase_nil] at severe
    exact absurd severe (by decide)

theorem entries_string_passes (exceptions : List (AuditException runtime)) (now : ℤ)
    (s : JsString) : ∀ listed ∈ (Json.string s).entries,
      Readable runtime listed.2 ∧ PackageExcepted runtime exceptions now listed.1 listed.2 := by
  intro listed member
  rcases List.mem_map.mp member with ⟨unit, _, rfl⟩
  exact passes_string exceptions now _ _

/-- For every report, exception list and time: the gate passes only what it is for exactly
when the report has a map of packages, or is stopped anyway. -/
theorem gateHolds_iff (runtime : Runtime) (report : List (JsString × Json))
    (exceptions : List (AuditException runtime)) (now : ℤ) :
    (∀ evaluation, evaluateAudit runtime report exceptions now = some evaluation →
      evaluation.ok = true → GateHolds runtime report exceptions now) ↔
        MapOrStopped runtime report exceptions now := by
  have passes := @evaluateAudit_ok_iff runtime exceptions now report
  constructor
  · intro sound
    by_contra open_
    rw [MapOrStopped, not_or, not_or] at open_
    have unexpired : ∀ exc ∈ exceptions, now < exc.expires := by
      intro exc listed
      by_contra expired
      exact open_.2.1 ⟨exc, listed, not_lt.mp expired⟩
    have all : ∀ listed ∈ listedPackages report,
        Readable runtime listed.2 ∧ PackageExcepted runtime exceptions now listed.1 listed.2 := by
      intro listed member
      rw [listedPackages] at member
      cases found : (Json.object report).member "vulnerabilities" with
      | none =>
          rw [found] at member
          cases member
      | some value =>
          rw [found, Json.orElse] at member
          split at member
          next =>
            cases value with
            | object packages => exact absurd ⟨packages, found⟩ open_.1
            | array items =>
                by_contra stops
                exact open_.2.2 ⟨items, found, listed, member, stops⟩
            | string s => exact entries_string_passes exceptions now s listed member
            | null => cases member
            | boolean value => cases member
            | number value => cases member
          next => cases member
    rcases passes.mpr ⟨unexpired, all⟩ with ⟨evaluation, evaluated, ok⟩
    rcases (sound evaluation evaluated ok).map with ⟨packages, isMap, _⟩
    exact open_.1 ⟨packages, isMap⟩
  · intro closed evaluation evaluated ok
    have passed := passes.mp ⟨evaluation, evaluated, ok⟩
    refine ⟨?_, passed.1⟩
    rcases closed with isMap | expired | stopped
    · rcases isMap with ⟨packages, isMap⟩
      refine ⟨packages, isMap, ?_⟩
      intro listed member
      have inReport : listed ∈ listedPackages report := by
        rw [listedPackages, isMap]
        exact member
      exact (passed.2 listed inReport).2
    · rcases expired with ⟨exc, listed, expired⟩
      exact absurd (passed.1 exc listed) (not_lt.mpr expired)
    · rcases stopped with ⟨items, isArray, listed, member, stops⟩
      have inReport : listed ∈ listedPackages report := by
        rw [listedPackages, isArray]
        exact member
      exact absurd (passed.2 listed inReport) stops

end Evaluate

theorem lowerUnit_lowerUnit (unit : UInt16) :
    JsString.lowerUnit (JsString.lowerUnit unit) = JsString.lowerUnit unit := by
  by_cases upper : 65 ≤ unit.toNat ∧ unit.toNat ≤ 90
  · have lowered : JsString.lowerUnit unit = unit + 32 := by rw [JsString.lowerUnit, if_pos upper]
    have notUpper : ¬(65 ≤ (unit + 32).toNat ∧ (unit + 32).toNat ≤ 90) := by
      rw [UInt16.toNat_add]
      have number : (32 : UInt16).toNat = 32 := rfl
      omega
    rw [lowered, JsString.lowerUnit, if_neg notUpper]
  · have kept : JsString.lowerUnit unit = unit := by rw [JsString.lowerUnit, if_neg upper]
    rw [kept, kept]

/-- A runtime that knows the case of ASCII letters and no dates. -/
def asciiRuntime : Runtime where
  toLowerCase s := s.map JsString.lowerUnit
  toLowerCase_nil := rfl
  toLowerCase_idempotent s := by
    rw [List.map_map]
    apply List.map_congr_left
    intro unit _
    exact lowerUnit_lowerUnit unit
  parseDate _ := none
  rounding := .lossless

/-- What is printed when the registry cannot be reached. -/
def registryError : List (JsString × Json) :=
  [(JsString.ofString "message", .string (JsString.ofString "request to the registry failed")),
    (JsString.ofString "error", .object [
      (JsString.ofString "summary", .string []), (JsString.ofString "detail", .string [])])]

/-- The error form passes without an exception. -/
theorem registryError_passes :
    (evaluateAudit asciiRuntime registryError [] 0).map Evaluation.ok = some true ∧
      ¬GateHolds asciiRuntime registryError [] 0 ∧
      ¬∀ (runtime : Runtime) (report : List (JsString × Json))
        (exceptions : List (AuditException runtime)) (now : ℤ) evaluation,
          evaluateAudit runtime report exceptions now = some evaluation → evaluation.ok = true →
            GateHolds runtime report exceptions now := by
  have passes : (evaluateAudit asciiRuntime registryError [] 0).map Evaluation.ok = some true := rfl
  have noMap : ¬GateHolds asciiRuntime registryError [] 0 := by
    intro holds
    rcases holds.map with ⟨packages, isMap, _⟩
    have absent : (Json.object registryError).member "vulnerabilities" = none := rfl
    rw [absent] at isMap
    cases isMap
  refine ⟨passes, noMap, ?_⟩
  intro all
  rcases Option.map_eq_some_iff.mp passes with ⟨evaluation, evaluated, ok⟩
  exact noMap (all asciiRuntime registryError [] 0 evaluation evaluated ok)

end BelugaManager.Ci
