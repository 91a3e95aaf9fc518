import BelugaManager.DomainApi.LakekeeperCatalog
import Mathlib.Data.List.Induction

/-!
# Paths of catalog requests

The path of a request determines what it asks for, and it stays within the collection it
was built for: it is made up of normal segments, so the client sends it as it is.
-/

namespace BelugaManager.DomainApi

open Foundation Foundation.JsString

theorem not_dots_of_isSafeUpstreamSegment {segment : JsString}
    (safe : isSafeUpstreamSegment segment = true) :
    segment ≠ ofString "." ∧ segment ≠ ofString ".." := by
  simp only [isSafeUpstreamSegment, Bool.and_eq_true, decide_eq_true_eq] at safe
  exact ⟨safe.1.1.2, safe.1.2⟩

theorem separator_notMem_of_isSafeUpstreamSegment {segment : JsString}
    (safe : isSafeUpstreamSegment segment = true) : NS_SEP ∉ segment := by
  intro member
  exact absurd (notMem_of_isSafeUpstreamSegment safe member) (by decide)

theorem noSlash_of_isSafeUpstreamSegment {segment : JsString}
    (safe : isSafeUpstreamSegment segment = true) : ∀ unit ∈ segment, isSlash unit = false := by
  intro unit member
  have clean := notMem_of_isSafeUpstreamSegment safe member
  simp only [isUnsafeUnit, Bool.or_eq_false_iff] at clean
  rw [isSlash, Bool.or_eq_false_iff]
  exact ⟨clean.1.2, clean.2⟩

theorem noSlash_join {ns : List JsString} (safe : ns.all isSafeUpstreamSegment = true) :
    ∀ unit ∈ join NS_SEP ns, isSlash unit = false := by
  rw [List.all_eq_true] at safe
  intro unit member
  rcases mem_join member with isSeparator | ⟨segment, listed, inSegment⟩
  · rw [isSeparator]
    decide
  · exact noSlash_of_isSafeUpstreamSegment (safe segment listed) unit inSegment

/-- The names of safe segments joined by separators are no dot segments either. -/
theorem join_not_dots {ns : List JsString} (safe : ns.all isSafeUpstreamSegment = true) :
    join NS_SEP ns ≠ ofString "." ∧ join NS_SEP ns ≠ ofString ".." := by
  rw [List.all_eq_true] at safe
  cases ns with
  | nil => exact ⟨by decide, by decide⟩
  | cons first rest =>
      cases rest with
      | nil =>
          rw [join_singleton]
          exact not_dots_of_isSafeUpstreamSegment (safe first List.mem_cons_self)
      | cons second rest =>
          have member : NS_SEP ∈ join NS_SEP (first :: second :: rest) := by
            rw [join_cons_cons]
            exact List.mem_append_right first List.mem_cons_self
          constructor
          · intro same
            rw [same] at member
            exact absurd member (by decide)
          · intro same
            rw [same] at member
            exact absurd member (by decide)

theorem join_safe_injective {ns others : List JsString} (safe : ns.all isSafeUpstreamSegment = true)
    (otherSafe : others.all isSafeUpstreamSegment = true)
    (same : join NS_SEP ns = join NS_SEP others) : ns = others := by
  have filled : ∀ {list : List JsString}, list.all isSafeUpstreamSegment = true → list ≠ [] →
      join NS_SEP list ≠ [] := by
    intro list allSafe nonempty
    rw [List.all_eq_true] at allSafe
    cases list with
    | nil => exact absurd rfl nonempty
    | cons first rest =>
        have firstSome := nonempty_of_isSafeUpstreamSegment (allSafe first List.mem_cons_self)
        cases rest with
        | nil => rwa [join_singleton]
        | cons second rest =>
            rw [join_cons_cons]
            exact List.append_ne_nil_of_left_ne_nil firstSome _
  have free : ∀ {list : List JsString}, list.all isSafeUpstreamSegment = true →
      ∀ segment ∈ list, NS_SEP ∉ segment := by
    intro list allSafe segment listed
    rw [List.all_eq_true] at allSafe
    exact separator_notMem_of_isSafeUpstreamSegment (allSafe segment listed)
  by_cases empty : ns = []
  · by_contra differs
    have otherSome : others ≠ [] := fun none => differs (by rw [empty, none])
    rw [empty] at same
    exact filled otherSafe otherSome same.symm
  · have otherSome : others ≠ [] := by
      intro none
      rw [none] at same
      exact filled safe empty same
    exact (join_inj empty otherSome (free safe) (free otherSafe)).mp same

theorem pathComponent_eq_ok_iff {s encoded : JsString} :
    pathComponent s = .ok encoded ↔ encodeURIComponent s = some encoded := by
  rw [pathComponent]
  cases encodeURIComponent s <;> simp

theorem nsPath_eq_ok_iff {ns : List JsString} {path : JsString} :
    nsPath ns = .ok path ↔ ns.all isSafeUpstreamSegment = true ∧
      encodeURIComponent (join NS_SEP ns) = some path := by
  rw [nsPath]
  cases safe : ns.all isSafeUpstreamSegment <;> simp [pathComponent_eq_ok_iff]

theorem tablePath_eq_ok_iff {name path : JsString} :
    tablePath name = .ok path ↔ isSafeUpstreamSegment name = true ∧
      encodeURIComponent name = some path := by
  rw [tablePath]
  cases safe : isSafeUpstreamSegment name <;> simp [pathComponent_eq_ok_iff]

theorem normalSegment_of_nsPath {ns : List JsString} {path : JsString}
    (found : nsPath ns = .ok path) : NormalSegment path := by
  rcases nsPath_eq_ok_iff.mp found with ⟨safe, encodes⟩
  exact normalSegment_of_encodes encodes (join_not_dots safe).1 (join_not_dots safe).2

theorem normalSegment_of_tablePath {name path : JsString} (found : tablePath name = .ok path) :
    NormalSegment path := by
  rcases tablePath_eq_ok_iff.mp found with ⟨safe, encodes⟩
  have notDots := not_dots_of_isSafeUpstreamSegment safe
  exact normalSegment_of_encodes encodes notDots.1 notDots.2

theorem noEscapedSlash_of_nsPath {ns : List JsString} {path : JsString}
    (found : nsPath ns = .ok path) : NoEscapedSlash path := by
  rcases nsPath_eq_ok_iff.mp found with ⟨safe, encodes⟩
  exact noEscapedSlash_of_encodes encodes (noSlash_join safe)

theorem noEscapedSlash_of_tablePath {name path : JsString} (found : tablePath name = .ok path) :
    NoEscapedSlash path := by
  rcases tablePath_eq_ok_iff.mp found with ⟨safe, encodes⟩
  exact noEscapedSlash_of_encodes encodes (noSlash_of_isSafeUpstreamSegment safe)

theorem nsPath_injective {ns others : List JsString} {path : JsString}
    (found : nsPath ns = .ok path) (otherFound : nsPath others = .ok path) : ns = others := by
  rcases nsPath_eq_ok_iff.mp found with ⟨safe, encodes⟩
  rcases nsPath_eq_ok_iff.mp otherFound with ⟨otherSafe, otherEncodes⟩
  exact join_safe_injective safe otherSafe (encodeURIComponent_injective encodes otherEncodes)

theorem tablePath_injective {name other path : JsString} (found : tablePath name = .ok path)
    (otherFound : tablePath other = .ok path) : name = other :=
  encodeURIComponent_injective (tablePath_eq_ok_iff.mp found).2
    (tablePath_eq_ok_iff.mp otherFound).2

/-! ## Segments -/

/-- The segments of the path of an object. -/
inductive UpstreamObject.Within : UpstreamObject → List JsString → Prop where
  | schema {ns : List JsString} {inPath : JsString} :
      nsPath ns = .ok inPath → Within (.schema ns) [inPath]
  | tables {ns : List JsString} {inPath : JsString} :
      nsPath ns = .ok inPath → Within (.tables ns) [inPath, ofString "tables"]
  | table {ns : List JsString} {name inPath tableInPath : JsString} :
      nsPath ns = .ok inPath → tablePath name = .ok tableInPath →
        Within (.table ns name) [inPath, ofString "tables", tableInPath]

namespace UpstreamObject

theorem exists_within {object : UpstreamObject} {path : JsString} (found : object.path = .ok path) :
    ∃ within, object.Within within ∧ slashUnit :: path = pathname within := by
  cases object with
  | schema ns => exact ⟨[path], .schema found, by simp [pathname]⟩
  | tables ns =>
      rw [UpstreamObject.path] at found
      cases inPath : nsPath ns with
      | error failure =>
          rw [inPath] at found
          cases found
      | ok start =>
          rw [inPath] at found
          cases found
          refine ⟨_, .tables inPath, ?_⟩
          have spelled : ofString "/tables" = slashUnit :: ofString "tables" := by decide
          simp [pathname, spelled]
  | table ns name =>
      rw [UpstreamObject.path] at found
      cases inPath : nsPath ns with
      | error failure =>
          rw [inPath] at found
          cases found
      | ok start =>
          cases tableInPath : tablePath name with
          | error failure =>
              rw [inPath, tableInPath] at found
              cases found
          | ok last =>
              rw [inPath, tableInPath] at found
              cases found
              refine ⟨_, .table inPath tableInPath, ?_⟩
              have spelled :
                ofString "/tables/" = slashUnit :: (ofString "tables" ++ [slashUnit]) := by
                decide
              simp [pathname, spelled]

theorem Within.normal {object : UpstreamObject} {within : List JsString}
    (found : object.Within within) : ∀ segment ∈ within, NormalSegment segment := by
  have tablesNormal : NormalSegment (ofString "tables") :=
    normalSegment_of_all (by decide) (by decide) (by decide)
  cases found with
  | schema inPath => simp [normalSegment_of_nsPath inPath]
  | tables inPath => simp [normalSegment_of_nsPath inPath, tablesNormal]
  | table inPath tableInPath =>
      simp [normalSegment_of_nsPath inPath, tablesNormal, normalSegment_of_tablePath tableInPath]

theorem Within.noEscapedSlash {object : UpstreamObject} {within : List JsString}
    (found : object.Within within) : ∀ segment ∈ within, NoEscapedSlash segment := by
  have tablesPlain : NoEscapedSlash (ofString "tables") := by
    unfold NoEscapedSlash
    decide
  cases found with
  | schema inPath => simp [noEscapedSlash_of_nsPath inPath]
  | tables inPath => simp [noEscapedSlash_of_nsPath inPath, tablesPlain]
  | table inPath tableInPath =>
      simp [noEscapedSlash_of_nsPath inPath, tablesPlain, noEscapedSlash_of_tablePath tableInPath]

/-- The segments determine the object. -/
theorem Within.injective {object other : UpstreamObject} {within : List JsString}
    (found : object.Within within) (otherFound : other.Within within) : object = other := by
  cases found with
  | schema inPath =>
      cases otherFound with
      | schema otherInPath => rw [nsPath_injective inPath otherInPath]
  | tables inPath =>
      cases otherFound with
      | tables otherInPath => rw [nsPath_injective inPath otherInPath]
  | table inPath tableInPath =>
      cases otherFound with
      | table otherInPath otherTableInPath =>
          rw [nsPath_injective inPath otherInPath, tablePath_injective tableInPath otherTableInPath]

/-- The number of segments that an object has below the namespaces. -/
def depth : UpstreamObject → Nat
  | .schema _ => 1
  | .tables _ => 2
  | .table _ _ => 3

theorem Within.length_eq {object : UpstreamObject} {within : List JsString}
    (found : object.Within within) : within.length = object.depth := by
  cases found <;> rfl

end UpstreamObject

/-! ## The collection -/

/-- A unit of a prefix stays as it is, and only a dot after the first looks like one. -/
theorem isPrefixStart_facts {unit : UInt16} (isUnit : (isPrefixStart unit || unit = dot) = true) :
    isPathUnit unit = true ∧ lowerUnit unit ≠ ofChar '%' ∧
      (isPrefixStart unit = true → lowerUnit unit ≠ dot) := by
  have small : unit.toNat < 128 := by
    by_contra big
    have plain : ∀ other ∈ ofString "_-~", other.toNat < 128 := Text.forall_mem_of_all (by decide)
    have notPlain : unit ∉ ofString "_-~" := fun listed => big (plain unit listed)
    have notDot : unit ≠ dot := by
      intro same
      rw [same] at big
      exact absurd big (by decide)
    simp only [isPrefixStart, Bool.or_eq_true, decide_eq_true_eq, List.contains_iff_mem, notPlain,
      notDot, or_false] at isUnit
    omega
  have decided : ∀ n < 128, (isPrefixStart (UInt16.ofNat n) || UInt16.ofNat n = dot) = true →
      isPathUnit (UInt16.ofNat n) = true ∧ lowerUnit (UInt16.ofNat n) ≠ ofChar '%' ∧
        (isPrefixStart (UInt16.ofNat n) = true → lowerUnit (UInt16.ofNat n) ≠ dot) := by
    decide +kernel
  have found := decided unit.toNat small
  rw [UInt16.ofNat_toNat] at found
  exact found isUnit

theorem normalSegment_of_isSafePrefix {raw : JsString} (safe : isSafePrefix raw = true) :
    NormalSegment raw := by
  cases raw with
  | nil => exact absurd safe (by decide)
  | cons unit rest =>
      rw [isSafePrefix, Bool.and_eq_true, List.all_eq_true] at safe
      have start := isPrefixStart_facts (by rw [safe.1]; rfl)
      have notDot := start.2.2 safe.1
      constructor
      · intro other member
        rcases List.mem_cons.mp member with rfl | later
        · exact start.1
        · exact (isPrefixStart_facts (safe.2 other later)).1
      · have heads : ∀ spelled ∈ [ofString ".", ofString "%2e"],
            spelled.head? = some dot ∨ spelled.head? = some (ofChar '%') := by decide
        rw [isSingleDot, ← Bool.not_eq_true, any_eq_true_iff_mem]
        intro listed
        have head := heads _ listed
        simp [notDot, start.2.1] at head
      · have heads :
          ∀ spelled ∈ [ofString "..", ofString ".%2e", ofString "%2e.", ofString "%2e%2e"],
            spelled.head? = some dot ∨ spelled.head? = some (ofChar '%') := by decide
        rw [isDoubleDot, ← Bool.not_eq_true, any_eq_true_iff_mem]
        intro listed
        have head := heads _ listed
        simp [notDot, start.2.1] at head

theorem exists_prefixSegment {raw start : JsString} (accepted : prefixSegment raw = .ok start) :
    ∃ segments, start = pathname segments ∧ ∀ segment ∈ segments, NormalSegment segment := by
  rw [prefixSegment] at accepted
  split_ifs at accepted with refused empty
  · cases accepted
    exact ⟨[], rfl, List.forall_mem_nil _⟩
  · cases accepted
    refine ⟨[raw], by simp [pathname], ?_⟩
    rw [List.forall_mem_singleton]
    apply normalSegment_of_isSafePrefix
    simp only [Bool.and_eq_true, Bool.or_eq_true, not_and, not_or] at refused
    simpa using (refused (by simp [empty])).1.1

/-- Slashes at the end of a path belong to empty segments. -/
theorem exists_stripSlashes {path : List JsString}
    (normal : ∀ segment ∈ path, NormalSegment segment) :
    ∃ kept, stripSlashes (pathname path) = pathname kept ∧
      ∀ segment ∈ kept, NormalSegment segment := by
  induction path using List.reverseRecOn with
  | nil => exact ⟨[], rfl, List.forall_mem_nil _⟩
  | append_singleton path last ih =>
      rcases ih fun segment listed => normal segment (List.mem_append_left [last] listed) with
        ⟨kept, stripped, keptNormal⟩
      have lastNormal := normal last (List.mem_append_right path List.mem_cons_self)
      cases spelled : last.reverse with
      | nil =>
          refine ⟨kept, ?_, keptNormal⟩
          rw [List.reverse_eq_nil_iff.mp spelled, pathname_append, ← stripped]
          simp [stripSlashes, pathname]
      | cons unit rest =>
          refine ⟨path ++ [last], ?_, normal⟩
          have isLast : last = rest.reverse ++ [unit] := by
            rw [← List.reverse_reverse last, spelled, List.reverse_cons]
          have notSlash : unit ≠ slashUnit := by
            intro same
            have isUnit := lastNormal.units unit (by simp [isLast])
            rw [same] at isUnit
            exact absurd isUnit (by decide)
          rw [pathname_append, isLast]
          simp [stripSlashes, pathname, notSlash]

/-- The segments of the path that a client adds to. -/
theorem exists_basePath (client : UpstreamClient) :
    ∃ kept, stripSlashes (setPathname client.base) = pathname kept ∧
      ∀ segment ∈ kept, NormalSegment segment := by
  rcases exists_setPathname client.base with ⟨path, _, normal, spelled⟩
  rw [spelled]
  exact exists_stripSlashes normal

/-- A path made up of normal segments is sent as it is. -/
theorem setPathname_expectedPath (client : UpstreamClient) {path : JsString}
    {segments : List JsString} (spelled : path = pathname segments) (nonempty : segments ≠ [])
    (normal : ∀ segment ∈ segments, NormalSegment segment) :
    setPathname (client.expectedPath path) = client.expectedPath path := by
  rcases exists_basePath client with ⟨kept, base, keptNormal⟩
  rw [UpstreamClient.expectedPath, base, spelled, ← pathname_append]
  apply setPathname_pathname
  · simp [nonempty]
  · intro segment listed
    rcases List.mem_append.mp listed with inBase | inPath
    · exact keptNormal segment inBase
    · exact normal segment inPath

theorem exists_namespacesPath {raw start : JsString} (accepted : prefixSegment raw = .ok start) :
    ∃ segments, namespacesPath start = pathname segments ∧ segments ≠ [] ∧
      ∀ segment ∈ segments, NormalSegment segment := by
  rcases exists_prefixSegment accepted with ⟨middle, rfl, normal⟩
  have version : NormalSegment (ofString "v1") :=
    normalSegment_of_all (by decide) (by decide) (by decide)
  have collection : NormalSegment (ofString "namespaces") :=
    normalSegment_of_all (by decide) (by decide) (by decide)
  have fixed : ∀ segment ∈ [ofString "v1", ofString "namespaces"], NormalSegment segment := by
    simp [version, collection]
  refine ⟨ofString "v1" :: (middle ++ [ofString "namespaces"]), ?_, by simp, ?_⟩
  · have first : ofString "/v1" = slashUnit :: ofString "v1" := by decide
    have last : ofString "/namespaces" = slashUnit :: ofString "namespaces" := by decide
    simp [namespacesPath, pathname, first, last]
  · intro segment listed
    rcases List.mem_cons.mp listed with rfl | others
    · exact fixed _ List.mem_cons_self
    · rcases List.mem_append.mp others with inMiddle | isLast
      · exact normal segment inMiddle
      · exact fixed segment (List.mem_cons_of_mem _ isLast)

/-! ## Confinement -/

/-- The segments of a path are those between its slashes. -/
theorem pathname_injective {left right : List JsString}
    (leftNormal : ∀ segment ∈ left, NormalSegment segment)
    (rightNormal : ∀ segment ∈ right, NormalSegment segment)
    (same : pathname left = pathname right) : left = right := by
  have clean : ∀ {segments : List JsString}, (∀ segment ∈ segments, NormalSegment segment) →
      ∀ segment ∈ segments, ∀ unit ∈ segment, isSlash unit = false := by
    intro segments normal segment listed unit member
    exact not_isSlash_of_pathUnit ((normal segment listed).units unit member)
  cases left with
  | nil =>
      cases right with
      | nil => rfl
      | cons other others => simp [pathname] at same
  | cons first rest =>
      cases right with
      | nil => simp [pathname] at same
      | cons other others =>
          rw [← splitOnP_pathname (clean leftNormal), same, splitOnP_pathname (clean rightNormal)]

/-- What the path of a sent request is made of: it starts with the segments of the
collection, has as many more as the object is deep, which spell no slash either, and is left
as it is. -/
structure Confined (client : UpstreamClient) (start path : JsString) (depth : Nat) : Prop where
  unchanged : setPathname (client.expectedPath (objectPath start path)) =
    client.expectedPath (objectPath start path)
  segments : ∃ collection within,
    client.expectedPath (namespacesPath start) = pathname collection ∧
      slashUnit :: path = pathname within ∧ within.length = depth ∧
      client.expectedPath (objectPath start path) = pathname (collection ++ within) ∧
      (∀ segment ∈ collection ++ within, NormalSegment segment) ∧
      ∀ segment ∈ within, NoEscapedSlash segment

/-- Objects with the same path are the same, and paths of objects stay in their collection. -/
theorem upstream_paths_confined (client : UpstreamClient) (object other : UpstreamObject)
    {raw start path otherPath : JsString} (accepted : prefixSegment raw = .ok start)
    (found : object.path = .ok path) (otherFound : other.path = .ok otherPath) :
    (client.expectedPath (objectPath start path) =
      client.expectedPath (objectPath start otherPath) →
      object = other) ∧
    Confined client start path object.depth := by
  rcases UpstreamObject.exists_within found with ⟨within, isWithin, spelled⟩
  rcases UpstreamObject.exists_within otherFound with ⟨otherWithin, isOtherWithin, otherSpelled⟩
  rcases exists_namespacesPath accepted with ⟨middle, collection, nonempty, middleNormal⟩
  rcases exists_basePath client with ⟨base, isBase, baseNormal⟩
  have whole : objectPath start path = pathname (middle ++ within) := by
    rw [objectPath, collection, spelled, pathname_append]
  have wholeNormal : ∀ segment ∈ middle ++ within, NormalSegment segment := by
    intro segment listed
    rcases List.mem_append.mp listed with inMiddle | inWithin
    · exact middleNormal segment inMiddle
    · exact isWithin.normal segment inWithin
  constructor
  · intro same
    have samePath : slashUnit :: path = slashUnit :: otherPath :=
      List.append_cancel_left (List.append_cancel_left same)
    rw [spelled, otherSpelled] at samePath
    rw [pathname_injective isWithin.normal isOtherWithin.normal samePath] at isWithin
    exact isWithin.injective isOtherWithin
  · constructor
    · exact setPathname_expectedPath client whole (by simp [nonempty]) wholeNormal
    · refine ⟨base ++ middle, within, ?_, spelled, isWithin.length_eq, ?_, ?_,
        isWithin.noEscapedSlash⟩
      · rw [UpstreamClient.expectedPath, isBase, collection, pathname_append]
      · rw [UpstreamClient.expectedPath, isBase, whole, pathname_append, pathname_append,
          pathname_append, List.append_assoc]
      · intro segment listed
        rw [List.append_assoc] at listed
        rcases List.mem_append.mp listed with inBase | inWhole
        · exact baseNormal segment inBase
        · exact wholeNormal segment inWhole

/-- A namespace that looks like an escape stays one segment, next to one called `a`. -/
theorem upstream_paths_confined_escapes :
    let client : UpstreamClient := ⟨ofString "/catalog/", fun _ _ => .error .unreachable⟩
    (client.expectedPath (objectPath (ofString "/wh") (ofString "%252e%252e%1Fa")) ≠
        client.expectedPath (objectPath (ofString "/wh") (ofString "%252e%252e.a"))) ∧
      Confined client (ofString "/wh") (ofString "%252e%252e%1Fa") 1 := by
  intro client
  have confined := @upstream_paths_confined client (.schema [ofString "%2e%2e", ofString "a"])
    (.schema [ofString "%2e%2e.a"]) (ofString "wh") (ofString "/wh")
    (ofString "%252e%252e%1Fa") (ofString "%252e%252e.a") (by decide) (by decide) (by decide)
  exact ⟨fun same => absurd (confined.1 same) (by decide), confined.2⟩

end BelugaManager.DomainApi
