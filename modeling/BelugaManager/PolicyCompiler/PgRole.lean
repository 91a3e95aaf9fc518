import BelugaManager.Foundation.Text

/-!
# Names

The string comparison of `compare.ts` and the PostgreSQL names of `pgrole.ts`.
-/

namespace BelugaManager.PolicyCompiler

open Foundation

/-- Locale-independent comparison of strings. -/
def cmp (a b : String) : Int := Text.compareUnits a b

/-- The PostgreSQL role for a declared role: hyphens become underscores, and the
name is folded to lower case as PostgreSQL folds unquoted identifiers.  Only ASCII
letters are folded; a valid role name has no others. -/
def toPgRole (name : String) : String :=
  Text.lowerAscii (Text.replaceChar '-' '_' name)

/-- A login name as a quoted PostgreSQL identifier, hyphens kept. -/
def toPgLoginIdentifier (name : String) : String := "\"" ++ name ++ "\""

example : toPgRole "Team-A" = "team_a" := by decide

end BelugaManager.PolicyCompiler
