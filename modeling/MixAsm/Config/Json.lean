import MixAsm.Config
import MixAsm.Json.Decode

namespace MixAsm.Config

/-!
# Configurations in JSON

A configuration is an object of three truth values, or an array of them; one that is left out
keeps its default.
-/

/-- The configuration as a value. -/
def toJson (cfg : Config) : Json :=
  .record [("case_insensitive", .bool cfg.caseInsensitive),
    ("collapse_spaces", .bool cfg.collapseSpaces),
    ("skip_blank_lines", .bool cfg.skipBlankLines)]

/-- A truth value where it is given, and `default` where it is not. -/
def boolOr? (default : Bool) : Option Json → Option Bool
  | none => some default
  | some v => v.toBool?

/-- The configuration that a value gives. -/
def ofJson? (v : Json) : Option Config := do
  match ← Json.fields? ["case_insensitive", "collapse_spaces", "skip_blank_lines"] v with
  | [caseInsensitive, collapseSpaces, skipBlankLines] =>
    let strict : Config := {}
    return ⟨← boolOr? strict.caseInsensitive caseInsensitive,
      ← boolOr? strict.collapseSpaces collapseSpaces,
      ← boolOr? strict.skipBlankLines skipBlankLines⟩
  | _ => none

/-- The configuration that a document holds. -/
def read? (text : String) : Option Config := (Json.parse text).bind ofJson?

end MixAsm.Config
