import UrlFilter.Json.Reader
import UrlFilter.Settings.Usual

/-!
# Settings as JSON

Settings are stored as a JSON document. A field that is absent keeps its usual value, and fields that
are not known are passed over. The limits alone may be null, which lifts them.
-/

namespace UrlFilter.Settings

/-- The names of the fields, in order. -/
def fieldNames : List String :=
  ["max_exact_rules", "max_pattern_rules", "max_wildcards", "include_exceptions",
    "drop_optioned_patterns", "ignored_options", "high_value_options", "content_keywords",
    "ranking_keywords", "wildcard_preferences", "ignored_sections", "path_extensions",
    "pinned_rules", "good_domain_exceptions"]

/-- A limit as a JSON value. -/
def limitToJson : Option Nat → Json
  | none => .null
  | some n => .nat n

/-- The fields with their values, in order. -/
def fields (s : Settings) : List (String × Json) := [
  ("max_exact_rules", limitToJson s.maxExactRules),
  ("max_pattern_rules", limitToJson s.maxPatternRules),
  ("max_wildcards", limitToJson s.maxWildcards),
  ("include_exceptions", .bool s.includeExceptions),
  ("drop_optioned_patterns", .bool s.dropOptionedPatterns),
  ("ignored_options", .texts s.ignoredOptions),
  ("high_value_options", .texts s.highValueOptions),
  ("content_keywords", .texts s.contentKeywords),
  ("ranking_keywords", .texts s.rankingKeywords),
  ("wildcard_preferences", .texts s.wildcardPreferences),
  ("ignored_sections", .texts s.ignoredSections),
  ("path_extensions", .texts s.pathExtensions),
  ("pinned_rules", .texts s.pinnedRules),
  ("good_domain_exceptions", .texts s.blockedHosts)]

/-- The limit on the numbers that a limit can be. -/
def numberLimit : Nat := UInt64.size

/-- Reads a limit. -/
def limit? (j : Json) : Option (Option Nat) := j.optional? (Json.natBelow? numberLimit)

/-- Reads a field, which keeps its usual value where it is absent. -/
def fieldOr {α : Type} (read : Json → Option α) (usually : α) : Option Json → Option α
  | none => some usually
  | some j => read j

/-- Reads settings. -/
def ofJson? (j : Json) : Option Settings :=
  (j.record? (fieldNames.map String.toList)).bind fun values =>
    match values with
    | [exact, pattern, wildcards, exceptions, optioned, ignored, highValue, content, ranking,
        preferences, sections, extensions, pinned, hosts] =>
      (fieldOr limit? usual.maxExactRules exact).bind fun exact =>
      (fieldOr limit? usual.maxPatternRules pattern).bind fun pattern =>
      (fieldOr limit? usual.maxWildcards wildcards).bind fun wildcards =>
      (fieldOr Json.bool? usual.includeExceptions exceptions).bind fun exceptions =>
      (fieldOr Json.bool? usual.dropOptionedPatterns optioned).bind fun optioned =>
      (fieldOr Json.texts? usual.ignoredOptions ignored).bind fun ignored =>
      (fieldOr Json.texts? usual.highValueOptions highValue).bind fun highValue =>
      (fieldOr Json.texts? usual.contentKeywords content).bind fun content =>
      (fieldOr Json.texts? usual.rankingKeywords ranking).bind fun ranking =>
      (fieldOr Json.texts? usual.wildcardPreferences preferences).bind fun preferences =>
      (fieldOr Json.texts? usual.ignoredSections sections).bind fun sections =>
      (fieldOr Json.texts? usual.pathExtensions extensions).bind fun extensions =>
      (fieldOr Json.texts? usual.pinnedRules pinned).bind fun pinned =>
      (fieldOr Json.texts? usual.blockedHosts hosts).map fun hosts =>
        ⟨exact, pattern, wildcards, exceptions, optioned, ignored, highValue, content, ranking,
          preferences, sections, extensions, pinned, hosts⟩
    | _ => none

/-- The settings of a document. -/
def read? (t : Text) : Option Settings := (Json.read? t).bind ofJson?

end UrlFilter.Settings
