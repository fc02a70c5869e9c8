import UrlFilter.Text

/-!
# Settings

What the compilation of rules can be told. Keywords, preferences and extensions are regular
expressions; sections are plain texts.
-/

namespace UrlFilter

/-- The settings of a compilation. -/
structure Settings where
  /-- The most rules that an exact bucket takes; absent where there is no limit. -/
  maxExactRules : Option Nat
  /-- The most rules that a pattern bucket takes. -/
  maxPatternRules : Option Nat
  /-- The most wildcards in the rules of a bucket together. -/
  maxWildcards : Option Nat
  /-- Exceptions are kept. -/
  includeExceptions : Bool
  /-- Rules with options do not become patterns over paths or URLs. -/
  dropOptionedPatterns : Bool
  /-- A rule with one of these options is dropped. -/
  ignoredOptions : List Text
  /-- One of these options admits a rule and raises its rank. -/
  highValueOptions : List Text
  /-- A blocking rule has to match one of these, when there are any. -/
  contentKeywords : List Text
  /-- Each match of one of these raises the rank of a rule. -/
  rankingKeywords : List Text
  /-- Rules with wildcards that match these are kept before others, the most important first. -/
  wildcardPreferences : List Text
  /-- A comment that holds one of these opens a section without interest. -/
  ignoredSections : List Text
  /-- The file extensions that end a path. -/
  pathExtensions : List Text
  /-- The rules that stand in front of all others. -/
  pinnedRules : List Text
  /-- The hosts that are blocked in spite of all exceptions. -/
  blockedHosts : List Text
  deriving Repr, DecidableEq

end UrlFilter
