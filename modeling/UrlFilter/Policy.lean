import UrlFilter.Quoted
import UrlFilter.Regex.Parser
import UrlFilter.RuleOption
import UrlFilter.Settings.Basic

/-!
# Policies

A policy is what settings come to: names of options become sets, and texts of patterns become patterns.
Settings with a name or a pattern that means nothing make no policy.
-/

namespace UrlFilter

/-- The rules by which lists are compiled. -/
structure Policy where
  maxExactRules : Option Nat
  maxPatternRules : Option Nat
  maxWildcards : Option Nat
  includeExceptions : Bool
  dropOptionedPatterns : Bool
  ignoredOptions : RuleOption.Set
  highValueOptions : RuleOption.Set
  /-- What blocking rules have to match; absent where all are admitted. -/
  contentFilter : Option Regex
  rankingKeywords : List Regex
  wildcardPreferences : List Regex
  ignoredSections : List Text
  /-- What a path that names a file matches; absent where none does. -/
  pathExtensions : Option Regex
  pinnedRules : List Text
  blockedHosts : List Text
  deriving Repr

namespace Policy

/-- Why settings make no policy. -/
inductive Failure where
  /-- The pattern of a field is none, or larger than allowed. -/
  | invalidPattern (field pattern : Text) (tooLarge : Bool)
  /-- The name of an option in a field is unknown. -/
  | unknownOption (field name : Text)
  deriving Repr, DecidableEq

/-- The words for a failure. -/
def Failure.message : Failure → Text
  | invalidPattern field pattern tooLarge =>
    let cause := if tooLarge then
        "Compiled regex exceeds size limit of ".toList ++ Text.ofNat Regex.usualLimit ++
          " bytes.".toList
      else "regex parse error:".toList
    "Invalid ".toList ++ field ++ " regex ".toList ++ Quoted.quote pattern ++ ": ".toList ++ cause
  | unknownOption field name =>
    "Unknown option ".toList ++ Quoted.quote name ++ " in ".toList ++ field

/-- The pattern of a text in a field. -/
def pattern (field : String) (t : Text) : Except Failure Regex :=
  match Regex.alone? t with
  | some r => .ok r
  | none => .error (.invalidPattern field.toList t (Regex.parse? {} t).isSome)

/-- What makes a pattern ignore case. -/
def ignoringCase (t : Text) : Text := "(?i)".toList ++ t

/-- The patterns of the texts in a field, which ignore case. -/
def patterns (field : String) : List Text → Except Failure (List Regex)
  | [] => .ok []
  | t :: ts => (pattern field (ignoringCase t)).bind fun r => (patterns field ts).map (r :: ·)

/-- Texts as the branches of one group. -/
def choice (ts : List Text) : Text := "(?:".toList ++ Text.join ['|'] ts ++ [')']

/-- Each text of a field is a pattern by itself. -/
def checkAll (field : String) : List Text → Except Failure Unit
  | [] => .ok ()
  | t :: ts => (pattern field t).bind fun _ => checkAll field ts

/-- The pattern that joins the texts of a field between two others, when there are any. -/
def joined (field before after : String) (ts : List Text) : Except Failure (Option Regex) :=
  if ts.isEmpty then .ok none
  else
    (checkAll field ts).bind fun _ =>
      (pattern field (before.toList ++ choice ts ++ after.toList)).map some

/-- The options that the names in a field stand for. -/
def options (field : String) (names : List Text) : Except Failure RuleOption.Set :=
  (RuleOption.Set.ofNames names).mapError (.unknownOption field.toList)

/-- Hosts without blanks around them and in lower case, empty ones left out. -/
def hosts (ts : List Text) : List Text :=
  (ts.map fun t => Text.lower (Text.trim t)).filter (!·.isEmpty)

/-- The pattern of the marks of sections, when there are any. It is larger than allowed when they are many; what
it matches is said by `opensIgnored`. -/
def sectionMarks (s : Settings) : Except Failure (Option Regex) :=
  joined "ignored_sections" "" "" (s.ignoredSections.map Regex.escape)

/-- The policy of settings. -/
def ofSettings (s : Settings) : Except Failure Policy :=
  -- The first field without a meaning is the one that is reported.
  (joined "content_keywords" "(?i)" "" s.contentKeywords).bind fun content =>
  (sectionMarks s).bind fun _ =>
  (joined "path_extensions" "(?i)\\." "$" s.pathExtensions).bind fun extensions =>
  (options "ignored_options" s.ignoredOptions).bind fun ignored =>
  (options "high_value_options" s.highValueOptions).bind fun highValue =>
  (patterns "ranking_keywords" s.rankingKeywords).bind fun ranking =>
  (patterns "wildcard_preferences" s.wildcardPreferences).map fun preferences =>
    { maxExactRules := s.maxExactRules
      maxPatternRules := s.maxPatternRules
      maxWildcards := s.maxWildcards
      includeExceptions := s.includeExceptions
      dropOptionedPatterns := s.dropOptionedPatterns
      ignoredOptions := ignored
      highValueOptions := highValue
      contentFilter := content
      rankingKeywords := ranking
      wildcardPreferences := preferences
      ignoredSections := s.ignoredSections
      pathExtensions := extensions
      pinnedRules := s.pinnedRules
      blockedHosts := hosts s.blockedHosts }

/-- The most rules that a bucket takes. -/
def maxRules (p : Policy) (isExact : Bool) : Option Nat :=
  if isExact then p.maxExactRules else p.maxPatternRules

/-- A comment opens a section without interest: one of the marks occurs in it. -/
def opensIgnored (p : Policy) (comment : Text) : Bool :=
  p.ignoredSections.any fun mark => Text.occursIn mark comment

/-- The path names a file. -/
def namesFile (p : Policy) (path : Text) : Bool := p.pathExtensions.any (·.isMatch path)

end Policy

end UrlFilter
