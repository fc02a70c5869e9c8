import UrlFilter.Json.Basic

/-!
# Dropped lines

The reasons for which a line of a list, or the rule in it, is dropped, and the tally that counts them.
-/

namespace UrlFilter

/-- Why a line does not become a rule of a bucket. -/
inductive Drop where
  /-- `! …` -/
  | comment
  /-- `[Adblock Plus 2.0]` -/
  | configLine
  /-- A rule that hides elements of a page. -/
  | selector
  /-- Nothing, or asterisks alone. -/
  | blank
  /-- A scheme with nothing behind it. -/
  | emptyUrl
  /-- The line stands in a section without interest. -/
  | ignoredSection
  /-- An option that a lookup cannot take into account. -/
  | ignoredOption
  /-- An option that is not known. -/
  | unsupportedOption
  /-- An exception, where there are to be none. -/
  | exceptionExcluded
  /-- No keyword and no option admits the rule. -/
  | contentFilter
  /-- A rule with options that would become a costly pattern. -/
  | optionedPattern
  /-- A regular expression that is none. -/
  | invalidRawPattern
  /-- A regular expression that refers to a group. -/
  | rawBackreference
  deriving Repr, DecidableEq

/-- The words for a reason. -/
def Drop.message : Drop → String
  | comment => "comment"
  | configLine => "config line"
  | selector => "selector"
  | blank => "blank"
  | emptyUrl => "empty url"
  | ignoredSection => "ignored section"
  | ignoredOption => "ignored option"
  | unsupportedOption => "unsupported option"
  | exceptionExcluded => "exception excluded"
  | contentFilter => "content filter"
  | optionedPattern => "optioned pattern"
  | invalidRawPattern => "invalid raw pattern"
  | rawBackreference => "raw back-reference"

/-- Counts of lines and of what became of them. -/
@[ext]
structure Tally where
  lines : Nat := 0
  /-- The lines that hold a rule. -/
  accepted : Nat := 0
  comments : Nat := 0
  configLines : Nat := 0
  selectors : Nat := 0
  blank : Nat := 0
  emptyUrls : Nat := 0
  ignoredSections : Nat := 0
  ignoredOptions : Nat := 0
  unsupportedOptions : Nat := 0
  droppedExceptions : Nat := 0
  contentFiltered : Nat := 0
  optionedPatterns : Nat := 0
  invalidRawPatterns : Nat := 0
  rawBackreferences : Nat := 0
  deriving Repr, DecidableEq

namespace Tally

/-- The number of drops for a reason. -/
def count (t : Tally) : Drop → Nat
  | .comment => t.comments
  | .configLine => t.configLines
  | .selector => t.selectors
  | .blank => t.blank
  | .emptyUrl => t.emptyUrls
  | .ignoredSection => t.ignoredSections
  | .ignoredOption => t.ignoredOptions
  | .unsupportedOption => t.unsupportedOptions
  | .exceptionExcluded => t.droppedExceptions
  | .contentFilter => t.contentFiltered
  | .optionedPattern => t.optionedPatterns
  | .invalidRawPattern => t.invalidRawPatterns
  | .rawBackreference => t.rawBackreferences

/-- The tally with one more line read. -/
def line (t : Tally) : Tally := { t with lines := t.lines + 1 }

/-- The tally with one more rule accepted. -/
def accept (t : Tally) : Tally := { t with accepted := t.accepted + 1 }

/-- The tally with one more drop. -/
def drop (t : Tally) : Drop → Tally
  | .comment => { t with comments := t.comments + 1 }
  | .configLine => { t with configLines := t.configLines + 1 }
  | .selector => { t with selectors := t.selectors + 1 }
  | .blank => { t with blank := t.blank + 1 }
  | .emptyUrl => { t with emptyUrls := t.emptyUrls + 1 }
  | .ignoredSection => { t with ignoredSections := t.ignoredSections + 1 }
  | .ignoredOption => { t with ignoredOptions := t.ignoredOptions + 1 }
  | .unsupportedOption => { t with unsupportedOptions := t.unsupportedOptions + 1 }
  | .exceptionExcluded => { t with droppedExceptions := t.droppedExceptions + 1 }
  | .contentFilter => { t with contentFiltered := t.contentFiltered + 1 }
  | .optionedPattern => { t with optionedPatterns := t.optionedPatterns + 1 }
  | .invalidRawPattern => { t with invalidRawPatterns := t.invalidRawPatterns + 1 }
  | .rawBackreference => { t with rawBackreferences := t.rawBackreferences + 1 }

/-- The counts of two tallies together. -/
def add (s t : Tally) : Tally where
  lines := s.lines + t.lines
  accepted := s.accepted + t.accepted
  comments := s.comments + t.comments
  configLines := s.configLines + t.configLines
  selectors := s.selectors + t.selectors
  blank := s.blank + t.blank
  emptyUrls := s.emptyUrls + t.emptyUrls
  ignoredSections := s.ignoredSections + t.ignoredSections
  ignoredOptions := s.ignoredOptions + t.ignoredOptions
  unsupportedOptions := s.unsupportedOptions + t.unsupportedOptions
  droppedExceptions := s.droppedExceptions + t.droppedExceptions
  contentFiltered := s.contentFiltered + t.contentFiltered
  optionedPatterns := s.optionedPatterns + t.optionedPatterns
  invalidRawPatterns := s.invalidRawPatterns + t.invalidRawPatterns
  rawBackreferences := s.rawBackreferences + t.rawBackreferences

/-- The counts with their names, in order. -/
def counts (t : Tally) : List (String × Nat) := [
  ("lines", t.lines),
  ("accepted", t.accepted),
  ("comments", t.comments),
  ("config_lines", t.configLines),
  ("selectors", t.selectors),
  ("blank", t.blank),
  ("empty_urls", t.emptyUrls),
  ("ignored_sections", t.ignoredSections),
  ("ignored_options", t.ignoredOptions),
  ("unsupported_options", t.unsupportedOptions),
  ("dropped_exceptions", t.droppedExceptions),
  ("content_filtered", t.contentFiltered),
  ("optioned_patterns", t.optionedPatterns),
  ("invalid_raw_patterns", t.invalidRawPatterns),
  ("raw_backreferences", t.rawBackreferences)]

/-- The tally as a JSON value. -/
def toJson (t : Tally) : Json := .record (t.counts.map fun (k, n) => (k, .nat n))

/-! ## Laws -/

/-- A drop counts for its own reason alone. -/
theorem count_drop (t : Tally) (d e : Drop) :
    (t.drop d).count e = t.count e + if d = e then 1 else 0 := by
  cases d <;> cases e <;> rfl

/-- A drop is no further line. -/
@[simp] theorem lines_drop (t : Tally) (d : Drop) : (t.drop d).lines = t.lines := by
  cases d <;> rfl

/-- A drop accepts nothing. -/
@[simp] theorem accepted_drop (t : Tally) (d : Drop) : (t.drop d).accepted = t.accepted := by
  cases d <;> rfl

end Tally

end UrlFilter
