import UrlFilter.Policy
import UrlFilter.Proofs.Except

/-!
# Policies of settings

Settings make a policy when each of their fields means something. What the fields come to, one by one.
-/

namespace UrlFilter

namespace Policy

/-- A pattern is accepted when it is a regular expression alone. -/
theorem pattern_eq_ok_iff {field : String} {t : Text} {r : Regex} : pattern field t = .ok r ↔ Regex.alone? t = some r := by
  unfold pattern
  cases Regex.alone? t <;> simp

/-- Patterns are accepted together when each is a regular expression alone. -/
theorem checkAll_eq_ok_iff {field : String} {ts : List Text} :
    checkAll field ts = .ok () ↔ ∀ t ∈ ts, (Regex.alone? t).isSome = true := by
  induction ts with
  | nil => simp [checkAll]
  | cons t ts ih => simp [checkAll, bind_eq_ok_iff, pattern_eq_ok_iff, ih, Option.isSome_iff_exists]

/-- A field without texts has no pattern. Texts are joined when each is a pattern, and so is the whole. -/
theorem joined_eq_ok_iff {field before after : String} {ts : List Text} {o : Option Regex} :
    joined field before after ts = .ok o ↔
      if ts = [] then o = none
      else (∀ t ∈ ts, (Regex.alone? t).isSome = true) ∧
        ∃ r, Regex.alone? (before.toList ++ (choice ts ++ after.toList)) = some r ∧ o = some r := by
  cases ts with
  | nil => simp [joined, eq_comm]
  | cons t ts =>
    simp only [joined, List.isEmpty_cons, Bool.false_eq_true, if_false, bind_eq_ok_iff, map_eq_ok_iff,
      pattern_eq_ok_iff, List.append_assoc, reduceCtorEq]
    constructor
    · rintro ⟨_, hall, r, hr, rfl⟩
      exact ⟨checkAll_eq_ok_iff.mp hall, r, hr, rfl⟩
    · rintro ⟨hall, r, hr, rfl⟩
      exact ⟨(), checkAll_eq_ok_iff.mpr hall, r, hr, rfl⟩

/-- What the fields of settings come to in their policy. -/
theorem ofSettings_eq_ok_iff {s : Settings} {p : Policy} : ofSettings s = .ok p ↔
    joined "content_keywords" "(?i)" "" s.contentKeywords = .ok p.contentFilter ∧
    (∃ marks, sectionMarks s = .ok marks) ∧
    joined "path_extensions" "(?i)\\." "$" s.pathExtensions = .ok p.pathExtensions ∧
    options "ignored_options" s.ignoredOptions = .ok p.ignoredOptions ∧
    options "high_value_options" s.highValueOptions = .ok p.highValueOptions ∧
    patterns "ranking_keywords" s.rankingKeywords = .ok p.rankingKeywords ∧
    patterns "wildcard_preferences" s.wildcardPreferences = .ok p.wildcardPreferences ∧
    p = { p with
      maxExactRules := s.maxExactRules
      maxPatternRules := s.maxPatternRules
      maxWildcards := s.maxWildcards
      includeExceptions := s.includeExceptions
      dropOptionedPatterns := s.dropOptionedPatterns
      ignoredSections := s.ignoredSections
      pinnedRules := s.pinnedRules
      blockedHosts := hosts s.blockedHosts } := by
  simp only [ofSettings, bind_eq_ok_iff, map_eq_ok_iff]
  constructor
  · rintro ⟨_, hcontent, _, hmarks, _, hextensions, _, hignored, _, hhigh, _, hranking, _, hpreferences, rfl⟩
    exact ⟨hcontent, ⟨_, hmarks⟩, hextensions, hignored, hhigh, hranking, hpreferences, rfl⟩
  · rintro ⟨hcontent, ⟨_, hmarks⟩, hextensions, hignored, hhigh, hranking, hpreferences, hrest⟩
    exact ⟨_, hcontent, _, hmarks, _, hextensions, _, hignored, _, hhigh, _, hranking, _, hpreferences, hrest.symm⟩

end Policy

end UrlFilter
