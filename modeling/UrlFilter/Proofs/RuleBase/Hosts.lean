import UrlFilter.Proofs.Build.Buckets
import UrlFilter.Proofs.Rule.Placement
import UrlFilter.Proofs.Rule.Shape

/-!
# Hosts that are blocked

A rule that names a host blocks it and every host with labels in front of it. The bucket keeps the host in lower
case as the pattern has it, and a lookup asks for its own host and the texts behind the dots of that, in lower case
and without dots at the end. So both meet where the pattern's host has no dot at its end. An IPv4 address has no
parents, whatever the host of the pattern looks like.
-/

namespace UrlFilter

namespace Shape

/-- The host that an anchored pattern names: what is left without the asterisks at its ends, its anchor and one
separator at its end. -/
def namedHost? (pattern : Text) : Option Text :=
  (afterAnchor? (Text.trimChar '*' pattern)).map (Text.dropLastIf fun c => c == '/' || c == '^' || c == '?')

end Shape

section
variable {p : Policy} {pattern host : Text}

/-- The bucket keeps the host of the pattern in lower case. -/
theorem Policy.Places.of_domainExact {kept : Text} (h : p.Places pattern .domainExact kept)
    (hhost : Shape.namedHost? pattern = some host) :
    Shape.isHost host = true ∧ kept = Text.lower host := by
  cases h with
  | host hraw hanchor honly hliteral =>
    obtain ⟨hname, hshape⟩ := Shape.hostOnly?_eq_some_iff.mp honly
    rw [Shape.namedHost?, hanchor, Option.map_some, hname, Option.some.injEq] at hhost
    subst hhost
    exact ⟨hshape, rfl⟩

/-- A host that does not end with a dot does not in lower case. -/
theorem Text.getLast?_lower_ne_dot (hdot : host.getLast? ≠ some '.') :
    (Text.lower host).getLast? ≠ some '.' := by
  intro h
  rw [lower, List.getLast?_map] at h
  obtain ⟨c, hc, hlower⟩ := Option.map_eq_some_iff.mp h
  exact hdot (hc.trans (congrArg some ((toLower_eq_iff_of_not_isAlpha (by decide)).mp hlower)))

/-- A host in lower case is among the names of its lookups. -/
theorem Lookup.mem_hostNames_self (hhost : Shape.isHost host = true) (hdot : host.getLast? ≠ some '.')
    (path : Text) : Text.lower host ∈ (http host ('/' :: path)).hostNames := by
  have hne := Text.lower_eq_nil_iff.not.mpr (Shape.ne_nil_of_isHost hhost)
  have hlower := Text.getLast?_lower_ne_dot hdot
  rw [hostNames_http (fun c hc => Shape.isNameChar_of_isHost hhost hc) (by simp [Address.endsAuthority])]
  split
  · exact Host.mem_itself hne hlower
  · exact Host.mem_suffixes_self hne hlower

/-- It is among those of a host behind a label, which has parents as it is no IPv4 address. -/
theorem Lookup.mem_hostNames_append (hhost : Shape.isHost host = true) (hdot : host.getLast? ≠ some '.')
    {label : Text} (hlabel : Host.IsLabel label) (hipv4 : Host.isIPv4 (label ++ '.' :: host) = false) (path : Text) :
    Text.lower host ∈ (http (label ++ '.' :: host) ('/' :: path)).hostNames := by
  have hname : ∀ c ∈ label ++ '.' :: host, Address.isNameChar c = true :=
    Address.isNameChar_dotted (fun c hc => Shape.isNameChar_of_isLabel hlabel hc)
      fun c hc => Shape.isNameChar_of_isHost hhost hc
  have hwhole : Text.lower (label ++ '.' :: host) = Text.lower label ++ '.' :: Text.lower host := by
    simp [Text.lower]
  rw [hostNames_http hname (by simp [Address.endsAuthority]), hipv4, if_neg Bool.false_ne_true, hwhole]
  exact Host.mem_suffixes_append (Text.lower_eq_nil_iff.not.mpr (Shape.ne_nil_of_isHost hhost))
    (Text.getLast?_lower_ne_dot hdot) _

end

namespace RuleBase

/-- A rule that names a host blocks it and every host behind a label that is no IPv4 address. -/
theorem judge_blocks_host {p : Policy} {pattern host : Text} {base : RuleBase}
    (hcategory : (p.category pattern).1 = .domainExact) (hhost : Shape.namedHost? pattern = some host)
    (hdot : host.getLast? ≠ some '.')
    (hrule : (p.category pattern).2 ∈ (base.bucket ⟨.domainExact, .bad⟩).rules)
    (hgood : ∀ c, (base.bucket ⟨c, .good⟩).rules = []) :
    (∀ path, (base.judge .silent (.http host ('/' :: path))).decision = .block) ∧
      ∀ label path, Host.IsLabel label → Host.isIPv4 (label ++ '.' :: host) = false →
        (base.judge .silent (.http (label ++ '.' :: host) ('/' :: path))).decision = .block := by
  have hplaces := p.places_category pattern
  rw [hcategory] at hplaces
  obtain ⟨hshape, hkept⟩ := hplaces.of_domainExact hhost
  rw [hkept] at hrule
  -- The rule is hit by every lookup that has the host among its names.
  have hblock (name path : Text) (hmem : Text.lower host ∈ (Lookup.http name ('/' :: path)).hostNames) :
      (base.judge .silent (.http name ('/' :: path))).decision = .block := by
    refine decision_of_hits hgood (c := .domainExact) ?_ ?_
    · rw [Lookup.consulted_http]
      decide
    · exact (hits_iff_of_isExact rfl _).mpr ⟨_, hmem, hrule⟩
  constructor
  · exact fun path => hblock host path (Lookup.mem_hostNames_self hshape hdot path)
  · exact fun label path hlabel hipv4 =>
      hblock _ path (Lookup.mem_hostNames_append hshape hdot hlabel hipv4 path)

/-- The rule base with a set of one host that is blocked. -/
def blocking (host : Text) : RuleBase := single ⟨.domainExact, .bad⟩ (.exact (.ofList [host])) rfl

/-- A rule base that blocks one host has no good rules. -/
theorem rules_blocking_good (host : Text) (c : Category) : ((blocking host).bucket ⟨c, .good⟩).rules = [] := by
  rw [blocking, bucket_single_of_ne rfl (by simp), RuleSet.rules_emptyFor]

/-- A host behind a scheme, with an asterisk at its end, and one of its subdomains. -/
theorem judge_blocks_host_sample :
    (Policy.permissive.category "|https://Ads.b.c/*".toList).1 = .domainExact ∧
      Shape.namedHost? "|https://Ads.b.c/*".toList = some "Ads.b.c".toList ∧
      Host.IsLabel "x-1".toList ∧
      ((blocking "ads.b.c".toList).judge .silent (.http "Ads.b.c".toList "/p?q@r".toList)).decision = .block ∧
      ((blocking "ads.b.c".toList).judge .silent (.http "x-1.Ads.b.c".toList "/".toList)).decision = .block := by
  have hlabel : Host.IsLabel "x-1".toList := by decide
  have hcategory : (Policy.permissive.category "|https://Ads.b.c/*".toList).1 = .domainExact := by decide +kernel
  have hhost : Shape.namedHost? "|https://Ads.b.c/*".toList = some "Ads.b.c".toList := by decide
  have hrule : (Policy.permissive.category "|https://Ads.b.c/*".toList).2 ∈
      ((blocking "ads.b.c".toList).bucket ⟨.domainExact, .bad⟩).rules := by decide +kernel
  obtain ⟨hself, hbehind⟩ := judge_blocks_host hcategory hhost (by decide) hrule (rules_blocking_good _)
  exact ⟨hcategory, hhost, hlabel, hself _, hbehind "x-1".toList [] hlabel (by decide)⟩

/-- A host of numbers is kept, and one that ends with a dot, but the addresses that end with the numbers are not
blocked, nor is the host with the dot. -/
theorem judge_passes_address :
    (Policy.permissive.category "||2.3.4^".toList) = (.domainExact, "2.3.4".toList) ∧
      Shape.namedHost? "||2.3.4^".toList = some "2.3.4".toList ∧ Host.isIPv4 "2.3.4".toList = false ∧
      Host.IsLabel "1".toList ∧
      ((blocking "2.3.4".toList).judge .silent (.http ("1".toList ++ '.' :: "2.3.4".toList) "/x".toList)).decision =
        .allow ∧
      (Policy.permissive.category "||ads.b.c.^".toList) = (.domainExact, "ads.b.c.".toList) ∧
      Shape.namedHost? "||ads.b.c.^".toList = some "ads.b.c.".toList ∧
      ((blocking "ads.b.c.".toList).judge .silent (.http "ads.b.c.".toList "/x".toList)).decision = .allow := by
  decide +kernel

end RuleBase

end UrlFilter
