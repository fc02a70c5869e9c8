import UrlFilter.Proofs.Build.Scan
import UrlFilter.Proofs.Glob.Case
import UrlFilter.Proofs.Glob.Covers
import UrlFilter.Proofs.Rule.Shape
import UrlFilter.Proofs.RuleBase.Assembly

/-!
# Hosts with asterisks

A pattern that names a host with asterisks is kept without its anchor and without the separator behind the host. What
is compiled from it asks for the start of a host but not for its end, so that it matches a lookup when the pattern
covers some beginning of the host, or of the last two labels of the host.
-/

namespace UrlFilter

/-! ## The pattern -/

namespace Shape

variable {host : Text} (hhost : isHost host = true)

include hhost

/-- A host has no characters but those of labels and dots. -/
theorem notMem_of_isHost {c : Char} (hdot : c ≠ '.') (hc : isLabelChar c = false) : c ∉ host := by
  intro hmem
  rw [isLabelChar_of_isHost hhost hmem hdot] at hc
  cases hc

/-- Behind two bars and in front of a separator, a host with asterisks is kept as it stands. -/
theorem category_starredHost (p : Policy) (hstar : '*' ∈ host) :
    p.category ("||".toList ++ (host ++ ['^'])) = (.domainPattern, host) := by
  have hraw : Line.isRaw ("||".toList ++ (host ++ ['^'])) = false := by simp [Line.isRaw]
  -- The separator shields an asterisk at the end of the host.
  have htrim : Text.trimChar '*' ("||".toList ++ (host ++ ['^'])) = "||".toList ++ (host ++ ['^']) :=
    Text.trimChar_eq_self (by simp) (by rw [← List.append_assoc, List.getLast?_concat]; decide)
  have hanchor : afterAnchor? ("||".toList ++ (host ++ ['^'])) = some (host ++ ['^']) := by
    rw [afterAnchor?, Text.after?_append, Option.some_or]
  have honly : hostOnly? (host ++ ['^']) = some host := by
    rw [hostOnly?_eq_some_iff, Text.dropLastIf_concat]
    exact ⟨rfl, hhost⟩
  have hliteral : isLiteral host = false := by
    simp only [isLiteral, Bool.not_eq_false', List.any_eq_true]
    exact ⟨'*', hstar, rfl⟩
  simp only [Policy.category, hraw, htrim, hanchor, Policy.placeAnchored, honly, hliteral, Bool.false_eq_true, if_false]

end Shape

/-! ## The bucket -/

namespace Build

variable {host : Text} (hhost : Shape.isHost host = true)

include hhost

/-- By itself, a host with asterisks matches what it covers some beginning of. -/
theorem matchesAlone_host (t : Text) : matchesAlone .domainPattern host (Text.lower t) = true ↔
    Glob.Fits true host ∧ ∃ b, b <+: t ∧ Glob.covers host b = true := by
  have hbar : '|' ∉ host := Shape.notMem_of_isHost hhost (by decide) (by decide)
  have hcaret : '^' ∉ host := Shape.notMem_of_isHost hhost (by decide) (by decide)
  rw [matchesAlone_iff (by decide) rfl]
  exact and_congr_right fun _ => (Glob.matches_lower t).trans (Glob.matches_iff_covers hbar hcaret)

end Build

namespace RuleBase

variable {base : RuleBase} {b : Bucket} {a : Alternation}

/-- A bucket with an alternation that has rules where it matches is hit when a view of the lookup matches. -/
theorem hits_iff_of_pattern (hbucket : base.bucket b = .pattern a) (hrules : ∀ t, a.isMatch t = true → a.rules ≠ [])
    (l : Lookup) : base.hits l b = true ↔ ∃ t ∈ l.views b.category, a.isMatch t = true := by
  simp only [hits, hbucket, RuleSet.isMatch, RuleSet.hasRules, RuleSet.rules, Bool.and_eq_true, List.any_eq_true,
    List.mem_eraseDups]
  refine and_iff_right_of_imp ?_
  rintro ⟨t, -, ht⟩
  simpa using hrules t ht

/-- The bucket with the alternation of a host with asterisks. -/
theorem hits_iff_covers {q : Polarity} (hbucket : base.bucket ⟨.domainPattern, q⟩ = .pattern a) {host : Text}
    (hhost : Shape.isHost host = true) (hmatch : ∀ t, a.isMatch t = Build.matchesAlone .domainPattern host t)
    (hrules : ∀ t, a.isMatch t = true → a.rules ≠ []) {name : Text}
    (hname : name.any Glob.isSeparator = false) :
    base.hits (.http name ['/']) ⟨.domainPattern, q⟩ = true ↔
      Glob.Fits true host ∧ ∃ view ∈ [name, if Host.isIPv4 name then name else Host.site name],
        ∃ b, b <+: view ∧ Glob.covers host b = true := by
  -- The marks of an address are separators, so the name is the host of the lookup.
  have hname : ∀ c ∈ name, Address.isNameChar c = true := fun c hc =>
    Address.isNameChar_of (p := fun c => !Glob.isSeparator c) (by decide) (by simpa using List.any_eq_false.mp hname c hc)
  have hviews : (Lookup.http name ['/']).views .domainPattern =
      [Text.lower (if Host.isIPv4 name then name else Host.site name), Text.lower name] := by
    rw [Lookup.views, Lookup.site_http hname (by simp [Address.endsAuthority]),
      Lookup.host_http hname (by simp [Address.endsAuthority])]
  rw [hits_iff_of_pattern hbucket hrules, hviews]
  simp only [hmatch, List.mem_cons, List.not_mem_nil, or_false, exists_eq_or_imp, exists_eq_left,
    Build.matchesAlone_host hhost, ← and_or_left]
  exact and_congr_right fun _ => or_comm

/-- What is compiled from a host with asterisks alone matches a lookup when the host of the pattern covers some
beginning of the host that is looked up, or of its last two labels. -/
theorem hits_starredHost (p : Policy) {host : Text} (hhost : Shape.isHost host = true) (hstar : '*' ∈ host) :
    p.category ("||".toList ++ (host ++ ['^'])) = (.domainPattern, host) ∧
      ∃ a d w, Build.joinRules .domainPattern [host] = .ok (a, d, w) ∧
        ∀ (base : RuleBase) (q : Polarity) (name : Text), base.bucket ⟨.domainPattern, q⟩ = .pattern a →
          name.any Glob.isSeparator = false →
          (base.hits (.http name ['/']) ⟨.domainPattern, q⟩ = true ↔
            Glob.Fits true host ∧ ∃ view ∈ [name, if Host.isIPv4 name then name else Host.site name],
              ∃ b, b <+: view ∧ Glob.covers host b = true) := by
  obtain ⟨a, d, w, hjoin, hmatch, hrules⟩ := Build.joinRules_single (c := .domainPattern) rfl host
  exact ⟨Shape.category_starredHost hhost p hstar, a, d, w, hjoin, fun base q name hbucket hname =>
    hits_iff_covers hbucket hhost hmatch hrules hname⟩

/-- The rule base with one alternation over hosts that blocks. -/
def blockingPattern (a : Alternation) : RuleBase := single ⟨.domainPattern, .bad⟩ (.pattern a) rfl

/-- A rule base that blocks by one pattern holds it. -/
theorem bucket_blockingPattern (a : Alternation) :
    (blockingPattern a).bucket ⟨.domainPattern, .bad⟩ = .pattern a := bucket_single rfl

/-- A host that is covered as a whole, and one of which nothing is. -/
theorem hits_starredHost_sample :
    Shape.isHost "a.*.com".toList = true ∧ '*' ∈ "a.*.com".toList ∧
      ∃ a, (blockingPattern a).hits (.http "A.b.com".toList ['/']) ⟨.domainPattern, .bad⟩ = true ∧
        (blockingPattern a).hits (.http "a.b.net".toList ['/']) ⟨.domainPattern, .bad⟩ = false := by
  have hhost : Shape.isHost "a.*.com".toList = true := by decide
  have hstar : '*' ∈ "a.*.com".toList := by decide
  obtain ⟨-, a, d, w, -, hhits⟩ := hits_starredHost .permissive hhost hstar
  refine ⟨hhost, hstar, a, ?_, ?_⟩
  · rw [hhits _ _ _ (bucket_blockingPattern a) (by decide)]
    exact ⟨by decide, "A.b.com".toList, by decide, _, List.prefix_refl _, by decide⟩
  · rw [Bool.eq_false_iff, ne_eq, hhits _ _ _ (bucket_blockingPattern a) (by decide)]
    rintro ⟨-, view, hview, b, hb, hcovers⟩
    have hnone : ∀ view ∈ ["a.b.net".toList, Host.site "a.b.net".toList], ∀ b ∈ view.inits,
        Glob.covers "a.*.com".toList b = false := by decide
    rw [hnone view hview b ((List.mem_inits _ _).mpr hb)] at hcovers
    cases hcovers

/-- A host that goes on behind the last label of the pattern is matched, though neither it nor its last two labels
are covered. -/
theorem starredHost_has_no_end :
    Shape.isHost "a.*.com".toList = true ∧
      Policy.permissive.category "||a.*.com^".toList = (.domainPattern, "a.*.com".toList) ∧
      Glob.covers "a.*.com".toList "a.b.company.net".toList = false ∧
      Glob.covers "a.*.com".toList (Host.site "a.b.company.net".toList) = false ∧
      ∃ a d w, Build.joinRules .domainPattern ["a.*.com".toList] = .ok (a, d, w) ∧
        (blockingPattern a).hits (.http "a.b.company.net".toList ['/']) ⟨.domainPattern, .bad⟩ = true := by
  have hhost : Shape.isHost "a.*.com".toList = true := by decide
  obtain ⟨a, d, w, hjoin, hmatch, hrules⟩ := Build.joinRules_single (c := .domainPattern) rfl "a.*.com".toList
  refine ⟨hhost, by decide, by decide, by decide, a, d, w, hjoin, ?_⟩
  rw [hits_iff_covers (bucket_blockingPattern a) hhost hmatch hrules (by decide)]
  exact ⟨by decide, "a.b.company.net".toList, by decide, "a.b.com".toList, by decide, by decide⟩

end RuleBase

end UrlFilter
