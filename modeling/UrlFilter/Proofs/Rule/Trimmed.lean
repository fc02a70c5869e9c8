import UrlFilter.Proofs.Glob.Trimmed
import UrlFilter.Proofs.Rule.Anchors

/-!
# Rules without the asterisks at their ends

Asterisks at the ends of a rule are taken off before an anchor is looked for and before the rule is kept. That
changes nothing where they shield no bar (`Policy.category_trims`). Where they do, the bar becomes an end of the text
or an anchor.
-/

namespace UrlFilter

open Alternation (ofFragments)

variable {p : Policy} {q t rest : Text}

/-- Without a bar in front, an anchor is a scheme. -/
theorem Shape.exists_scheme (h : t.head? ≠ some '|') (hanchor : afterAnchor? t = some rest) :
    ∃ scheme : Text, scheme.length ≤ maxSchemeLength ∧ (∀ c ∈ scheme, isSchemeChar c = true) ∧
      t = scheme ++ "://".toList ++ rest := by
  have hbars : Text.after? "||".toList t = none := by
    rw [Option.eq_none_iff_forall_ne_some]
    intro behind hbehind
    exact h (by rw [Text.after?_eq_some_iff.mp hbehind]; rfl)
  rw [afterAnchor?, hbars, Option.none_or, afterScheme?_of_head? h, behindScheme?, Option.ite_none_right_eq_some,
    Text.after?_eq_some_iff] at hanchor
  obtain ⟨hlength, hbehind⟩ := hanchor
  refine ⟨t.takeWhile isSchemeChar, hlength, fun c hc => List.mem_takeWhile_imp hc, ?_⟩
  rw [List.append_assoc, ← hbehind, List.takeWhile_append_dropWhile]

namespace Policy

/-- A rule that is no fragment of a URL has an anchor. -/
theorem exists_anchor (hraw : Line.isRaw q = false) (hcategory : (p.category q).1 ≠ .urlFragment) :
    ∃ rest, Shape.afterAnchor? (Text.trimChar '*' q) = some rest := by
  rw [← Option.isSome_iff_exists, Option.isSome_iff_ne_none]
  intro hanchor
  simp [category, hraw, hanchor] at hcategory

/-- Where the asterisk at the start shields no bar, none is in front without it, but for a bar alone. -/
theorem head?_trimChar_ne_bar (hstar : q.head? = some '*') (hbar : Text.trimChar '*' q ≠ ['|'])
    (hshields : Glob.shieldsBar q = false) : (Text.trimChar '*' q).head? ≠ some '|' := by
  rw [Glob.shieldsBar, Glob.exposes, if_neg hbar, hstar] at hshields
  simp only [bne_self_eq_false, Bool.not_false, Bool.true_and, Bool.or_eq_false_iff] at hshields
  exact ne_of_beq_false hshields.1

/-- Taking the asterisks off the ends of a rule keeps the texts that a fragment of a URL matches exactly when they
shield no bar, and then a rule with an asterisk in front has no anchor but a scheme. -/
theorem category_trims (p : Policy) (hraw : Line.isRaw q = false) (hne : Text.trimChar '*' q ≠ []) :
    (∀ kept, p.category q = (.urlFragment, kept) → ∀ a, ofFragments [q] [Glob.fragment false 0 q] = .ok a →
        ∃ b, ofFragments [kept] [Glob.fragment false 0 kept] = .ok b ∧
          ((∀ t, b.isMatch t = a.isMatch t) ↔ Glob.shieldsBar q = false)) ∧
      (q.head? = some '*' → Glob.shieldsBar q = false → (p.category q).1 ≠ .urlFragment →
        ∃ scheme rest : Text, (∀ c ∈ scheme, Shape.isSchemeChar c = true) ∧
          Text.trimChar '*' q = scheme ++ "://".toList ++ rest) := by
  refine ⟨fun kept hkept a ha => ?_, fun hstar hshields hcategory => ?_⟩
  · have hplaces := p.places_category q
    rw [hkept] at hplaces
    obtain rfl := hplaces.eq_trimChar
    have hfit : Glob.Fits false q := by
      by_contra hlarge
      rw [Glob.ofFragments_of_not_fits hlarge] at ha
      cases ha
    obtain ⟨a', ha', hmatch⟩ := Glob.ofFragments_of_fits hfit [q]
    obtain rfl : a' = a := Except.ok.inj (ha'.symm.trans ha)
    obtain ⟨b, hb, hmatch'⟩ := Glob.ofFragments_of_fits (Glob.fits_trimChar hne hfit) [Text.trimChar '*' q]
    refine ⟨b, hb, ?_⟩
    rw [← Glob.matches_trimChar_iff hne]
    exact forall_congr' fun t => by rw [Bool.eq_iff_iff, hmatch, hmatch']
  · obtain ⟨rest, hanchor⟩ := exists_anchor hraw hcategory
    have hbar : Text.trimChar '*' q ≠ ['|'] := by
      intro hbar
      rw [hbar] at hanchor
      cases hanchor
    obtain ⟨scheme, -, hscheme, heq⟩ := Shape.exists_scheme (head?_trimChar_ne_bar hstar hbar hshields) hanchor
    exact ⟨scheme, rest, hscheme, heq⟩

/-- A fragment behind an asterisk with a bar at its end, which no asterisk shields. -/
theorem category_trims_sample :
    permissive.category "*a*b|".toList = (.urlFragment, "a*b|".toList) ∧
      ∃ a b, ofFragments ["*a*b|".toList] [Glob.fragment false 0 "*a*b|".toList] = .ok a ∧
        ofFragments ["a*b|".toList] [Glob.fragment false 0 "a*b|".toList] = .ok b ∧
        ∀ t, b.isMatch t = a.isMatch t := by
  have hcategory : permissive.category "*a*b|".toList = (.urlFragment, "a*b|".toList) := by decide +kernel
  have hfit : Glob.Fits false "*a*b|".toList := by decide
  obtain ⟨a, ha, -⟩ := Glob.ofFragments_of_fits hfit ["*a*b|".toList]
  have htrims := category_trims permissive (q := "*a*b|".toList) (by decide) (by decide)
  obtain ⟨b, hb, hsame⟩ := htrims.1 _ hcategory a ha
  exact ⟨hcategory, a, b, ha, hb, hsame.mpr (by decide)⟩

/-- A bar behind an asterisk stands for itself, but it is kept as the start of the text, and two of them as an
anchor. -/
theorem shielded_bars_become_ends :
    permissive.category "*|http:".toList = (.urlFragment, "|http:".toList) ∧
      (∃ a b, ofFragments ["*|http:".toList] [Glob.fragment false 0 "*|http:".toList] = .ok a ∧
        ofFragments ["|http:".toList] [Glob.fragment false 0 "|http:".toList] = .ok b ∧
        a.isMatch "http:".toList = false ∧ b.isMatch "http:".toList = true) ∧
      permissive.category "*||a.com^".toList = (.domainExact, "a.com".toList) := by
  have hfit : Glob.Fits false "*|http:".toList := by decide
  have hfit' : Glob.Fits false "|http:".toList := by decide
  obtain ⟨a, ha, hmatch⟩ := Glob.ofFragments_of_fits hfit ["*|http:".toList]
  obtain ⟨b, hb, hmatch'⟩ := Glob.ofFragments_of_fits hfit' ["|http:".toList]
  refine ⟨by decide +kernel, ⟨a, b, ha, hb, ?_, ?_⟩, by decide +kernel⟩
  · rw [Bool.eq_false_iff, Ne, hmatch, Glob.matches_iff]
    decide +kernel
  · rw [hmatch', Glob.matches_iff]
    decide +kernel

end Policy

end UrlFilter
