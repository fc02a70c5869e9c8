import UrlFilter.Proofs.Build.Scan
import UrlFilter.Proofs.Rule.Placement
import UrlFilter.Proofs.Rule.Shape

/-!
# Anchors with nothing behind them

A line that holds asterisks alone gives no rule, and neither does a scheme for web pages with nothing behind it.
But asterisks at the ends of a pattern are taken off later, and other schemes are anchors too. So an accepted rule
may be an anchor alone; then its bucket keeps nothing of it, which matches everywhere. No other rule comes to that.
-/

namespace UrlFilter

namespace Shape

/-- The text is an anchor alone: two bars, or a scheme with its colon and slashes, behind a bar or not. -/
def IsBareAnchor (t : Text) : Prop :=
  t = "||".toList ∨ ∃ scheme : Text, scheme.length ≤ maxSchemeLength ∧ (∀ c ∈ scheme, isSchemeChar c = true) ∧
    (t = scheme ++ "://".toList ∨ t = '|' :: (scheme ++ "://".toList))

/-- What is behind a scheme and its slashes, where no bar precedes it. -/
def behindScheme? (t : Text) : Option Text :=
  if (t.takeWhile isSchemeChar).length ≤ maxSchemeLength then
    Text.after? "://".toList (t.dropWhile isSchemeChar)
  else none

variable {t : Text}

/-- A bar in front of the scheme is passed over. -/
theorem afterScheme?_bar (t : Text) : afterScheme? ('|' :: t) = behindScheme? t := rfl

/-- Without a bar in front, the scheme starts the text. -/
theorem afterScheme?_of_head? (h : t.head? ≠ some '|') : afterScheme? t = behindScheme? t := by
  unfold afterScheme?
  split
  · next rest => simp at h
  · rfl

/-- Nothing is behind a scheme exactly when the scheme, its colon and its slashes are the whole text. -/
theorem behindScheme?_eq_some_nil_iff : behindScheme? t = some [] ↔
    ∃ scheme : Text, scheme.length ≤ maxSchemeLength ∧ (∀ c ∈ scheme, isSchemeChar c = true) ∧
      t = scheme ++ "://".toList := by
  unfold behindScheme?
  rw [Option.ite_none_right_eq_some, Text.after?_eq_some_iff, List.append_nil]
  constructor
  · rintro ⟨hlength, hrest⟩
    refine ⟨t.takeWhile isSchemeChar, hlength, fun c hc => List.mem_takeWhile_imp hc, ?_⟩
    rw [← hrest, List.takeWhile_append_dropWhile]
  · rintro ⟨scheme, hlength, hscheme, rfl⟩
    have hcolon : ∀ c ∈ ("://".toList : Text).head?, isSchemeChar c = false := by
      rintro c ⟨⟩
      decide
    rw [Text.takeWhile_append_mark hscheme hcolon, Text.dropWhile_append_mark hscheme hcolon]
    exact ⟨hlength, rfl⟩

/-- The characters of a scheme are no bars. -/
theorem head?_scheme {scheme : Text} (h : ∀ c ∈ scheme, isSchemeChar c = true) :
    (scheme ++ "://".toList).head? ≠ some '|' := by
  cases scheme with
  | nil => decide
  | cons c scheme =>
    rintro ⟨⟩
    exact absurd (h '|' List.mem_cons_self) (by decide)

/-- Nothing is behind the scheme exactly when the text is a scheme with its colon and slashes, behind a bar or not. -/
theorem afterScheme?_eq_some_nil_iff : afterScheme? t = some [] ↔
    ∃ scheme : Text, scheme.length ≤ maxSchemeLength ∧ (∀ c ∈ scheme, isSchemeChar c = true) ∧
      (t = scheme ++ "://".toList ∨ t = '|' :: (scheme ++ "://".toList)) := by
  by_cases hbar : t.head? = some '|'
  · obtain ⟨rest, rfl⟩ : ∃ rest, t = '|' :: rest := by
      cases t with
      | nil => cases hbar
      | cons c rest =>
        cases hbar
        exact ⟨rest, rfl⟩
    rw [afterScheme?_bar, behindScheme?_eq_some_nil_iff]
    -- No scheme begins with a bar, so that the bar is the one in front of it.
    refine exists_congr fun scheme => and_congr_right fun _ => and_congr_right fun hscheme => ?_
    rw [List.cons.injEq, eq_self, true_and, or_iff_right]
    exact fun h => head?_scheme hscheme (h ▸ hbar)
  · rw [afterScheme?_of_head? hbar, behindScheme?_eq_some_nil_iff]
    refine exists_congr fun scheme => and_congr_right fun _ => and_congr_right fun hscheme => ?_
    rw [or_iff_left]
    rintro rfl
    exact hbar rfl

/-- Nothing is behind the anchor exactly when the text is an anchor alone. -/
theorem afterAnchor?_eq_some_nil_iff : afterAnchor? t = some [] ↔ IsBareAnchor t := by
  rw [IsBareAnchor, ← afterScheme?_eq_some_nil_iff, afterAnchor?, Option.or_eq_some_iff,
    Text.after?_eq_some_iff, List.append_nil]
  refine or_congr_right (and_iff_right_of_imp fun hscheme => ?_)
  -- Behind two bars there is no scheme, for a bar does not belong to one.
  cases hbars : Text.after? "||".toList t with
  | none => rfl
  | some rest =>
    rw [Text.after?_eq_some_iff.mp hbars] at hscheme
    cases hscheme

/-- A host is not found where there is nothing. -/
theorem ne_nil_of_hostOnly? {rest host : Text} (h : hostOnly? rest = some host) : rest ≠ [] := by
  rintro rfl
  cases h

/-- Nor is a page. -/
theorem ne_nil_of_cutEnd {rest body : Text} {atEnd : Bool} (hend : cutEnd rest = (atEnd, body))
    (hpath : isHostPath body = true) : rest ≠ [] := by
  rintro rfl
  cases hend
  cases hpath

end Shape

namespace Policy

variable {p : Policy} {s : Section} {text pattern kept : Text} {n : Nat} {rule : Rule} {c : Category}

/-- A pattern that does not consist of asterisks is kept as nothing exactly when nothing is behind its anchor. -/
theorem Places.eq_nil_iff (h : p.Places pattern c kept) (hraw : c ≠ .rawPattern)
    (hblank : Text.trimChar '*' pattern ≠ []) :
    kept = [] ↔ Shape.afterAnchor? (Text.trimChar '*' pattern) = some [] := by
  cases h with
  | raw => exact absurd rfl hraw
  | fragment _ hanchor => simp [hblank, hanchor]
  -- A pattern that names a host or a page keeps what it names, and had it behind its anchor.
  | host _ hanchor honly =>
    rw [hanchor, Option.some.injEq, Text.lower_eq_nil_iff]
    exact iff_of_false (Shape.ne_nil_of_isHost (Shape.hostOnly?_eq_some_iff.mp honly).2)
      (Shape.ne_nil_of_hostOnly? honly)
  | starredHost _ hanchor honly =>
    rw [hanchor, Option.some.injEq]
    exact iff_of_false (Shape.ne_nil_of_isHost (Shape.hostOnly?_eq_some_iff.mp honly).2)
      (Shape.ne_nil_of_hostOnly? honly)
  | page _ hanchor _ hend hpath =>
    rw [hanchor, Option.some.injEq, Shape.lowerHost_eq_nil_iff]
    exact iff_of_false (Shape.ne_nil_of_isHostPath hpath) (Shape.ne_nil_of_cutEnd hend hpath)
  | starredPage _ hanchor _ hend hpath =>
    rw [hanchor, Option.some.injEq, List.append_eq_nil_iff]
    exact iff_of_false (fun h => Shape.ne_nil_of_isHostPath hpath h.1) (Shape.ne_nil_of_cutEnd hend hpath)
  | generic _ hanchor => rw [hanchor, Option.some.injEq]

/-- An anchor alone, without asterisks around it, comes to the patterns over addresses. -/
theorem Places.category_of_bare (h : p.Places pattern c kept)
    (hbare : Shape.IsBareAnchor (Text.trimChar '*' pattern)) (hraw : c ≠ .rawPattern) :
    c = .domainGenericPattern := by
  have hnothing := Shape.afterAnchor?_eq_some_nil_iff.mpr hbare
  -- Behind an anchor alone there is neither a host nor a page, and a fragment has no anchor at all.
  cases h with
  | raw => exact absurd rfl hraw
  | fragment _ hanchor => cases hnothing.symm.trans hanchor
  | host _ hanchor honly | starredHost _ hanchor honly =>
    cases hnothing.symm.trans hanchor
    exact absurd rfl (Shape.ne_nil_of_hostOnly? honly)
  | page _ hanchor _ hend hpath | starredPage _ hanchor _ hend hpath =>
    cases hnothing.symm.trans hanchor
    exact absurd rfl (Shape.ne_nil_of_cutEnd hend hpath)
  | generic => rfl

/-- The rule that a judged pattern becomes keeps the pattern as it is. -/
theorem pattern_of_judge {isException : Bool} {options : Text}
    (h : p.judge isException pattern options n = .ok rule) : rule.pattern = pattern := by
  unfold judge at h
  split at h
  · cases h
  · repeat' split at h
    all_goals cases h
    rfl

/-- The pattern of an accepted line does not consist of asterisks. -/
theorem trimChar_ne_nil_of_readLine (h : (p.readLine s text n).result = .ok rule) :
    Text.trimChar '*' rule.pattern ≠ [] := by
  unfold readLine at h
  dsimp only at h
  split at h
  · cases h
  split at h
  · cases h
  split at h
  · cases h
  split at h
  · cases h
  · next hblank =>
    -- The line is judged after its asterisks have been looked at.
    cases s with
    | ignoring n => cases h
    | scanning =>
      rw [pattern_of_judge h]
      simpa using hblank

/-- What is kept as nothing matches everywhere. -/
theorem matchesAlone_nil (t : Text) : Build.matchesAlone .domainGenericPattern [] t = true := by
  have hfit : Glob.Fits Category.domainGenericPattern.isAnchored [] := by decide
  refine (Build.matchesAlone_iff (by decide) rfl).mpr ⟨hfit, Regex.Cursor.start t, ?_⟩
  exact ⟨Regex.Cursor.onwards_refl _, fun _ => rfl, _, .nil _, .nil _⟩

/-- The bucket keeps nothing of an accepted rule exactly when the rule is an anchor alone, apart from asterisks at
its ends. Such a rule matches everywhere. -/
theorem place_eq_nil_iff (hread : (p.readLine s text n).result = .ok rule)
    (hraw : (p.place rule).bucket.category ≠ .rawPattern) :
    ((p.place rule).pattern = [] ↔ Shape.IsBareAnchor (Text.trimChar '*' rule.pattern)) ∧
      (Shape.IsBareAnchor (Text.trimChar '*' rule.pattern) →
        (p.place rule).bucket.category = .domainGenericPattern ∧
          ∀ t, Build.matchesAlone (p.place rule).bucket.category (p.place rule).pattern t = true) := by
  have hplaces : p.Places rule.pattern (p.place rule).bucket.category (p.place rule).pattern :=
    p.places_category rule.pattern
  have hblank := trimChar_ne_nil_of_readLine hread
  have hnil := hplaces.eq_nil_iff hraw hblank
  rw [Shape.afterAnchor?_eq_some_nil_iff] at hnil
  refine ⟨hnil, fun hbare => ?_⟩
  have hcategory := hplaces.category_of_bare hbare hraw
  rw [hnil.mpr hbare, hcategory]
  exact ⟨rfl, matchesAlone_nil⟩

/-- An exception with an option, whose pattern is a scheme behind a bar and an asterisk. -/
theorem place_eq_nil_iff_sample :
    (permissive.readLine .scanning "@@|https://*$image".toList 3).result =
        .ok ⟨"|https://*".toList, [.image], true, 3⟩ ∧
      (permissive.place ⟨"|https://*".toList, [.image], true, 3⟩).pattern = [] ∧
      ∀ t, Build.matchesAlone (permissive.place ⟨"|https://*".toList, [.image], true, 3⟩).bucket.category
        (permissive.place ⟨"|https://*".toList, [.image], true, 3⟩).pattern t = true := by
  have hread : (permissive.readLine .scanning "@@|https://*$image".toList 3).result =
      .ok ⟨"|https://*".toList, [.image], true, 3⟩ := by decide +kernel
  have hbare : Shape.IsBareAnchor (Text.trimChar '*' "|https://*".toList) :=
    .inr ⟨"https".toList, by decide, List.all_eq_true.mp (by decide), .inr rfl⟩
  obtain ⟨hnil, hmatch⟩ := place_eq_nil_iff hread (by decide +kernel)
  exact ⟨hread, hnil.mpr hbare, (hmatch hbare).2⟩

/-- A scheme behind a bar and two bars alone come from accepted lines, and nothing of them is kept. -/
theorem bare_anchors_are_kept :
    (permissive.readLine .scanning "|https://*".toList 0).result = .ok ⟨"|https://*".toList, [], false, 0⟩ ∧
      permissive.place ⟨"|https://*".toList, [], false, 0⟩ = ⟨⟨.domainGenericPattern, .bad⟩, [], [], 0, false⟩ ∧
      (permissive.readLine .scanning "||".toList 0).result = .ok ⟨"||".toList, [], false, 0⟩ ∧
      permissive.place ⟨"||".toList, [], false, 0⟩ = ⟨⟨.domainGenericPattern, .bad⟩, [], [], 0, false⟩ := by
  decide +kernel

end Policy

end UrlFilter
