import UrlFilter.Proofs.Policy.Settings
import UrlFilter.Proofs.Regex.Escaped
import UrlFilter.Proofs.Text.Trimming
import UrlFilter.Rule.Admission

/-!
# Lists of texts as unions

The texts of a list are each checked alone, and then joined as the branches of one group. As long as each of them
leaves the modes as it found them, the joined pattern matches as one of the texts does alone: their order does not
matter, and one more of them never keeps a rule out. But the modes that a text switches outside of groups of its own
hold in all texts behind it.
-/

namespace UrlFilter

open Regex (Encloses Keeps IsUnion)

/-- The texts that are joined leave the modes as they found them. -/
def Settings.KeepsModes (s : Settings) : Prop :=
  (∀ e ∈ s.contentKeywords, Keeps { ignoreCase := true } e) ∧
    ∀ e ∈ s.pathExtensions, Keeps { ignoreCase := true } e

namespace Policy

/-! ## What stands around the groups -/

/-- Keywords for contents are enclosed in a pattern that ignores case. -/
theorem encloses_content : Encloses "(?i)".toList "".toList { ignoreCase := true } [.switch] [] where
  spaced := rfl
  opens u := .sign rfl rfl rfl (Nat.lt_add_of_pos_right (n := u.length) (by decide : 0 < 4))
  closes _ _ := .refl _ _

/-- Marks of sections are enclosed in nothing else. -/
theorem encloses_sections : Encloses "".toList "".toList {} [] [] where
  spaced := rfl
  opens _ := .refl _ _
  closes _ _ := .refl _ _

/-- Extensions are enclosed between a dot and the end, ignoring case. -/
theorem encloses_extensions : Encloses "(?i)\\.".toList "$".toList { ignoreCase := true }
    [.node (.one (.alike '.')) 0, .switch] [.node (.look .textEnd) 0] where
  spaced := rfl
  opens _ := .trans (.sign rfl rfl rfl (Nat.lt_add_of_pos_right (by decide : 0 < 4)))
    (.sign rfl rfl rfl (Nat.lt_add_of_pos_right Nat.two_pos))
  closes _ _ := .sign rfl rfl rfl (by simp)

section
variable {field before after : String} {m : Regex.Modes} {front behind : List Regex.Part} {ts : List Text}
  {o : Option Regex}

/-- Texts that are joined are the pattern that is compiled of them between the two others. -/
theorem compile?_of_joined (hne : ts ≠ []) (hok : joined field before after ts = .ok o) :
    ∃ r, o = some r ∧ Regex.compile? false Regex.usualLimit (before.toList ++ (choice ts ++ after.toList)) = some r := by
  rw [joined_eq_ok_iff, if_neg hne] at hok
  obtain ⟨-, r, hr, ho⟩ := hok
  exact ⟨r, ho, hr⟩

/-- The order of the texts of a field does not matter to whether they are joined. -/
theorem joined_of_perm (h : Encloses before.toList after.toList m front behind) (hts : ∀ t ∈ ts, Keeps m t)
    {ts' : List Text} (hperm : ts'.Perm ts) (hok : joined field before after ts = .ok o) :
    ∃ o', joined field before after ts' = .ok o' := by
  by_cases hne : ts = []
  · obtain rfl := hne
    obtain rfl := List.perm_nil.mp hperm
    exact ⟨o, hok⟩
  · have hne' : ts' ≠ [] := fun hnil => hne (List.nil_perm.mp (hnil ▸ hperm))
    obtain ⟨r, -, hr⟩ := compile?_of_joined hne hok
    rw [joined_eq_ok_iff, if_neg hne] at hok
    obtain ⟨r', hr'⟩ := Option.isSome_iff_exists.mp (h.isSome_of_perm hts hne hperm (Option.isSome_of_eq_some hr))
    refine ⟨some r', ?_⟩
    rw [joined_eq_ok_iff, if_neg hne']
    exact ⟨fun t ht => hok.1 t (hperm.mem_iff.mp ht), r', hr', rfl⟩

end

/-! ## What the lists mean -/

/-- The joined texts of settings mean in the policy what they mean one by one. -/
structure Unites (p : Policy) (s : Settings) : Prop where
  content : s.contentKeywords ≠ [] → ∃ r, p.contentFilter = some r ∧
    r.IsUnion (s.contentKeywords.map (Regex.compile? true Regex.usualLimit))
  sections : s.ignoredSections ≠ [] → ∃ r, sectionMarks s = .ok (some r) ∧
    ∀ c, (r.isMatch c = true ↔ ∃ mark ∈ s.ignoredSections, mark <:+: c) ∧ p.opensIgnored c = r.isMatch c
  extensions : s.pathExtensions ≠ [] → ∃ r, p.pathExtensions = some r ∧
    r.IsUnion (s.pathExtensions.map fun e => Regex.alone? ("(?i)\\.(?:".toList ++ e ++ ")$".toList))

/-- Policies that differ in joined texts alone, and by them accept and match the same. -/
structure MatchesLike (p' p : Policy) : Prop where
  content : ∀ t, p'.contentFilter.map (·.isMatch t) = p.contentFilter.map (·.isMatch t)
  sections : ∀ c, p'.opensIgnored c = p.opensIgnored c
  extensions : ∀ t, p'.namesFile t = p.namesFile t
  rest : p' = { p with
    contentFilter := p'.contentFilter
    ignoredSections := p'.ignoredSections
    pathExtensions := p'.pathExtensions }

variable {s s' : Settings} {p p' : Policy}

/-- A comment opens a section when it has one of the marks. -/
theorem opensIgnored_iff {c : Text} : p.opensIgnored c = true ↔ ∃ mark ∈ p.ignoredSections, mark <:+: c := by
  simp only [opensIgnored, List.any_eq_true, Text.occursIn_iff]

/-- A policy matches what the entries of its settings do, where these keep modes. -/
theorem unites_of_ofSettings (h : ofSettings s = .ok p) (hkeeps : s.KeepsModes) : p.Unites s := by
  obtain ⟨hcontent, ⟨marks, hmarks⟩, hextensions, -, -, -, -, hrest⟩ := ofSettings_eq_ok_iff.mp h
  refine ⟨fun hne => ?_, fun hne => ?_, fun hne => ?_⟩
  · -- The keywords.
    obtain ⟨r, ho, hr⟩ := compile?_of_joined hne hcontent
    exact ⟨r, ho, encloses_content.isUnion_alone rfl hkeeps.1 hne hr⟩
  · -- The marks, of which each is a pattern that matches itself alone.
    have hne' : s.ignoredSections.map Regex.escape ≠ [] := by simpa using hne
    obtain ⟨r, rfl, hr⟩ := compile?_of_joined hne' hmarks
    have hunion : r.IsUnion ((s.ignoredSections.map Regex.escape).map (Regex.compile? false Regex.usualLimit)) :=
      encloses_sections.isUnion_alone rfl (by simp [Regex.keeps_escape]) hne' hr
    have hmatch (c : Text) : r.isMatch c = true ↔ ∃ mark ∈ s.ignoredSections, mark <:+: c := by
      rw [hunion.isMatch_iff]
      simp only [List.map_map, List.mem_map, Function.comp_apply, exists_exists_and_eq_and]
      refine exists_congr fun mark => and_congr_right fun hmark => ?_
      obtain ⟨r', hr'⟩ := Option.isSome_iff_exists.mp (hunion.accepted _
        (List.mem_map_of_mem (List.mem_map_of_mem hmark)))
      rw [hr', Option.any_some, Regex.eq_literally_of_compile? hr', Regex.isMatch_literally]
    have hsections : p.ignoredSections = s.ignoredSections := congrArg Policy.ignoredSections hrest
    refine ⟨r, hmarks, fun c => ⟨hmatch c, Bool.eq_iff_iff.mpr ?_⟩⟩
    rw [opensIgnored_iff, hmatch, hsections]
  · -- The extensions.
    obtain ⟨r, ho, hr⟩ := compile?_of_joined hne hextensions
    have hunion := encloses_extensions.isUnion hkeeps.2 hne hr
    have htext (e : Text) : "(?i)\\.(?:".toList ++ e ++ ")$".toList =
        "(?i)\\.".toList ++ (choice [e] ++ "$".toList) := by
      simp [choice, Text.join]
    refine ⟨r, ho, ?_⟩
    simp only [htext]
    exact hunion

/-- A field whose texts come in another order matches the same. -/
theorem isMatch_eq_of_perm {field before after : String} {ts ts' : List Text} {o o' : Option Regex}
    {f : Text → Option Regex} (hok : joined field before after ts = .ok o)
    (hok' : joined field before after ts' = .ok o') (hperm : ts'.Perm ts)
    (h : ts ≠ [] → ∃ r, o = some r ∧ r.IsUnion (ts.map f)) (h' : ts' ≠ [] → ∃ r, o' = some r ∧ r.IsUnion (ts'.map f))
    (t : Text) : o'.map (·.isMatch t) = o.map (·.isMatch t) := by
  by_cases hne : ts = []
  · obtain rfl := hne
    obtain rfl := List.perm_nil.mp hperm
    obtain rfl : o = o' := Except.ok.inj (hok.symm.trans hok')
    rfl
  · have hne' : ts' ≠ [] := fun hnil => hne (List.nil_perm.mp (hnil ▸ hperm))
    obtain ⟨r, rfl, hr⟩ := h hne
    obtain ⟨r', rfl, hr'⟩ := h' hne'
    simp only [Option.map_some, hr.isMatch_eq_of_perm hr' (hperm.map f) t]

/-- Settings whose joined texts come in another order make a policy that matches the same. -/
theorem exists_matchesLike_of_perm (h : ofSettings s = .ok p) (hkeeps : s.KeepsModes) {ks ms es : List Text}
    (hks : ks.Perm s.contentKeywords) (hms : ms.Perm s.ignoredSections) (hes : es.Perm s.pathExtensions) :
    ∃ p', ofSettings { s with contentKeywords := ks, ignoredSections := ms, pathExtensions := es } = .ok p' ∧
      p'.MatchesLike p := by
  obtain ⟨hcontent, ⟨marks, hmarks⟩, hextensions, hignored, hhigh, hranking, hpreferences, hrest⟩ :=
    ofSettings_eq_ok_iff.mp h
  obtain ⟨content, hcontent'⟩ := joined_of_perm encloses_content hkeeps.1 hks hcontent
  obtain ⟨marks', hmarks'⟩ := joined_of_perm encloses_sections (by simp [Regex.keeps_escape])
    (hms.map Regex.escape) hmarks
  obtain ⟨extensions, hextensions'⟩ := joined_of_perm encloses_extensions hkeeps.2 hes hextensions
  -- Nothing else in the policy depends on the three fields.
  let reordered (q : Policy) : Policy :=
    { q with contentFilter := content, ignoredSections := ms, pathExtensions := extensions }
  have h' : ofSettings { s with contentKeywords := ks, ignoredSections := ms, pathExtensions := es } =
      .ok (reordered p) :=
    ofSettings_eq_ok_iff.mpr ⟨hcontent', ⟨marks', hmarks'⟩, hextensions', hignored, hhigh, hranking, hpreferences,
      congrArg reordered hrest⟩
  have hunites := unites_of_ofSettings h hkeeps
  have hunites' := unites_of_ofSettings h'
    ⟨fun e he => hkeeps.1 e (hks.mem_iff.mp he), fun e he => hkeeps.2 e (hes.mem_iff.mp he)⟩
  refine ⟨reordered p, h', ?_, fun c => ?_, fun t => ?_, rfl⟩
  · exact isMatch_eq_of_perm hcontent hcontent' hks hunites.content hunites'.content
  · have hsections : p.ignoredSections = s.ignoredSections := congrArg Policy.ignoredSections hrest
    rw [Bool.eq_iff_iff, opensIgnored_iff, opensIgnored_iff, hsections]
    exact exists_congr fun mark => and_congr_left fun _ => hms.mem_iff
  · have hmap := isMatch_eq_of_perm hextensions hextensions' hes hunites.extensions hunites'.extensions t
    have hany (o : Option Regex) : o.any (·.isMatch t) = (o.map (·.isMatch t)).any id := by cases o <;> rfl
    rw [namesFile, namesFile, hany, hany]
    exact congrArg (Option.any id) hmap

/-- Other keywords change the content filter alone. -/
theorem eq_of_keywords (h : ofSettings s = .ok p) {ks : List Text}
    (h' : ofSettings { s with contentKeywords := ks } = .ok p') : p' = { p with contentFilter := p'.contentFilter } := by
  obtain ⟨-, -, hextensions, hignored, hhigh, hranking, hpreferences, hrest⟩ := ofSettings_eq_ok_iff.mp h
  obtain ⟨-, -, hextensions', hignored', hhigh', hranking', hpreferences', hrest'⟩ := ofSettings_eq_ok_iff.mp h'
  cases p
  cases p'
  simp only [Policy.mk.injEq] at hrest hrest' ⊢
  simp_all

/-- With more keywords, no rule is kept out that was admitted. -/
theorem obstacle?_of_subset (h : ofSettings s = .ok p) (hkeeps : s.KeepsModes) (hne : s.contentKeywords ≠ [])
    {ks : List Text} (hsub : s.contentKeywords ⊆ ks) (hks : ∀ k ∈ ks, Keeps { ignoreCase := true } k)
    (h' : ofSettings { s with contentKeywords := ks } = .ok p') {r : Placed} (hr : p.obstacle? r = none) :
    p'.obstacle? r = none := by
  obtain ⟨x, hx, hunion⟩ := (unites_of_ofSettings h hkeeps).content hne
  obtain ⟨x', hx', hunion'⟩ := (unites_of_ofSettings h' ⟨hks, hkeeps.2⟩).content
    fun hnil => hne (List.subset_nil.mp (hnil ▸ hsub))
  have hsame := eq_of_keywords h h'
  have hdrop : p'.dropOptionedPatterns = p.dropOptionedPatterns := by rw [hsame]
  have hhigh : p'.highValueOptions = p.highValueOptions := by rw [hsame]
  -- More keywords admit more rules, and no other obstacle looks at them.
  have hwanted : p.isWanted r = true → p'.isWanted r = true := by
    simp only [isWanted, hx, hx', Option.all_some, Bool.or_eq_true, hhigh]
    exact Or.imp_right (hunion.mono hunion' (List.map_subset _ hsub))
  simp only [obstacle?, Option.or_eq_none_iff] at hr ⊢
  refine ⟨?_, hr.2⟩
  have hrefusal := hr.1
  simp only [refusal?, hdrop] at hrefusal ⊢
  grind

/-- Joined texts that leave the modes as they found them mean what they mean one by one. So their order does not
matter, and one more keyword keeps no rule out. -/
theorem unites_of_keepsModes (h : ofSettings s = .ok p) (hkeeps : s.KeepsModes) :
    p.Unites s ∧
      (∀ ks ms es : List Text, ks.Perm s.contentKeywords → ms.Perm s.ignoredSections → es.Perm s.pathExtensions →
        ∃ p', ofSettings { s with contentKeywords := ks, ignoredSections := ms, pathExtensions := es } = .ok p' ∧
          p'.MatchesLike p) ∧
      ∀ (ks : List Text) (p' : Policy), s.contentKeywords ≠ [] → s.contentKeywords ⊆ ks →
        (∀ k ∈ ks, Keeps { ignoreCase := true } k) → ofSettings { s with contentKeywords := ks } = .ok p' →
          p' = { p with contentFilter := p'.contentFilter } ∧ ∀ r, p.obstacle? r = none → p'.obstacle? r = none :=
  ⟨unites_of_ofSettings h hkeeps, fun _ _ _ => exists_matchesLike_of_perm h hkeeps,
    fun _ _ hne hsub hks h' => ⟨eq_of_keywords h h', fun _ => obstacle?_of_subset h hkeeps hne hsub hks h'⟩⟩

/-- Settings with these texts to join, which limit and prefer nothing. -/
def joining (keywords sections extensions : List Text) : Settings where
  maxExactRules := none
  maxPatternRules := none
  maxWildcards := none
  includeExceptions := true
  dropOptionedPatterns := false
  ignoredOptions := []
  highValueOptions := []
  contentKeywords := keywords
  rankingKeywords := []
  wildcardPreferences := []
  ignoredSections := sections
  pathExtensions := extensions
  pinnedRules := []
  blockedHosts := []

/-- Two keywords, of which one switches modes in a group of its own; marks with signs; extensions. -/
def kept : Settings :=
  joining ["(?-i:T)rack".toList, "banner".toList] ["*** German".toList, "(old)".toList] ["js".toList, "html?".toList]

/-- The same keywords, and one more between them. -/
def keptWithMore : Settings :=
  joining ["(?-i:T)rack".toList, "ads?".toList, "banner".toList] kept.ignoredSections kept.pathExtensions

/-- Settings with modes inside of groups keep modes, and so their policy matches what each entry does. -/
theorem unites_of_keepsModes_sample :
    kept.KeepsModes ∧ ∃ p, ofSettings kept = .ok p ∧ p.Unites kept ∧
      (∃ p', ofSettings (joining ["banner".toList, "(?-i:T)rack".toList] ["(old)".toList, "*** German".toList]
          ["html?".toList, "js".toList]) = .ok p' ∧ p'.MatchesLike p) ∧
      ∃ p', ofSettings keptWithMore = .ok p' ∧ p' = { p with contentFilter := p'.contentFilter } ∧
        ∀ r, p.obstacle? r = none → p'.obstacle? r = none := by
  have hkeeps : kept.KeepsModes := by
    constructor <;> decide +kernel
  have hok : (ofSettings kept).toOption.map (fun _ => ()) = some () := by decide +kernel
  have hok' : (ofSettings keptWithMore).toOption.map (fun _ => ()) = some () := by decide +kernel
  obtain ⟨p, hp, -⟩ := exists_of_toOption_map hok
  obtain ⟨p', hp', -⟩ := exists_of_toOption_map hok'
  obtain ⟨hunites, horder, hmore⟩ := unites_of_keepsModes hp hkeeps
  refine ⟨hkeeps, p, hp, hunites, horder _ _ _ (by decide) (by decide) (by decide), p', hp', ?_⟩
  exact hmore keptWithMore.contentKeywords p' (by decide) (by decide) (by decide +kernel) hp'

/-- A keyword that heeds case outside of groups of its own makes those behind it heed case. Alone and in front of it
the other keyword matches; behind it no more, and a rule is kept out that was admitted. -/
theorem switched_modes_go_on :
    (Regex.compile? true Regex.usualLimit "banner".toList).map (·.isMatch "BANNER".toList) = some true ∧
      (∃ p, ofSettings (joining ["banner".toList, "(?-i)track".toList] [] []) = .ok p ∧
        p.contentFilter.map (·.isMatch "BANNER".toList) = some true) ∧
      ∃ p p', ofSettings (joining ["banner".toList] [] []) = .ok p ∧
        ofSettings (joining ["(?-i)track".toList, "banner".toList] [] []) = .ok p' ∧
        p'.contentFilter.map (·.isMatch "BANNER".toList) = some false ∧
        ∃ r : Placed, p.obstacle? r = none ∧ p'.obstacle? r = some .contentFilter := by
  let r : Placed := { bucket := ⟨.urlFragment, .bad⟩, pattern := "BANNER".toList }
  have hfront : (ofSettings (joining ["banner".toList, "(?-i)track".toList] [] [])).toOption.map
      (fun p => p.contentFilter.map (·.isMatch "BANNER".toList)) = some (some true) := by decide +kernel
  have halone : (ofSettings (joining ["banner".toList] [] [])).toOption.map (fun p => p.obstacle? r) =
      some none := by decide +kernel
  have hbehind : (ofSettings (joining ["(?-i)track".toList, "banner".toList] [] [])).toOption.map
      (fun p => (p.contentFilter.map (·.isMatch "BANNER".toList), p.obstacle? r)) =
        some (some false, some .contentFilter) := by decide +kernel
  obtain ⟨p, hp, hadmitted⟩ := exists_of_toOption_map halone
  obtain ⟨p', hp', hkept⟩ := exists_of_toOption_map hbehind
  obtain ⟨hmatch, hobstacle⟩ := Prod.mk.inj hkept
  exact ⟨by decide +kernel, exists_of_toOption_map hfront, p, p', hp, hp', hmatch, r, hadmitted, hobstacle⟩

end Policy

end UrlFilter
