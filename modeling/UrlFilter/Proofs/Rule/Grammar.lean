import Mathlib.Computability.Language
import UrlFilter.Proofs.Build.Buckets
import UrlFilter.Proofs.Rule.Placement
import UrlFilter.Proofs.Rule.Shape
import UrlFilter.Proofs.Text.Lower

/-!
# The grammar of hosts and pages

The languages of the texts that name a host, or a host and a path. The tests for them read a text once, from its end
or from its start, and never go back: the test of hosts cuts at the last dot, that of pages stops at the first dot that
a last label may follow. Each of them is an equation between languages, which has one solution (Arden's lemma).
-/

open Computability

namespace UrlFilter

/-! ## The languages -/

namespace Shape

/-- Letters and numbers of all scripts, `_`, `*` and `-`. -/
def labelChars : Set Char := {c | Unicode.isAlphanumeric c = true} ∪ {'_', '*', '-'}

/-- The letters and digits of ASCII, `*` and `-`. -/
def topChars : Set Char := {c | Text.isAsciiAlphanumeric c = true} ∪ {'*', '-'}

/-- The characters of labels, and `~`, `%`, `.`, `/` and `^`. -/
def pathChars : Set Char := labelChars ∪ {'~', '%', '.', '/', '^'}

/-- At least one character, all of a set. -/
def runs (s : Set Char) : Language Char := {t | t ≠ [] ∧ ∀ c ∈ t, c ∈ s}

/-- At most one character, of a list. -/
def atMostOne (cs : List Char) : Language Char := {t | t = [] ∨ ∃ c ∈ cs, t = [c]}

/-- A label with its dot. -/
def dottedLabel : Language Char := runs labelChars * {['.']}

/-- One label with its dot, or several. -/
def dottedLabels : Language Char := dottedLabel * dottedLabel∗

/-- Last labels, of at most 24 characters. -/
def tops : Language Char := {t | t ∈ runs topChars ∧ t.length ≤ 24}

/-- Labels with a dot behind each, and a last label of at most 24 characters; a dot may follow. -/
def hostGrammar : Language Char := dottedLabels * tops * atMostOne ['.']

/-- Labels with a dot behind each, a last label and a path; a question mark may follow. -/
def pageGrammar : Language Char := dottedLabels * tops * runs pathChars * atMostOne ['?']

end Shape

namespace Text

variable {t : Text}

/-- To drop a last character of some kind is to allow for one, where no text of the language ends in one. -/
theorem dropLastIf_mem_iff {p : Char → Bool} {cs : List Char} {L : Language Char}
    (hp : ∀ c, p c = true ↔ c ∈ cs) (hL : ∀ s c, s ++ [c] ∈ L → c ∉ cs) :
    dropLastIf p t ∈ L ↔ t ∈ L * Shape.atMostOne cs := by
  rw [Language.mem_mul]
  constructor
  · intro hmem
    rcases dropLastIf_eq_or p t with heq | ⟨c, hc, heq⟩
    · exact ⟨t, heq ▸ hmem, [], .inl rfl, List.append_nil t⟩
    · exact ⟨_, hmem, [c], .inr ⟨c, (hp c).mp hc, rfl⟩, heq⟩
  · -- Without such an end, the last character is that of a text of the language, and stays.
    rintro ⟨s, hs, _, rfl | ⟨c, hc, rfl⟩, rfl⟩
    · rw [List.append_nil]
      rcases List.eq_nil_or_concat s with rfl | ⟨s, c, rfl⟩
      · exact hs
      · rw [List.concat_eq_append] at hs ⊢
        rwa [dropLastIf_concat, if_neg fun hc => hL s c hs ((hp c).mp hc)]
    · rwa [dropLastIf_concat, if_pos ((hp c).mpr hc)]

end Text

namespace Shape

variable {t rest : Text} {c : Char}

/-! ## Characters -/

/-- The test of the characters of labels is their set. -/
theorem isLabelChar_iff : isLabelChar c = true ↔ c ∈ labelChars := by
  simp only [isLabelChar, labelChars, Bool.or_eq_true, beq_iff_eq, Set.mem_union, Set.mem_ofPred_eq,
    Set.mem_insert_iff, Set.mem_singleton_iff, or_assoc]

/-- The test of the characters of last labels is their set. -/
theorem isTopChar_iff : isTopChar c = true ↔ c ∈ topChars := by
  simp only [isTopChar, topChars, Bool.or_eq_true, beq_iff_eq, Set.mem_union, Set.mem_ofPred_eq,
    Set.mem_insert_iff, Set.mem_singleton_iff, or_assoc]

/-- The test of the characters of paths is their set. -/
theorem isPathChar_iff : isPathChar c = true ↔ c ∈ pathChars := by
  simp only [isPathChar, Bool.or_eq_true, isLabelChar_iff, beq_iff_eq, pathChars, Set.mem_union, Set.mem_insert_iff,
    Set.mem_singleton_iff, or_assoc]

/-- A last label is made of characters of labels. -/
theorem topChars_subset : topChars ⊆ labelChars := fun _ h =>
  isLabelChar_iff.mp (isLabelChar_of_isTopChar (isTopChar_iff.mpr h))

/-- A dot is no character of labels. -/
theorem dot_notMem_labelChars : '.' ∉ labelChars := by
  rw [← isLabelChar_iff]
  decide

/-- The tests of a label say that it is a run of characters of labels. -/
theorem mem_runs_labelChars_iff {l : Text} :
    (!l.isEmpty && l.all isLabelChar) = true ↔ l ∈ runs labelChars := by
  rw [Bool.and_eq_true, Bool.not_eq_true', List.isEmpty_eq_false_iff, List.all_eq_true]
  exact and_congr_right fun _ => forall₂_congr fun _ _ => isLabelChar_iff

/-- The tests of a last label say that it is one. -/
theorem mem_tops_iff {top : Text} :
    (!top.isEmpty && decide (top.length ≤ maxTopLength) && top.all isTopChar) = true ↔ top ∈ tops := by
  simp only [Bool.and_eq_true, Bool.not_eq_true', List.isEmpty_eq_false_iff, List.all_eq_true, decide_eq_true_eq,
    isTopChar_iff]
  exact and_right_comm

/-- A label has no dot. -/
theorem dot_notMem_of_mem_runs {l : Text} (h : l ∈ runs labelChars) : '.' ∉ l :=
  fun hmem => dot_notMem_labelChars (h.2 _ hmem)

/-- A last label has no dot. -/
theorem dot_notMem_of_mem_tops {top : Text} (h : top ∈ tops) : '.' ∉ top :=
  fun hmem => dot_notMem_labelChars (topChars_subset (h.1.2 _ hmem))

/-! ## Labels -/

/-- A label with its dot is a run of characters of labels and a dot. -/
theorem mem_dottedLabel_iff : t ∈ dottedLabel ↔ ∃ l ∈ runs labelChars, l ++ ['.'] = t := by
  rw [dottedLabel, Language.mem_mul]
  constructor
  · rintro ⟨l, hl, _, rfl, heq⟩
    exact ⟨l, hl, heq⟩
  · rintro ⟨l, hl, heq⟩
    exact ⟨l, hl, ['.'], rfl, heq⟩

/-- A label with its dot is not empty. -/
theorem nil_notMem_dottedLabel : [] ∉ dottedLabel := by
  rw [mem_dottedLabel_iff]
  rintro ⟨l, -, h⟩
  exact List.append_ne_nil_of_right_ne_nil l (List.cons_ne_nil '.' []) h

/-- The texts before a dot whose parts between dots are labels. -/
def labelParts : Language Char := {t | ∃ s, (∀ l ∈ Text.parts '.' s, l ∈ runs labelChars) ∧ s ++ ['.'] = t}

/-- Either there is one label, or the first one is followed by more. -/
theorem labelParts_eq_mul_add : labelParts = dottedLabel * labelParts + dottedLabel := by
  ext t
  rw [Language.mem_add, Language.mem_mul]
  constructor
  · rintro ⟨s, hs, rfl⟩
    -- The first dot ends the first part, and behind it the parts are the others.
    cases hsplit : Text.splitFirst '.' s with
    | none =>
      rw [Text.parts_of_notMem (Text.splitFirst_eq_none_iff.mp hsplit), List.forall_mem_singleton] at hs
      exact .inr (mem_dottedLabel_iff.mpr ⟨s, hs, rfl⟩)
    | some ends =>
      obtain ⟨l, s'⟩ := ends
      have hl := Text.notMem_of_splitFirst hsplit
      rw [Text.eq_append_of_splitFirst hsplit, Text.parts_append_mark hl, List.forall_mem_cons] at hs
      refine .inl ⟨_, mem_dottedLabel_iff.mpr ⟨l, hs.1, rfl⟩, _, ⟨s', hs.2, rfl⟩, ?_⟩
      simp [Text.eq_append_of_splitFirst hsplit]
  · rintro (⟨_, hlabel, _, ⟨s, hs, rfl⟩, rfl⟩ | hlabel)
    · obtain ⟨l, hl, rfl⟩ := mem_dottedLabel_iff.mp hlabel
      refine ⟨l ++ '.' :: s, ?_, by simp⟩
      rw [Text.parts_append_mark (dot_notMem_of_mem_runs hl), List.forall_mem_cons]
      exact ⟨hl, hs⟩
    · obtain ⟨l, hl, rfl⟩ := mem_dottedLabel_iff.mp hlabel
      refine ⟨l, ?_, rfl⟩
      rwa [Text.parts_of_notMem (dot_notMem_of_mem_runs hl), List.forall_mem_singleton]

/-- The texts whose parts at the dots are labels, the last part being empty, are the labels with dots. -/
theorem labelParts_eq : labelParts = dottedLabels := by
  -- No label with its dot is empty, so the equation has one solution.
  rw [(Language.self_eq_mul_add_iff nil_notMem_dottedLabel).mp labelParts_eq_mul_add, dottedLabels,
    Language.mul_self_kstar_comm]

/-- Labels with dots are made of characters that a path may have. -/
theorem mem_pathChars_of_mem_dottedLabels (h : t ∈ dottedLabels) (hc : c ∈ t) : c ∈ pathChars := by
  rw [← labelParts_eq] at h
  obtain ⟨s, hs, rfl⟩ := h
  by_cases hdot : c = '.'
  · simp [hdot, pathChars]
  · obtain ⟨l, hl, hcl⟩ := Text.exists_mem_parts
      ((List.mem_append.mp hc).resolve_right fun h => hdot (List.mem_singleton.mp h)) hdot
    exact .inl ((hs l hl).2 c hcl)

/-! ## Hosts -/

/-- What is behind the last dot of a host has no dot, so the host is cut there. -/
theorem isHost_eq_true_iff : isHost t = true ↔ Text.dropLastIf (· == '.') t ∈ dottedLabels * tops := by
  rw [← labelParts_eq, Language.mem_mul, isHost]
  constructor
  · intro h
    cases hsplit : Text.splitLast '.' (Text.dropLastIf (· == '.') t) with
    | none => simp [hsplit] at h
    | some ends =>
      obtain ⟨labels, top⟩ := ends
      simp only [hsplit, Bool.and_eq_true (List.all _ _), List.all_eq_true, mem_runs_labelChars_iff] at h
      refine ⟨_, ⟨labels, h.1, rfl⟩, top, mem_tops_iff.mp h.2, ?_⟩
      rw [Text.eq_append_of_splitLast hsplit, List.append_assoc, List.singleton_append]
  · rintro ⟨_, ⟨labels, hlabels, rfl⟩, top, htop, heq⟩
    -- The dot in front of the last label is the last one of the text.
    have hsplit : Text.splitLast '.' (Text.dropLastIf (· == '.') t) = some (labels, top) :=
      Text.splitLast_eq_some_iff.mpr ⟨by simp [← heq], dot_notMem_of_mem_tops htop⟩
    rw [hsplit]
    exact Bool.and_eq_true_iff.mpr
      ⟨List.all_eq_true.mpr fun l hl => mem_runs_labelChars_iff.mpr (hlabels l hl), mem_tops_iff.mpr htop⟩

/-- The last character of a text is one of the last piece. -/
theorem mem_of_concat_mem_mul {s : Set Char} {K L : Language Char} (hL : ∀ b ∈ L, b ∈ runs s)
    (h : t ++ [c] ∈ K * L) : c ∈ s := by
  obtain ⟨a, -, b, hb, heq⟩ := Language.mem_mul.mp h
  obtain ⟨hne, hall⟩ := hL b hb
  obtain rfl | ⟨b, d, rfl⟩ := List.eq_nil_or_concat b
  · exact absurd rfl hne
  · rw [List.concat_eq_append, ← List.append_assoc] at heq
    obtain ⟨-, hd⟩ := List.append_inj' heq rfl
    rw [← List.singleton_inj.mp hd]
    exact hall d (by simp)

/-- The test of hosts accepts exactly the texts of their grammar. -/
theorem isHost_iff_mem : isHost t = true ↔ t ∈ hostGrammar := by
  rw [isHost_eq_true_iff, hostGrammar]
  -- No last label ends in a dot, so a dot that is dropped is the one that may follow.
  refine Text.dropLastIf_mem_iff (by simp) fun s c h => ?_
  have hc : c ∈ topChars := mem_of_concat_mem_mul (fun _ hb => hb.1) h
  rw [List.mem_singleton]
  rintro rfl
  exact dot_notMem_labelChars (topChars_subset hc)

/-! ## Pages -/

/-- The scan goes on to the first dot, which has to end a label. -/
theorem reachesPath_eq_true_iff {inLabel : Bool} : reachesPath inLabel t = true ↔
    ∃ l s, (∀ c ∈ l, c ∈ labelChars) ∧ (inLabel = true ∨ l ≠ []) ∧ l ++ '.' :: s = t ∧
      (startsTop s = true ∨ reachesPath false s = true) := by
  -- By induction on the text; the label that has begun is what is read before the first dot.
  induction t generalizing inLabel with
  | nil => simp [reachesPath]
  | cons c t ih =>
    rw [reachesPath]
    split
    · next hc =>
      subst hc
      rw [Bool.and_eq_true, Bool.or_eq_true]
      constructor
      · rintro ⟨hin, hrest⟩
        exact ⟨[], t, by simp, .inl hin, rfl, hrest⟩
      · rintro ⟨_ | ⟨d, l⟩, s, hl, hin, heq, hrest⟩
        · obtain rfl : s = t := (List.cons.inj heq).2
          exact ⟨hin.resolve_right (· rfl), hrest⟩
        · obtain rfl : d = '.' := (List.cons.inj heq).1
          exact absurd (hl _ List.mem_cons_self) dot_notMem_labelChars
    · next hc =>
      rw [Bool.and_eq_true, isLabelChar_iff, ih]
      constructor
      · rintro ⟨hlabel, l, s, hl, -, rfl, hrest⟩
        exact ⟨c :: l, s, List.forall_mem_cons.mpr ⟨hlabel, hl⟩, .inr (List.cons_ne_nil c l), rfl, hrest⟩
      · rintro ⟨_ | ⟨d, l⟩, s, hl, hin, heq, hrest⟩
        · exact absurd (List.cons.inj heq).1.symm hc
        · obtain ⟨rfl, rfl⟩ := List.cons.inj heq
          obtain ⟨hlabel, hl⟩ := List.forall_mem_cons.mp hl
          exact ⟨hlabel, l, s, hl, .inl rfl, rfl, hrest⟩

/-- The texts in which the scan finds a dot that a last label may follow. -/
def reaching : Language Char := {t | reachesPath false t = true}

/-- The texts in which a last label starts, and does not end the text. -/
def startingTop : Language Char := {t | startsTop t = true}

/-- Behind a label with its dot stands the last label, or the scan goes on. -/
theorem append_mem_reaching {a s : Text} (ha : a ∈ dottedLabel)
    (hrest : startsTop s = true ∨ reachesPath false s = true) : a ++ s ∈ reaching := by
  obtain ⟨l, hl, rfl⟩ := mem_dottedLabel_iff.mp ha
  exact reachesPath_eq_true_iff.mpr ⟨l, s, hl.2, .inr hl.1, by simp, hrest⟩

/-- The first dot ends the labels, or the scan goes on behind it. -/
theorem reaching_eq_mul_add : reaching = dottedLabel * reaching + dottedLabel * startingTop := by
  ext t
  rw [Language.mem_add, Language.mem_mul, Language.mem_mul]
  constructor
  · intro h
    obtain ⟨l, s, hl, hne, rfl, hrest⟩ := reachesPath_eq_true_iff.mp h
    have hlabel : l ++ ['.'] ∈ dottedLabel :=
      mem_dottedLabel_iff.mpr ⟨l, ⟨hne.resolve_left Bool.false_ne_true, hl⟩, rfl⟩
    exact hrest.symm.imp (fun hrest => ⟨_, hlabel, s, hrest, by simp⟩) (fun hrest => ⟨_, hlabel, s, hrest, by simp⟩)
  · rintro (⟨a, ha, s, hs, rfl⟩ | ⟨a, ha, s, hs, rfl⟩)
    · exact append_mem_reaching ha (.inr hs)
    · exact append_mem_reaching ha (.inl hs)

/-- The scan finds its dot behind labels with dots where a last label starts: the one solution of the equation. -/
theorem reaching_eq : reaching = dottedLabels * startingTop := by
  rw [(Language.self_eq_mul_add_iff nil_notMem_dottedLabel).mp reaching_eq_mul_add, ← mul_assoc, dottedLabels,
    Language.mul_self_kstar_comm]

/-- A last label starts with a character of its own, behind which another one stands. -/
theorem startsTop_eq_true_iff : startsTop t = true ↔ ∃ c d s, c ∈ topChars ∧ c :: d :: s = t := by
  unfold startsTop
  split
  · next c d s => simp [isTopChar_iff]
  · next h =>
    simp only [Bool.false_eq_true, false_iff, not_exists, not_and]
    exact fun c d s _ heq => h c d s heq.symm

/-- A last label may be cut after one character, as its other characters may stand in a path. -/
theorem mem_pages_iff :
    (t.all isPathChar && reachesPath false t) = true ↔ t ∈ dottedLabels * tops * runs pathChars := by
  have hreaching : reachesPath false t = true ↔ t ∈ dottedLabels * startingTop := by rw [← reaching_eq]; rfl
  rw [Bool.and_eq_true, hreaching, mul_assoc, Language.mem_mul, Language.mem_mul, List.all_eq_true]
  simp only [isPathChar_iff]
  constructor
  · rintro ⟨hall, a, ha, s, hs, rfl⟩
    -- One character is the last label, whatever letters follow it.
    obtain ⟨c, d, s, hc, rfl⟩ := startsTop_eq_true_iff.mp hs
    have htop : [c] ∈ tops := ⟨⟨List.cons_ne_nil c [], List.forall_mem_singleton.mpr hc⟩, by simp⟩
    have hpath : d :: s ∈ runs pathChars :=
      ⟨List.cons_ne_nil d s, fun e he => hall e (by simp [List.mem_cons.mp he])⟩
    exact ⟨a, ha, _, Language.append_mem_mul htop hpath, rfl⟩
  · rintro ⟨a, ha, b, hb, rfl⟩
    obtain ⟨top, htop, s, hs, rfl⟩ := Language.mem_mul.mp hb
    refine ⟨fun c hc => ?_, a, ha, _, ?_, rfl⟩
    · simp only [List.mem_append] at hc
      obtain hc | hc | hc := hc
      · exact mem_pathChars_of_mem_dottedLabels ha hc
      · exact .inl (topChars_subset (htop.1.2 c hc))
      · exact hs.2 c hc
    · obtain ⟨c, top, rfl⟩ := List.exists_cons_of_ne_nil htop.1.1
      obtain ⟨d, r, hr⟩ := List.exists_cons_of_ne_nil (List.append_ne_nil_of_right_ne_nil top hs.1)
      exact startsTop_eq_true_iff.mpr ⟨c, d, r, htop.1.2 c List.mem_cons_self, by rw [List.cons_append, hr]⟩

/-- The test of pages accepts exactly the texts of their grammar. -/
theorem isHostPath_iff_mem : isHostPath t = true ↔ t ∈ pageGrammar := by
  have hpages : isHostPath t = true ↔ dropQuestion t ∈ dottedLabels * tops * runs pathChars := mem_pages_iff
  rw [hpages, pageGrammar]
  refine Text.dropLastIf_mem_iff (by simp) fun s c h => ?_
  have hc : c ∈ pathChars := mem_of_concat_mem_mul (fun _ hb => hb) h
  rw [List.mem_singleton]
  rintro rfl
  exact absurd (isPathChar_iff.mpr hc) (by decide)

/-! ## What is behind an anchor -/

/-- A host, and at most one of `/`, `^` and `?` behind it. -/
def NamesHost (rest : Text) : Prop := rest ∈ hostGrammar * atMostOne ['/', '^', '?']

/-- A page; a bar may follow. -/
def NamesPage (rest : Text) : Prop := rest ∈ pageGrammar * atMostOne ['|']

/-- What is behind the anchor is cut to a host exactly when it names one. -/
theorem exists_hostOnly?_iff : (∃ host, hostOnly? rest = some host) ↔ NamesHost rest := by
  simp only [hostOnly?_eq_some_iff, exists_eq_left', isHost_iff_mem]
  -- A host has dots and the characters of labels, so that none of the three ends it.
  refine Text.dropLastIf_mem_iff (fun c => by simp [or_assoc]) fun s c h => ?_
  rw [← isHost_iff_mem] at h
  have hlabel (hdot : c ≠ '.') : isLabelChar c = true := isLabelChar_of_isHost h (by simp) hdot
  simp only [List.mem_cons, List.not_mem_nil, or_false]
  rintro (rfl | rfl | rfl) <;> exact absurd (hlabel (by decide)) (by decide)

/-- The end mark is cut as a bar at the end is. -/
theorem cutEnd_eq_dropLastIf : (cutEnd rest).2 = Text.dropLastIf (· == '|') rest := by
  unfold cutEnd
  split
  · next body h =>
    rw [Text.before?_eq_some_iff.mp h, Text.dropLastIf_concat]
    rfl
  · next h =>
    rcases Text.dropLastIf_eq_or (· == '|') rest with heq | ⟨c, hc, heq⟩
    · exact heq.symm
    · rw [beq_iff_eq.mp hc] at heq
      rw [Text.before?_eq_some_iff.mpr heq.symm] at h
      cases h

/-- What is left without the end mark is a page exactly when what is behind the anchor names one. -/
theorem isHostPath_cutEnd_iff : isHostPath (cutEnd rest).2 = true ↔ NamesPage rest := by
  rw [isHostPath_iff_mem, cutEnd_eq_dropLastIf]
  refine Text.dropLastIf_mem_iff (by simp) fun s c h => ?_
  rw [List.mem_singleton]
  rintro rfl
  rw [← isHostPath_iff_mem, isHostPath, dropQuestion, Text.dropLastIf_concat, if_neg (by decide),
    Bool.and_eq_true, List.all_eq_true] at h
  exact absurd (h.1 '|' (by simp)) (by decide)

end Shape

namespace Policy

open Shape

variable {p : Policy} {pattern kept rest : Text} {c : Category}

/-- The way in which an anchored pattern is placed tells what it names. -/
theorem Places.category_iff (h : p.Places pattern c kept) (hraw : Line.isRaw pattern = false)
    (hanchor : afterAnchor? (Text.trimChar '*' pattern) = some rest) :
    (c ∈ [.domainExact, .domainPattern] ↔ NamesHost rest) ∧
      (c ∈ [.hostPathExact, .hostPathPattern] ↔ ¬NamesHost rest ∧ NamesPage rest) ∧
      (c = .domainGenericPattern ↔ ¬NamesHost rest ∧ ¬NamesPage rest) := by
  have hrest {rest' : Text} (hanchor' : afterAnchor? (Text.trimChar '*' pattern) = some rest') : rest' = rest :=
    Option.some.inj (hanchor'.symm.trans hanchor)
  have hnone (hhost : hostOnly? rest = none) : ¬NamesHost rest := by
    rw [← exists_hostOnly?_iff, hhost]
    simp
  have hbody {atEnd : Bool} {body : Text} (hend : cutEnd rest = (atEnd, body)) :
      isHostPath body = true ↔ NamesPage rest := by
    rw [← isHostPath_cutEnd_iff, hend]
  -- Each way to be placed says whether the pattern names a host and, if not, whether it names a page.
  cases h with
  | raw hraw' => exact absurd (hraw.symm.trans hraw') Bool.false_ne_true
  | fragment _ hanchor' => cases hanchor.symm.trans hanchor'
  | host _ hanchor' hhost | starredHost _ hanchor' hhost =>
    obtain rfl := hrest hanchor'
    simp [exists_hostOnly?_iff.mp ⟨_, hhost⟩]
  | page _ hanchor' hhost hend hpath | starredPage _ hanchor' hhost hend hpath =>
    obtain rfl := hrest hanchor'
    simp [hnone hhost, (hbody hend).mp hpath]
  | generic _ hanchor' hhost hend hpath =>
    obtain rfl := hrest hanchor'
    simp [hnone hhost, ← hbody hend, hpath]

/-- A set keeps literal patterns, with the host in lower case. -/
theorem Places.literal (h : p.Places pattern c kept) (hexact : c.isExact = true) :
    (∀ d ∈ signs, d ∉ kept) ∧ ∀ d ∈ kept.takeWhile (· != '/'), Text.isUpperAscii d = false := by
  rw [← isLiteral_iff]
  cases h with
  | host _ _ _ hliteral =>
    exact ⟨isLiteral_lower.trans hliteral,
      fun d hd => Text.not_isUpperAscii_of_mem_lower ((List.takeWhile_sublist _).subset hd)⟩
  | page _ _ _ _ _ hwhole =>
    refine ⟨isLiteral_lowerHost.trans (Bool.and_eq_true_iff.mp hwhole).1, fun d hd => ?_⟩
    rw [takeWhile_lowerHost] at hd
    exact Text.not_isUpperAscii_of_mem_lower hd
  | raw | fragment | starredHost | starredPage | generic => cases hexact

/-- The tests accept the texts of their grammars and no others. So the category of a pattern behind an anchor tells
whether it names a host, or a page and no host, or neither; and what is kept in a set has none of the signs of a
pattern, and its host in lower case. -/
theorem place_by_grammar (p : Policy) :
    (∀ t, isHost t = true ↔ t ∈ hostGrammar) ∧
      (∀ t, isHostPath t = true ↔ t ∈ pageGrammar) ∧
      (∀ (r : Rule) (rest : Text), Line.isRaw r.pattern = false →
        afterAnchor? (Text.trimChar '*' r.pattern) = some rest →
        ((p.place r).bucket.category ∈ [.domainExact, .domainPattern] ↔ NamesHost rest) ∧
          ((p.place r).bucket.category ∈ [.hostPathExact, .hostPathPattern] ↔ ¬NamesHost rest ∧ NamesPage rest) ∧
          ((p.place r).bucket.category = .domainGenericPattern ↔ ¬NamesHost rest ∧ ¬NamesPage rest)) ∧
      ∀ r : Rule, (p.place r).bucket.category.isExact = true →
        (∀ d ∈ signs, d ∉ (p.place r).pattern) ∧
          ∀ d ∈ (p.place r).pattern.takeWhile (· != '/'), Text.isUpperAscii d = false :=
  ⟨fun _ => isHost_iff_mem, fun _ => isHostPath_iff_mem,
    fun r _ hraw hanchor => (p.places_category r.pattern).category_iff hraw hanchor,
    fun r hexact => (p.places_category r.pattern).literal hexact⟩

/-- The dot that ends the labels of the page is the first one, as `b` may be all of a last label. -/
theorem place_by_grammar_sample :
    NamesHost "Ads.*.net.^".toList ∧
      (¬NamesHost "a.b.c/X?|".toList ∧ NamesPage "a.b.c/X?|".toList) ∧
      ¬NamesHost "a..net/".toList ∧ ¬NamesPage "a..net/".toList := by
  obtain ⟨-, -, hplace, -⟩ := place_by_grammar .permissive
  have hhost := (hplace { pattern := "||Ads.*.net.^".toList } _ (by decide) rfl).1
  have hpage := (hplace { pattern := "|http://a.b.c/X?|".toList } _ (by decide) rfl).2.1
  have hneither := (hplace { pattern := "||a..net/".toList } _ (by decide) rfl).2.2
  exact ⟨hhost.mp (by decide), hpage.mp (by decide), hneither.mp (by decide)⟩

end Policy

end UrlFilter
