import UrlFilter.Proofs.Lookup.Http
import UrlFilter.Rule.Shape

/-!
# Hosts and pages in patterns

What a pattern of the shape of a host, or of a host with a path, is made of. None of its characters ends the host
in an address, so that an address with the text in its place has it as its host.
-/

namespace UrlFilter.Shape

variable {t rest host : Text} {c : Char}

/-! ## Characters -/

/-- A character of a label ends neither the authority nor the host in it. -/
theorem isNameChar_of_isLabelChar (h : isLabelChar c = true) : Address.isNameChar c = true :=
  Address.isNameChar_of (by decide) h

/-- The letters and digits of a last label are those of ASCII. -/
theorem not_isAsciiAlphanumeric (hc : 128 ≤ c.toNat) : Text.isAsciiAlphanumeric c = false := by
  have hval : c.val.toNat = c.toNat := rfl
  delta Text.isAsciiAlphanumeric Char.isAlphanum Char.isAlpha Char.isUpper Char.isLower Char.isDigit
  simp only [Bool.eq_false_iff, ne_eq, Bool.or_eq_true, Bool.and_eq_true, decide_eq_true_eq,
    UInt32.le_iff_toNat_le, ge_iff_le, hval]
  rintro ((⟨-, hle⟩ | ⟨-, hle⟩) | ⟨-, hle⟩) <;> exact absurd (Nat.le_trans hc hle) (by decide)

/-- The characters of last labels are characters of labels. -/
theorem isLabelChar_of_isTopChar (h : isTopChar c = true) : isLabelChar c = true := by
  rcases Nat.lt_or_ge c.toNat 128 with hc | hc
  · revert h
    exact Unicode.forall_ascii (p := fun c => isTopChar c = true → isLabelChar c = true) (by decide +kernel) hc
  · rw [isTopChar, not_isAsciiAlphanumeric hc, Bool.false_or, Bool.or_eq_true] at h
    simp only [isLabelChar, Bool.or_eq_true]
    exact h.elim (fun hstar => .inl (.inr hstar)) .inr

/-- The characters of a label as it is written in front of a host. -/
theorem isNameChar_of_isLabel (h : Host.IsLabel t) (hc : c ∈ t) : Address.isNameChar c = true := by
  refine isNameChar_of_isLabelChar ?_
  rcases h.2 c hc with halpha | rfl
  · simp [isLabelChar, halpha]
  · decide

/-! ## Hosts -/

/-- A host is made of dots and the characters of labels. -/
theorem isLabelChar_of_isHost (h : isHost t = true) (hc : c ∈ t) (hdot : c ≠ '.') : isLabelChar c = true := by
  have hmem : c ∈ Text.dropLastIf (· == '.') t := by
    rcases Text.dropLastIf_eq_or (· == '.') t with hwhole | ⟨d, hd, hwhole⟩
    · rwa [hwhole]
    · rw [← hwhole, List.mem_append, List.mem_singleton] at hc
      exact hc.resolve_right fun hcd => hdot (hcd.trans (beq_iff_eq.mp hd))
  unfold isHost at h
  cases hsplit : Text.splitLast '.' (Text.dropLastIf (· == '.') t) with
  | none => simp [hsplit] at h
  | some ends =>
    obtain ⟨labels, top⟩ := ends
    simp only [hsplit, Bool.and_eq_true, List.all_eq_true] at h
    obtain ⟨hlabels, -, htop⟩ := h
    rw [Text.eq_append_of_splitLast hsplit, List.mem_append, List.mem_cons] at hmem
    rcases hmem with hmem | rfl | hmem
    · obtain ⟨label, hlabel, hmem⟩ := Text.exists_mem_parts hmem hdot
      exact (hlabels label hlabel).2 c hmem
    · exact absurd rfl hdot
    · exact isLabelChar_of_isTopChar (htop c hmem)

/-- A host is made of characters of names. -/
theorem isNameChar_of_isHost (h : isHost t = true) (hc : c ∈ t) : Address.isNameChar c = true := by
  by_cases hdot : c = '.'
  · rw [hdot]
    rfl
  · exact isNameChar_of_isLabelChar (isLabelChar_of_isHost h hc hdot)

/-- A host is not empty. -/
theorem ne_nil_of_isHost (h : isHost t = true) : t ≠ [] := by
  rintro rfl
  exact absurd h (by decide)

/-- What names a host is one, with at most one slash, caret or question mark behind it. -/
theorem hostOnly?_eq_some_iff : hostOnly? rest = some host ↔
    Text.dropLastIf (fun c => c == '/' || c == '^' || c == '?') rest = host ∧ isHost host = true := by
  unfold hostOnly?
  dsimp only
  rw [Option.ite_none_right_eq_some, Option.some.injEq, and_comm]
  exact and_congr_right fun h => by rw [h]

/-! ## Pages -/

/-- A page is not empty without its question mark. -/
theorem ne_nil_of_isHostPath (h : isHostPath t = true) : dropQuestion t ≠ [] := by
  intro hnil
  rw [isHostPath, hnil] at h
  exact absurd h (by decide)

/-- To lower the letters of a host leaves nothing only of nothing. -/
theorem lowerHost_eq_nil_iff : lowerHost t = [] ↔ t = [] := by
  rw [lowerHost, List.append_eq_nil_iff, Text.lower_eq_nil_iff, ← List.append_eq_nil_iff,
    List.takeWhile_append_dropWhile]

/-! ## Literal patterns -/

/-- The characters that are signs in a pattern. -/
def signs : List Char := ['*', '|', '^', '@']

/-- A text is literal when none of the signs is in it. -/
theorem isLiteral_iff : isLiteral t = true ↔ ∀ c ∈ signs, c ∉ t := by
  simp only [isLiteral, signs, Bool.not_eq_true', List.any_eq_false, Bool.or_eq_true, beq_iff_eq]
  constructor
  · intro h c hc hmem
    simp only [List.mem_cons, List.not_mem_nil, or_false, ← or_assoc] at hc
    exact h c hmem hc
  · intro h c hmem hc
    exact h c (by simpa [or_assoc] using hc) hmem

/-- Signs are no letters, so a text is literal as it is in lower case. -/
theorem isLiteral_lower : isLiteral (Text.lower t) = isLiteral t := by
  have hsigns (c : Char) (hc : c ∈ signs) : c.isAlpha = false := by
    simp only [signs, List.mem_cons, List.not_mem_nil, or_false] at hc
    rcases hc with rfl | rfl | rfl | rfl <;> rfl
  rw [Bool.eq_iff_iff, isLiteral_iff, isLiteral_iff]
  exact forall₂_congr fun c hc => not_congr (Text.mem_lower_iff_of_not_isAlpha (hsigns c hc))

/-- A text is literal when its parts are. -/
theorem isLiteral_append {s : Text} : isLiteral (s ++ t) = (isLiteral s && isLiteral t) := by
  simp only [isLiteral, List.any_append, Bool.not_or]

/-- The case of a host does not matter to whether the text is literal. -/
theorem isLiteral_lowerHost : isLiteral (lowerHost t) = isLiteral t := by
  rw [lowerHost, isLiteral_append, isLiteral_lower, ← isLiteral_append, List.takeWhile_append_dropWhile]

/-- In lower case, the host of a page ends at the first slash still. -/
theorem ends_lower_takeWhile : (∀ c ∈ Text.lower (t.takeWhile (· != '/')), (c != '/') = true) ∧
    ∀ c ∈ (t.dropWhile (· != '/')).head?, (c != '/') = false := by
  constructor
  · intro c hc
    obtain ⟨d, hd, rfl⟩ := List.mem_map.mp hc
    rw [bne_iff_ne, ne_eq, Text.toLower_eq_iff_of_not_isAlpha (by decide)]
    exact bne_iff_ne.mp (List.mem_takeWhile_imp (p := (· != '/')) hd)
  · intro c hc
    have hmark := List.head?_dropWhile_not (· != '/') t
    rw [Option.mem_def.mp hc] at hmark
    simpa using hmark

/-- The letters in front of the first slash are lowered. -/
theorem takeWhile_lowerHost : (lowerHost t).takeWhile (· != '/') = Text.lower (t.takeWhile (· != '/')) :=
  Text.takeWhile_append_mark ends_lower_takeWhile.1 ends_lower_takeWhile.2

/-- What is behind the first slash stays as it is. -/
theorem dropWhile_lowerHost : (lowerHost t).dropWhile (· != '/') = t.dropWhile (· != '/') :=
  Text.dropWhile_append_mark ends_lower_takeWhile.1 ends_lower_takeWhile.2

end UrlFilter.Shape
