import UrlFilter.Proofs.Unicode.Folding

/-!
# Small letters

Texts in lower case. Only letters of ASCII are changed, to letters; so marks such as dots and slashes are
found at the same places in a text and in its lower case, and cutting a text there commutes with lowering
it.
-/

namespace UrlFilter.Text

/-! ## Characters -/

/-- Only characters of ASCII are lowered. -/
theorem toLower_of_not_ascii {c : Char} (hc : 128 ≤ c.toNat) : c.toLower = c := by
  have hz : ¬(c.val ≤ 'Z'.val) := by
    show ¬(c.val.toNat ≤ 90)
    have hval : c.val.toNat = c.toNat := rfl
    omega
  delta Char.toLower
  rw [dif_neg fun hand => hz hand.2]

/-- What does not tell a capital letter of ASCII from the small one does not see whether a character is
lowered. -/
theorem toLower_congr {α : Type} {f : Char → α}
    (h : ∀ n : Fin 128, f (Char.ofNat n).toLower = f (Char.ofNat n)) (c : Char) : f c.toLower = f c := by
  rcases Nat.lt_or_ge c.toNat 128 with hc | hc
  · exact Unicode.forall_ascii (p := fun c => f c.toLower = f c) h hc
  · rw [toLower_of_not_ascii hc]

/-- A character is left as it is, or is a letter that becomes a letter. -/
theorem toLower_eq_self_or_isAlpha (c : Char) :
    c.toLower = c ∨ (c.isAlpha = true ∧ c.toLower.isAlpha = true) := by
  rcases Nat.lt_or_ge c.toNat 128 with hc | hc
  · exact Unicode.forall_ascii
      (p := fun c => c.toLower = c ∨ (c.isAlpha = true ∧ c.toLower.isAlpha = true)) (by decide) hc
  · exact .inl (toLower_of_not_ascii hc)

/-- A character that is no letter comes from nothing but itself. -/
theorem toLower_eq_iff_of_not_isAlpha {c d : Char} (hd : d.isAlpha = false) : c.toLower = d ↔ c = d := by
  rcases toLower_eq_self_or_isAlpha c with h | ⟨hc, hlower⟩
  · rw [h]
  · constructor <;> rintro rfl
    · simp [hd] at hlower
    · simp [hd] at hc

/-- Digits are not lowered. -/
theorem toLower_of_isDigit {c : Char} (h : c.isDigit = true) : c.toLower = c := by
  rcases Nat.lt_or_ge c.toNat 128 with hc | hc
  · revert h
    exact Unicode.forall_ascii (p := fun c => c.isDigit = true → c.toLower = c) (by decide) hc
  · exact toLower_of_not_ascii hc

/-- A lowered character is no capital letter of ASCII. -/
theorem not_isUpperAscii_toLower (c : Char) : isUpperAscii c.toLower = false := by
  rcases Nat.lt_or_ge c.toNat 128 with hc | hc
  · exact Unicode.forall_ascii (p := fun c => isUpperAscii c.toLower = false) (by decide) hc
  · rw [toLower_of_not_ascii hc, isUpperAscii, Bool.and_eq_false_iff, decide_eq_false_iff_not,
      decide_eq_false_iff_not]
    exact .inr fun hle => absurd (Nat.le_trans hc hle) (by decide)

/-! ## Texts -/

/-- A lowered text has no capital letters of ASCII. -/
theorem not_isUpperAscii_of_mem_lower {t : Text} {c : Char} (h : c ∈ lower t) : isUpperAscii c = false := by
  obtain ⟨d, -, rfl⟩ := List.mem_map.mp h
  exact not_isUpperAscii_toLower d

/-- To lower the letters keeps the length. -/
theorem length_lower (t : Text) : (lower t).length = t.length := List.length_map _

/-- Characters may be dropped before or after the letters are lowered. -/
theorem lower_drop (n : Nat) (t : Text) : lower (t.drop n) = (lower t).drop n := List.map_drop

/-- Only the empty text is lowered to the empty text. -/
theorem lower_eq_nil_iff {t : Text} : lower t = [] ↔ t = [] := List.map_eq_nil_iff

/-- A character that is no letter is in the lowered text exactly when it is in the text. -/
theorem mem_lower_iff_of_not_isAlpha {d : Char} (hd : d.isAlpha = false) {t : Text} :
    d ∈ lower t ↔ d ∈ t := by
  simp [lower, toLower_eq_iff_of_not_isAlpha hd]

section
variable {p : Char → Bool}

/-- A beginning that a test ignoring case takes may be lowered before or after. -/
theorem takeWhile_lower (hp : ∀ c : Char, p c.toLower = p c) (t : Text) :
    (lower t).takeWhile p = lower (t.takeWhile p) := by
  rw [lower, List.takeWhile_map]
  exact congrArg (fun q => lower (t.takeWhile q)) (funext hp)

/-- What is left behind such a beginning may be lowered before or after. -/
theorem dropWhile_lower (hp : ∀ c : Char, p c.toLower = p c) (t : Text) :
    (lower t).dropWhile p = lower (t.dropWhile p) := by
  rw [lower, List.dropWhile_map]
  exact congrArg (fun q => lower (t.dropWhile q)) (funext hp)

/-- What is left in front of such an end may be lowered before or after. -/
theorem dropEndWhile_lower (hp : ∀ c : Char, p c.toLower = p c) (t : Text) :
    dropEndWhile p (lower t) = lower (dropEndWhile p t) := by
  unfold dropEndWhile
  rw [lower, ← List.map_reverse, ← lower, dropWhile_lower hp, lower, ← List.map_reverse, ← lower]

end

section
variable {d : Char}

/-- A text may be cut at its first mark before or after its letters are lowered. -/
theorem splitFirst_lower (hd : d.isAlpha = false) (t : Text) :
    splitFirst d (lower t) = (splitFirst d t).map fun (a, b) => (lower a, lower b) := by
  induction t with
  | nil => rfl
  | cons c t ih =>
    rw [lower, List.map_cons, ← lower, splitFirst, splitFirst, ih]
    by_cases hc : c = d
    · rw [if_pos hc, if_pos ((toLower_eq_iff_of_not_isAlpha hd).mpr hc)]
      rfl
    · rw [if_neg hc, if_neg fun h => hc ((toLower_eq_iff_of_not_isAlpha hd).mp h), Option.map_map,
        Option.map_map]
      rfl

/-- A text may be cut at its last mark before or after its letters are lowered. -/
theorem splitLast_lower (hd : d.isAlpha = false) (t : Text) :
    splitLast d (lower t) = (splitLast d t).map fun (a, b) => (lower a, lower b) := by
  unfold splitLast
  rw [lower, ← List.map_reverse, ← lower, splitFirst_lower hd, Option.map_map, Option.map_map]
  refine congrArg (fun f => Option.map f _) (funext fun (a, b) => ?_)
  simp only [Function.comp_apply, lower, List.map_reverse]

/-- A text may be cut into parts before or after its letters are lowered. -/
theorem parts_lower (hd : d.isAlpha = false) (t : Text) : parts d (lower t) = (parts d t).map lower := by
  induction t with
  | nil => rfl
  | cons c t ih =>
    rw [lower, List.map_cons, ← lower, parts, parts, ih]
    cases parts d t with
    | nil => rfl
    | cons q qs =>
      by_cases hc : c = d
      · simp [hc, (toLower_eq_iff_of_not_isAlpha hd).mpr, lower]
      · have hlower : c.toLower ≠ d := fun h => hc ((toLower_eq_iff_of_not_isAlpha hd).mp h)
        simp [hc, hlower, lower]

end

end UrlFilter.Text
