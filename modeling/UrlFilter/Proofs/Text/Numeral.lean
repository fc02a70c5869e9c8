import UrlFilter.Text

/-!
# Decimal numerals

What a written number is made of, and that reading it gives the number back also where more text
follows, as long as that text does not go on with a digit.
-/

namespace UrlFilter.Text

/-- The text does not begin with a digit. -/
def NoDigitFirst (t : Text) : Prop := ∀ c ∈ t.head?, c.isDigit = false

/-- The empty text does not begin with a digit. -/
theorem NoDigitFirst.nil : NoDigitFirst [] := by simp [NoDigitFirst]

/-- A text with another first character does not begin with a digit. -/
theorem NoDigitFirst.cons {c : Char} {t : Text} (h : c.isDigit = false) : NoDigitFirst (c :: t) := by
  simpa [NoDigitFirst] using h

/-- A numeral is made of digits. -/
theorem isDigit_of_mem_ofNat {n : Nat} {c : Char} (h : c ∈ ofNat n) : c.isDigit = true :=
  Nat.isDigit_of_mem_toDigits (by decide) (by decide) h

/-- A numeral is not empty. -/
theorem ofNat_ne_nil (n : Nat) : ofNat n ≠ [] := Nat.toDigits_ne_nil

/-- The digits of a number stand for the number. -/
theorem digitsToNat_ofNat (n : Nat) : digitsToNat (ofNat n) = n := by
  have h := Nat.ofDigitChars_ten_toDigits (n := n)
  exact h

/-- The first digit of a positive number is not zero. -/
theorem head_ofNat {n : Nat} (hn : 0 < n) : ∃ c ds, ofNat n = c :: ds ∧ c ≠ '0' := by
  induction n using Nat.strongRecOn with
  | _ n ih =>
    rw [ofNat]
    by_cases h : n < 10
    · rw [Nat.toDigits_of_lt_base h]
      exact ⟨_, _, rfl, by simpa using by omega⟩
    · rw [Nat.toDigits_of_base_le (by decide) (by omega)]
      obtain ⟨c, ds, hc, h0⟩ := ih (n / 10) (by omega) (by omega)
      rw [ofNat] at hc
      exact ⟨c, ds ++ [(n % 10).digitChar], by rw [hc]; rfl, h0⟩

/-- The digits in front are taken up to the first other character. -/
theorem takeWhile_digits {ds u : Text} (hds : ∀ c ∈ ds, c.isDigit = true) (hu : NoDigitFirst u) :
    (ds ++ u).takeWhile Char.isDigit = ds := by
  induction ds with
  | nil =>
    cases u with
    | nil => rfl
    | cons c u => simp [hu c (by simp)]
  | cons c ds ih =>
    have hc := hds c (by simp)
    simp [hc, ih fun d hd => hds d (by simp [hd])]

/-- The digits in front are dropped up to the first other character. -/
theorem dropWhile_digits {ds u : Text} (hds : ∀ c ∈ ds, c.isDigit = true) (hu : NoDigitFirst u) :
    (ds ++ u).dropWhile Char.isDigit = u := by
  have h := List.takeWhile_append_dropWhile (p := Char.isDigit) (l := ds ++ u)
  rw [takeWhile_digits hds hu] at h
  exact List.append_cancel_left h

/-- The numeral of a number is read as the number. -/
theorem toNat?_ofNat (n : Nat) : toNat? (ofNat n) = some n := by
  have hall : (ofNat n).all Char.isDigit = true :=
    List.all_eq_true.mpr fun c hc => isDigit_of_mem_ofNat hc
  have hne : (ofNat n).isEmpty = false := by
    rw [List.isEmpty_eq_false_iff]
    exact ofNat_ne_nil n
  simp [toNat?, hall, hne, digitsToNat_ofNat]

end UrlFilter.Text
