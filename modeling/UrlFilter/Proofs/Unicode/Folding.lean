import UrlFilter.Unicode.Basic
import Mathlib.Data.List.Basic

/-!
# Case folding

Two facts about the simple case folding. A character of ASCII that is no letter differs from every other
character in more than case; and where the folding moves a character, both it and its image are word
characters, so that no class that holds all word characters, or none, tells them apart.
-/

namespace UrlFilter.Unicode

/-! ## Characters and numbers -/

/-- What holds of each of the first numbers holds of the characters of ASCII. -/
theorem forall_ascii {p : Char → Prop} (h : ∀ n : Fin 128, p (Char.ofNat n)) {c : Char}
    (hc : c.toNat < 128) : p c := by
  have hn := h ⟨c.toNat, hc⟩
  rwa [Char.ofNat_toNat] at hn

/-- A character that a number stands for has this number. -/
theorem toNat_of_charOfNat? {n : Nat} {c : Char} (h : Text.charOfNat? n = some c) : c.toNat = n := by
  simp only [Text.charOfNat?, Option.ite_none_right_eq_some, Option.some.injEq] at h
  rw [← h.2, Char.ofNat, dif_pos h.1]
  rfl

/-- A number between the bounds of a range is in the ranges. -/
theorem inRanges_of_mem {rs : List (Nat × Nat)} {lo hi n : Nat} (h : (lo, hi) ∈ rs) (hlo : lo ≤ n)
    (hhi : n ≤ hi) : inRanges rs n = true :=
  List.any_eq_true.mpr ⟨(lo, hi), h, by simp [hlo, hhi]⟩

/-! ## The runs of the folding -/

/-- The folding leaves a character beyond ASCII as it is, or some run moves it. -/
theorem fold_of_not_ascii {c : Char} (hc : 128 ≤ c.toNat) :
    fold c = c ∨ ∃ run ∈ foldRuns, imageInRun c.toNat run = some (fold c).toNat := by
  have hfold : fold c =
      ((foldRuns.findSome? (imageInRun c.toNat)).bind Text.charOfNat?).getD c := by
    rw [fold, if_neg (by omega)]
  rw [hfold]
  cases hrun : foldRuns.findSome? (imageInRun c.toNat) with
  | none => exact Or.inl rfl
  | some n =>
    obtain ⟨run, hmem, himage⟩ := List.exists_of_findSome?_eq_some hrun
    cases hchar : Text.charOfNat? n with
    | none => exact Or.inl (by simp [hchar])
    | some d => exact Or.inr ⟨run, hmem, by simp [hchar, himage, toNat_of_charOfNat? hchar]⟩

/-- A character of ASCII is folded by lowering it. -/
theorem fold_of_ascii {c : Char} (hc : c.toNat < 128) : fold c = c.toLower := by
  rw [fold, if_pos hc]

/-- The images in ASCII are those of two letters. -/
theorem image_of_mem_foldRuns {run : Nat × Nat × Nat × Nat} (h : run ∈ foldRuns) :
    128 ≤ run.2.2.2 ∨ ((run.2.2.2 = 107 ∨ run.2.2.2 = 115) ∧ run.1 = run.2.1) := by
  have hall : ∀ run ∈ foldRuns,
      128 ≤ run.2.2.2 ∨ ((run.2.2.2 = 107 ∨ run.2.2.2 = 115) ∧ run.1 = run.2.1) := by
    decide +kernel
  exact hall run h

/-- A character of ASCII that is no letter equals no other character up to case. -/
theorem sameFolded_iff_of_not_isAlpha {c x : Char} (hc : c.toNat < 128) (ha : c.isAlpha = false) :
    sameFolded x c = true ↔ x = c := by
  have hfold : fold c = c := by
    rw [fold_of_ascii hc]
    revert ha
    exact forall_ascii (p := fun c => c.isAlpha = false → c.toLower = c) (by decide) hc
  rw [sameFolded, beq_iff_eq, hfold]
  constructor
  · intro h
    rcases Nat.lt_or_ge x.toNat 128 with hx | hx
    · rw [fold_of_ascii hx] at h
      have hlower : x.toLower.isAlpha = false → x.toLower = x :=
        forall_ascii (p := fun x => x.toLower.isAlpha = false → x.toLower = x) (by decide) hx
      exact (hlower (h ▸ ha)).symm.trans h
    · rcases fold_of_not_ascii hx with hx' | ⟨run, hrun, himage⟩
      · exact hx'.symm.trans h
      · -- an image in ASCII is a letter, and `c` is none
        obtain ⟨first, last, step, image⟩ := run
        simp only [imageInRun, Option.ite_none_right_eq_some, Option.some.injEq, h] at himage
        have hletter : c.toNat ≠ 107 ∧ c.toNat ≠ 115 := by
          revert ha
          exact forall_ascii (p := fun c => c.isAlpha = false → c.toNat ≠ 107 ∧ c.toNat ≠ 115)
            (by decide) hc
        have hbounds := image_of_mem_foldRuns hrun
        simp only at hbounds
        omega
  · rintro rfl
    exact hfold

/-! ## Word characters -/

/-- The numbers between two are those of alphabetic characters. -/
def listed (lo hi : Nat) : Bool :=
  (lo == hi && (lo == 107 || lo == 115)) ||
    alphabeticRanges.any fun r => Nat.ble r.1 lo && Nat.ble hi r.2

/-- The numbers from the first on, by steps, are those of alphabetic characters. -/
def listedBySteps (first last step : Nat) : Bool :=
  listed first last ||
    (List.range ((last - first) / step + 1)).all fun k => listed (first + k * step) (first + k * step)

/-- A character whose number is between listed ones is a word character. -/
theorem isWord_of_listed {c : Char} {lo hi : Nat} (h : listed lo hi = true) (hlo : lo ≤ c.toNat)
    (hhi : c.toNat ≤ hi) : isWord c = true := by
  simp only [listed, Bool.or_eq_true, Bool.and_eq_true, beq_iff_eq, List.any_eq_true,
    Nat.ble_eq] at h
  rcases h with ⟨hsame, hn⟩ | ⟨⟨a, b⟩, hmem, ha, hb⟩
  · have hascii : c.toNat < 128 := by omega
    have hletter : c.toNat = 107 ∨ c.toNat = 115 := by omega
    revert hletter
    exact forall_ascii (p := fun c => c.toNat = 107 ∨ c.toNat = 115 → isWord c = true)
      (by decide) hascii
  · have hbeyond : ∀ r ∈ alphabeticRanges, 128 ≤ r.1 := by decide +kernel
    have h128 := hbeyond (a, b) hmem
    simp only at ha hb h128
    have hin : inRanges alphabeticRanges c.toNat = true := inRanges_of_mem hmem (by omega) (by omega)
    simp [isWord, isAlphabetic, holds, show ¬c.toNat < 128 by omega, hin]

/-- A character whose number is reached by steps through listed ones is a word character. -/
theorem isWord_of_listedBySteps {c : Char} {first last step : Nat}
    (h : listedBySteps first last step = true) (hlo : first ≤ c.toNat) (hhi : c.toNat ≤ last)
    (hstep : (c.toNat - first) % step = 0) : isWord c = true := by
  simp only [listedBySteps, Bool.or_eq_true, List.all_eq_true, List.mem_range] at h
  rcases h with h | h
  · exact isWord_of_listed h hlo hhi
  · have hdiv : (c.toNat - first) / step ≤ (last - first) / step := Nat.div_le_div_right (by omega)
    have hc : first + (c.toNat - first) / step * step = c.toNat := by
      have := Nat.div_mul_cancel (Nat.dvd_of_mod_eq_zero hstep)
      omega
    have hk := h ((c.toNat - first) / step) (by omega)
    rw [hc] at hk
    exact isWord_of_listed hk (Nat.le_refl _) (Nat.le_refl _)

/-- A number whose first binary digits are set. -/
def ones (n : Nat) : Nat := (1 <<< n) - 1

/-- The digits that are set are the first ones. -/
theorem testBit_ones (n k : Nat) : (ones n).testBit k = decide (k < n) := by
  rw [ones, Nat.one_shiftLeft, Nat.testBit_two_pow_sub_one]

/-- The numbers in the ranges, as the binary digits of one number. -/
def digitsOf (rs : List (Nat × Nat)) : Nat := rs.foldr (fun r m => (ones (r.2 + 1 - r.1) <<< r.1) ||| m) 0

/-- The digit of a number is set exactly when the number is in the ranges. -/
theorem testBit_digitsOf (rs : List (Nat × Nat)) (n : Nat) : (digitsOf rs).testBit n = inRanges rs n := by
  induction rs with
  | nil => simp [digitsOf, inRanges]
  | cons r rs ih =>
    have hcons : digitsOf (r :: rs) = (ones (r.2 + 1 - r.1) <<< r.1) ||| digitsOf rs := rfl
    rw [hcons, Nat.testBit_or, ih, Nat.testBit_shiftLeft, testBit_ones]
    simp only [inRanges, List.any_cons]
    congr 1
    rw [Bool.eq_iff_iff]
    simp only [Bool.and_eq_true, decide_eq_true_eq]
    omega

/-- All digits from the first place to the last are set. -/
def fills (digits first last : Nat) : Bool :=
  ((digits >>> first) &&& ones (last + 1 - first)) == ones (last + 1 - first)

/-- A digit between two places is set where all between them are. -/
theorem testBit_of_fills {digits first last n : Nat} (h : fills digits first last = true) (hlo : first ≤ n)
    (hhi : n ≤ last) : digits.testBit n = true := by
  have hdigit := congrArg (Nat.testBit · (n - first)) (beq_iff_eq.mp h)
  simp only [Nat.testBit_and, Nat.testBit_shiftRight, testBit_ones] at hdigit
  rw [decide_eq_true (by omega : n - first < last + 1 - first), Bool.and_true, Nat.add_sub_cancel' hlo] at hdigit
  exact hdigit

/-- The digits from the first place on, by steps, are set. -/
def fillsBySteps (digits first last step : Nat) : Bool :=
  fills digits first last ||
    (List.range ((last - first) / step + 1)).all fun k => digits.testBit (first + k * step)

/-- The numbers of the alphabetic characters beyond ASCII, and of the two letters that are images in ASCII. -/
def letters : List (Nat × Nat) := (107, 107) :: (115, 115) :: alphabeticRanges

/-- A number whose digit is set is listed. -/
theorem listed_of_testBit {n : Nat} (h : (digitsOf letters).testBit n = true) : listed n n = true := by
  rw [testBit_digitsOf] at h
  simp only [inRanges, letters, List.any_cons, Bool.or_eq_true, Bool.and_eq_true, decide_eq_true_eq] at h
  simp only [listed, beq_self_eq_true, Bool.true_and, Bool.or_eq_true, beq_iff_eq]
  rcases h with h | h | h
  · exact .inl (.inl (by omega))
  · exact .inl (.inr (by omega))
  · exact .inr (by simpa using h)

/-- Steps through digits that are set are steps through listed numbers. -/
theorem listedBySteps_of_fills {first last step : Nat} (hle : first ≤ last)
    (h : fillsBySteps (digitsOf letters) first last step = true) : listedBySteps first last step = true := by
  rw [listedBySteps, Bool.or_eq_true, List.all_eq_true]
  refine .inr fun k hk => listed_of_testBit ?_
  rw [fillsBySteps, Bool.or_eq_true, List.all_eq_true] at h
  refine h.elim (fun hfills => testBit_of_fills hfills (by omega) ?_) fun hall => hall k hk
  have hk' : k ≤ (last - first) / step := Nat.le_of_lt_succ (List.mem_range.mp hk)
  have hmul := Nat.le_trans (Nat.mul_le_mul_right step hk') (Nat.div_mul_le_self (last - first) step)
  omega

/-- Both ends of a run hold alphabetic characters. -/
theorem listed_of_mem_foldRuns {run : Nat × Nat × Nat × Nat} (h : run ∈ foldRuns) :
    listedBySteps run.1 run.2.1 run.2.2.1 = true ∧
      listedBySteps run.2.2.2 (run.2.2.2 + (run.2.1 - run.1)) run.2.2.1 = true := by
  have hall : (foldRuns.all fun run => Nat.ble run.1 run.2.1 &&
      fillsBySteps (digitsOf letters) run.1 run.2.1 run.2.2.1 &&
      fillsBySteps (digitsOf letters) run.2.2.2 (run.2.2.2 + (run.2.1 - run.1)) run.2.2.1) = true := by
    decide +kernel
  have hrun := List.all_eq_true.mp hall run h
  rw [Bool.and_eq_true, Bool.and_eq_true] at hrun
  obtain ⟨⟨hle, hsource⟩, himage⟩ := hrun
  exact ⟨listedBySteps_of_fills (Nat.le_of_ble_eq_true hle) hsource,
    listedBySteps_of_fills (Nat.le_add_right _ _) himage⟩

/-- Where the folding moves a character beyond ASCII, it is a word character. -/
theorem fold_eq_or_isWord {c : Char} (hc : 128 ≤ c.toNat) : fold c = c ∨ isWord c = true := by
  rcases fold_of_not_ascii hc with h | ⟨run, hrun, himage⟩
  · exact Or.inl h
  · obtain ⟨first, last, step, image⟩ := run
    simp only [imageInRun, Option.ite_none_right_eq_some] at himage
    exact Or.inr (isWord_of_listedBySteps (listed_of_mem_foldRuns hrun).1 himage.1.1 himage.1.2.1
      himage.1.2.2)

/-- The image of a run is a word character. -/
theorem isWord_of_sourceInRun {c : Char} {n : Nat} {run : Nat × Nat × Nat × Nat} (hrun : run ∈ foldRuns)
    (h : sourceInRun c.toNat run = some n) : isWord c = true := by
  obtain ⟨first, last, step, image⟩ := run
  simp only [sourceInRun, Option.ite_none_right_eq_some] at h
  exact isWord_of_listedBySteps (listed_of_mem_foldRuns hrun).2 h.1.1 h.1.2.1 h.1.2.2

/-- A set that holds all word characters, and of ASCII no capital letter without the small one or the
other way round, is closed under case folding. -/
theorem of_mem_variants {p : Char → Bool} (hword : ∀ c, isWord c = true → p c = true)
    (hascii : ∀ n : Fin 128, p (Char.ofNat n).toLower = true ∨ p (Char.ofNat n).toUpper = true →
      p (Char.ofNat n) = true)
    {x y : Char} (hy : y ∈ variants x) (h : p y = true) : p x = true := by
  -- Outside of ASCII, folding changes nothing but characters of words.
  have hfold : p (fold x) = true → p x = true := by
    intro hp
    rcases Nat.lt_or_ge x.toNat 128 with hx | hx
    · rw [fold_of_ascii hx] at hp
      exact forall_ascii (p := fun c => p c.toLower = true ∨ p c.toUpper = true → p c = true) hascii hx
        (Or.inl hp)
    · rcases fold_eq_or_isWord hx with hx' | hx'
      · rwa [hx'] at hp
      · exact hword x hx'
  have hupper : p (fold x).toUpper = true → p (fold x) = true := by
    intro hp
    rcases Nat.lt_or_ge (fold x).toNat 128 with hx | hx
    · exact forall_ascii (p := fun c => p c.toLower = true ∨ p c.toUpper = true → p c = true) hascii hx
        (Or.inr hp)
    · -- Behind `z` there is no other case.
      have hsame : (fold x).toUpper = fold x := by
        have hz : ¬((fold x).val ≤ 'z'.val) := by
          show ¬((fold x).val.toNat ≤ 122)
          have : (fold x).val.toNat = (fold x).toNat := rfl
          omega
        delta Char.toUpper
        rw [dif_neg fun hand => hz hand.2]
      rwa [hsame] at hp
  simp only [variants, List.mem_cons, List.mem_filterMap] at hy
  rcases hy with rfl | rfl | ⟨run, hrun, hsource⟩
  · exact hfold h
  · exact hfold (hupper h)
  · obtain ⟨n, hn, -⟩ := Option.bind_eq_some_iff.mp hsource
    exact hfold (hword _ (isWord_of_sourceInRun hrun hn))

end UrlFilter.Unicode
