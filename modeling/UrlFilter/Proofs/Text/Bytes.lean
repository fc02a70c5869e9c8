import UrlFilter.Proofs.Text.Cutting
import UrlFilter.Proofs.Text.Lower

/-!
# Texts by their bytes

A program that cuts texts does so at offsets into their UTF-8 form. An offset in the midst of a character, or
beyond the end, is no place to cut at: so `cutAt?` gives the two sides of an offset only where there are any,
which is exactly behind the characters of a beginning (`cutAt?_eq_some_iff`). Characters of ASCII have one byte
each, which no other character has among its own; so a search for them among the bytes ends where one among the
characters does (`takeWhile_bytes`).
-/

namespace UrlFilter.Text

/-- The UTF-8 form. -/
def bytes (t : Text) : List UInt8 := t.flatMap String.utf8EncodeChar

/-- The byte is a character of ASCII that satisfies the test. -/
def isAsciiByte (p : Char → Bool) (b : UInt8) : Bool := decide (b.toNat < 128) && p (Char.ofNat b.toNat)

/-- The byte of a character of ASCII. -/
def byte (d : Char) : UInt8 := UInt8.ofNat d.toNat

/-- The first byte of a character. -/
def leadByte (c : Char) : UInt8 := (String.utf8EncodeChar c).head String.utf8EncodeChar_ne_nil

/-- The parts in front of an offset and behind it, counted in bytes, where it lies between characters. -/
def cutAt? : Nat → Text → Option (Text × Text)
  | 0, t => some ([], t)
  | _ + 1, [] => none
  | n + 1, c :: t =>
    if c.utf8Size ≤ n + 1 then (cutAt? (n + 1 - c.utf8Size) t).map fun (a, b) => (c :: a, b) else none

/-- The part in front of an offset. -/
def takeAt? (n : Nat) (t : Text) : Option Text := (cutAt? n t).map Prod.fst

/-- The part behind an offset. -/
def dropAt? (n : Nat) (t : Text) : Option Text := (cutAt? n t).map Prod.snd

/-- The part between two offsets. -/
def slice? (start stop : Nat) (t : Text) : Option Text := (takeAt? stop t).bind (dropAt? start)

/-- The offset of the first character that satisfies the test. -/
def firstAt? (p : Char → Bool) : Text → Option Nat
  | [] => none
  | c :: t => if p c then some 0 else (firstAt? p t).map (c.utf8Size + ·)

/-- The offset of the last character that satisfies the test. -/
def lastAt? (p : Char → Bool) : Text → Option Nat
  | [] => none
  | c :: t =>
    match lastAt? p t with
    | some n => some (c.utf8Size + n)
    | none => if p c then some 0 else none

variable {t a b : Text} {c d : Char} {n : Nat}

/-! ## Lengths -/

/-- The length of a text is that of its first character and the rest. -/
theorem byteLength_cons (c : Char) (t : Text) : byteLength (c :: t) = c.utf8Size + byteLength t := by
  rw [← List.singleton_append, byteLength_append]
  simp [byteLength]

/-- The UTF-8 form has as many bytes as the characters have. -/
theorem length_bytes (t : Text) : (bytes t).length = byteLength t := by
  induction t with
  | nil => rfl
  | cons c t ih =>
    rw [byteLength_cons, ← ih, bytes, List.flatMap_cons, List.length_append, String.length_utf8EncodeChar]
    rfl

/-- A character of ASCII has one byte. -/
theorem utf8Size_of_ascii (hc : c.toNat < 128) : c.utf8Size = 1 := by
  have hval : c.val.toNat = c.toNat := rfl
  have hle : c.val ≤ 0x7f := by
    rw [UInt32.le_iff_toNat_le, hval]
    exact Nat.le_of_lt_succ hc
  simp [Char.utf8Size, hle]

/-- Digits are characters of ASCII. -/
theorem ascii_of_isDigit (c : Char) (hc : c.isDigit = true) : c.toNat < 128 := by
  simp only [Char.isDigit, Bool.and_eq_true, decide_eq_true_eq] at hc
  exact Nat.lt_of_le_of_lt (UInt32.le_iff_toNat_le.mp hc.2) (by decide)

/-- A text of ASCII has as many bytes as characters. -/
theorem byteLength_eq_length (h : ∀ c ∈ t, c.toNat < 128) : byteLength t = t.length := by
  induction t with
  | nil => rfl
  | cons c t ih =>
    rw [byteLength_cons, utf8Size_of_ascii (h c (by simp)), ih fun d hd => h d (by simp [hd]), Nat.add_comm,
      List.length_cons]

/-- A character of ASCII at the end adds one byte. -/
theorem byteLength_concat_ascii (hd : d.toNat < 128) (t : Text) : byteLength (t ++ [d]) = byteLength t + 1 := by
  rw [byteLength_append, byteLength_cons, utf8Size_of_ascii hd]
  rfl

/-- To lower a letter does not change how many bytes it has. -/
theorem utf8Size_toLower (c : Char) : c.toLower.utf8Size = c.utf8Size :=
  toLower_congr (f := Char.utf8Size) (by decide) c

/-- To lower the letters of a text does not change how many bytes it has. -/
theorem byteLength_lower (t : Text) : byteLength (lower t) = byteLength t := by
  induction t with
  | nil => rfl
  | cons c t ih => rw [lower, List.map_cons, ← lower, byteLength_cons, byteLength_cons, ih, utf8Size_toLower]

/-! ## Cutting at an offset -/

/-- The places to cut at are those behind the characters of a beginning. -/
theorem cutAt?_eq_some_iff : cutAt? n t = some (a, b) ↔ t = a ++ b ∧ byteLength a = n := by
  fun_induction cutAt? n t generalizing a with
  -- Nothing is left to be cut off, and only the empty text has no bytes.
  | case1 t =>
    simp only [Option.some.injEq, Prod.mk.injEq]
    constructor
    · rintro ⟨rfl, rfl⟩
      exact ⟨rfl, rfl⟩
    · rintro ⟨rfl, hzero⟩
      cases a with
      | nil => exact ⟨rfl, rfl⟩
      | cons c a =>
        have := c.utf8Size_pos
        rw [byteLength_cons] at hzero
        omega
  | case2 n =>
    simp only [reduceCtorEq, false_iff, not_and]
    intro hnil
    rw [(List.append_eq_nil_iff.mp hnil.symm).1]
    exact Nat.ne_of_lt (Nat.succ_pos n)
  | case3 n c t hsize ih =>
    simp only [Option.map_eq_some_iff, Prod.mk.injEq, Prod.exists]
    constructor
    · rintro ⟨a', b', hcut, rfl, rfl⟩
      obtain ⟨rfl, hlength⟩ := ih.mp hcut
      refine ⟨rfl, ?_⟩
      rw [byteLength_cons]
      omega
    · rintro ⟨htext, hlength⟩
      cases a with
      | nil => exact absurd hlength (Nat.ne_of_lt (Nat.succ_pos n))
      | cons c' a =>
        rw [byteLength_cons] at hlength
        obtain ⟨rfl, rfl⟩ := List.cons.inj htext
        exact ⟨a, b, ih.mpr ⟨rfl, by omega⟩, rfl, rfl⟩
  -- The cut would be inside of the first character.
  | case4 n c t hsize =>
    simp only [reduceCtorEq, false_iff, not_and]
    intro htext hlength
    cases a with
    | nil => exact absurd hlength (Nat.ne_of_lt (Nat.succ_pos n))
    | cons c' a =>
      rw [byteLength_cons] at hlength
      obtain ⟨rfl, -⟩ := List.cons.inj htext
      omega

section
variable (ht : a ++ b = t) (hn : n = byteLength a)

include ht hn

/-- A text is cut behind the bytes of its first part, and nowhere else. -/
theorem cutAt?_eq : cutAt? n t = some (a, b) := cutAt?_eq_some_iff.mpr ⟨ht.symm, hn.symm⟩

/-- The part in front of an offset is a beginning with as many bytes. -/
theorem takeAt?_eq : takeAt? n t = some a := by rw [takeAt?, cutAt?_eq ht hn, Option.map_some]

/-- The part behind an offset is what follows a beginning with as many bytes. -/
theorem dropAt?_eq : dropAt? n t = some b := by rw [dropAt?, cutAt?_eq ht hn, Option.map_some]

end

/-- A part of a text is found between the offsets where it starts and ends. -/
theorem slice?_append (s t u : Text) :
    slice? (byteLength s) (byteLength s + byteLength t) (s ++ t ++ u) = some t := by
  rw [slice?, takeAt?_eq rfl (byteLength_append s t).symm, Option.bind_some, dropAt?_eq rfl rfl]

/-! ## Searching for a character -/

/-- The first offset counts the bytes of the characters in front that do not satisfy the test. -/
theorem firstAt?_eq (p : Char → Bool) (t : Text) :
    firstAt? p t = if t.any p then some (byteLength (t.takeWhile (!p ·))) else none := by
  induction t with
  | nil => rfl
  | cons c t ih =>
    rw [firstAt?, ih]
    cases hc : p c with
    | true => simp [hc, byteLength]
    | false =>
      cases hany : t.any p with
      | true => simp [hc, hany, byteLength_cons]
      | false => simp [hc, hany]

/-- There is no last offset exactly when the character is not in the text. -/
theorem lastAt?_eq_none_iff : lastAt? (· == d) t = none ↔ d ∉ t := by
  induction t with
  | nil => simp [lastAt?]
  | cons c t ih =>
    rw [lastAt?]
    cases hlast : lastAt? (· == d) t with
    | none => simpa [ih.mp hlast] using ne_comm
    | some n =>
      have hmem : d ∈ t := by
        by_contra hmem
        simp [ih.mpr hmem] at hlast
      simp [hmem]

/-- The last place of a mark is where the text is split at it. -/
theorem lastAt?_eq (d : Char) (t : Text) : lastAt? (· == d) t = (splitLast d t).map fun ends => byteLength ends.1 := by
  cases hsplit : splitLast d t with
  | none => exact lastAt?_eq_none_iff.mpr (splitLast_eq_none_iff.mp hsplit)
  | some ends =>
    obtain ⟨htext, hlast⟩ := splitLast_eq_some_iff.mp hsplit
    obtain ⟨front, behind⟩ := ends
    dsimp only at htext hlast
    subst htext
    rw [Option.map_some]
    clear hsplit
    induction front with
    | nil => simp [lastAt?, lastAt?_eq_none_iff.mpr hlast, byteLength]
    | cons c front ih => rw [List.cons_append, lastAt?, ih, byteLength_cons]

/-! ## Searching among the bytes -/

/-- The bytes of a character beyond ASCII are beyond ASCII too. -/
theorem le_of_mem_utf8EncodeChar (hc : 128 ≤ c.toNat) {x : UInt8} (hx : x ∈ String.utf8EncodeChar c) :
    128 ≤ x.toNat := by
  have hle : ¬c.val.toNat ≤ 127 := Nat.not_le.mpr hc
  simp only [String.utf8EncodeChar, hle, if_false] at hx
  split at hx
  · simp only [List.mem_cons, List.not_mem_nil, or_false] at hx
    rcases hx with rfl | rfl <;> rw [UInt8.toNat_ofNat'] <;> omega
  · split at hx
    · simp only [List.mem_cons, List.not_mem_nil, or_false] at hx
      rcases hx with rfl | rfl | rfl <;> rw [UInt8.toNat_ofNat'] <;> omega
    · simp only [List.mem_cons, List.not_mem_nil, or_false] at hx
      rcases hx with rfl | rfl | rfl | rfl <;> rw [UInt8.toNat_ofNat'] <;> omega

/-- A character of ASCII is its only byte. -/
theorem utf8EncodeChar_of_ascii (hc : c.toNat < 128) : String.utf8EncodeChar c = [UInt8.ofNat c.toNat] := by
  have hle : c.val.toNat ≤ 127 := Nat.le_of_lt_succ hc
  simp only [String.utf8EncodeChar, hle, if_true]
  rfl

/-- A test for characters of ASCII says of each byte what it says of the whole character. -/
theorem isAsciiByte_of_mem {p : Char → Bool} (hp : ∀ c, p c = true → c.toNat < 128) {x : UInt8}
    (hx : x ∈ String.utf8EncodeChar c) : isAsciiByte p x = p c := by
  rcases Nat.lt_or_ge c.toNat 128 with hc | hc
  · rw [utf8EncodeChar_of_ascii hc, List.mem_singleton] at hx
    have hnat : x.toNat = c.toNat := by
      rw [hx, UInt8.toNat_ofNat']
      omega
    rw [isAsciiByte, hnat, Char.ofNat_toNat, decide_eq_true hc, Bool.true_and]
  · have hlarge := le_of_mem_utf8EncodeChar hc hx
    have hno : p c = false := Bool.eq_false_iff.mpr fun hpc => absurd (hp c hpc) (Nat.not_lt.mpr hc)
    rw [isAsciiByte, decide_eq_false (Nat.not_lt.mpr hlarge), Bool.false_and, hno]

/-- The first byte of a character satisfies a test on ASCII exactly when the character does. -/
theorem isAsciiByte_leadByte {p : Char → Bool} (hp : ∀ c, p c = true → c.toNat < 128) (c : Char) :
    isAsciiByte p (leadByte c) = p c :=
  isAsciiByte_of_mem hp (List.head_mem _)

/-- The first byte of a character of ASCII is the byte of the character. -/
theorem leadByte_of_ascii (hc : c.toNat < 128) : leadByte c = byte c := by
  simp only [leadByte, utf8EncodeChar_of_ascii hc, List.head_cons]
  rfl

/-- The first byte of a character tells whether it is a certain one of ASCII. -/
theorem leadByte_eq_iff (hd : d.toNat < 128) : leadByte c = byte d ↔ c = d := by
  have hp : ∀ e : Char, (e == d) = true → e.toNat < 128 := by simpa using hd
  constructor
  · intro h
    have hlead := isAsciiByte_leadByte hp c
    rw [h, ← leadByte_of_ascii hd, isAsciiByte_leadByte hp d, beq_self_eq_true] at hlead
    exact eq_of_beq hlead.symm
  · rintro rfl
    exact leadByte_of_ascii hd

/-- Behind its first byte, a character has only bytes beyond ASCII. -/
theorem le_of_mem_tail {x : UInt8} (hx : x ∈ (String.utf8EncodeChar c).tail) : 128 ≤ x.toNat := by
  rcases Nat.lt_or_ge c.toNat 128 with hc | hc
  · rw [utf8EncodeChar_of_ascii hc] at hx
    exact absurd hx List.not_mem_nil
  · exact le_of_mem_utf8EncodeChar hc (List.mem_of_mem_tail hx)

/-- A character is its first byte and the others. -/
theorem leadByte_cons_tail (c : Char) : leadByte c :: (String.utf8EncodeChar c).tail = String.utf8EncodeChar c :=
  List.cons_head_tail _

/-- The bytes of a text are those of its first character and of the rest. -/
theorem bytes_cons (c : Char) (t : Text) : bytes (c :: t) = String.utf8EncodeChar c ++ bytes t := rfl

/-- The bytes of two texts in a row are those of the first and of the second. -/
theorem bytes_append (s t : Text) : bytes (s ++ t) = bytes s ++ bytes t := List.flatMap_append

section
variable {p : Char → Bool} {q : UInt8 → Bool} (h : ∀ c, ∀ x ∈ String.utf8EncodeChar c, q x = p c)

include h

/-- The bytes up to the first that fails a test are those of the characters up to the first that does, when the
test says the same of all bytes of a character. -/
theorem takeWhile_bytes (t : Text) : (bytes t).takeWhile q = bytes (t.takeWhile p) := by
  induction t with
  | nil => rfl
  | cons c t ih =>
    have hbytes := h c
    rw [bytes_cons]
    cases hc : p c with
    | true =>
      rw [List.takeWhile_append_of_pos fun x hx => (hbytes x hx).trans hc, ih, List.takeWhile_cons_of_pos hc,
        bytes_cons]
    | false =>
      rw [List.takeWhile_cons_of_neg (by simp [hc])]
      cases hencoded : String.utf8EncodeChar c with
      | nil => exact absurd hencoded String.utf8EncodeChar_ne_nil
      | cons x xs =>
        rw [hencoded] at hbytes
        simp [hbytes x (by simp), hc, bytes]

end

/-- Behind a beginning, the next byte is the first of the next character. -/
theorem getElem?_bytes_lead (a : Text) (c : Char) (b : Text) :
    (bytes (a ++ c :: b))[byteLength a]? = some (leadByte c) := by
  rw [bytes_append, ← length_bytes, List.getElem?_append_right (Nat.le_refl _), Nat.sub_self, bytes_cons,
    ← leadByte_cons_tail, List.cons_append, List.getElem?_cons_zero]

/-- Behind a beginning, the next byte is a character of ASCII when the next character is. -/
theorem getElem?_bytes (hd : d.toNat < 128) (ht : a ++ b = t) (hn : n = byteLength a) :
    (bytes t)[n]? = some (UInt8.ofNat d.toNat) ↔ b.head? = some d := by
  subst ht hn
  cases b with
  | nil => simp [← length_bytes]
  | cons c b =>
    rw [getElem?_bytes_lead, Option.some.injEq, List.head?_cons, Option.some.injEq]
    exact leadByte_eq_iff hd

end UrlFilter.Text
