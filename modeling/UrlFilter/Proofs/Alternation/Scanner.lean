import UrlFilter.Alternation.Mark
import UrlFilter.Proofs.Text.Bytes
import UrlFilter.Proofs.Text.Numeral

/-!
# Scanning a pattern by its bytes

The structure of a pattern can be told by a scanner that reads its bytes one after the other. It takes the byte
behind a backslash together with it, so its place may come to lie in the midst of a character, or beyond the end
of the text. It always comes to an end (`run_eq`); and what it reports are the marks of the text, each at the
offset where it begins (`reported_tokens`), for no byte behind the first of a character is a sign.
-/

namespace UrlFilter.Alternation

/-- A sign that a scanner reports. -/
inductive Token where
  /-- A backslash, with the byte behind it. -/
  | escape (b : UInt8)
  | opening
  | closing
  | bar
  deriving Repr, DecidableEq

/-- The sign that a byte is by itself. -/
def Token.ofByte? (b : UInt8) : Option Token :=
  if b = Text.byte '(' then some opening
  else if b = Text.byte ')' then some closing
  else if b = Text.byte '|' then some bar
  else none

/-- The leading byte of a character that is no sign is no sign either. -/
theorem Token.ofByte?_leadByte {c : Char} (hopen : c ≠ '(') (hclose : c ≠ ')') (hbar : c ≠ '|') :
    Token.ofByte? (Text.leadByte c) = none := by
  rw [ofByte?, if_neg (hopen ∘ (Text.leadByte_eq_iff (by decide)).mp),
    if_neg (hclose ∘ (Text.leadByte_eq_iff (by decide)).mp), if_neg (hbar ∘ (Text.leadByte_eq_iff (by decide)).mp)]

/-- A scanner of bytes. -/
structure Scanner where
  bytes : List UInt8
  /-- The place of the next byte that is read; it may lie beyond the end. -/
  place : Nat
  inClass : Bool
  deriving Repr

namespace Scanner

/-- Behind a place, or behind the byte of a character that stands there. -/
def pass (c : Char) (bytes : List UInt8) (n : Nat) : Nat :=
  if bytes[n]? = some (Text.byte c) then n + 1 else n

/-- One byte is read, with those that belong to it: what is reported of it and where, and the scanner behind it.
Beyond the end there is none to read. -/
def turn? (s : Scanner) : Option (Option (Nat × Token) × Scanner) :=
  s.bytes[s.place]?.map fun b =>
    if b = Text.byte '\\' then
      let escaped := s.bytes[s.place + 1]?.getD (Text.byte '\\')
      (if s.inClass then none else some (s.place, .escape escaped), { s with place := s.place + 2 })
    else if s.inClass then
      (none, { s with place := s.place + 1, inClass := b != Text.byte ']' })
    else if b = Text.byte '[' then
      -- A closing bracket that stands first does not end the class.
      (none, { s with place := pass ']' s.bytes (pass '^' s.bytes (s.place + 1)), inClass := true })
    else ((Token.ofByte? b).map (s.place, ·), { s with place := s.place + 1 })

/-- What is reported, and the scanner, after a number of turns; at the end it stays. -/
def run : Nat → Scanner → List (Nat × Token) × Scanner
  | 0, s => ([], s)
  | n + 1, s =>
    match s.turn? with
    | none => ([], s)
    | some (report, behind) => (report.toList ++ (run n behind).1, (run n behind).2)

variable {s behind : Scanner} {report : Option (Nat × Token)} {c : Char} {n : Nat}

/-- Passing a character never goes back. -/
theorem le_pass (c : Char) (bytes : List UInt8) (n : Nat) : n ≤ pass c bytes n := by
  unfold pass
  split <;> omega

/-- In a turn, the scanner goes on by a byte at least. -/
theorem turn?_advances (h : s.turn? = some (report, behind)) :
    behind.bytes = s.bytes ∧ s.place < s.bytes.length ∧ s.place < behind.place := by
  obtain ⟨b, hb, hturn⟩ := Option.map_eq_some_iff.mp h
  have hend : s.place < s.bytes.length := (List.getElem?_eq_some_iff.mp hb).1
  have hcaret := le_pass '^' s.bytes (s.place + 1)
  have hbracket := le_pass ']' s.bytes (pass '^' s.bytes (s.place + 1))
  split_ifs at hturn <;> obtain ⟨-, rfl⟩ := Prod.mk.inj hturn
  all_goals exact ⟨rfl, hend, by dsimp only; omega⟩

/-- All that is reported up to the end. -/
def tokens (s : Scanner) : List (Nat × Token) :=
  match _hturn : s.turn? with
  | none => []
  | some (report, behind) => report.toList ++ behind.tokens
termination_by s.bytes.length - s.place
decreasing_by
  obtain ⟨hbytes, hend, hplace⟩ := turn?_advances _hturn
  rw [hbytes]
  omega

/-- A scan that is at its end reports nothing. -/
theorem tokens_of_end (h : s.turn? = none) : s.tokens = [] := by
  rw [tokens]
  split
  · rfl
  · next hturn => simp [h] at hturn

/-- A scan reports what its next turn does, and then what is reported behind it. -/
theorem tokens_of_turn (h : s.turn? = some (report, behind)) : s.tokens = report.toList ++ behind.tokens := by
  rw [tokens]
  split
  · next hturn => simp [h] at hturn
  · next hturn =>
    obtain ⟨rfl, rfl⟩ := Prod.mk.inj (Option.some.inj (hturn.symm.trans h))
    rfl

/-- The scanner comes to an end, after as many turns as there are bytes at most. -/
theorem run_eq (h : s.bytes.length - s.place ≤ n) : (s.run n).1 = s.tokens ∧ (s.run n).2.turn? = none := by
  induction n generalizing s with
  | zero =>
    have hend : s.turn? = none := Option.map_eq_none_iff.mpr (List.getElem?_eq_none (by omega))
    exact ⟨(tokens_of_end hend).symm, hend⟩
  | succ n ih =>
    rw [run]
    cases hturn : s.turn? with
    | none => exact ⟨(tokens_of_end hturn).symm, hturn⟩
    | some pair =>
      obtain ⟨report, behind⟩ := pair
      obtain ⟨hbytes, hend, hplace⟩ := turn?_advances hturn
      obtain ⟨htokens, hlast⟩ := ih (s := behind) (by rw [hbytes]; omega)
      exact ⟨by rw [tokens_of_turn hturn, ← htokens], hlast⟩

/-- The letter has two bytes, of which the first is taken with the backslash; and the last backslash is taken with a
byte that is not there. -/
example : (run 7 ⟨Text.bytes ['\\', 'é', ')', '|', '\\'], 0, false⟩).1 =
    [(0, .escape 0xC3), (3, .closing), (4, .bar), (5, .escape (Text.byte '\\'))] := by
  decide +kernel

/-! ## A scanner between characters -/

/-- The scanner of a text that has read its beginning `a`, and has `b` in front of it. -/
def between (a b : Text) (inClass : Bool) : Scanner := ⟨Text.bytes (a ++ b), Text.byteLength a, inClass⟩

section
variable {a b : Text} {d : Char} {inClass : Bool}

/-- A character is passed that comes next, and no other. -/
theorem pass_eq {first : Text} (hd : d.toNat < 128) (h : first = [d] ∨ first = [] ∧ ∀ u, b ≠ d :: u) :
    pass d (Text.bytes (a ++ (first ++ b))) (Text.byteLength a) = Text.byteLength (a ++ first) := by
  have hnext := Text.getElem?_bytes (a := a) (b := first ++ b) hd rfl rfl
  rcases h with rfl | ⟨rfl, hb⟩
  · rw [Text.byteLength_concat_ascii hd]
    exact if_pos (hnext.mpr rfl)
  · rw [List.append_nil]
    refine if_neg fun hpassed => ?_
    obtain ⟨u, hu⟩ := List.head?_eq_some_iff.mp (hnext.mp hpassed)
    exact hb u hu

/-- A byte beyond ASCII is no sign. -/
theorem turn?_of_le {x : UInt8} (hx : s.bytes[s.place]? = some x) (h : 128 ≤ x.toNat) :
    s.turn? = some (none, { s with place := s.place + 1 }) := by
  have hne (d : Char) (hd : d.toNat < 128) : x ≠ Text.byte d := by
    rintro rfl
    rw [Text.byte, UInt8.toNat_ofNat'] at h
    omega
  have hback := hne '\\' (by decide)
  have hbracket := hne '[' (by decide)
  have hend := hne ']' (by decide)
  have hsign : Token.ofByte? x = none := by
    rw [Token.ofByte?, if_neg (hne '(' (by decide)), if_neg (hne ')' (by decide)), if_neg (hne '|' (by decide))]
  obtain ⟨bytes, place, inClass⟩ := s
  rw [turn?, hx, Option.map_some, if_neg hback, hsign]
  cases inClass with
  | true => simpa using hend
  | false => simp [hbracket]

/-- Bytes beyond ASCII are passed in silence. -/
theorem tokens_skip (front : List UInt8) {silent : List UInt8} (back : List UInt8) (inClass : Bool)
    (h : ∀ x ∈ silent, 128 ≤ x.toNat) :
    tokens ⟨front ++ (silent ++ back), front.length, inClass⟩ =
      tokens ⟨front ++ (silent ++ back), front.length + silent.length, inClass⟩ := by
  induction silent generalizing front with
  | nil => rfl
  | cons x xs ih =>
    have hturn := turn?_of_le (s := ⟨front ++ (x :: xs ++ back), front.length, inClass⟩)
      (by simp) (h x List.mem_cons_self)
    have hrest := ih (front ++ [x]) fun y hy => h y (List.mem_cons_of_mem x hy)
    simp only [List.append_assoc, List.singleton_append, List.length_append, List.length_singleton] at hrest
    rw [tokens_of_turn hturn, List.length_cons, Nat.add_comm xs.length, ← Nat.add_assoc]
    exact hrest

/-- In the midst of a character, a scanner goes on to its end. -/
theorem tokens_within (a : Text) (c : Char) (b : Text) (inClass : Bool) :
    tokens ⟨Text.bytes (a ++ c :: b), Text.byteLength a + 1, inClass⟩ = (between (a ++ [c]) b inClass).tokens := by
  have hbytes : Text.bytes (a ++ c :: b) =
      (Text.bytes a ++ [Text.leadByte c]) ++ ((String.utf8EncodeChar c).tail ++ Text.bytes b) := by
    rw [Text.bytes_append, Text.bytes_cons, List.append_assoc, List.singleton_append, ← List.cons_append,
      Text.leadByte_cons_tail]
  have hfront : (Text.bytes a ++ [Text.leadByte c]).length = Text.byteLength a + 1 := by
    rw [List.length_append, Text.length_bytes, List.length_singleton]
  have hbehind : Text.byteLength a + 1 + (String.utf8EncodeChar c).tail.length = Text.byteLength (a ++ [c]) := by
    have hpos := c.utf8Size_pos
    rw [List.length_tail, String.length_utf8EncodeChar, Text.byteLength_append, Text.byteLength_cons]
    simp only [Text.byteLength, List.map_nil, List.sum_nil]
    omega
  -- Of a character, only the first byte may be ASCII, and that is read already.
  have hskip := tokens_skip (Text.bytes a ++ [Text.leadByte c]) (Text.bytes b) inClass
    fun x (hx : x ∈ (String.utf8EncodeChar c).tail) => Text.le_of_mem_tail hx
  rw [← hbytes, hfront, hbehind] at hskip
  rw [hskip, between, List.append_assoc, List.singleton_append]

/-! ## The signs of a text -/

/-- At the end of the text nothing is reported. -/
theorem tokens_nil (a : Text) (inClass : Bool) : (between a [] inClass).tokens = [] := by
  refine tokens_of_end (Option.map_eq_none_iff.mpr (List.getElem?_eq_none ?_))
  rw [between, List.append_nil, Text.length_bytes]

/-- In front of a character, what its first byte says is what it says itself. -/
theorem turn?_between (a : Text) (c : Char) (b : Text) (inClass : Bool) :
    (between a (c :: b) inClass).turn? = some (
      let bytes := Text.bytes (a ++ c :: b)
      let place := Text.byteLength a
      if c = '\\' then
        (if inClass then none else some (place, .escape (bytes[place + 1]?.getD (Text.byte '\\'))),
          ⟨bytes, place + 2, inClass⟩)
      else if inClass then (none, ⟨bytes, place + 1, c != ']'⟩)
      else if c = '[' then (none, ⟨bytes, pass ']' bytes (pass '^' bytes (place + 1)), true⟩)
      else ((Token.ofByte? (Text.leadByte c)).map (place, ·), ⟨bytes, place + 1, inClass⟩)) := by
  have hback := Text.leadByte_eq_iff (c := c) (d := '\\') (by decide)
  have hbracket := Text.leadByte_eq_iff (c := c) (d := '[') (by decide)
  have hend : (Text.leadByte c != Text.byte ']') = (c != ']') :=
    Bool.eq_iff_iff.mpr (by simpa using not_congr (Text.leadByte_eq_iff (d := ']') (by decide)))
  rw [turn?, between, Text.getElem?_bytes_lead, Option.map_some]
  simp only [hback, hbracket, hend]

/-- A backslash at the end of the text escapes itself, unless it is in a class. -/
theorem tokens_lone_backslash (a : Text) (inClass : Bool) : (between a ['\\'] inClass).tokens =
    if inClass then [] else [(Text.byteLength a, .escape (Text.byte '\\'))] := by
  have hlength : (Text.bytes (a ++ ['\\'])).length = Text.byteLength a + 1 := by
    rw [Text.length_bytes, Text.byteLength_concat_ascii (by decide)]
  have hnext : (Text.bytes (a ++ ['\\']))[Text.byteLength a + 1]? = none :=
    List.getElem?_eq_none (Nat.le_of_eq hlength)
  -- The byte that is taken with it is not there, so the place comes to lie beyond the end.
  have hend : tokens ⟨Text.bytes (a ++ ['\\']), Text.byteLength a + 2, inClass⟩ = [] := by
    refine tokens_of_end (Option.map_eq_none_iff.mpr (List.getElem?_eq_none ?_))
    rw [hlength]
    exact Nat.le_succ _
  have hturn := turn?_between a '\\' [] inClass
  simp only [if_true, hnext, Option.getD_none] at hturn
  rw [tokens_of_turn hturn, hend]
  cases inClass <;> rfl

/-- A backslash takes the next character with it, and is reported outside of classes. -/
theorem tokens_backslash (a : Text) (c : Char) (b : Text) (inClass : Bool) :
    (between a ('\\' :: c :: b) inClass).tokens =
      (if inClass then [] else [(Text.byteLength a, .escape (Text.leadByte c))]) ++
        (between (a ++ ['\\', c]) b inClass).tokens := by
  have hfront : Text.byteLength (a ++ ['\\']) = Text.byteLength a + 1 := Text.byteLength_concat_ascii (by decide) a
  have hescaped := Text.getElem?_bytes_lead (a ++ ['\\']) c b
  have hrest := tokens_within (a ++ ['\\']) c b inClass
  simp only [List.append_assoc, List.cons_append, List.nil_append, hfront] at hescaped hrest
  have hturn := turn?_between a '\\' (c :: b) inClass
  simp only [if_true, hescaped, Option.getD_some] at hturn
  rw [tokens_of_turn hturn, ← hrest]
  cases inClass <;> rfl

variable {c : Char}

/-- In a class nothing is reported, and a closing bracket ends it. -/
theorem tokens_inClass (hc : c ≠ '\\') (a b : Text) :
    (between a (c :: b) true).tokens = (between (a ++ [c]) b (c != ']')).tokens := by
  have hturn := turn?_between a c b true
  simp only [if_neg hc, if_true] at hturn
  rw [tokens_of_turn hturn, ← tokens_within]
  rfl

/-- In a class, a closing bracket ends it. -/
theorem tokens_end (a b : Text) : (between a (']' :: b) true).tokens = (between (a ++ [']']) b false).tokens :=
  tokens_inClass (by decide) a b

/-- Other characters but a backslash are in the class. -/
theorem tokens_stay {t : Text} (ht : ∀ c ∈ t, c ≠ '\\' ∧ c ≠ ']') (a b : Text) :
    (between a (t ++ b) true).tokens = (between (a ++ t) b true).tokens := by
  induction t generalizing a with
  | nil => rw [List.nil_append, List.append_nil]
  | cons c t ih =>
    obtain ⟨hback, hend⟩ := ht c List.mem_cons_self
    have hrest := ih (fun d hd => ht d (List.mem_cons_of_mem c hd)) (a ++ [c])
    rw [List.cons_append, tokens_inClass hback, bne_iff_ne.mpr hend, hrest, List.append_assoc, List.singleton_append]

/-- A bracket opens a class, behind the signs that may stand first in it. -/
theorem tokens_bracket (a caret close : Text) {b : Text}
    (hcaret : caret = ['^'] ∨ caret = [] ∧ ∀ u, close ++ b ≠ '^' :: u)
    (hclose : close = [']'] ∨ close = [] ∧ ∀ u, b ≠ ']' :: u) :
    (between a ('[' :: (caret ++ (close ++ b))) false).tokens =
      (between (a ++ '[' :: (caret ++ close)) b true).tokens := by
  have hpasscaret := pass_eq (a := a ++ ['[']) (by decide) hcaret
  have hpassclose := pass_eq (a := a ++ '[' :: caret) (by decide) hclose
  rw [Text.byteLength_concat_ascii (by decide)] at hpasscaret
  simp only [List.append_assoc, List.cons_append, List.nil_append] at hpasscaret hpassclose
  have hturn := turn?_between a '[' (caret ++ (close ++ b)) false
  simp only [Bool.false_eq_true, if_false, if_true, hpasscaret, hpassclose] at hturn
  rw [tokens_of_turn hturn, between, List.append_assoc, List.cons_append, List.append_assoc]
  rfl

/-- Outside of classes a character is reported when it is a sign. -/
theorem tokens_sign (hback : c ≠ '\\') (hbracket : c ≠ '[') (a b : Text) :
    (between a (c :: b) false).tokens =
      ((Token.ofByte? (Text.leadByte c)).map (Text.byteLength a, ·)).toList ++
        (between (a ++ [c]) b false).tokens := by
  have hturn := turn?_between a c b false
  simp only [if_neg hback, if_neg hbracket, Bool.false_eq_true, if_false] at hturn
  rw [tokens_of_turn hturn, ← tokens_within]

end

end Scanner

/-! ## What is reported of marks -/

/-- The digits that a number of a reference begins with. -/
def beginsNumber (c : Char) : Bool := c.isDigit && c != '0'

/-- A mark, the text behind it, and the sign that a scanner reports of it. -/
inductive Mark.Shows : Mark → Text → Token → Prop
  | escaped {c : Char} {u : Text} (hc : beginsNumber c = false) :
    Shows (.escaped c) u (.escape (Text.leadByte c))
  /-- A reference takes all the digits that there are. -/
  | reference {c : Char} {digits u : Text} (hc : beginsNumber c = true)
    (hdigits : ∀ d ∈ digits, d.isDigit = true) (hu : Text.NoDigitFirst u) :
    Shows (.reference (c :: digits)) u (.escape (Text.leadByte c))
  | opening {u : Text} : Shows (.opening (.of u)) u .opening
  | closing {u : Text} : Shows .closing u .closing
  | bar {u : Text} : Shows .bar u .bar

/-- What a scanner reports of marks that are written from an offset on. Plain characters are passed in silence;
only a backslash that ends the text outside of classes is an escape for the scanner and no mark. -/
inductive Reported : Nat → List Mark → List (Nat × Token) → Prop
  | done {n : Nat} : Reported n [] []
  | lone {n : Nat} : Reported n [.plain '\\'] [(n, .escape (Text.byte '\\'))]
  | silent {n : Nat} {c : Char} {ms : List Mark} {ts : List (Nat × Token)}
    (hrest : Reported (n + Text.byteLength [c]) ms ts) : Reported n (.plain c :: ms) ts
  | shown {n : Nat} {m : Mark} {token : Token} {ms : List Mark} {ts : List (Nat × Token)}
    (hm : m.Shows (Mark.write ms) token) (hrest : Reported (n + Text.byteLength m.text) ms ts) :
    Reported n (m :: ms) ((n, token) :: ts)

namespace Reported

variable {n : Nat} {ms : List Mark} {ts : List (Nat × Token)} {c : Char}

/-- The digits in front of other marks are passed in silence. -/
theorem behind_digits (h : Reported n ms ts) :
    Reported (n + (Mark.takeDigits ms).1.length) (Mark.takeDigits ms).2 ts ∧
      (∀ d ∈ (Mark.takeDigits ms).1, d.isDigit = true) ∧
      Text.NoDigitFirst (Mark.write (Mark.takeDigits ms).2) := by
  induction h with
  | done => exact ⟨.done, by simp [Mark.takeDigits], .nil⟩
  | lone => exact ⟨.lone, by simp [Mark.takeDigits], .cons rfl⟩
  | @silent n c ms ts hrest ih =>
    obtain ⟨hreported, hdigits, hbehind⟩ := ih
    by_cases hc : c.isDigit = true
    · have hone : Text.byteLength [c] = 1 := Text.byteLength_concat_ascii (Text.ascii_of_isDigit c hc) []
      rw [Mark.takeDigits, if_pos hc]
      refine ⟨?_, ?_, hbehind⟩
      · rw [hone] at hreported
        simpa [Nat.add_assoc, Nat.add_comm 1] using hreported
      · simpa using ⟨hc, hdigits⟩
    · rw [Mark.takeDigits, if_neg hc]
      exact ⟨.silent hrest, by simp, .cons (by simpa using hc)⟩
  | @shown n m token ms ts hm hrest ih =>
    -- No sign that is reported is a digit: here they end.
    cases hm
    all_goals exact ⟨.shown (by constructor <;> assumption) hrest, by simp [Mark.takeDigits], .cons rfl⟩

/-- An escape and its backslash, with what a reference takes from the marks behind them. -/
theorem escape (h : Reported (n + Text.byteLength ['\\', c]) ms ts) :
    Reported n (Mark.escape c ms) ((n, .escape (Text.leadByte c)) :: ts) := by
  unfold Mark.escape
  split
  · next hc =>
    obtain ⟨hrest, hdigits, hbehind⟩ := h.behind_digits
    have hlength : Text.byteLength (Mark.text (.reference (c :: (Mark.takeDigits ms).1))) =
        Text.byteLength ['\\', c] + (Mark.takeDigits ms).1.length := by
      rw [← Text.byteLength_eq_length fun d hd => Text.ascii_of_isDigit d (hdigits d hd), ← Text.byteLength_append]
      rfl
    refine .shown (.reference hc hdigits hbehind) ?_
    rwa [hlength, ← Nat.add_assoc]
  · next hc => exact .shown (.escaped (Bool.eq_false_iff.mpr hc)) h

/-- Plain characters are passed in silence. -/
theorem silents {cs : Text} (h : Reported (n + Text.byteLength cs) ms ts) : Reported n (cs.map .plain ++ ms) ts := by
  induction cs generalizing n with
  | nil => exact h
  | cons c cs ih =>
    rw [← List.singleton_append, Text.byteLength_append, ← Nat.add_assoc] at h
    exact .silent (ih h)

section
variable {a b : Text} {inClass behind : Bool} {m : Mark} {token : Token}

/-- The scanner passes characters whose marks are plain. -/
theorem pass (cs : Text)
    (hcs : (Scanner.between a (cs ++ b) inClass).tokens = (Scanner.between (a ++ cs) b behind).tokens)
    (h : Reported (Text.byteLength (a ++ cs)) ms (Scanner.between (a ++ cs) b behind).tokens) :
    Reported (Text.byteLength a) (cs.map .plain ++ ms) (Scanner.between a (cs ++ b) inClass).tokens := by
  rw [Text.byteLength_append] at h
  rw [hcs]
  exact silents h

/-- The scanner reports a character that is a mark by itself. -/
theorem sign (hc : Token.ofByte? (Text.leadByte c) = some token) (hback : c ≠ '\\') (hbracket : c ≠ '[')
    (hm : m.Shows (Mark.write ms) token) (htext : m.text = [c])
    (h : Reported (Text.byteLength (a ++ [c])) ms (Scanner.between (a ++ [c]) b false).tokens) :
    Reported (Text.byteLength a) (m :: ms) (Scanner.between a (c :: b) false).tokens := by
  rw [Scanner.tokens_sign hback hbracket, hc]
  refine .shown hm ?_
  rw [htext, ← Text.byteLength_append]
  exact h

end

end Reported

/-- A scanner between the characters of a text reports the marks of what is in front of it. -/
theorem reported_tokens (a b : Text) (inClass : Bool) :
    Reported (Text.byteLength a) (Mark.ofText inClass b) (Scanner.between a b inClass).tokens := by
  -- The cases are the signs that are read: in each, the scanner passes the same characters.
  fun_induction Mark.ofText inClass b generalizing a
  case case1 =>
    rw [Scanner.tokens_nil]
    exact .done
  case case2 inClass =>
    rw [Scanner.tokens_lone_backslash]
    cases inClass with
    | true => exact .silent .done
    | false => exact .lone
  case case3 c t ih => exact .pass ['\\', c] (Scanner.tokens_backslash a c t true) (ih _)
  case case4 inClass c t hclass ih =>
    obtain rfl := Bool.eq_false_iff.mpr hclass
    have h := ih (a ++ ['\\', c])
    rw [Text.byteLength_append] at h
    rw [Scanner.tokens_backslash]
    exact .escape h
  case case5 t ih =>
    refine .pass ['[', '^', ']'] ?_ (ih _)
    refine (Scanner.tokens_stay (t := ['[', '^']) (by simp) a (']' :: t)).trans ?_
    rw [Scanner.tokens_end, List.append_assoc]
    rfl
  case case6 inClass t hclass ih =>
    obtain rfl := Bool.eq_false_iff.mpr hclass
    exact .pass ['[', '^', ']'] (Scanner.tokens_bracket a ['^'] [']'] (.inl rfl) (.inl rfl)) (ih _)
  case case7 inClass t hbracket ih =>
    refine .pass ['[', '^'] ?_ (ih _)
    cases inClass with
    | true => exact Scanner.tokens_stay (by simp) a t
    | false => exact Scanner.tokens_bracket a ['^'] [] (.inl rfl) (.inr ⟨rfl, hbracket⟩)
  case case8 t ih =>
    refine .pass ['[', ']'] ?_ (ih _)
    refine (Scanner.tokens_stay (t := ['[']) (by simp) a (']' :: t)).trans ?_
    rw [Scanner.tokens_end, List.append_assoc]
    rfl
  case case9 inClass t hclass ih =>
    obtain rfl := Bool.eq_false_iff.mpr hclass
    exact .pass ['[', ']'] (Scanner.tokens_bracket a [] [']'] (.inr ⟨rfl, by simp⟩) (.inl rfl)) (ih _)
  case case10 inClass t _ hcaret hbracket ih =>
    refine .pass ['['] ?_ (ih _)
    cases inClass with
    | true => exact Scanner.tokens_stay (by simp) a t
    | false => exact Scanner.tokens_bracket a [] [] (.inr ⟨rfl, hcaret⟩) (.inr ⟨rfl, hbracket⟩)
  case case11 c t hend hback _ _ _ hbracket ih =>
    have hc : c ≠ '\\' := fun hc => by cases t <;> simp_all
    exact .pass [c] (Scanner.tokens_inClass hc a t) (ih _)
  case case12 inClass t hclass _ _ _ _ _ _ ih =>
    obtain rfl := Bool.eq_false_iff.mpr hclass
    have hm : Mark.Shows (.opening (.of t)) (Mark.write (Mark.ofText false t)) .opening := by
      rw [Mark.write_ofText]
      exact .opening
    exact .sign (by decide) (by decide) (by decide) hm rfl (ih _)
  case case13 inClass t hclass _ _ _ _ _ _ _ ih =>
    obtain rfl := Bool.eq_false_iff.mpr hclass
    exact .sign (by decide) (by decide) (by decide) .closing rfl (ih _)
  case case14 inClass t hclass _ _ _ _ _ _ _ _ ih =>
    obtain rfl := Bool.eq_false_iff.mpr hclass
    exact .sign (by decide) (by decide) (by decide) .bar rfl (ih _)
  case case15 inClass c t hend hback _ _ _ hbracket hclass hopen hclose hbar ih =>
    have hc : c ≠ '\\' := fun hc => by cases t <;> simp_all
    obtain rfl := Bool.eq_false_iff.mpr hclass
    refine .pass [c] ?_ (ih _)
    refine (Scanner.tokens_sign hc hbracket a t).trans ?_
    rw [Token.ofByte?_leadByte hopen hclose hbar]
    rfl

end UrlFilter.Alternation
