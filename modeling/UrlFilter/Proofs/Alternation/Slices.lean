import UrlFilter.Proofs.Alternation.Recovery
import UrlFilter.Proofs.Alternation.Scanner

/-!
# Parts of a pattern cut at offsets

The branches of a pattern, its groups and its text with other references can be found by cutting it where its
scanner reports a sign. Each of these cuts is possible whatever the text is, also one that was never a pattern, and
gives what the marks of the text give; and nothing of the text is lost (`scan_keeps_text`).
-/

namespace UrlFilter.Alternation

/-- All that is reported of a text. -/
def tokens (t : Text) : List (Nat × Token) := Scanner.tokens ⟨Text.bytes t, 0, false⟩

/-- The tokens of a text report its marks, one behind the other. -/
theorem reported (t : Text) : Reported 0 (marks t) (tokens t) := reported_tokens [] t false

/-! ## Branches -/

/-- The depth behind a sign. -/
def Token.behind (depth : Nat) : Token → Nat
  | opening => depth + 1
  | closing => depth - 1
  | _ => depth

/-- The branches behind an offset, cut at the bars outside of groups. -/
def branchesAt? (t : Text) (depth start : Nat) : List (Nat × Token) → Option (List Text)
  | [] => (Text.dropAt? start t).map ([·])
  | (n, token) :: ts =>
    if token = .bar ∧ depth = 0 then do
      let branch ← Text.slice? start n t
      let branches ← branchesAt? t depth (n + 1) ts
      some (branch :: branches)
    else branchesAt? t (token.behind depth) start ts

/-- The branches of a text, cut at its bars. -/
def cutBranches? (t : Text) : Option (List Text) := branchesAt? t 0 0 (tokens t)

/-! ## Groups -/

/-- What is counted of a pattern. -/
structure Shape where
  /-- The number of capturing groups. -/
  groups : Nat
  /-- The pattern asks for backtracking. -/
  backtracking : Bool
  deriving Repr, DecidableEq

/-- What makes a group one that only backtracking can match. -/
def backtrackingSigns : List Text :=
  [['?', '='], ['?', '!'], ['?', '<', '='], ['?', '<', '!'], ['?', '>'], ['?', '(']]

/-- The shape with a group that begins in front of a text. -/
def Shape.enter (s : Shape) (behind : Text) : Shape :=
  if backtrackingSigns.any (·.isPrefixOf behind) then { s with backtracking := true }
  else if !(['?'].isPrefixOf behind) || ['?', 'P', '<'].isPrefixOf behind || ['?', '<'].isPrefixOf behind then
    { s with groups := s.groups + 1 }
  else s

/-- A character that refers to a group when it stands behind a backslash: it begins a number or a name. -/
def refers (c : Char) : Bool := beginsNumber c || c == 'k'

/-- The shape of a text, with what is counted already. -/
def shapeAt? (t : Text) (s : Shape) : List (Nat × Token) → Option Shape
  | [] => some s
  | (_, .escape b) :: ts => shapeAt? t { s with backtracking := s.backtracking || Text.isAsciiByte refers b } ts
  | (n, .opening) :: ts => (Text.dropAt? (n + 1) t).bind fun behind => shapeAt? t (s.enter behind) ts
  | (_, .closing) :: ts => shapeAt? t s ts
  | (_, .bar) :: ts => shapeAt? t s ts

/-- The shape of a text. -/
def cutShape? (t : Text) : Option Shape := shapeAt? t ⟨0, false⟩ (tokens t)

/-! ## References -/

/-- The sign is a backslash in front of a number. -/
def Token.isReference : Token → Bool
  | escape b => Text.isAsciiByte beginsNumber b
  | _ => false

/-- The digits behind an offset, and where they end. -/
def digitsAt? (t : Text) (n : Nat) : Option (Text × Nat) := do
  let behind ← Text.dropAt? n t
  let stop := n + ((Text.bytes behind).takeWhile (Text.isAsciiByte Char.isDigit)).length
  let digits ← Text.slice? n stop t
  some (digits, stop)

/-- The text behind an offset, with the numbers of its references lowered. A number that is too large stays. -/
def loweredAt? (t : Text) (shift copied : Nat) : List (Nat × Token) → Option Text
  | [] => Text.dropAt? copied t
  | (n, token) :: ts =>
    if token.isReference then do
      let (digits, stop) ← digitsAt? t (n + 1)
      match (Text.toNat? digits).filter (· < referenceLimit) with
      | some number => do
        let front ← Text.slice? copied (n + 1) t
        let rest ← loweredAt? t shift stop ts
        some (front ++ Text.ofNat (number - shift) ++ rest)
      | none => loweredAt? t shift copied ts
    else loweredAt? t shift copied ts

/-- The text with all references lowered by a number. -/
def cutLowered? (shift : Nat) (t : Text) : Option Text :=
  if shift = 0 then some t else loweredAt? t shift 0 (tokens t)

/-! ## Places in a text -/

/-- At an offset of a text, `rest` begins. In front of it is a part of the text that was not cut yet, and in front of
that what was cut. -/
structure Stands (t : Text) (n : Nat) (rest front part : Text) : Prop where
  text_eq : front ++ part ++ rest = t
  place_eq : n = Text.byteLength (front ++ part)

namespace Stands

variable {t front part rest : Text} {n : Nat} {m : Mark} {ms : List Mark}

/-- A walk stands at the start of the text, with nothing in front of it. -/
theorem start (t : Text) : Stands t 0 (Mark.write (marks t)) [] [] := ⟨write_marks t, rfl⟩

/-- The part goes on with the text that comes next. -/
theorem next {s : Text} (h : Stands t n (s ++ rest) front part) :
    Stands t (n + Text.byteLength s) rest front (part ++ s) where
  text_eq := by rw [← List.append_assoc, List.append_assoc, h.text_eq]
  place_eq := by rw [h.place_eq, ← Text.byteLength_append, List.append_assoc]

/-- A walk goes on by one mark, which joins the part that is under way. -/
theorem mark (h : Stands t n (Mark.write (m :: ms)) front part) :
    Stands t (n + Text.byteLength m.text) (Mark.write ms) front (part ++ m.text) :=
  next h

/-- The part is cut off. -/
theorem restart (h : Stands t n rest front part) : Stands t n rest (front ++ part) [] where
  text_eq := by rw [List.append_nil, h.text_eq]
  place_eq := by rw [List.append_nil, h.place_eq]

/-- The part that is under way is a slice of the text. -/
theorem slice?_eq (h : Stands t n rest front part) : Text.slice? (Text.byteLength front) n t = some part := by
  rw [← h.text_eq, h.place_eq, Text.byteLength_append]
  exact Text.slice?_append front part _

/-- What is ahead is the text without the bytes that were passed. -/
theorem dropAt?_eq (h : Stands t n rest front part) : Text.dropAt? n t = some rest :=
  Text.dropAt?_eq h.text_eq h.place_eq

/-- The part that is under way and what is ahead make up the text behind the parts in front. -/
theorem dropAt?_front (h : Stands t n rest front part) :
    Text.dropAt? (Text.byteLength front) t = some (part ++ rest) :=
  Text.dropAt?_eq (by rw [← List.append_assoc, h.text_eq]) rfl

end Stands

/-! ## The cuts are possible -/

section
variable {n depth : Nat} {m : Mark} {ms b : List Mark} {ts : List (Nat × Token)} {bs : List (List Mark)}
  {t u front part : Text} {token : Token}

/-- A token is a bar exactly where its mark is. -/
theorem Mark.Shows.eq_bar_iff (h : m.Shows u token) : token = .bar ↔ m = .bar := by
  cases h <;> simp

/-- A token leads as deep into groups as its mark. -/
theorem Mark.Shows.behind_eq (h : m.Shows u token) (depth : Nat) : token.behind depth = m.behind depth := by
  cases h <;> rfl

/-- The branches of marks are cut, the first of them with the part in front of it. -/
theorem branchesAt?_eq (h : Reported n ms ts) (ht : Stands t n (Mark.write ms) front part)
    (hb : branchesFrom depth ms = b :: bs) :
    branchesAt? t depth (Text.byteLength front) ts = some ((part ++ Mark.write b) :: bs.map Mark.write) := by
  -- The part in front grows by each mark that is passed, until a bar outside of groups cuts it off.
  induction h generalizing front part depth b bs with
  | done =>
    obtain ⟨rfl, rfl⟩ := List.cons.inj hb
    rw [branchesAt?, ht.dropAt?_front]
    rfl
  | lone =>
    obtain ⟨rfl, rfl⟩ := List.cons.inj hb
    rw [branchesAt?, if_neg (by simp), branchesAt?, ht.dropAt?_front]
    rfl
  | @silent n c ms ts hrest ih =>
    obtain ⟨b', bs', hinner⟩ := List.exists_cons_of_ne_nil (branchesFrom_ne_nil depth ms)
    rw [branchesFrom_cons (m := .plain c) (by simp) hinner] at hb
    obtain ⟨rfl, rfl⟩ := List.cons.inj hb
    rw [ih ht.mark hinner, List.append_assoc]
    rfl
  | @shown n m token ms ts hm hrest ih =>
    by_cases hbar : m = .bar ∧ depth = 0
    · obtain ⟨rfl, rfl⟩ := hbar
      obtain rfl := hm.eq_bar_iff.mpr rfl
      obtain ⟨b', bs', hinner⟩ := List.exists_cons_of_ne_nil (branchesFrom_ne_nil 0 ms)
      simp only [branchesFrom, and_self, if_true, hinner] at hb
      obtain ⟨rfl, rfl⟩ := List.cons.inj hb
      have hbehind := ih ht.mark.restart hinner
      rw [← ht.mark.place_eq] at hbehind
      have hcut : branchesAt? t 0 (n + 1) ts = some (Mark.write b' :: bs'.map Mark.write) := hbehind
      simp [branchesAt?, ht.slice?_eq, hcut, Mark.write]
    · obtain ⟨b', bs', hinner⟩ := List.exists_cons_of_ne_nil (branchesFrom_ne_nil (m.behind depth) ms)
      rw [branchesFrom_cons hbar hinner] at hb
      obtain ⟨rfl, rfl⟩ := List.cons.inj hb
      rw [branchesAt?, if_neg (by rwa [hm.eq_bar_iff]), hm.behind_eq, ih ht.mark hinner, List.append_assoc]
      rfl

/-- Cutting by offsets gives the branches of the text. -/
theorem cutBranches?_eq (t : Text) : cutBranches? t = some (branches t) := by
  obtain ⟨b, bs, hb⟩ := List.exists_cons_of_ne_nil (branchesFrom_ne_nil 0 (marks t))
  have hcut := branchesAt?_eq (reported t) (.start t) hb
  rw [branches, hb]
  exact hcut

/-- The kind of a group says what it adds to a shape. -/
theorem Shape.enter_eq (s : Shape) (u : Text) : s.enter u =
    ⟨s.groups + (if GroupKind.of u = .capturing then 1 else 0),
      s.backtracking || GroupKind.of u == .backtracking⟩ := by
  obtain ⟨groups, backtracking⟩ := s
  simp only [Shape.enter, backtrackingSigns]
  fun_cases GroupKind.of u
  -- The scan compares prefixes where the kind is found by cases: they differ in what rules a case out.
  case case8 t hahead hbehind =>
    cases t with
    | nil => simp [List.isPrefixOf]
    | cons c t =>
      have hc : '=' ≠ c ∧ '!' ≠ c := ⟨fun h => hahead t (by rw [h]), fun h => hbehind t (by rw [h])⟩
      simp [List.isPrefixOf, hc]
  case case9 t hahead hnot _ _ hatomic hchoice hnamed hangle =>
    cases t with
    | nil => simp [List.isPrefixOf]
    | cons c t =>
      have hc : '=' ≠ c ∧ '!' ≠ c ∧ '>' ≠ c ∧ '(' ≠ c ∧ '<' ≠ c :=
        ⟨fun h => hahead t (by rw [h]), fun h => hnot t (by rw [h]), fun h => hatomic t (by rw [h]),
          fun h => hchoice t (by rw [h]), fun h => hangle t (by rw [h])⟩
      have hname : ¬('P' = c ∧ ['<'] <+: t) := by
        rintro ⟨rfl, u, rfl⟩
        exact hnamed u rfl
      simp [List.isPrefixOf, hc, hname]
  case case10 _ _ _ _ _ _ _ _ hnone =>
    cases u with
    | nil => simp [List.isPrefixOf]
    | cons c t =>
      have hc : '?' ≠ c := fun h => hnone t (by rw [h])
      simp [List.isPrefixOf, hc]
  all_goals simp [List.isPrefixOf]

/-- What begins a number is a character of one byte. -/
theorem ascii_of_beginsNumber (c : Char) (hc : beginsNumber c = true) : c.toNat < 128 :=
  Text.ascii_of_isDigit c (Bool.and_eq_true_iff.mp hc).1

/-- What refers to a group is a character of one byte. -/
theorem ascii_of_refers (c : Char) (hc : refers c = true) : c.toNat < 128 := by
  rcases Bool.or_eq_true_iff.mp hc with hnumber | hname
  · exact ascii_of_beginsNumber c hnumber
  · rw [eq_of_beq hname]
    decide

/-- The groups of marks are counted, and what asks for backtracking is found. -/
theorem shapeAt?_eq (h : Reported n ms ts) (ht : Stands t n (Mark.write ms) front part) (s : Shape) :
    shapeAt? t s ts = some ⟨s.groups + ms.countP (· == .opening .capturing),
      s.backtracking || ms.any Mark.backtracks⟩ := by
  induction h generalizing part s with
  | done => simp [shapeAt?]
  | lone => simp [shapeAt?, Mark.backtracks, show Text.isAsciiByte refers (Text.byte '\\') = false by decide]
  | @silent n c ms ts hrest ih =>
    rw [ih ht.mark]
    simp [Mark.backtracks]
  | @shown n m token ms ts hm hrest ih =>
    have hbehind := ih ht.mark
    cases hm with
    | @escaped c _ hc =>
      rw [shapeAt?, hbehind, Text.isAsciiByte_leadByte ascii_of_refers]
      simp [Mark.backtracks, refers, hc, Bool.or_assoc]
    | @reference c digits _ hc hdigits hu =>
      rw [shapeAt?, hbehind, Text.isAsciiByte_leadByte ascii_of_refers]
      simp [Mark.backtracks, refers, hc]
    | opening =>
      -- What a group is can only be told from the text behind its parenthesis.
      have hcut : Text.dropAt? (n + 1) t = some (Mark.write ms) := ht.mark.dropAt?_eq
      rw [shapeAt?, hcut, Option.bind_some, hbehind, Shape.enter_eq]
      by_cases hkind : GroupKind.of (Mark.write ms) = .capturing
      · simp [Mark.backtracks, hkind, Nat.add_assoc, Nat.add_comm 1, Bool.or_assoc]
      · simp [Mark.backtracks, hkind, Bool.or_assoc]
    | closing =>
      rw [shapeAt?, hbehind]
      simp [Mark.backtracks]
    | bar =>
      rw [shapeAt?, hbehind]
      simp [Mark.backtracks]

/-- The shape that is found by offsets is the one that the marks have. -/
theorem cutShape?_eq (t : Text) : cutShape? t = some ⟨groupCount t, backtracks t⟩ := by
  rw [cutShape?, shapeAt?_eq (reported t) (.start t), groupCount, backtracks, Nat.zero_add, Bool.false_or]

/-- The digits in front of a text that does not go on with one are cut. -/
theorem digitsAt?_eq {digits rest : Text} (hdigits : ∀ d ∈ digits, d.isDigit = true) (hrest : Text.NoDigitFirst rest)
    (ht : Stands t n (digits ++ rest) front part) : digitsAt? t n = some (digits, n + Text.byteLength digits) := by
  have hlength : ((Text.bytes (digits ++ rest)).takeWhile (Text.isAsciiByte Char.isDigit)).length =
      Text.byteLength digits := by
    rw [Text.takeWhile_bytes (p := Char.isDigit) fun c x hx => Text.isAsciiByte_of_mem Text.ascii_of_isDigit hx,
      Text.takeWhile_digits hdigits hrest, Text.length_bytes]
  have hcut := ht.restart.next.slice?_eq
  rw [← ht.place_eq, List.nil_append] at hcut
  simp only [digitsAt?, ht.dropAt?_eq, Option.bind_eq_bind, Option.bind_some, hlength, hcut]

/-- The references of marks are lowered, behind the part in front of them. -/
theorem loweredAt?_eq (h : Reported n ms ts) (ht : Stands t n (Mark.write ms) front part) (shift : Nat) :
    loweredAt? t shift (Text.byteLength front) ts = some (part ++ Mark.write (ms.map (Mark.lower shift))) := by
  induction h generalizing front part with
  | done =>
    rw [loweredAt?, ht.dropAt?_front]
    rfl
  | lone =>
    rw [loweredAt?, if_neg (by decide), loweredAt?, ht.dropAt?_front]
    rfl
  | @silent n c ms ts hrest ih =>
    rw [ih ht.mark, List.append_assoc]
    rfl
  | @shown n m token ms ts hm hrest ih =>
    have hother (htoken : token.isReference = false) (hm : m.lower shift = m) :
        loweredAt? t shift (Text.byteLength front) ((n, token) :: ts) =
          some (part ++ Mark.write ((m :: ms).map (Mark.lower shift))) := by
      rw [loweredAt?, if_neg (by simp [htoken]), ih ht.mark, List.append_assoc, List.map_cons, hm]
      rfl
    cases hm with
    | @reference c digits _ hc hdigits hu =>
      have hall : ∀ d ∈ c :: digits, d.isDigit = true :=
        List.forall_mem_cons.mpr ⟨(Bool.and_eq_true_iff.mp hc).1, hdigits⟩
      have htoken : Token.isReference (.escape (Text.leadByte c)) = true :=
        (Text.isAsciiByte_leadByte ascii_of_beginsNumber c).trans hc
      -- The backslash is cut off with the part in front of it, and then the number behind it.
      have hsign : Stands t (n + 1) ((c :: digits) ++ Mark.write ms) front (part ++ ['\\']) := ht.next (s := ['\\'])
      have hvalue : (Text.toNat? (c :: digits)).filter (· < referenceLimit) =
          if Text.digitsToNat (c :: digits) < referenceLimit then some (Text.digitsToNat (c :: digits))
          else none := by
        simp [Text.toNat?, List.all_eq_true.mpr hall, Option.filter]
      have hstop : n + Text.byteLength (Mark.text (.reference (c :: digits))) =
          n + 1 + Text.byteLength (c :: digits) := by
        rw [Mark.text, Text.byteLength_cons, ← Nat.add_assoc]
        rfl
      rw [loweredAt?, if_pos htoken]
      simp only [digitsAt?_eq hall hu hsign, hvalue, hsign.slice?_eq, Option.bind_eq_bind, Option.bind_some]
      -- A number that is too large is passed, with its backslash, as a part of what is cut off later.
      by_cases hlimit : Text.digitsToNat (c :: digits) < referenceLimit
      · have hbehind := ih ht.mark.restart
        rw [← ht.mark.place_eq, hstop] at hbehind
        rw [if_pos hlimit]
        simp [hlimit, hbehind, Mark.lower, Mark.write, Mark.text]
      · have hbehind := ih ht.mark
        rw [if_neg hlimit]
        simp [hlimit, hbehind, Mark.lower, Mark.write, Mark.text]
    | escaped hc => exact hother ((Text.isAsciiByte_leadByte ascii_of_beginsNumber _).trans hc) rfl
    | opening => exact hother rfl rfl
    | closing => exact hother rfl rfl
    | bar => exact hother rfl rfl

/-- Lowering by offsets lowers the references of the text. -/
theorem cutLowered?_eq (shift : Nat) (t : Text) : cutLowered? shift t = some (lowerReferences shift t) := by
  rw [cutLowered?, lowerReferences]
  split
  · rfl
  · exact loweredAt?_eq (reported t) (.start t) shift

/-- Where no reference is reported, there is none among the marks. -/
theorem Reported.reference_notMem (h : Reported n ms ts) (hts : ∀ x ∈ ts, x.2.isReference = false) (digits : Text) :
    .reference digits ∉ ms := by
  induction h with
  | done => exact List.not_mem_nil
  | lone => simp
  | silent hrest ih => simpa using ih hts
  | shown hm hrest ih =>
    obtain ⟨htoken, hrest⟩ := List.forall_mem_cons.mp hts
    intro hmem
    rcases List.mem_cons.mp hmem with rfl | hbehind
    · cases hm with
      | @reference c digits _ hc hdigits hu =>
        have href : Token.isReference (.escape (Text.leadByte c)) = true :=
          (Text.isAsciiByte_leadByte ascii_of_beginsNumber c).trans hc
        exact absurd (href.symm.trans htoken) (by decide)
    · exact ih hrest hbehind

end

/-! ## Nothing is lost -/

/-- What the scanner of a text reports gives the structure of the text. -/
structure Scanned (t : Text) : Prop where
  /-- The scanner is at its end after as many turns as there are bytes, and has reported everything then. -/
  ends : ∃ s, Scanner.run (Text.byteLength t) ⟨Text.bytes t, 0, false⟩ = (tokens t, s) ∧ s.turn? = none
  /-- The cuts at the offsets that it reports are possible, and give branches, groups and other references. -/
  cutBranches?_eq : cutBranches? t = some (branches t)
  cutShape?_eq : cutShape? t = some ⟨groupCount t, backtracks t⟩
  cutLowered?_eq : ∀ shift, cutLowered? shift t = some (lowerReferences shift t)

/-- Every text is scanned as its marks say. -/
theorem scanned (t : Text) : Scanned t where
  ends := by
    obtain ⟨htokens, hend⟩ := Scanner.run_eq (s := ⟨Text.bytes t, 0, false⟩) (Nat.le_of_eq (Text.length_bytes t))
    exact ⟨_, Prod.ext htokens rfl, hend⟩
  cutBranches?_eq := cutBranches?_eq t
  cutShape?_eq := cutShape?_eq t
  cutLowered?_eq := (cutLowered?_eq · t)

/-- Every text can be scanned and cut at what is reported; its branches joined by bars are the text; and it stays as
it is when its references are lowered by nothing, or when there are none. So when an alternation is made again from
its text, that text is the opening, the fragments that it matches with, joined by bars, and a parenthesis. -/
theorem scan_keeps_text (t : Text) :
    Scanned t ∧ Text.join ['|'] (branches t) = t ∧ lowerReferences 0 t = t ∧
      ((∀ x ∈ tokens t, x.2.isReference = false) → ∀ shift, lowerReferences shift t = t) ∧
      ∀ {rules : List Text} {a : Alternation}, rules ≠ [] → ofText rules t = .ok a →
        ∃ body fragments, cutBranches? body = some fragments ∧ fragments.length = rules.length ∧
          a.text = t ∧ t = opening ++ Text.join ['|'] fragments ++ [')'] ∧
          a.matcher = Matcher.ofFragments? fragments := by
  refine ⟨scanned t, join_branches t, rfl, fun htokens => ?_, fun hrules ha => ?_⟩
  · exact lowerReferences_eq_self ((reported t).reference_notMem htokens)
  · obtain ⟨fragments, hbranches, hlength, m, hm, rfl⟩ := (ofText_eq_ok_iff hrules).mp ha
    obtain ⟨behind, hopening, hbody⟩ := Option.bind_eq_some_iff.mp hbranches
    obtain ⟨body, hclosing, rfl⟩ := Option.map_eq_some_iff.mp hbody
    refine ⟨body, branches body, cutBranches?_eq body, hlength, rfl, ?_, hm.symm⟩
    rw [join_branches, List.append_assoc, ← Text.before?_eq_some_iff.mp hclosing, Text.after?_eq_some_iff.mp hopening]

/-- A joined text of two branches, one with a condition and one with a bar in a class. -/
def conditional : Text := "(?i)(?:é(?=b)|[|]\\.x)".toList

/-- The text has no references, and it is the text of an alternation of two rules. -/
theorem scan_keeps_text_sample :
    (∀ x ∈ tokens conditional, x.2.isReference = false) ∧ lowerReferences 7 conditional = conditional ∧
      ∃ a fragments, ofText ["é".toList, "x".toList] conditional = .ok a ∧ fragments.length = 2 ∧
        a.text = opening ++ Text.join ['|'] fragments ++ [')'] := by
  obtain ⟨hscanned, -, -, hlowered, hmade⟩ := scan_keeps_text conditional
  have htokens : ∀ x ∈ tokens conditional, x.2.isReference = false := by
    obtain ⟨s, hrun, -⟩ := hscanned.ends
    have hall : ∀ x ∈ (Scanner.run (Text.byteLength conditional) ⟨Text.bytes conditional, 0, false⟩).1,
        x.2.isReference = false := by decide +kernel
    rwa [hrun] at hall
  have hrules : (ofText ["é".toList, "x".toList] conditional).toOption.map (·.rules) =
      some ["é".toList, "x".toList] := by
    decide +kernel
  refine ⟨htokens, hlowered htokens 7, ?_⟩
  obtain ⟨a, ha, -⟩ := exists_of_toOption_map hrules
  obtain ⟨-, fragments, -, hlength, htext, hjoined, -⟩ := hmade (by simp) ha
  exact ⟨a, fragments, ha, hlength, htext.trans hjoined⟩

end UrlFilter.Alternation
