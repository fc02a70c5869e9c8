import UrlFilter.Text

/-!
# Hosts

A host is a sequence of labels between dots; dots at its end are insignificant. Its last two labels
are its site, the labels in front of them its server. The suffixes of a host are itself and every text
behind one of its dots.
-/

namespace UrlFilter.Host

/-- The host without dots at its end. -/
def trimDots (h : Text) : Text := Text.dropEndWhile (· == '.') h

/-- A decimal number up to 255 without leading zeros. -/
def isOctet (t : Text) : Bool :=
  match t with
  | [_] => t.all Char.isDigit
  | c :: _ => c != '0' && (t.length ≤ 3 && (Text.toNat? t).any (· ≤ 255))
  | [] => false

/-- Four octets between dots. -/
def isIPv4 (h : Text) : Bool :=
  let octets := Text.parts '.' h
  octets.length == 4 && octets.all isOctet

/-- The labels in front of the last two, with the dots behind them; empty when there are at most two
labels. -/
def server (h : Text) : Text :=
  match Text.splitLast '.' (trimDots h) with
  | none => []
  | some (front, _) =>
    match Text.splitLast '.' front with
    | none => []
    | some (labels, _) => labels ++ ['.']

/-- The host without its server. -/
def site (h : Text) : Text := h.drop (server h).length

/-- The texts behind the dots of a host. -/
def parents : Text → List Text
  | [] => []
  | c :: t => if c = '.' then t :: parents t else parents t

/-- The host and its parents, the longest first. -/
def suffixes (h : Text) : List Text :=
  match trimDots h with
  | [] => []
  | t => t :: parents t

/-- The host alone, as the list of its only suffix. -/
def itself (h : Text) : List Text :=
  match trimDots h with
  | [] => []
  | t => [t]

/-! ## Laws -/

/-- Every parent is shorter than the host. -/
theorem length_lt_of_mem_parents {t p : Text} (h : p ∈ parents t) : p.length < t.length := by
  induction t with
  | nil => simp [parents] at h
  | cons c t ih =>
    unfold parents at h
    split at h
    · rcases List.mem_cons.mp h with rfl | h
      · simp
      · have := ih h; simp; omega
    · have := ih h; simp; omega

/-- The server is no longer than the host. -/
theorem length_server_le (h : Text) : (server h).length ≤ h.length := by
  unfold server
  cases hlast : Text.splitLast '.' (trimDots h) with
  | none => exact Nat.zero_le _
  | some ends =>
    cases hsecond : Text.splitLast '.' ends.1 with
    | none => simp [hsecond]
    | some labels =>
      have htrim : (trimDots h).length ≤ h.length := by
        have hsublist := (List.dropWhile_sublist (· == '.') (l := h.reverse)).length_le
        simpa [trimDots, Text.dropEndWhile] using hsublist
      have houter := congrArg List.length (Text.eq_append_of_splitLast hlast)
      have hinner := congrArg List.length (Text.eq_append_of_splitLast hsecond)
      simp only [List.length_append, List.length_cons] at houter hinner
      simp only [hsecond, List.length_append, List.length_singleton]
      omega

end UrlFilter.Host
