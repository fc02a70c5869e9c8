import UrlFilter.Proofs.Text.Cutting
import UrlFilter.Rule.Placed

/-!
# Where a rule is placed

The ways in which a pattern comes to its category, each with what is known of the pattern then and what the
bucket keeps of it. A policy places a pattern in one of them (`Policy.places_category`), so what holds of all
rules of a category is read off its way.
-/

namespace UrlFilter

/-- What precedes a bar at the end of what is behind an anchor, and whether there is one. -/
def Shape.cutEnd (rest : Text) : Bool × Text :=
  match Text.before? ['|'] rest with
  | some body => (true, body)
  | none => (false, rest)

namespace Policy

/-- Nothing may follow the path of the pattern: it is literal, and ends with the pattern, with a slash or with the
name of a file. -/
def isWholePath (p : Policy) (atEnd : Bool) (path : Text) : Bool :=
  Shape.isLiteral path && (atEnd || path.getLast? == some '/' || p.namesFile path)

/-- The ways in which a pattern is placed. -/
inductive Places (p : Policy) (pattern : Text) : Category → Text → Prop
  | raw (hraw : Line.isRaw pattern = true) : p.Places pattern .rawPattern pattern.tail.dropLast
  | fragment (hraw : Line.isRaw pattern = false)
    (hanchor : Shape.afterAnchor? (Text.trimChar '*' pattern) = none) :
    p.Places pattern .urlFragment (Text.trimChar '*' pattern)
  | host {rest host : Text} (hraw : Line.isRaw pattern = false)
    (hanchor : Shape.afterAnchor? (Text.trimChar '*' pattern) = some rest)
    (hhost : Shape.hostOnly? rest = some host) (hliteral : Shape.isLiteral host = true) :
    p.Places pattern .domainExact (Text.lower host)
  | starredHost {rest host : Text} (hraw : Line.isRaw pattern = false)
    (hanchor : Shape.afterAnchor? (Text.trimChar '*' pattern) = some rest)
    (hhost : Shape.hostOnly? rest = some host) (hliteral : Shape.isLiteral host = false) :
    p.Places pattern .domainPattern host
  | page {rest body : Text} {atEnd : Bool} (hraw : Line.isRaw pattern = false)
    (hanchor : Shape.afterAnchor? (Text.trimChar '*' pattern) = some rest)
    (hhost : Shape.hostOnly? rest = none) (hend : Shape.cutEnd rest = (atEnd, body))
    (hpath : Shape.isHostPath body = true)
    (hwhole : p.isWholePath atEnd (Shape.dropQuestion body) = true) :
    p.Places pattern .hostPathExact (Shape.lowerHost (Shape.dropQuestion body))
  | starredPage {rest body : Text} {atEnd : Bool} (hraw : Line.isRaw pattern = false)
    (hanchor : Shape.afterAnchor? (Text.trimChar '*' pattern) = some rest)
    (hhost : Shape.hostOnly? rest = none) (hend : Shape.cutEnd rest = (atEnd, body))
    (hpath : Shape.isHostPath body = true)
    (hwhole : p.isWholePath atEnd (Shape.dropQuestion body) = false) :
    p.Places pattern .hostPathPattern (Shape.dropQuestion body ++ if atEnd then ['|'] else [])
  | generic {rest body : Text} {atEnd : Bool} (hraw : Line.isRaw pattern = false)
    (hanchor : Shape.afterAnchor? (Text.trimChar '*' pattern) = some rest)
    (hhost : Shape.hostOnly? rest = none) (hend : Shape.cutEnd rest = (atEnd, body))
    (hpath : Shape.isHostPath body = false) :
    p.Places pattern .domainGenericPattern rest

section
variable {p : Policy} {pattern rest : Text} (hraw : Line.isRaw pattern = false)
  (hanchor : Shape.afterAnchor? (Text.trimChar '*' pattern) = some rest)

include hraw hanchor

/-- An anchored pattern that is no host but a page is placed in one of the two ways of pages. -/
theorem places_placePath {atEnd : Bool} {body : Text} (hhost : Shape.hostOnly? rest = none)
    (hend : Shape.cutEnd rest = (atEnd, body)) (hpath : Shape.isHostPath body = true) :
    p.Places pattern (p.placePath atEnd body).1 (p.placePath atEnd body).2 := by
  have hplace : p.placePath atEnd body =
      if p.isWholePath atEnd (Shape.dropQuestion body) then
        (.hostPathExact, Shape.lowerHost (Shape.dropQuestion body))
      else if atEnd then (.hostPathPattern, Shape.dropQuestion body ++ ['|'])
      else (.hostPathPattern, Shape.dropQuestion body) := rfl
  cases hwhole : p.isWholePath atEnd (Shape.dropQuestion body) with
  | true =>
    rw [hplace, if_pos hwhole]
    exact .page hraw hanchor hhost hend hpath hwhole
  | false =>
    have hplaces := Places.starredPage hraw hanchor hhost hend hpath hwhole
    rw [hplace, if_neg (Bool.eq_false_iff.mp hwhole)]
    cases atEnd with
    | true => exact hplaces
    | false => rwa [if_neg Bool.false_ne_true, List.append_nil] at hplaces

/-- An anchored pattern that is not raw is placed in one of the ways of hosts, of pages or of other patterns. -/
theorem places_placeAnchored : p.Places pattern (p.placeAnchored rest).1 (p.placeAnchored rest).2 := by
  cases hhost : Shape.hostOnly? rest with
  | some host =>
    rw [placeAnchored, hhost]
    dsimp only
    cases hliteral : Shape.isLiteral host with
    | true => exact .host hraw hanchor hhost hliteral
    | false => exact .starredHost hraw hanchor hhost hliteral
  | none =>
    obtain ⟨⟨atEnd, body⟩, hend⟩ : ∃ cut, Shape.cutEnd rest = cut := ⟨_, rfl⟩
    have hplace : (if Shape.isHostPath (Shape.cutEnd rest).2 then
        p.placePath (Shape.cutEnd rest).1 (Shape.cutEnd rest).2
      else (.domainGenericPattern, rest)) = p.placeAnchored rest := by rw [placeAnchored, hhost]; rfl
    rw [← hplace, hend]
    cases hpath : Shape.isHostPath body with
    | true => exact places_placePath hraw hanchor hhost hend hpath
    | false => exact .generic hraw hanchor hhost hend hpath

end

/-- A pattern without an anchor is kept as it is, but for asterisks at its ends. -/
theorem Places.eq_trimChar {p : Policy} {pattern kept : Text} (h : p.Places pattern .urlFragment kept) :
    kept = Text.trimChar '*' pattern := by
  cases h
  rfl

/-- A policy places every pattern in one of these ways. -/
theorem places_category (p : Policy) (pattern : Text) :
    p.Places pattern (p.category pattern).1 (p.category pattern).2 := by
  unfold category
  cases hraw : Line.isRaw pattern with
  | true => exact .raw hraw
  | false =>
    dsimp only
    cases hanchor : Shape.afterAnchor? (Text.trimChar '*' pattern) with
    | none => exact .fragment hraw hanchor
    | some rest => exact places_placeAnchored hraw hanchor

end Policy

end UrlFilter
