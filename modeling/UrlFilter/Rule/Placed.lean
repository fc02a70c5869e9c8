import UrlFilter.Bucket
import UrlFilter.Rule.Reader
import UrlFilter.Rule.Shape

/-!
# Placing rules

Every rule belongs to one bucket, by the shape of its pattern; the bucket keeps the pattern without what
it says already. Asterisks at either end say nothing.
-/

namespace UrlFilter

/-- A rule in its bucket. -/
structure Placed where
  bucket : Bucket
  /-- The pattern as the bucket keeps it. -/
  pattern : Text
  options : RuleOption.Set := []
  ordinal : Nat := 0
  /-- The rule stands in front of all others. -/
  pinned : Bool := false
  deriving Repr, DecidableEq

namespace Policy

/-- The category of a pattern that names a host and a path, and what is kept of it. -/
def placePath (p : Policy) (atEnd : Bool) (body : Text) : Category × Text :=
  let path := Shape.dropQuestion body
  if Shape.isLiteral path && (atEnd || path.getLast? == some '/' || p.namesFile path) then
    (.hostPathExact, Shape.lowerHost path)
  else if atEnd then (.hostPathPattern, path ++ ['|'])
  else (.hostPathPattern, path)

/-- The category of what is behind an anchor, and what is kept of it. -/
def placeAnchored (p : Policy) (rest : Text) : Category × Text :=
  match Shape.hostOnly? rest with
  | some host =>
    if Shape.isLiteral host then (.domainExact, Text.lower host) else (.domainPattern, host)
  | none =>
    let (atEnd, body) := match Text.before? ['|'] rest with
      | some body => (true, body)
      | none => (false, rest)
    if Shape.isHostPath body then p.placePath atEnd body else (.domainGenericPattern, rest)

/-- The category of a pattern, and what is kept of it. -/
def category (p : Policy) (pattern : Text) : Category × Text :=
  if Line.isRaw pattern then (.rawPattern, pattern.tail.dropLast)
  else
    let t := Text.trimChar '*' pattern
    match Shape.afterAnchor? t with
    | none => (.urlFragment, t)
    | some rest => p.placeAnchored rest

/-- The rule in its bucket. -/
def place (p : Policy) (r : Rule) : Placed :=
  let (category, pattern) := p.category r.pattern
  { bucket := ⟨category, .ofException r.isException⟩
    pattern := pattern
    options := r.options
    ordinal := r.ordinal }

end Policy

end UrlFilter
