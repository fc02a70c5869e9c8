import UrlFilter.Text

/-!
# Rule options

The options that may stand behind the `$` of a rule, and sets of them. A set of options is written as
a number with one bit for each option.
-/

namespace UrlFilter

/-- An option of a rule. -/
inductive RuleOption where
  | thirdParty
  | domain
  | script
  | image
  | stylesheet
  | object
  | objectSubrequest
  | xmlHttpRequest
  | subdocument
  | ping
  | webSocket
  | webRtc
  | document
  | elemHide
  | genericHide
  | genericBlock
  | other
  | siteKey
  | matchCase
  | collapse
  | doNotTrack
  | popup
  | media
  | font
  deriving Repr, DecidableEq

namespace RuleOption

/-- All options, in the order of their bits. -/
def all : List RuleOption :=
  [thirdParty, domain, script, image, stylesheet, object, objectSubrequest, xmlHttpRequest,
    subdocument, ping, webSocket, webRtc, document, elemHide, genericHide, genericBlock, other,
    siteKey, matchCase, collapse, doNotTrack, popup, media, font]

/-- The name in a rule. -/
def name : RuleOption → Text
  | thirdParty => "third-party".toList
  | domain => "domain".toList
  | script => "script".toList
  | image => "image".toList
  | stylesheet => "stylesheet".toList
  | object => "object".toList
  | objectSubrequest => "object-subrequest".toList
  | xmlHttpRequest => "xmlhttprequest".toList
  | subdocument => "subdocument".toList
  | ping => "ping".toList
  | webSocket => "websocket".toList
  | webRtc => "webrtc".toList
  | document => "document".toList
  | elemHide => "elemhide".toList
  | genericHide => "generichide".toList
  | genericBlock => "genericblock".toList
  | other => "other".toList
  | siteKey => "sitekey".toList
  | matchCase => "match-case".toList
  | collapse => "collapse".toList
  | doNotTrack => "donottrack".toList
  | popup => "popup".toList
  | media => "media".toList
  | font => "font".toList

/-- The label in a report: the name in capitals, with underscores for hyphens. -/
def label (o : RuleOption) : Text := o.name.map fun c => if c = '-' then '_' else c.toUpper

/-- The option of a name, in letters of either case. -/
def ofName? (t : Text) : Option RuleOption := all.find? (·.name == Text.lower t)

/-- The position of the bit. -/
def bit (o : RuleOption) : Nat := all.idxOf o

/-- A set of options, as the list of its members in any order. -/
abbrev Set := List RuleOption

namespace Set

/-- The members in the order of their bits, each once. -/
def members (s : Set) : List RuleOption := all.filter s.contains

/-- The number with the bits of the members. -/
def bits (s : Set) : Nat := (s.members.map fun o => 1 <<< o.bit).sum

/-- The two sets have a common member. -/
def meets (s t : Set) : Bool := s.any t.contains

/-- The options of a list of names, or the first name that is unknown. -/
def ofNames : List Text → Except Text Set
  | [] => .ok []
  | t :: ts =>
    match ofName? t with
    | none => .error t
    | some o => (ofNames ts).map (o :: ·)

end Set

/-- Every option is among all of them. -/
theorem mem_all (o : RuleOption) : o ∈ all := by
  cases o <;> decide

/-- A name leads back to its option. -/
theorem ofName?_name (o : RuleOption) : ofName? o.name = some o := by
  cases o <;> decide

end RuleOption

end UrlFilter
