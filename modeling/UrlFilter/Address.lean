import UrlFilter.Text

/-!
# Addresses

How a URL is cut for a lookup: its scheme, the address behind the scheme, the authority at the start
of the address, and the host in the authority. The shapes are looser than those of a standard; any
text has all these parts, some of them empty.
-/

namespace UrlFilter.Address

/-- A character of a scheme. -/
def isSchemeChar (c : Char) : Bool :=
  Text.isAsciiAlphanumeric c || c == '_' || c == '*' || c == '+' || c == '-'

/-- The longest scheme. -/
def maxSchemeLength : Nat := 15

/-- The text without a slash at its start. -/
def dropSlash : Text → Text
  | '/' :: t => t
  | t => t

/-- The scheme of a URL and the address behind it, which begins after the colon and at most two
slashes. A scheme has two to fifteen characters; without one, the whole URL is the address. -/
def splitScheme (url : Text) : Text × Text :=
  let scheme := url.takeWhile isSchemeChar
  match url.dropWhile isSchemeChar with
  | ':' :: rest =>
    if 2 ≤ scheme.length ∧ scheme.length ≤ maxSchemeLength then (scheme, dropSlash (dropSlash rest))
    else ([], url)
  | _ => ([], url)

/-- A character that ends the authority. -/
def endsAuthority (c : Char) : Bool := c == '/' || c == '?' || c == '#'

/-- User information, host and port: what precedes the path of an address. -/
def authority (address : Text) : Text := address.takeWhile (!endsAuthority ·)

/-- Everything behind the authority. -/
def path (address : Text) : Text := address.dropWhile (!endsAuthority ·)

/-- The authority up to its last `@`, and what is behind it. -/
def splitUser (address : Text) : Text × Text :=
  match Text.splitLast '@' (authority address) with
  | some (user, rest) => (user ++ ['@'], rest)
  | none => ([], authority address)

/-- The user information with its `@`; empty when there is none. -/
def user (address : Text) : Text := (splitUser address).1

/-- The host: what follows the user information, up to a colon. -/
def host (address : Text) : Text := (splitUser address).2.takeWhile (· != ':')

/-- Where the host of an address begins and ends, in bytes. -/
def hostSpan (address : Text) : Nat × Nat :=
  let start := Text.byteLength (user address)
  (start, start + Text.byteLength (host address))

/-- The host of a URL, when it is not empty. -/
def hostOf? (url : Text) : Option Text :=
  match host (splitScheme url).2 with
  | [] => none
  | h => some h

/-- A character that begins a query or a fragment. -/
def beginsQuery (c : Char) : Bool := c == '?' || c == '#'

/-- A URL, or a part of one, without query and fragment. -/
def dropQuery (t : Text) : Text := t.takeWhile (!beginsQuery ·)

/-- The address with the letters of its authority in lower case. -/
def lowerAuthority (address : Text) : Text := Text.lower (authority address) ++ path address

/-! ## Laws -/

/-- Authority and path make up the address. -/
theorem authority_append_path (address : Text) : authority address ++ path address = address :=
  List.takeWhile_append_dropWhile

end UrlFilter.Address
