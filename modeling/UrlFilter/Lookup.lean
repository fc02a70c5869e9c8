import UrlFilter.Address
import UrlFilter.Host

/-!
# Lookups

A lookup asks for the decision on a URL and a host. The rules are not tested against the URL as it
stands but against views of it: with or without scheme, query and server labels.
-/

namespace UrlFilter

/-- A URL and the host that it is requested from; an empty host is taken from the URL. -/
structure Lookup where
  url : Text
  givenHost : Text := []
  deriving Repr, DecidableEq

namespace Lookup

/-- The scheme; empty when there is none. -/
def scheme (l : Lookup) : Text := (Address.splitScheme l.url).1

/-- The URL behind its scheme. -/
def address (l : Lookup) : Text := (Address.splitScheme l.url).2

/-- Everything behind the authority. -/
def path (l : Lookup) : Text := Address.path l.address

/-- The address without query, its authority in lower case. -/
def page (l : Lookup) : Text := Address.lowerAuthority (Address.dropQuery l.address)

/-- The address without server labels. They stay where user information precedes the host, and where
the host is an IPv4 address. -/
def siteAddress (l : Lookup) : Text :=
  let host := Address.host l.address
  if (Address.user l.address).isEmpty && !Host.isIPv4 host then
    l.address.drop (Host.server host).length
  else l.address

/-- The address without server labels and query, its authority in lower case. -/
def sitePage (l : Lookup) : Text := Address.lowerAuthority (Address.dropQuery l.siteAddress)

/-- The host in lower case. -/
def host (l : Lookup) : Text :=
  Text.lower (if l.givenHost.isEmpty then (Address.hostOf? l.url).getD [] else l.givenHost)

/-- The host is an IPv4 address. -/
def hostIsIPv4 (l : Lookup) : Bool := Host.isIPv4 l.host

/-- The host without server labels; an IPv4 address stays whole. -/
def site (l : Lookup) : Text := if l.hostIsIPv4 then l.host else Host.site l.host

/-- The names under which the host may be listed: itself and its parents; an IPv4 address has no
parents. -/
def hostNames (l : Lookup) : List Text :=
  if l.hostIsIPv4 then Host.itself l.host else Host.suffixes l.host

/-- The scheme is `http`. -/
def isHttp (l : Lookup) : Bool := Text.sameIgnoringCase l.scheme "http".toList

/-- The scheme is `https`. -/
def isHttps (l : Lookup) : Bool := Text.sameIgnoringCase l.scheme "https".toList

/-- An `https` URL whose path is hidden. -/
def isPathHidden (l : Lookup) : Bool := l.isHttps && l.path == ['/']

end Lookup

end UrlFilter
