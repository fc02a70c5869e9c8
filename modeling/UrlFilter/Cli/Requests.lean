import UrlFilter.Lookup

/-!
# Generated requests

Requests for a measurement, picked from fixed lists by a generator of numbers that a seed determines.
-/

namespace UrlFilter.Cli

/-- The state of the generator, below 2³². -/
abbrev Generator := Nat

namespace Generator

/-- The largest number of the generator. -/
def top : Nat := UInt32.size - 1

/-- The next state; it is the next number too. -/
def next (g : Generator) : Generator := (g * 1664525 + 1013904223) % UInt32.size

/-- The next number lies below so many tenths of the whole range. -/
def below (tenths : Nat) (g : Generator) : Bool := decide (10 * g < tenths * top)

/-- The text at the place of a list that the number stands for. -/
def pick (texts : List Text) (g : Generator) : Text :=
  texts.getD (min (g * texts.length / top) (texts.length - 1)) []

end Generator

/-- Hosts of advertisers. -/
def advertisers : List Text := [
  "ads.example.com", "tracking.example.com", "analytics.test.com", "doubleclick.net",
  "googlesyndication.com", "pagead2.googlesyndication.com", "google-analytics.com",
  "metrics.example.com"].map String.toList

/-- Hosts without advertisements. -/
def cleanHosts : List Text := [
  "example.com", "github.com", "stackoverflow.com", "wikipedia.org", "mozilla.org",
  "news.example.co.uk"].map String.toList

/-- The paths that requests are made up of. -/
def requestPaths : List Text := [
  "/", "/index.html", "/assets/main.js", "/api/v1/data?id=42", "/images/logo.png",
  "/ads/banner.gif", "/tracking/pixel.gif?u=1&t=2", "/analytics.js", "/beacon.js"].map String.toList

/-- The schemes that requests are made up of. -/
def requestSchemes : List Text := ["https", "https", "http"].map String.toList

/-- One request, and the generator behind it: three of ten ask for an advertiser. -/
def request (g : Generator) : Lookup × Generator :=
  let kind := g.next
  let host := kind.next
  let scheme := host.next
  let path := scheme.next
  let name := Generator.pick (if kind.below 3 then advertisers else cleanHosts) host
  let url := Generator.pick requestSchemes scheme ++ "://".toList ++ name ++
    Generator.pick requestPaths path
  (⟨url, name⟩, path)

/-- So many requests. -/
def requests : Nat → Generator → List Lookup
  | 0, _ => []
  | n + 1, g =>
    let (l, g) := request g
    l :: requests n g

end UrlFilter.Cli
