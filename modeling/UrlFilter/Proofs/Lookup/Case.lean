import UrlFilter.Proofs.Text.Lower
import UrlFilter.Verdict

/-!
# The letter case of lookups

A URL is cut at marks that are no letters, so its parts in lower case are the parts of the URL in lower
case. Two lookups whose URLs differ in the case of letters in front of the path, and whose hosts differ in
case, hence have the same views where a view is lowered, and views that differ in case where it is not.
-/

namespace UrlFilter

/-! ## Hosts -/

namespace Host

/-- Dots at the ends are trimmed in either case. -/
theorem trimDots_lower (h : Text) : trimDots (Text.lower h) = Text.lower (trimDots h) :=
  Text.dropEndWhile_lower (Text.toLower_congr (f := fun c => c == '.') (by decide +kernel)) h

/-- A digit has no other case. -/
theorem isDigit_toLower (c : Char) : c.toLower.isDigit = c.isDigit :=
  Text.toLower_congr (f := Char.isDigit) (by decide +kernel) c

/-- A text is made of digits in either case. -/
theorem all_isDigit_lower (t : Text) : (Text.lower t).all Char.isDigit = t.all Char.isDigit := by
  rw [Text.lower, List.all_map]
  exact congrArg (fun q => t.all q) (funext isDigit_toLower)

/-- A number reads the same in either case. -/
theorem toNat?_lower (t : Text) : Text.toNat? (Text.lower t) = Text.toNat? t := by
  unfold Text.toNat?
  rw [all_isDigit_lower]
  cases hdigits : t.all Char.isDigit with
  | false => simp
  | true =>
    have hsame : Text.lower t = t :=
      (List.map_congr_left fun c hc => Text.toLower_of_isDigit (List.all_eq_true.mp hdigits c hc)).trans
        (List.map_id t)
    rw [hsame]

/-- An octet is one in either case. -/
theorem isOctet_lower (t : Text) : isOctet (Text.lower t) = isOctet t := by
  cases t with
  | nil => rfl
  | cons c t =>
    cases t with
    | nil => exact all_isDigit_lower [c]
    | cons d t =>
      have hzero : (c.toLower != '0') = (c != '0') :=
        Text.toLower_congr (f := fun c => c != '0') (by decide +kernel) c
      have hlength := Text.length_lower (c :: d :: t)
      have hvalue := toNat?_lower (c :: d :: t)
      simp only [Text.lower, List.map_cons] at hlength hvalue ⊢
      simp only [isOctet, hzero, hlength, hvalue]

/-- An IPv4 address is one in either case. -/
theorem isIPv4_lower (h : Text) : isIPv4 (Text.lower h) = isIPv4 h := by
  unfold isIPv4
  simp only [Text.parts_lower (d := '.') (by decide), List.length_map, List.all_map]
  exact congrArg (fun q => _ && (Text.parts '.' h).all q) (funext isOctet_lower)

/-- Lowering a host leaves its server as long as it was. -/
theorem length_server_lower (h : Text) : (server (Text.lower h)).length = (server h).length := by
  unfold server
  rw [trimDots_lower, Text.splitLast_lower (by decide)]
  cases Text.splitLast '.' (trimDots h) with
  | none => rfl
  | some ends =>
    obtain ⟨front, top⟩ := ends
    simp only [Option.map_some]
    rw [Text.splitLast_lower (by decide)]
    cases Text.splitLast '.' front with
    | none => rfl
    | some labels => simp [Text.length_lower]

end Host

/-! ## Addresses -/

namespace Address

/-- A character ends an authority in either case. -/
theorem endsAuthority_toLower (c : Char) : endsAuthority c.toLower = endsAuthority c :=
  Text.toLower_congr (f := endsAuthority) (by decide +kernel) c

/-- A slash is dropped in either case. -/
theorem dropSlash_lower (t : Text) : dropSlash (Text.lower t) = Text.lower (dropSlash t) := by
  cases t with
  | nil => rfl
  | cons c t =>
    by_cases hc : c = '/'
    · subst hc
      rfl
    · have hlower : c.toLower ≠ '/' :=
        fun h => hc ((Text.toLower_eq_iff_of_not_isAlpha (by decide)).mp h)
      simp only [Text.lower, List.map_cons]
      rw [dropSlash, dropSlash]
      · rfl
      · simpa using hc
      · simpa using hlower

/-- The scheme is split off in either case. -/
theorem splitScheme_lower (url : Text) :
    splitScheme (Text.lower url) = (Text.lower (splitScheme url).1, Text.lower (splitScheme url).2) := by
  have hscheme : ∀ c : Char, isSchemeChar c.toLower = isSchemeChar c :=
    Text.toLower_congr (f := isSchemeChar) (by decide +kernel)
  unfold splitScheme
  simp only [Text.takeWhile_lower hscheme, Text.dropWhile_lower hscheme, Text.length_lower]
  cases url.dropWhile isSchemeChar with
  | nil => rfl
  | cons c rest =>
    by_cases hc : c = ':'
    · subst hc
      have hcolon : Text.lower (':' :: rest) = ':' :: Text.lower rest := rfl
      simp only [hcolon, dropSlash_lower]
      split <;> rfl
    · have hlower : c.toLower ≠ ':' :=
        fun h => hc ((Text.toLower_eq_iff_of_not_isAlpha (by decide)).mp h)
      simp [hc, hlower, Text.lower]

/-- The authority is the same part of an address in either case. -/
theorem authority_lower (a : Text) : authority (Text.lower a) = Text.lower (authority a) :=
  Text.takeWhile_lower (fun c => by rw [endsAuthority_toLower]) a

/-- The user is split off in either case. -/
theorem splitUser_lower (a : Text) :
    splitUser (Text.lower a) = (Text.lower (splitUser a).1, Text.lower (splitUser a).2) := by
  unfold splitUser
  rw [authority_lower, Text.splitLast_lower (by decide)]
  cases Text.splitLast '@' (authority a) with
  | none => rfl
  | some ends => simp [Text.lower]

/-- The host is the same part of an address in either case. -/
theorem host_lower (a : Text) : host (Text.lower a) = Text.lower (host a) := by
  unfold host
  rw [splitUser_lower]
  exact Text.takeWhile_lower (Text.toLower_congr (f := fun c => c != ':') (by decide +kernel)) _

/-- A character that does not end the authority belongs to it. -/
theorem authority_cons {c : Char} (hc : endsAuthority c = false) (t : Text) :
    authority (c :: t) = c :: authority t := by
  simp [authority, hc]

/-- A character that does not end the authority is not in the path. -/
theorem path_cons {c : Char} (hc : endsAuthority c = false) (t : Text) : path (c :: t) = path t := by
  simp [path, hc]

/-- Taking off a part of the authority leaves the path. -/
theorem path_drop {a : Text} {n : Nat} (hn : n ≤ (authority a).length) : path (a.drop n) = path a := by
  induction a generalizing n with
  | nil => rw [List.drop_nil]
  | cons c t ih =>
    cases n with
    | zero => rfl
    | succ n =>
      cases hc : endsAuthority c with
      | true => simp [authority, hc] at hn
      | false =>
        rw [authority_cons hc, List.length_cons] at hn
        rw [List.drop_succ_cons, path_cons hc, ih (by omega)]

/-- Without its query an address still has its authority, and the path without the query. -/
theorem lowerAuthority_dropQuery (a : Text) :
    lowerAuthority (dropQuery a) = Text.lower (authority a) ++ dropQuery (path a) := by
  induction a with
  | nil => rfl
  | cons c t ih =>
    cases hc : endsAuthority c with
    | true =>
      cases hquery : beginsQuery c <;>
        simp [lowerAuthority, dropQuery, authority, path, hc, hquery, Text.lower]
    | false =>
      have hquery : beginsQuery c = false := by
        simp only [endsAuthority, Bool.or_eq_false_iff] at hc
        simp only [beginsQuery, hc.1.2, hc.2, Bool.or_false]
      have hcons : dropQuery (c :: t) = c :: dropQuery t := by simp [dropQuery, hquery]
      rw [lowerAuthority] at ih
      rw [hcons, lowerAuthority, authority_cons hc, path_cons hc, authority_cons hc, path_cons hc]
      exact congrArg (c.toLower :: ·) ih

/-- Where there is no user information, the host is at the start of the authority. -/
theorem length_host_le (a : Text) (h : user a = []) : (host a).length ≤ (authority a).length := by
  have hwhole : (splitUser a).2 = authority a := by
    unfold user splitUser at h
    unfold splitUser
    cases hsplit : Text.splitLast '@' (authority a) with
    | none => rfl
    | some ends => simp [hsplit] at h
  rw [host, hwhole]
  exact (List.takeWhile_sublist _).length_le

end Address

/-- The category is asked about views that keep the case of the URL. -/
def Category.keepsCase : Category → Bool
  | domainGenericPattern | urlFragment | rawPattern => true
  | _ => false

namespace Lookup

/-- The lookups ask for the same up to the case of letters in the scheme and the authority of the URL, and in
the host. -/
structure SameUpToCase (l l' : Lookup) : Prop where
  url : Text.lower l'.url = Text.lower l.url
  path : l'.path = l.path
  givenHost : Text.lower l'.givenHost = Text.lower l.givenHost

/-- The address without server labels has the path of the whole. -/
theorem path_siteAddress (l : Lookup) : Address.path l.siteAddress = l.path := by
  unfold siteAddress
  dsimp only
  split
  · next hsite =>
    have huser : Address.user l.address = [] := by simpa using (Bool.and_eq_true_iff.mp hsite).1
    have hserver := Host.length_server_le (Address.host l.address)
    exact Address.path_drop (Nat.le_trans hserver (Address.length_host_le _ huser))
  · rfl

/-- The host is taken from the address where none is given. -/
theorem host_eq (l : Lookup) :
    l.host = Text.lower (if l.givenHost.isEmpty then Address.host l.address else l.givenHost) := by
  have hurl : (Address.hostOf? l.url).getD [] = Address.host l.address := by
    unfold Address.hostOf? address
    cases Address.host (Address.splitScheme l.url).2 <;> rfl
  rw [host, hurl]

namespace SameUpToCase

variable {l l' : Lookup}

/-- Lookups that are the same up to case have the same scheme up to case. -/
theorem scheme (h : l.SameUpToCase l') : Text.lower l'.scheme = Text.lower l.scheme := by
  have hsplit := congrArg (fun t => (Address.splitScheme t).1) h.url
  simp only [Address.splitScheme_lower] at hsplit
  exact hsplit

/-- Lookups that are the same up to case have the same address up to case. -/
theorem address (h : l.SameUpToCase l') : Text.lower l'.address = Text.lower l.address := by
  have hsplit := congrArg (fun t => (Address.splitScheme t).2) h.url
  simp only [Address.splitScheme_lower] at hsplit
  exact hsplit

/-- Lookups that are the same up to case both name a host or do not. -/
theorem isEmpty_givenHost (h : l.SameUpToCase l') : l'.givenHost.isEmpty = l.givenHost.isEmpty := by
  rw [Bool.eq_iff_iff, List.isEmpty_iff, List.isEmpty_iff, ← Text.lower_eq_nil_iff, h.givenHost,
    Text.lower_eq_nil_iff]

/-- Lookups that are the same up to case have the same host. -/
theorem host (h : l.SameUpToCase l') : l'.host = l.host := by
  rw [host_eq, host_eq, h.isEmpty_givenHost]
  split
  · rw [← Address.host_lower, h.address, Address.host_lower]
  · exact h.givenHost

/-- Lookups that are the same up to case have the same address without server labels up to case. -/
theorem siteAddress (h : l.SameUpToCase l') : Text.lower l'.siteAddress = Text.lower l.siteAddress := by
  -- What the server labels are cut off by does not look at case: the user information, the shape of the host,
  -- and the length of its server.
  have hhost : Text.lower (Address.host l'.address) = Text.lower (Address.host l.address) := by
    rw [← Address.host_lower, h.address, Address.host_lower]
  have huser : (Address.user l'.address).isEmpty = (Address.user l.address).isEmpty := by
    rw [Bool.eq_iff_iff, List.isEmpty_iff, List.isEmpty_iff, ← Text.lower_eq_nil_iff,
      ← Text.lower_eq_nil_iff (t := Address.user l.address)]
    simp only [Address.user]
    have hsplit := congrArg (fun t => (Address.splitUser t).1) h.address
    simp only [Address.splitUser_lower] at hsplit
    rw [hsplit]
  have hipv4 : Host.isIPv4 (Address.host l'.address) = Host.isIPv4 (Address.host l.address) := by
    rw [← Host.isIPv4_lower, hhost, Host.isIPv4_lower]
  have hserver : (Host.server (Address.host l'.address)).length =
      (Host.server (Address.host l.address)).length := by
    rw [← Host.length_server_lower, hhost, Host.length_server_lower]
  simp only [Lookup.siteAddress, huser, hipv4, hserver]
  split
  · rw [Text.lower_drop, Text.lower_drop, h.address]
  · exact h.address

/-- Lookups that are the same up to case have the same page. -/
theorem page (h : l.SameUpToCase l') : l'.page = l.page := by
  have hauthority := congrArg Address.authority h.address
  simp only [Address.authority_lower] at hauthority
  simp only [Lookup.page, Address.lowerAuthority_dropQuery, hauthority]
  exact congrArg (fun t => _ ++ Address.dropQuery t) h.path

/-- Lookups that are the same up to case have the same page without server labels. -/
theorem sitePage (h : l.SameUpToCase l') : l'.sitePage = l.sitePage := by
  have hauthority := congrArg Address.authority h.siteAddress
  simp only [Address.authority_lower] at hauthority
  simp only [Lookup.sitePage, Address.lowerAuthority_dropQuery, path_siteAddress, hauthority, h.path]

/-- Lookups that are the same up to case both have an IPv4 address as host or do not. -/
theorem hostIsIPv4 (h : l.SameUpToCase l') : l'.hostIsIPv4 = l.hostIsIPv4 := by
  simp only [Lookup.hostIsIPv4, h.host]

/-- Lookups that are the same up to case have the same site. -/
theorem site (h : l.SameUpToCase l') : l'.site = l.site := by
  simp only [Lookup.site, h.host, h.hostIsIPv4]

/-- Lookups that are the same up to case have the same names of the host. -/
theorem hostNames (h : l.SameUpToCase l') : l'.hostNames = l.hostNames := by
  simp only [Lookup.hostNames, h.host, h.hostIsIPv4]

/-- Lookups that are the same up to case both use `http` or do not. -/
theorem isHttp (h : l.SameUpToCase l') : l'.isHttp = l.isHttp := by
  simp only [Lookup.isHttp, Text.sameIgnoringCase, h.scheme]

/-- Lookups that are the same up to case both use `https` or do not. -/
theorem isHttps (h : l.SameUpToCase l') : l'.isHttps = l.isHttps := by
  simp only [Lookup.isHttps, Text.sameIgnoringCase, h.scheme]

/-- Lookups that are the same up to case both hide the path or do not. -/
theorem isPathHidden (h : l.SameUpToCase l') : l'.isPathHidden = l.isPathHidden := by
  simp only [Lookup.isPathHidden, h.isHttps, h.path]

/-- The views of a category differ in the case of letters at most. -/
theorem map_lower_views (h : l.SameUpToCase l') (c : Category) :
    (l'.views c).map Text.lower = (l.views c).map Text.lower := by
  cases c <;>
    simp [Lookup.views, h.hostNames, h.sitePage, h.page, h.site, h.host, h.siteAddress, h.address, h.url]

/-- The views of a category over hosts and paths do not differ. -/
theorem views_eq (h : l.SameUpToCase l') {c : Category} (hc : c.keepsCase = false) :
    l'.views c = l.views c := by
  cases c with
  | domainGenericPattern | urlFragment | rawPattern => simp [Category.keepsCase] at hc
  | _ => simp [Lookup.views, h.hostNames, h.sitePage, h.page, h.site, h.host]

end SameUpToCase

end Lookup

end UrlFilter
