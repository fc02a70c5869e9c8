import UrlFilter.Proofs.Lookup.Case
import UrlFilter.Proofs.Lookup.Http
import UrlFilter.Proofs.Lookup.Names
import UrlFilter.Proofs.Text.Bytes

/-!
# Views cut at offsets

The parts of a URL and a host can be cut at offsets into their bytes, as a program finds them: it looks for a
scheme and an authority among the bytes, counts the labels of a host in one text and cuts another there. Each of
these cuts is possible for every URL and host, and gives the views of the lookup (`partsAt?_eq`); and the views
agree with each other, for what is cut from one of them is cut from the others too (`views_coherent`).
-/

namespace UrlFilter

namespace Host

/-! ## The server of a host -/

/-- Where the last two labels of a host begin. -/
def serverLength? (h : Text) : Option Nat :=
  let trimmed := trimDots h
  match Text.lastAt? (· == '.') trimmed with
  | none => some 0
  | some last =>
    (Text.takeAt? last trimmed).map fun front =>
      match Text.lastAt? (· == '.') front with
      | none => 0
      | some n => n + 1

variable {h : Text}

/-- The length of the server labels is found by offsets. -/
theorem serverLength?_eq (h : Text) : serverLength? h = some (Text.byteLength (server h)) := by
  unfold serverLength? server
  dsimp only
  rw [Text.lastAt?_eq]
  cases hlast : Text.splitLast '.' (trimDots h) with
  | none => rfl
  | some ends =>
    rw [Option.map_some]
    dsimp only
    rw [Text.takeAt?_eq (Text.eq_append_of_splitLast hlast).symm rfl, Option.map_some, Text.lastAt?_eq]
    cases hsecond : Text.splitLast '.' ends.1 with
    | none => rfl
    | some labels =>
      dsimp only
      rw [Option.map_some, Text.byteLength_concat_ascii (by decide)]

/-- A host is its server, and behind it the site. -/
theorem server_append_site (h : Text) : server h ++ site h = h := by
  have hserver : server h <+: trimDots h := by
    unfold server
    cases hlast : Text.splitLast '.' (trimDots h) with
    | none => exact List.nil_prefix
    | some ends =>
      dsimp only
      cases hsecond : Text.splitLast '.' ends.1 with
      | none => exact List.nil_prefix
      | some labels =>
        rw [Text.eq_append_of_splitLast hlast, Text.eq_append_of_splitLast hsecond]
        exact ⟨labels.2 ++ '.' :: ends.2, by simp⟩
  exact List.prefix_iff_eq_append.mp (hserver.trans (List.rdropWhile_prefix (· == '.') h))

/-- A server ends with the dot in front of the last two labels. -/
theorem server_eq_nil_or (h : Text) : server h = [] ∨ (server h).getLast? = some '.' := by
  unfold server
  split
  · exact .inl rfl
  · split
    · exact .inl rfl
    · exact .inr (List.getLast?_concat ..)

/-- Without dots at its end, a site has two labels at most. -/
theorem count_dots_site (h : Text) : (trimDots (site h)).count '.' ≤ 1 := by
  have hparts := server_append_site h
  cases hlast : Text.splitLast '.' (trimDots h) with
  | none =>
    have hsite : site h = h := by simpa [server, hlast] using hparts
    rw [hsite, List.count_eq_zero_of_not_mem (Text.splitLast_eq_none_iff.mp hlast)]
    exact Nat.zero_le 1
  | some ends =>
    obtain ⟨htrimmed, hend⟩ := Text.splitLast_eq_some_iff.mp hlast
    cases hsecond : Text.splitLast '.' ends.1 with
    | none =>
      have hsite : site h = h := by simpa [server, hlast, hsecond] using hparts
      have hfront := Text.splitLast_eq_none_iff.mp hsecond
      rw [hsite, htrimmed]
      simp [List.count_eq_zero_of_not_mem hfront, List.count_eq_zero_of_not_mem hend]
    | some labels =>
      obtain ⟨hfront, hsite⟩ := Text.splitLast_eq_some_iff.mp hsecond
      have hserver : server h = labels.1 ++ ['.'] := by simp [server, hlast, hsecond]
      by_cases hne : trimDots (site h) = []
      · rw [hne]
        exact Nat.zero_le 1
      · -- What is behind the server is what is behind it in the trimmed host.
        have htrim : trimDots h = labels.1 ++ '.' :: trimDots (site h) := by
          conv_lhs => rw [← hparts]
          rw [trimDots_append hne, hserver, List.append_assoc, List.singleton_append]
        have hrest : trimDots (site h) = labels.2 ++ '.' :: ends.2 := by
          rw [htrimmed, hfront] at htrim
          simpa using htrim.symm
        rw [hrest]
        simp [List.count_eq_zero_of_not_mem hsite, List.count_eq_zero_of_not_mem hend]

end Host

namespace Address

/-! ## The parts of a URL -/

/-- The number of bytes at the start of a URL that may stand in a scheme. -/
def schemeLength (url : Text) : Nat := ((Text.bytes url).takeWhile (Text.isAsciiByte isSchemeChar)).length

/-- Behind an offset, or behind the slash that stands there. -/
def passSlash (bytes : List UInt8) (n : Nat) : Nat :=
  if bytes[n]? = some (UInt8.ofNat '/'.toNat) then n + 1 else n

/-- The scheme of a URL and the address behind it. -/
def splitSchemeAt? (url : Text) : Option (Text × Text) :=
  let bytes := Text.bytes url
  let n := schemeLength url
  if (2 ≤ n ∧ n ≤ maxSchemeLength) ∧ bytes[n]? = some (UInt8.ofNat ':'.toNat) then do
    let scheme ← Text.takeAt? n url
    let address ← Text.dropAt? (passSlash bytes (passSlash bytes (n + 1))) url
    some (scheme, address)
  else some ([], url)

/-- The number of bytes in front of the first that ends an authority. -/
def authorityLength (address : Text) : Nat :=
  ((Text.bytes address).takeWhile fun b => !Text.isAsciiByte endsAuthority b).length

/-- Where the host of an address begins and ends. -/
def hostSpanAt? (address : Text) : Option (Nat × Nat) := do
  let authority ← Text.takeAt? (authorityLength address) address
  let start := match Text.lastAt? (· == '@') authority with
    | none => 0
    | some n => n + 1
  let behind ← Text.dropAt? start authority
  let stop := match Text.firstAt? (· == ':') behind with
    | none => Text.byteLength authority
    | some n => start + n
  some (start, stop)

/-- The host of a URL, when it is not empty. -/
def hostOfAt? (url : Text) : Option (Option Text) := do
  let (_, address) ← splitSchemeAt? url
  let (start, stop) ← hostSpanAt? address
  if start = stop then some none else (Text.slice? start stop address).map some

/-- A text without query and fragment. -/
def dropQueryAt? (t : Text) : Option Text :=
  match Text.firstAt? beginsQuery t with
  | none => some t
  | some n => Text.takeAt? n t

/-- The address with the letters of its authority in lower case. -/
def lowerAuthorityAt? (address : Text) : Option Text :=
  (Text.cutAt? (authorityLength address) address).map fun (authority, path) => Text.lower authority ++ path

/-- A character of a scheme takes one byte. -/
theorem ascii_of_isSchemeChar (c : Char) (hc : isSchemeChar c = true) : c.toNat < 128 := by
  delta isSchemeChar Text.isAsciiAlphanumeric Char.isAlphanum Char.isAlpha Char.isUpper Char.isLower Char.isDigit at hc
  simp only [Bool.or_eq_true, Bool.and_eq_true, decide_eq_true_eq, UInt32.le_iff_toNat_le, beq_iff_eq] at hc
  rcases hc with (((((⟨-, h⟩ | ⟨-, h⟩) | ⟨-, h⟩) | rfl) | rfl) | rfl) | rfl
  all_goals first
    | decide
    | exact Nat.lt_of_le_of_lt h (by decide)

/-- A character that ends an authority takes one byte. -/
theorem ascii_of_endsAuthority (c : Char) (hc : endsAuthority c = true) : c.toNat < 128 := by
  simp only [endsAuthority, Bool.or_eq_true, beq_iff_eq] at hc
  rcases hc with (rfl | rfl) | rfl <;> decide

/-- The length of what may be a scheme is found byte by byte. -/
theorem schemeLength_eq (url : Text) : schemeLength url = Text.byteLength (url.takeWhile isSchemeChar) := by
  rw [schemeLength, Text.takeWhile_bytes (p := isSchemeChar)
    fun c x hx => Text.isAsciiByte_of_mem ascii_of_isSchemeChar hx, Text.length_bytes]

/-- The length of the authority is found byte by byte. -/
theorem authorityLength_eq (address : Text) : authorityLength address = Text.byteLength (authority address) := by
  rw [authorityLength, Text.takeWhile_bytes (p := (!endsAuthority ·)) fun c x hx =>
    congrArg not (Text.isAsciiByte_of_mem ascii_of_endsAuthority hx), Text.length_bytes, authority]

/-! ## The scheme -/

/-- A slash is passed when it is the next character. -/
theorem passSlash_eq (front t : Text) : ∃ m ≤ 1, t = List.replicate m '/' ++ dropSlash t ∧
    passSlash (Text.bytes (front ++ t)) (Text.byteLength front) =
      Text.byteLength (front ++ List.replicate m '/') := by
  have hnext := Text.getElem?_bytes (d := '/') (by decide) (rfl : front ++ t = _) rfl
  by_cases hslash : t.head? = some '/'
  · obtain ⟨t, rfl⟩ := List.head?_eq_some_iff.mp hslash
    refine ⟨1, Nat.le_refl 1, rfl, ?_⟩
    rw [passSlash, if_pos (hnext.mpr rfl), List.replicate_one, Text.byteLength_concat_ascii (by decide)]
  · have hstays : dropSlash t = t := by
      unfold dropSlash
      split
      · exact absurd rfl hslash
      · rfl
    refine ⟨0, Nat.zero_le 1, hstays.symm, ?_⟩
    rw [passSlash, if_neg (hslash ∘ hnext.mp), List.replicate_zero, List.append_nil]

/-- Two slashes are passed when they are the next characters. -/
theorem passSlashes_eq (front t : Text) : ∃ m ≤ 2, t = List.replicate m '/' ++ dropSlash (dropSlash t) ∧
    passSlash (Text.bytes (front ++ t)) (passSlash (Text.bytes (front ++ t)) (Text.byteLength front)) =
      Text.byteLength (front ++ List.replicate m '/') := by
  obtain ⟨m, hm, ht, hpass⟩ := passSlash_eq front t
  obtain ⟨m', hm', ht', hpass'⟩ := passSlash_eq (front ++ List.replicate m '/') (dropSlash t)
  rw [List.append_assoc, ← ht] at hpass'
  refine ⟨m + m', by omega, ?_, ?_⟩
  · rw [List.replicate_add, List.append_assoc, ← ht', ← ht]
  · rw [hpass, hpass', List.replicate_add, List.append_assoc]

/-- The URL begins with a scheme: two to fifteen characters that may stand in one are in front of a colon. -/
def HasScheme (url : Text) : Prop :=
  (2 ≤ (url.takeWhile isSchemeChar).length ∧ (url.takeWhile isSchemeChar).length ≤ maxSchemeLength) ∧
    (url.dropWhile isSchemeChar).head? = some ':'

/-- Without a scheme a URL is its address. -/
theorem splitScheme_of_not_hasScheme {url : Text} (h : ¬HasScheme url) : splitScheme url = ([], url) := by
  unfold splitScheme
  split
  · next rest hrest =>
    rw [if_neg fun hlength => h ⟨hlength, by rw [hrest, List.head?_cons]⟩]
  · rfl

/-- Behind its scheme, a URL has a colon, at most two slashes, and the address. -/
theorem splitScheme_of_hasScheme {url : Text} (h : HasScheme url) :
    (splitScheme url).1 = url.takeWhile isSchemeChar ∧
      ∃ m ≤ 2, url = ((splitScheme url).1 ++ [':'] ++ List.replicate m '/') ++ (splitScheme url).2 ∧
        passSlash (Text.bytes url) (passSlash (Text.bytes url) (schemeLength url + 1)) =
          Text.byteLength ((splitScheme url).1 ++ [':'] ++ List.replicate m '/') := by
  obtain ⟨hlength, hcolon⟩ := h
  obtain ⟨rest, hrest⟩ := List.head?_eq_some_iff.mp hcolon
  have hsplit : splitScheme url = (url.takeWhile isSchemeChar, dropSlash (dropSlash rest)) := by
    simp only [splitScheme, hrest, if_pos hlength]
  have hurl : (url.takeWhile isSchemeChar ++ [':']) ++ rest = url := by
    rw [List.append_assoc, List.singleton_append, ← hrest, List.takeWhile_append_dropWhile]
  obtain ⟨m, hm, ht, hpass⟩ := passSlashes_eq (url.takeWhile isSchemeChar ++ [':']) rest
  rw [hurl, Text.byteLength_concat_ascii (by decide), ← schemeLength_eq] at hpass
  rw [hsplit]
  refine ⟨rfl, m, hm, ?_, hpass⟩
  rw [List.append_assoc _ _ (dropSlash _), ← ht, hurl]

/-- The scheme is split off by offsets. -/
theorem splitSchemeAt?_eq (url : Text) : splitSchemeAt? url = some (splitScheme url) := by
  have hurl : url.takeWhile isSchemeChar ++ url.dropWhile isSchemeChar = url :=
    List.takeWhile_append_dropWhile
  have hcolon : (Text.bytes url)[schemeLength url]? = some (UInt8.ofNat ':'.toNat) ↔
      (url.dropWhile isSchemeChar).head? = some ':' :=
    Text.getElem?_bytes (by decide) hurl (schemeLength_eq url)
  -- A scheme is in ASCII, so that its bytes are counted as its characters.
  have hchars : schemeLength url = (url.takeWhile isSchemeChar).length :=
    (schemeLength_eq url).trans
      (Text.byteLength_eq_length fun c hc => ascii_of_isSchemeChar c (List.mem_takeWhile_imp hc))
  have hscheme : ((2 ≤ schemeLength url ∧ schemeLength url ≤ maxSchemeLength) ∧
      (Text.bytes url)[schemeLength url]? = some (UInt8.ofNat ':'.toNat)) ↔ HasScheme url := by
    rw [hcolon, hchars, HasScheme]
  unfold splitSchemeAt?
  dsimp only
  split
  · next h =>
    obtain ⟨hfirst, m, -, hparts, hoffset⟩ := splitScheme_of_hasScheme (hscheme.mp h)
    have htake : Text.takeAt? (schemeLength url) url = some (splitScheme url).1 := by
      rw [hfirst]
      exact Text.takeAt?_eq hurl (schemeLength_eq url)
    have hdrop := Text.dropAt?_eq hparts.symm hoffset
    simp only [htake, hdrop, Option.bind_eq_bind, Option.bind_some]
  · next h => rw [splitScheme_of_not_hasScheme (h ∘ hscheme.mpr)]

/-! ## The host -/

/-- The authority is cut off by its length. -/
theorem takeAt?_authority (address : Text) :
    Text.takeAt? (authorityLength address) address = some (authority address) :=
  Text.takeAt?_eq (authority_append_path address) (authorityLength_eq address)

/-- The user and what follows make up the authority. -/
theorem user_append (address : Text) : user address ++ (splitUser address).2 = authority address := by
  unfold user splitUser
  cases hsplit : Text.splitLast '@' (authority address) with
  | none => rfl
  | some ends =>
    rw [Text.eq_append_of_splitLast hsplit]
    simp

/-- The place of the host is found by offsets. -/
theorem hostSpanAt?_eq (address : Text) : hostSpanAt? address = some (hostSpan address) := by
  have hstart : (match Text.lastAt? (· == '@') (authority address) with
      | none => 0
      | some n => n + 1) = Text.byteLength (user address) := by
    rw [Text.lastAt?_eq]
    unfold user splitUser
    cases Text.splitLast '@' (authority address) with
    | none => rfl
    | some ends => exact (Text.byteLength_concat_ascii (by decide) ends.1).symm
  have hbehind : Text.dropAt? (Text.byteLength (user address)) (authority address) =
      some (splitUser address).2 := Text.dropAt?_eq (user_append address) rfl
  have hstop : (match Text.firstAt? (· == ':') (splitUser address).2 with
      | none => Text.byteLength (authority address)
      | some n => Text.byteLength (user address) + n) =
        Text.byteLength (user address) + Text.byteLength (host address) := by
    rw [Text.firstAt?_eq]
    cases hany : (splitUser address).2.any (· == ':') with
    | true => rfl
    | false =>
      -- Without a colon the host reaches to the end of the authority.
      have hwhole : host address = (splitUser address).2 :=
        List.takeWhile_eq_self_iff.mpr fun c hc => by simpa using List.any_eq_false.mp hany c hc
      rw [hwhole, ← Text.byteLength_append, user_append]
      rfl
  simp only [hostSpanAt?, takeAt?_authority, Option.bind_eq_bind, Option.bind_some, hstart, hbehind, hstop,
    hostSpan]

/-- The host follows the user information at the start of the address. -/
theorem exists_append_host (address : Text) : ∃ rest, user address ++ host address ++ rest = address := by
  refine ⟨(splitUser address).2.dropWhile (· != ':') ++ path address, ?_⟩
  rw [host, List.append_assoc, ← List.append_assoc (List.takeWhile _ _), List.takeWhile_append_dropWhile,
    ← List.append_assoc, user_append, authority_append_path]

/-- The host of a URL is found by offsets. -/
theorem hostOfAt?_eq (url : Text) : hostOfAt? url = some (hostOf? url) := by
  obtain ⟨rest, hrest⟩ := exists_append_host (splitScheme url).2
  have hslice := Text.slice?_append (user (splitScheme url).2) (host (splitScheme url).2) rest
  rw [hrest] at hslice
  simp only [hostOfAt?, splitSchemeAt?_eq, hostSpanAt?_eq, Option.bind_eq_bind, Option.bind_some, hostSpan, hslice,
    Option.map_some, hostOf?]
  cases host (splitScheme url).2 with
  | nil => exact if_pos rfl
  | cons c t =>
    have hpos := c.utf8Size_pos
    rw [if_neg]
    rw [Text.byteLength_cons]
    omega

/-! ## Query and authority -/

/-- The query is dropped by its offset. -/
theorem dropQueryAt?_eq (t : Text) : dropQueryAt? t = some (dropQuery t) := by
  unfold dropQueryAt?
  rw [Text.firstAt?_eq]
  cases hany : t.any beginsQuery with
  | true => exact Text.takeAt?_eq List.takeWhile_append_dropWhile rfl
  | false =>
    have hwhole : dropQuery t = t :=
      List.takeWhile_eq_self_iff.mpr fun c hc => by simpa using List.any_eq_false.mp hany c hc
    rw [hwhole]
    rfl

/-- The authority is lowered by its length. -/
theorem lowerAuthorityAt?_eq (address : Text) : lowerAuthorityAt? address = some (lowerAuthority address) := by
  rw [lowerAuthorityAt?, Text.cutAt?_eq (authority_append_path address) (authorityLength_eq address)]
  rfl

end Address

namespace Lookup

/-! ## The views -/

/-- What is cut from a URL and a host for a lookup. -/
structure Parts where
  scheme : Text
  address : Text
  path : Text
  page : Text
  siteAddress : Text
  sitePage : Text
  host : Text
  hostIsIPv4 : Bool
  site : Text
  deriving Repr, DecidableEq

/-- The views of a lookup. -/
def parts (l : Lookup) : Parts :=
  ⟨l.scheme, l.address, l.path, l.page, l.siteAddress, l.sitePage, l.host, l.hostIsIPv4, l.site⟩

/-- The host as it is given, or cut from the URL. -/
def namedHostAt? (l : Lookup) : Option Text :=
  if l.givenHost.isEmpty then (Address.hostOfAt? l.url).map (·.getD []) else some l.givenHost

/-- Where the site begins in a host; an IPv4 address stays whole. -/
def siteStart? (host : Text) : Option Nat := if Host.isIPv4 host then some 0 else Host.serverLength? host

/-- The address without the server labels of a host at its start. -/
def siteAddressAt? (address : Text) : Option Text := do
  let (start, stop) ← Address.hostSpanAt? address
  let host ← Text.takeAt? stop address
  if start = 0 ∧ !Host.isIPv4 host then (Host.serverLength? host).bind (Text.dropAt? · address)
  else some address

/-- The views of a lookup, cut at offsets. The server labels of the address are counted in its host, and those of
the host in lower case. -/
def partsAt? (l : Lookup) : Option Parts := do
  let (scheme, address) ← Address.splitSchemeAt? l.url
  let path ← Text.dropAt? (Address.authorityLength address) address
  let page ← (Address.dropQueryAt? address).bind Address.lowerAuthorityAt?
  let named ← l.namedHostAt?
  let host := Text.lower named
  let start ← siteStart? host
  let siteAddress ← siteAddressAt? address
  let sitePage ← (Address.dropQueryAt? siteAddress).bind Address.lowerAuthorityAt?
  let site ← Text.dropAt? start host
  some ⟨scheme, address, path, page, siteAddress, sitePage, host, Host.isIPv4 host, site⟩

/-- The server labels that the address is without: those of its host, which stay where user information is in
front of it, and where it is an IPv4 address. -/
def cutServer (l : Lookup) : Text :=
  if (Address.user l.address).isEmpty && !Host.isIPv4 (Address.host l.address) then
    Host.server (Address.host l.address)
  else []

/-- The server is cut from the start of the authority. -/
theorem cutServer_append (l : Lookup) : ∃ rest, Address.authority l.address = l.cutServer ++ rest := by
  unfold cutServer
  split
  · next h =>
    have huser : Address.user l.address = [] := by simpa using (Bool.and_eq_true_iff.mp h).1
    obtain ⟨behind, hbehind⟩ : Address.host l.address <+: (Address.splitUser l.address).2 :=
      List.takeWhile_prefix _
    refine ⟨Host.site (Address.host l.address) ++ behind, ?_⟩
    rw [← List.append_assoc, Host.server_append_site, hbehind, ← Address.user_append, huser, List.nil_append]
  · exact ⟨_, rfl⟩

/-- The server labels that are cut and the rest make up the address. -/
theorem cutServer_append_siteAddress (l : Lookup) : l.cutServer ++ l.siteAddress = l.address := by
  obtain ⟨rest, hrest⟩ := l.cutServer_append
  have hprefix : l.cutServer <+: l.address := by
    rw [← Address.authority_append_path l.address, hrest, List.append_assoc]
    exact List.prefix_append _ _
  have hdrop : l.siteAddress = l.address.drop l.cutServer.length := by
    unfold siteAddress cutServer
    dsimp only
    split <;> rfl
  rw [hdrop]
  exact List.prefix_iff_eq_append.mp hprefix

/-- The host that a lookup names is found by offsets. -/
theorem namedHostAt?_eq (l : Lookup) : l.namedHostAt? = some l.namedHost := by
  unfold namedHostAt? namedHost
  rw [Address.hostOfAt?_eq]
  split <;> rfl

/-- The site is where the host is cut by offsets. -/
theorem siteStart?_eq (l : Lookup) : ∃ n, siteStart? l.host = some n ∧ Text.dropAt? n l.host = some l.site := by
  unfold siteStart? site hostIsIPv4
  split
  · exact ⟨0, rfl, Text.dropAt?_eq (a := []) rfl rfl⟩
  · exact ⟨_, Host.serverLength?_eq l.host, Text.dropAt?_eq (Host.server_append_site l.host) rfl⟩

/-- The address without server labels is cut by offsets. -/
theorem siteAddressAt?_eq (l : Lookup) : siteAddressAt? l.address = some l.siteAddress := by
  obtain ⟨rest, hrest⟩ := Address.exists_append_host l.address
  have hhost := Text.takeAt?_eq hrest (Text.byteLength_append _ _).symm
  have hwhole := l.cutServer_append_siteAddress
  simp only [siteAddressAt?, Address.hostSpanAt?_eq, Address.hostSpan, Option.bind_eq_bind, Option.bind_some, hhost]
  -- Without user information the host begins the address. With it nothing is cut off, however many labels the
  -- host has.
  cases huser : Address.user l.address with
  | nil =>
    simp only [cutServer, huser, List.isEmpty_nil, Bool.true_and] at hwhole
    simp only [List.nil_append, Text.byteLength, List.map_nil, List.sum_nil, true_and]
    split
    · next hname =>
      rw [if_pos hname] at hwhole
      rw [Host.serverLength?_eq, Option.bind_some]
      exact Text.dropAt?_eq hwhole rfl
    · next hname =>
      rw [if_neg hname] at hwhole
      exact congrArg some hwhole.symm
  | cons c t =>
    have hpos := c.utf8Size_pos
    simp only [cutServer, huser, List.isEmpty_cons, Bool.false_and, Bool.false_eq_true, if_false,
      List.nil_append] at hwhole
    rw [if_neg, hwhole]
    rw [Text.byteLength_cons]
    omega

/-- All the cuts are possible, and give the views of the lookup. -/
theorem partsAt?_eq (l : Lookup) : l.partsAt? = some l.parts := by
  have hscheme : Address.splitSchemeAt? l.url = some (l.scheme, l.address) := Address.splitSchemeAt?_eq l.url
  have hpath : Text.dropAt? (Address.authorityLength l.address) l.address = some l.path :=
    Text.dropAt?_eq (Address.authority_append_path _) (Address.authorityLength_eq _)
  have hpage (t : Text) : (Address.dropQueryAt? t).bind Address.lowerAuthorityAt? =
      some (Address.lowerAuthority (Address.dropQuery t)) := by
    rw [Address.dropQueryAt?_eq, Option.bind_some, Address.lowerAuthorityAt?_eq]
  obtain ⟨start, hstart, hsite⟩ := l.siteStart?_eq
  rw [host_eq_lower] at hstart hsite
  simp only [partsAt?, Option.bind_eq_bind, hscheme, Option.bind_some, hpath, hpage, namedHostAt?_eq, hstart,
    siteAddressAt?_eq, hsite]
  rfl

/-! ## Agreement -/

/-- The views of a lookup agree, where `k` bytes of server labels are cut from its address. -/
structure Coherent (l : Lookup) (k : Nat) : Prop where
  /-- The URL is its address, or a scheme, a colon and at most two slashes in front of the address. -/
  url_eq : l.scheme = [] ∧ l.address = l.url ∨
    (2 ≤ l.scheme.length ∧ l.scheme.length ≤ 15) ∧
      ∃ m ≤ 2, l.url = (l.scheme ++ [':'] ++ List.replicate m '/') ++ l.address
  /-- What is cut from the address is cut from the page. -/
  siteAddress_eq : Text.dropAt? k l.address = some l.siteAddress
  sitePage_eq : Text.dropAt? k l.page = some l.sitePage
  /-- Nothing is cut behind user information, nor from an IPv4 address. -/
  whole : Address.user l.address ≠ [] ∨ Host.isIPv4 (Address.host l.address) = true → k = 0
  /-- Otherwise the server is nothing, or ends with a dot, and two labels at most are left of the host. -/
  server : Address.user l.address = [] → Host.isIPv4 (Address.host l.address) = false →
    ∃ server rest, Address.host l.address = server ++ rest ∧ Text.byteLength server = k ∧
      (server = [] ∨ server.getLast? = some '.') ∧ (Host.trimDots rest).count '.' ≤ 1
  /-- What is cut from the address is cut from a host that is taken from it. -/
  site_eq : l.givenHost = [] → Address.user l.address = [] → Text.dropAt? k l.host = some l.site

/-- A URL is its address, or a scheme, a colon, two slashes at most and the address. -/
theorem url_eq (l : Lookup) : l.scheme = [] ∧ l.address = l.url ∨
    (2 ≤ l.scheme.length ∧ l.scheme.length ≤ 15) ∧
      ∃ m ≤ 2, l.url = (l.scheme ++ [':'] ++ List.replicate m '/') ++ l.address := by
  by_cases h : Address.HasScheme l.url
  · obtain ⟨hfirst, m, hm, hparts, -⟩ := Address.splitScheme_of_hasScheme h
    refine .inr ⟨?_, m, hm, hparts⟩
    rw [scheme, hfirst]
    exact h.1
  · rw [scheme, address, Address.splitScheme_of_not_hasScheme h]
    exact .inl ⟨rfl, rfl⟩

/-- A query is behind the authority, so it does not matter which is cut first, the query or the server. -/
theorem page_eq (l : Lookup) : l.page = Text.lower l.cutServer ++ l.sitePage := by
  obtain ⟨rest, hrest⟩ := l.cutServer_append
  have hauthority : Address.authority l.siteAddress = rest := by
    have hwhole := Address.authority_append_path l.siteAddress
    rw [path_siteAddress] at hwhole
    have haddress := l.cutServer_append_siteAddress
    rw [← hwhole, ← Address.authority_append_path l.address, hrest, List.append_assoc,
      List.append_cancel_left_eq] at haddress
    exact List.append_cancel_right haddress
  rw [page, sitePage, Address.lowerAuthority_dropQuery, Address.lowerAuthority_dropQuery, path_siteAddress, hauthority,
    hrest, Text.lower, List.map_append, List.append_assoc]
  rfl

/-- All views of a lookup can be cut, and they agree. -/
theorem views_coherent (l : Lookup) : l.partsAt? = some l.parts ∧
    l.Coherent (Text.byteLength l.address - Text.byteLength l.siteAddress) := by
  have haddress := l.cutServer_append_siteAddress
  have hk : Text.byteLength l.address - Text.byteLength l.siteAddress = Text.byteLength l.cutServer := by
    rw [← haddress, Text.byteLength_append, Nat.add_sub_cancel]
  rw [hk]
  refine ⟨l.partsAt?_eq, l.url_eq, Text.dropAt?_eq haddress rfl,
    Text.dropAt?_eq l.page_eq.symm (Text.byteLength_lower _).symm, fun hkept => ?_, fun huser hname => ?_,
    fun hgiven huser => ?_⟩
  · -- The address is kept whole.
    have hnone : l.cutServer = [] := by
      unfold cutServer
      rcases hkept with huser | hipv4
      · simp [huser]
      · simp [hipv4]
    rw [hnone]
    rfl
  · -- The server labels are cut off.
    have hserver : l.cutServer = Host.server (Address.host l.address) := by simp [cutServer, huser, hname]
    rw [hserver]
    exact ⟨_, _, (Host.server_append_site _).symm, rfl, Host.server_eq_nil_or _, Host.count_dots_site _⟩
  · -- The host of the lookup is that of the address, in lower case.
    have hhost : l.host = Text.lower (Address.host l.address) := by rw [host_eq, hgiven, List.isEmpty_nil, if_pos rfl]
    rw [site, hostIsIPv4, hhost, Host.isIPv4_lower]
    cases hname : Host.isIPv4 (Address.host l.address) with
    | true => simp [cutServer, hname, Text.byteLength, Text.dropAt?, Text.cutAt?]
    | false =>
      have hsite : Host.site (Text.lower (Address.host l.address)) = Text.lower (Host.site (Address.host l.address)) := by
        rw [Host.site, Host.length_server_lower, ← Text.lower_drop]
        rfl
      have hserver : l.cutServer = Host.server (Address.host l.address) := by simp [cutServer, huser, hname]
      rw [if_neg Bool.false_ne_true, hserver, hsite]
      refine Text.dropAt?_eq (a := Text.lower (Host.server (Address.host l.address))) ?_ (Text.byteLength_lower _).symm
      rw [Text.lower, Text.lower, ← List.map_append, Host.server_append_site]
      rfl

end Lookup

end UrlFilter
