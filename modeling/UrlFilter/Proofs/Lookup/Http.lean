import UrlFilter.Proofs.Lookup.Case
import UrlFilter.Proofs.Text.Cutting

/-!
# Lookups by http

The views of a URL that is `http://`, a host without user information and port, and what is behind the host.
Such a lookup sees the host and what is behind it as they stand, and labels in front of a host are cut off where
two labels remain (`Host.server_append`).
-/

namespace UrlFilter

/-! ## Labels in front of a host -/

namespace Host

variable {s h a b : Text}

/-- Letters, digits and hyphens, as they are written between the dots of a host. -/
def IsLabel (t : Text) : Prop := t ≠ [] ∧ ∀ c ∈ t, Unicode.isAlphanumeric c = true ∨ c = '-'

/-- Whether a text is a label is decided character by character. -/
instance (t : Text) : Decidable (IsLabel t) :=
  decidable_of_iff (t ≠ [] ∧ t.all (fun c => Unicode.isAlphanumeric c || c == '-') = true) (by simp [IsLabel])

/-- Without a dot at its end a host is trimmed of nothing. -/
theorem trimDots_eq_self (hdot : h.getLast? ≠ some '.') : trimDots h = h := Text.dropEndWhile_eq_self hdot

/-- Dots at the end are those of the host behind the labels. -/
theorem trimDots_append (hne : trimDots h ≠ []) (s : Text) : trimDots (s ++ h) = s ++ trimDots h := by
  rw [trimDots, Text.dropEndWhile_append, if_neg (by simpa [trimDots] using hne), trimDots]

/-- What follows a dot is a parent. -/
theorem mem_parents_append (s h : Text) : h ∈ parents (s ++ '.' :: h) := by
  induction s with
  | nil => simp [parents]
  | cons c s ih =>
    rw [List.cons_append, parents]
    split
    · exact List.mem_cons_of_mem _ ih
    · exact ih

/-- A host without a dot at its end is itself. -/
theorem mem_itself (hne : h ≠ []) (hdot : h.getLast? ≠ some '.') : h ∈ itself h := by
  rw [itself, trimDots_eq_self hdot]
  cases h with
  | nil => exact absurd rfl hne
  | cons c h => exact List.mem_cons_self

/-- A host that does not end with a dot is one of its suffixes. -/
theorem mem_suffixes_self (hne : h ≠ []) (hdot : h.getLast? ≠ some '.') : h ∈ suffixes h := by
  rw [suffixes, trimDots_eq_self hdot]
  cases h with
  | nil => exact absurd rfl hne
  | cons c h => exact List.mem_cons_self

/-- Such a host is a suffix of the host with labels in front. -/
theorem mem_suffixes_append (hne : h ≠ []) (hdot : h.getLast? ≠ some '.') (s : Text) :
    h ∈ suffixes (s ++ '.' :: h) := by
  have hdot' : (s ++ '.' :: h).getLast? ≠ some '.' := by
    rw [List.getLast?_append, List.getLast?_cons_of_ne_nil hne]
    rwa [List.getLast?_eq_some_getLast hne, Option.some_or, ← List.getLast?_eq_some_getLast hne]
  have hmem := mem_parents_append s h
  rw [suffixes, trimDots_eq_self hdot']
  cases hwhole : s ++ '.' :: h with
  | nil => simp at hwhole
  | cons c t => exact List.mem_cons_of_mem _ (hwhole ▸ hmem)

/-- What is in front of two labels is the server. -/
theorem server_append (htrim : trimDots h = a ++ '.' :: b) (ha : '.' ∉ a) (hb : '.' ∉ b) (s : Text) :
    server (s ++ '.' :: h) = s ++ ['.'] := by
  have hwhole : trimDots (s ++ '.' :: h) = (s ++ '.' :: a) ++ '.' :: b := by
    rw [← List.singleton_append, ← List.append_assoc, trimDots_append (by simp [htrim]), htrim]
    simp
  rw [server, hwhole, Text.splitLast_eq_some_iff.mpr ⟨rfl, hb⟩]
  dsimp only
  rw [Text.splitLast_eq_some_iff.mpr ⟨rfl, ha⟩]

end Host

/-! ## Addresses -/

namespace Address

/-- A character that ends neither the authority nor the host in it. -/
def isNameChar (c : Char) : Bool := !(endsAuthority c || c == '@' || c == ':')

/-- Characters of a kind that has none of the marks of an address. -/
theorem isNameChar_of {p : Char → Bool} (hmarks : ['/', '?', '#', '@', ':'].any p = false) {c : Char}
    (hc : p c = true) : isNameChar c = true := by
  by_contra hname
  have hmark : c ∈ ['/', '?', '#', '@', ':'] := by
    simpa only [isNameChar, endsAuthority, Bool.not_eq_true, Bool.not_eq_false', Bool.or_eq_true, beq_iff_eq,
      or_assoc, List.mem_cons, List.not_mem_nil, or_false] using hname
  exact List.any_eq_false.mp hmarks c hmark hc

/-- Two names with a dot between them are one. -/
theorem isNameChar_dotted {s t : Text} (hs : ∀ c ∈ s, isNameChar c = true) (ht : ∀ c ∈ t, isNameChar c = true) :
    ∀ c ∈ s ++ '.' :: t, isNameChar c = true :=
  List.forall_mem_append.mpr ⟨hs, List.forall_mem_cons.mpr ⟨rfl, ht⟩⟩

section
variable {name rest : Text} (hname : ∀ c ∈ name, isNameChar c = true)
  (hrest : ∀ c ∈ rest.head?, endsAuthority c = true)

include hname hrest

/-- The name is the authority, where what follows ends it. -/
theorem authority_append : authority (name ++ rest) = name := by
  refine Text.takeWhile_append_mark (fun c hc => ?_) fun c hc => by rw [hrest c hc]; rfl
  have := hname c hc
  simp_all [isNameChar]

/-- What follows the name is the path. -/
theorem path_append : path (name ++ rest) = rest := by
  have h := authority_append_path (name ++ rest)
  rwa [authority_append hname hrest, List.append_cancel_left_eq] at h

/-- There is no user in front of the name. -/
theorem splitUser_append : splitUser (name ++ rest) = ([], name) := by
  have hat : '@' ∉ name := fun hmem => absurd (hname '@' hmem) (by decide)
  rw [splitUser, authority_append hname hrest, Text.splitLast_eq_none_iff.mpr hat]

/-- The name is the host. -/
theorem host_append : host (name ++ rest) = name := by
  rw [host, splitUser_append hname hrest]
  refine List.takeWhile_eq_self_iff.mpr fun c hc => ?_
  have := hname c hc
  simp_all [isNameChar]

/-- Without its query, the address has the name in lower case, and what is behind it. -/
theorem lowerAuthority_dropQuery_append :
    lowerAuthority (dropQuery (name ++ rest)) = Text.lower name ++ dropQuery rest := by
  rw [lowerAuthority_dropQuery, authority_append hname hrest, path_append hname hrest]

end

end Address

/-! ## The views -/

namespace Lookup

/-- The lookup of a URL with the scheme `http`. -/
def http (name rest : Text) : Lookup := { url := "http://".toList ++ (name ++ rest) }

/-- The address is the name and what follows it. -/
theorem address_http (name rest : Text) : (http name rest).address = name ++ rest := rfl

/-- Such a lookup is tested against all categories. -/
theorem consulted_http (name rest : Text) : RuleBase.consulted (http name rest) = Category.all := rfl

section
variable {name rest : Text} (hname : ∀ c ∈ name, Address.isNameChar c = true)
  (hrest : ∀ c ∈ rest.head?, Address.endsAuthority c = true)

include hname hrest

/-- The host is the name in lower case. -/
theorem host_http : (http name rest).host = Text.lower name := by
  rw [host_eq, address_http, Address.host_append hname hrest]
  rfl

/-- The page is the name in lower case and what follows without the query. -/
theorem page_http : (http name rest).page = Text.lower name ++ Address.dropQuery rest := by
  rw [page, address_http, Address.lowerAuthority_dropQuery_append hname hrest]

/-- The server is cut off unless the host is an IPv4 address. -/
theorem siteAddress_http :
    (http name rest).siteAddress = (if Host.isIPv4 name then name else Host.site name) ++ rest := by
  have hlength := Host.length_server_le name
  rw [siteAddress, address_http, Address.host_append hname hrest, Address.user,
    Address.splitUser_append hname hrest]
  cases Host.isIPv4 name with
  | true => rfl
  | false =>
    simp only [List.isEmpty_nil, Bool.not_false, Bool.and_self, if_true, Bool.false_eq_true, if_false]
    rw [List.drop_append_of_le_length hlength, Host.site]

/-- The page without server labels is that of the site, unless the name is an IPv4 address. -/
theorem sitePage_http : (http name rest).sitePage =
    Text.lower (if Host.isIPv4 name then name else Host.site name) ++ Address.dropQuery rest := by
  rw [sitePage, siteAddress_http hname hrest, Address.lowerAuthority_dropQuery_append _ hrest]
  split
  · exact hname
  · exact fun c hc => hname c (List.mem_of_mem_drop hc)

/-- The site is the name without server labels, unless it is an IPv4 address. -/
theorem site_http :
    (http name rest).site = Text.lower (if Host.isIPv4 name then name else Host.site name) := by
  rw [site, hostIsIPv4, host_http hname hrest, Host.isIPv4_lower]
  split
  · rfl
  · rw [Host.site, Host.site, Host.length_server_lower, Text.lower_drop]

/-- The names of the host are itself and its parents, unless it is an IPv4 address. -/
theorem hostNames_http : (http name rest).hostNames =
    if Host.isIPv4 name then Host.itself (Text.lower name) else Host.suffixes (Text.lower name) := by
  rw [hostNames, hostIsIPv4, host_http hname hrest, Host.isIPv4_lower]

end

end Lookup

end UrlFilter
