import UrlFilter.Proofs.Build.Buckets
import UrlFilter.Proofs.Rule.Placement
import UrlFilter.Proofs.Rule.Shape

/-!
# Pages

A rule that names a host with a literal path is kept in a set, its letters in lower case up to the first slash. A
lookup puts its own page together from its authority in lower case and its path without the query, once with all the
labels of its host and once with the last two. Both forms meet: the rule finds its page under the host as it is
written and, for a host of two labels, under every server of it, and never a page with another path.
-/

namespace UrlFilter

/-! ## The page of a pattern -/

namespace Shape

/-- The page that an anchored pattern names: what is left without the asterisks at its ends, its anchor, a bar at
its end and a question mark in front of that. -/
def namedPage? (pattern : Text) : Option Text :=
  (afterAnchor? (Text.trimChar '*' pattern)).map fun rest => dropQuestion (cutEnd rest).2

/-- What precedes the first slash of a page. -/
def pageHost (page : Text) : Text := page.takeWhile (· != '/')

/-- The first slash of a page and what is behind it. -/
def pagePath (page : Text) : Text := page.dropWhile (· != '/')

variable {page : Text} {c : Char}

/-- The characters of the host are characters of the page. -/
theorem mem_of_mem_pageHost (h : c ∈ pageHost page) : c ∈ page := (List.takeWhile_sublist _).mem h

/-- The characters of the path are characters of the page. -/
theorem mem_of_mem_pagePath (h : c ∈ pagePath page) : c ∈ page := (List.dropWhile_sublist _).mem h

/-- The path begins with a slash, where there is one. -/
theorem eq_slash_of_head?_pagePath (h : c ∈ (pagePath page).head?) : c = '/' := by
  simpa using ends_lower_takeWhile.2 c h

section
variable (hpage : ∀ c ∈ page, isPathChar c = true)

include hpage

/-- The host of a page is made of characters of names. -/
theorem isNameChar_of_mem_pageHost (hc : c ∈ pageHost page) : Address.isNameChar c = true := by
  have hslash : (c != '/') = true := List.mem_takeWhile_imp (p := (· != '/')) hc
  exact Address.isNameChar_of (p := fun c => isPathChar c && c != '/') (by decide)
    (Bool.and_eq_true_iff.mpr ⟨hpage c (mem_of_mem_pageHost hc), hslash⟩)

/-- No character of the path of a page begins a query. -/
theorem not_beginsQuery_of_mem_pagePath (hc : c ∈ pagePath page) : Address.beginsQuery c = false := by
  have hpath := hpage c (mem_of_mem_pagePath hc)
  rw [Address.beginsQuery, Bool.or_eq_false_iff, beq_eq_false_iff_ne, beq_eq_false_iff_ne]
  constructor <;> rintro rfl <;> exact absurd hpath (by decide)

end

end Shape

/-- The bucket keeps the page of the pattern with its host in lower case. -/
theorem Policy.Places.of_hostPathExact {p : Policy} {pattern kept page : Text}
    (h : p.Places pattern .hostPathExact kept) (hpage : Shape.namedPage? pattern = some page) :
    (∀ c ∈ page, Shape.isPathChar c = true) ∧ kept = Shape.lowerHost page := by
  cases h with
  | page hraw hanchor hhost hend hpath hwhole =>
    rw [Shape.namedPage?, hanchor, Option.map_some, hend, Option.some.injEq] at hpage
    subst hpage
    rw [Shape.isHostPath, Bool.and_eq_true, List.all_eq_true] at hpath
    exact ⟨hpath.1, rfl⟩

/-! ## The pages of a lookup -/

namespace Address

/-- A name in another letter case is one. -/
theorem isNameChar_of_lower_eq {s t : Text} (h : Text.lower s = Text.lower t) (ht : ∀ c ∈ t, isNameChar c = true) :
    ∀ c ∈ s, isNameChar c = true := by
  have hlower : ∀ c : Char, isNameChar c.toLower = isNameChar c :=
    Text.toLower_congr (f := isNameChar) (by decide +kernel)
  intro c hc
  have hmem : c.toLower ∈ Text.lower t := h ▸ List.mem_map_of_mem hc
  obtain ⟨d, hd, hsame⟩ := List.mem_map.mp hmem
  rw [← hlower c, ← hsame, hlower d, ht d hd]

/-- The path of an address without its query is nothing, or begins with a slash. -/
theorem eq_slash_of_head?_dropQuery {a : Text} {c : Char} (h : c ∈ (dropQuery (path a)).head?) : c = '/' := by
  cases hpath : path a with
  | nil =>
    rw [hpath] at h
    cases h
  | cons d t =>
    -- Of the marks that end an authority, only the slash does not begin a query.
    have hends := List.head?_dropWhile_not (!endsAuthority ·) a
    rw [show a.dropWhile (!endsAuthority ·) = d :: t from hpath] at hends
    rw [hpath, dropQuery, List.takeWhile_cons] at h
    cases hquery : beginsQuery d with
    | true => simp [hquery] at h
    | false =>
      obtain rfl : d = c := by simpa [hquery] using h
      simp only [endsAuthority, List.head?_cons, Bool.not_eq_false', Bool.or_eq_true, beq_iff_eq] at hends
      simp only [beginsQuery, Bool.or_eq_false_iff, beq_eq_false_iff_ne] at hquery
      exact (hends.resolve_right hquery.2).resolve_right hquery.1

/-- Without its query, an address is cut at its first slash. -/
theorem dropWhile_lowerAuthority (a : Text) :
    (lowerAuthority (dropQuery a)).dropWhile (· != '/') = dropQuery (path a) := by
  rw [lowerAuthority_dropQuery]
  refine Text.dropWhile_append_mark (fun c hc => ?_) fun c hc => ?_
  · obtain ⟨d, hd, rfl⟩ := List.mem_map.mp hc
    have hends : (!endsAuthority d) = true := List.mem_takeWhile_imp (p := (!endsAuthority ·)) hd
    rw [← endsAuthority_toLower] at hends
    rw [bne_iff_ne]
    rintro heq
    rw [heq] at hends
    exact absurd hends (by decide)
  · rw [eq_slash_of_head?_dropQuery hc]
    rfl

end Address

namespace Host

/-- Where two labels remain, what is in front of them is cut off, in any letter case. -/
theorem lower_site_append {h h' s : Text} (hlabels : (Text.parts '.' (trimDots h)).length = 2)
    (hcase : Text.lower h' = Text.lower h) : Text.lower (site (s ++ '.' :: h')) = Text.lower h := by
  -- The number of labels does not depend on their case.
  have hparts : ((Text.parts '.' (trimDots h')).map Text.lower).length = 2 := by
    rw [← Text.parts_lower (by decide), ← trimDots_lower, hcase, trimDots_lower, Text.parts_lower (by decide),
      List.length_map, hlabels]
  rw [List.length_map] at hparts
  obtain ⟨a, b, hparts⟩ := List.length_eq_two.mp hparts
  have htrim : trimDots h' = a ++ '.' :: b := by simpa using Text.eq_append_flatMap_of_parts hparts
  have hdots : '.' ∉ a ∧ '.' ∉ b := by
    have hnone := hparts ▸ fun q => Text.notMem_of_mem_parts (q := q) (d := '.') (t := trimDots h')
    exact ⟨hnone a (by simp), hnone b (by simp)⟩
  rw [site, server_append htrim hdots.1 hdots.2, List.append_cons s '.' h', List.drop_left, hcase]

/-- Labels with dots between them are a name. -/
theorem isNameChar_of_labels {s : Text} (hs : ∀ label ∈ Text.parts '.' s, IsLabel label) :
    ∀ c ∈ s, Address.isNameChar c = true := by
  intro c hc
  by_cases hdot : c = '.'
  · rw [hdot]
    rfl
  · obtain ⟨label, hlabel, hmem⟩ := Text.exists_mem_parts hc hdot
    exact Shape.isNameChar_of_isLabel (hs label hlabel) hmem

end Host

namespace Lookup

section
variable {page name query : Text} (hpage : ∀ c ∈ page, Shape.isPathChar c = true)
  (hquery : ∀ c ∈ query.head?, Address.beginsQuery c = true)

include hquery

/-- What follows the host ends the authority. -/
theorem endsAuthority_of_page : ∀ c ∈ (Shape.pagePath page ++ query).head?, Address.endsAuthority c = true := by
  intro c hc
  rw [List.head?_append, Option.mem_def, Option.or_eq_some_iff] at hc
  rcases hc with hc | ⟨-, hc⟩
  · rw [Shape.eq_slash_of_head?_pagePath hc]
    rfl
  · have hbegins := hquery c hc
    simp only [Address.beginsQuery, Bool.or_eq_true] at hbegins
    simp only [Address.endsAuthority, Bool.or_eq_true]
    exact hbegins.elim (fun h => .inl (.inr h)) .inr

include hpage

/-- A query behind the path of a page is dropped, and nothing else. -/
theorem dropQuery_page : Address.dropQuery (Shape.pagePath page ++ query) = Shape.pagePath page :=
  Text.takeWhile_append_mark (fun c hc => by rw [Shape.not_beginsQuery_of_mem_pagePath hpage hc]; rfl)
    fun c hc => by rw [hquery c hc]; rfl

/-- The page under its own host is a view of the lookup. -/
theorem page_eq_of_page (hname : Text.lower name = Text.lower (Shape.pageHost page)) :
    (http name (Shape.pagePath page ++ query)).page = Shape.lowerHost page := by
  rw [page_http (Address.isNameChar_of_lower_eq hname fun c => Shape.isNameChar_of_mem_pageHost hpage)
    (endsAuthority_of_page hquery), dropQuery_page hpage hquery, hname]
  rfl

/-- The page under a server of its site is. -/
theorem sitePage_eq_of_page (hlabels : (Text.parts '.' (Host.trimDots (Shape.pageHost page))).length = 2)
    (hname : Text.lower name = Text.lower (Shape.pageHost page)) {server : Text}
    (hserver : ∀ label ∈ Text.parts '.' server, Host.IsLabel label)
    (hipv4 : Host.isIPv4 (server ++ '.' :: name) = false) :
    (http (server ++ '.' :: name) (Shape.pagePath page ++ query)).sitePage = Shape.lowerHost page := by
  have hwhole := Address.isNameChar_dotted (Host.isNameChar_of_labels hserver)
    (Address.isNameChar_of_lower_eq hname fun c => Shape.isNameChar_of_mem_pageHost hpage)
  rw [sitePage_http hwhole (endsAuthority_of_page hquery), dropQuery_page hpage hquery, hipv4,
    if_neg Bool.false_ne_true, Host.lower_site_append hlabels hname]
  rfl

end

/-- A lookup has the path of the page that one of its views is. -/
theorem path_of_mem_views {l : Lookup} {page : Text} (h : Shape.lowerHost page ∈ l.views .hostPathExact) :
    Address.dropQuery l.path = Shape.pagePath page := by
  -- The page and the view are the same text, and the path of either begins at its first slash.
  rw [Shape.pagePath, ← Shape.dropWhile_lowerHost]
  simp only [views, List.mem_cons, List.not_mem_nil, or_false] at h
  rcases h with h | h
  · rw [h, sitePage, Address.dropWhile_lowerAuthority, path_siteAddress]
  · rw [h, Lookup.page, Address.dropWhile_lowerAuthority, path]

end Lookup

/-! ## The bucket -/

namespace RuleBase

/-- A rule that names a page is found under its host, in any letter case of it, and whatever query follows; where
the host has two labels, also under its servers. It is not found under another path. -/
theorem hits_page {p : Policy} {pattern page : Text} (hcategory : (p.category pattern).1 = .hostPathExact)
    (hpage : Shape.namedPage? pattern = some page) (base : RuleBase) (q : Polarity) :
    ((p.category pattern).2 ∈ (base.bucket ⟨.hostPathExact, q⟩).rules →
      ∀ name query, Text.lower name = Text.lower (Shape.pageHost page) →
        (∀ c ∈ query.head?, Address.beginsQuery c = true) →
        base.hits (.http name (Shape.pagePath page ++ query)) ⟨.hostPathExact, q⟩ = true ∧
        ((Text.parts '.' (Host.trimDots (Shape.pageHost page))).length = 2 →
          ∀ server, (∀ label ∈ Text.parts '.' server, Host.IsLabel label) →
            Host.isIPv4 (server ++ '.' :: name) = false →
            base.hits (.http (server ++ '.' :: name) (Shape.pagePath page ++ query)) ⟨.hostPathExact, q⟩ = true)) ∧
      ((base.bucket ⟨.hostPathExact, q⟩).rules = [(p.category pattern).2] →
        ∀ l : Lookup, Address.dropQuery l.path ≠ Shape.pagePath page → base.hits l ⟨.hostPathExact, q⟩ = false) := by
  have hplaces := p.places_category pattern
  rw [hcategory] at hplaces
  obtain ⟨hchars, hkept⟩ := hplaces.of_hostPathExact hpage
  rw [hkept]
  refine ⟨fun hrule name query hname hquery => ⟨?_, fun hlabels server hserver hipv4 => ?_⟩, fun hrules l hpath => ?_⟩
  · refine (hits_iff_of_isExact rfl _).mpr ⟨_, ?_, hrule⟩
    have hview := Lookup.page_eq_of_page hchars hquery hname
    exact List.mem_cons_of_mem _ (List.mem_singleton.mpr hview.symm)
  · refine (hits_iff_of_isExact rfl _).mpr ⟨_, ?_, hrule⟩
    have hview := Lookup.sitePage_eq_of_page hchars hquery hlabels hname hserver hipv4
    exact List.mem_cons.mpr (.inl hview.symm)
  · rw [Bool.eq_false_iff, ne_eq, hits_iff_of_isExact rfl, hrules]
    rintro ⟨t, hview, ht⟩
    rw [List.mem_singleton.mp ht] at hview
    exact hpath (Lookup.path_of_mem_views hview)

/-- A page behind a scheme, with a question mark and a bar at its end, under its host and under a server; then a
path in another letter case. -/
theorem hits_page_sample :
    (Policy.permissive.category "|https://Ads.b/C.js?|".toList).1 = .hostPathExact ∧
      Shape.namedPage? "|https://Ads.b/C.js?|".toList = some "Ads.b/C.js".toList ∧
      ∃ base : RuleBase, (base.bucket ⟨.hostPathExact, .good⟩).rules = ["ads.b/C.js".toList] ∧
        base.hits (.http "aDs.B".toList "/C.js?x/y".toList) ⟨.hostPathExact, .good⟩ = true ∧
        base.hits (.http "x-1.y.aDs.B".toList "/C.js#z".toList) ⟨.hostPathExact, .good⟩ = true ∧
        base.hits { url := "https://ads.b/c.js".toList } ⟨.hostPathExact, .good⟩ = false := by
  have hcategory : (Policy.permissive.category "|https://Ads.b/C.js?|".toList).1 = .hostPathExact := by decide +kernel
  have hkept : (Policy.permissive.category "|https://Ads.b/C.js?|".toList).2 = "ads.b/C.js".toList := by decide +kernel
  have hpage : Shape.namedPage? "|https://Ads.b/C.js?|".toList = some "Ads.b/C.js".toList := by decide
  have hserver : ∀ label ∈ Text.parts '.' "x-1.y".toList, Host.IsLabel label := by decide
  have hquery : ∀ c ∈ "?x/y".toList.head?, Address.beginsQuery c = true := by
    rintro c ⟨⟩
    rfl
  have hfragment : ∀ c ∈ "#z".toList.head?, Address.beginsQuery c = true := by
    rintro c ⟨⟩
    rfl
  let base := single ⟨.hostPathExact, .good⟩ (.exact (.ofList ["ads.b/C.js".toList])) rfl
  have hrules : (base.bucket ⟨.hostPathExact, .good⟩).rules = ["ads.b/C.js".toList] := by decide
  obtain ⟨hfound, hmissed⟩ := hits_page hcategory hpage base .good
  rw [hkept, hrules] at hfound hmissed
  have hhits := hfound (List.mem_singleton_self _)
  refine ⟨hcategory, hpage, base, hrules, ?_, ?_, hmissed rfl _ (by decide)⟩
  · exact (hhits "aDs.B".toList "?x/y".toList (by decide) hquery).1
  · exact (hhits "aDs.B".toList "#z".toList (by decide) hfragment).2 (by decide) "x-1.y".toList hserver (by decide)

end RuleBase

end UrlFilter
