import UrlFilter.Proofs.Lookup.Names
import UrlFilter.Proofs.RuleBase.Assembly

/-!
# Subdomains

A set of hosts holds for the hosts in it and for everything under them. Labels are compared whole: a host is under an
entry when it ends with a dot and the entry. Letter case and dots at the end of the host that is looked up do not
matter, and an IPv4 address is under nothing but itself.
-/

namespace UrlFilter.RuleBase

variable {base : RuleBase} {q : Polarity}

/-- A set of hosts is hit when it has one of the names of the host that is looked up. -/
theorem hits_hosts_iff (l : Lookup) : base.hits l ⟨.domainExact, q⟩ = true ↔
    ∃ e ∈ (base.bucket ⟨.domainExact, q⟩).rules,
      e ∈ if Host.isIPv4 l.namedHost then Host.itself (Text.lower l.namedHost)
        else Host.suffixes (Text.lower l.namedHost) := by
  rw [hits_iff_of_isExact rfl, Lookup.views, Lookup.hostNames, Lookup.hostIsIPv4_eq, Lookup.host_eq_lower]
  exact exists_congr fun e => and_comm

/-- A set of hosts is hit by what is in it and by what ends with a dot and something in it, whatever the letter case
and the dots at the end; an IPv4 address has to be in it. The names that are looked for are those of a walk over the
labels, which ends and comes across the host and what is behind each of its dots, in order. -/
theorem hits_subdomains (hentries : ∀ e ∈ (base.bucket ⟨.domainExact, q⟩).rules, e ≠ []) :
    (∀ l : Lookup, Host.isIPv4 l.namedHost = false →
      (base.hits l ⟨.domainExact, q⟩ = true ↔ ∃ e ∈ (base.bucket ⟨.domainExact, q⟩).rules,
        e = Host.trimDots (Text.lower l.namedHost) ∨ '.' :: e <:+ Host.trimDots (Text.lower l.namedHost))) ∧
    (∀ l : Lookup, Host.isIPv4 l.namedHost = true →
      (base.hits l ⟨.domainExact, q⟩ = true ↔
        Host.trimDots (Text.lower l.namedHost) ∈ (base.bucket ⟨.domainExact, q⟩).rules)) ∧
    ∀ h : Text, Host.AreNames h (Host.suffixes h) := by
  refine ⟨fun l hipv4 => ?_, fun l hipv4 => ?_, Host.areNames_suffixes⟩
  · rw [hits_hosts_iff, if_neg (Bool.eq_false_iff.mp hipv4)]
    exact exists_congr fun e => and_congr_right fun he => Host.mem_suffixes_iff (hentries e he)
  · rw [hits_hosts_iff, if_pos hipv4]
    constructor
    · rintro ⟨e, he, hname⟩
      exact (Host.mem_itself_iff (hentries e he)).mp hname ▸ he
    · exact fun he => ⟨_, he, (Host.mem_itself_iff (hentries _ he)).mpr rfl⟩

/-- A host under an entry, in another letter case and with dots at its end; one that ends with the entry inside of a
label; an IPv4 address whose end is an entry; and a host with empty labels. -/
theorem hits_subdomains_sample :
    ∃ base : RuleBase, (base.bucket ⟨.domainExact, .bad⟩).rules = ["example.com".toList, "3.4".toList] ∧
      base.hits { url := "http://A.b.Example.com../x".toList } ⟨.domainExact, .bad⟩ = true ∧
      base.hits { url := "http://notexample.com/x".toList } ⟨.domainExact, .bad⟩ = false ∧
      base.hits { url := "http://a.b/".toList, givenHost := "1.2.3.4".toList } ⟨.domainExact, .bad⟩ = false ∧
      Host.Walk ".a..b".toList (Host.suffixes ".a..b.".toList) ∧
      Host.suffixes ".a..b.".toList = [".a..b".toList, "a..b".toList, ".b".toList, "b".toList] := by
  let base := single ⟨.domainExact, .bad⟩ (.exact (.ofList ["example.com".toList, "3.4".toList])) rfl
  have hrules : (base.bucket ⟨.domainExact, .bad⟩).rules = ["example.com".toList, "3.4".toList] := by decide
  have hentries : ∀ e ∈ (base.bucket ⟨.domainExact, .bad⟩).rules, e ≠ [] := by
    rw [hrules]
    decide
  obtain ⟨hhost, haddress, hwalk⟩ := hits_subdomains hentries
  rw [hrules] at hhost haddress
  refine ⟨base, hrules, (hhost _ (by decide)).mpr (by decide), ?_, ?_, (hwalk ".a..b.".toList).walk (by decide),
    by decide⟩
  · rw [Bool.eq_false_iff, ne_eq, hhost _ (by decide)]
    decide
  · rw [Bool.eq_false_iff, ne_eq, haddress _ (by decide)]
    decide

end UrlFilter.RuleBase
