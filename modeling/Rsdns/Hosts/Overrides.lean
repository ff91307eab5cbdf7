import Rsdns.Hosts.History

/-!
# Which line decides about a name

A later line is meant to override an earlier one.  An alias always does.  An address
overrides an alias only if the host is new: its spelling has no list yet, or an other
spelling of the name got the address and is introduced after the alias.
-/

namespace Rsdns.Plugins

open Common Dns

/-- The answer has the address of the entry, or is the entry's original. -/
def Reflects (found : Lookup) : HostEntry → Prop
  | .address _ ip => ∃ ips, found = .Ips ips ∧ ip ∈ ips
  | .aliasName _ original _ => found = .Alias original

/-- The last line about a name decides what a lookup of it says. -/
def LaterOverrides (config : HostsConfig) (name : Text) : Prop :=
  ∀ last, lastAbout config.listed (Text.trimMatches '.' name) = some last →
    Reflects (config.trie.lookup name) last

/-- A governing entry stands for another one: both have one original, or the address of
the other is listed under the spelling of this one too. -/
def Upholds (entries : List HostEntry) : HostEntry → HostEntry → Prop
  | .address word _, .address _ ip => ip ∈ addressesOf entries (trimWildcards word)
  | .aliasName _ original _, .aliasName _ other _ => original = other
  | _, _ => False

theorem reflects_lookupBy_iff {entries : List HostEntry} {entry last : HostEntry} :
    Reflects (lookupBy entries entry) last ↔ Upholds entries entry last := by
  cases entry with
  | address word ip =>
      cases last with
      | address other lastIp => simp [Reflects, lookupBy, Upholds]
      | aliasName other original named => simp [Reflects, lookupBy, Upholds]
  | aliasName word original named =>
      cases last with
      | address other lastIp => simp [Reflects, lookupBy, Upholds]
      | aliasName other lastOriginal lastNamed => simp [Reflects, lookupBy, Upholds]

theorem reflects_lookup_iff (config : HostsConfig) (name : Text) (last : HostEntry) :
    Reflects (config.trie.lookup name) last ↔
      ∃ entry, governing config.listed (DomainSuffixTrie.searched name) = some entry ∧
        Upholds config.listed entry last := by
  rw [config.lookup_eq]
  cases governing config.listed (DomainSuffixTrie.searched name) with
  | none => cases last <;> simp [Reflects]
  | some entry => simpa using reflects_lookupBy_iff

theorem lastAbout_introductions_of_alias {entries : List HostEntry} {domain word original : Text}
    {named : Text.parseUnsigned usizeBound original = none}
    (last : lastAbout entries domain = some (.aliasName word original named)) :
    lastAbout (introductions entries) domain = some (.aliasName word original named) := by
  induction entries using List.reverseRecOn with
  | nil => cases last
  | append_singleton entries entry inductionHypothesis =>
      rw [lastAbout_concat] at last
      rw [introductions_concat]
      by_cases own : entry.domain = domain
      · rw [if_pos own, Option.some.injEq] at last
        subst last
        have introduces :
            ¬ ∃ earlier ∈ entries, earlier.Extends (.aliasName word original named) := by
          rintro ⟨earlier, _, again⟩
          cases earlier <;> exact again
        rw [if_neg introduces, lastAbout_concat, if_pos own]
      · rw [if_neg own] at last
        split
        · rw [List.append_nil]
          exact inductionHypothesis last
        · rw [lastAbout_concat, if_neg own]
          exact inductionHypothesis last

theorem governing_of_lastAbout {entries : List HostEntry} {domain : Text} (nonempty : domain ≠ [])
    {last : HostEntry} (known : lastAbout entries domain = some last) :
    governing entries domain = lastAbout (introductions entries) domain :=
  (longestNamed_self ⟨last, of_lastAbout known⟩).governing_eq nonempty

/-- The last line about a name decides exactly if the entry that governs the name stands
for it.  For a name that is searched for as it stands, an alias always decides, and an
address exactly if the last introduction of the name is an address, in a spelling that
stands on a line with that address too. -/
theorem later_overrides_iff (config : HostsConfig) (name : Text) :
    (LaterOverrides config name ↔
      ∀ last, lastAbout config.listed (Text.trimMatches '.' name) = some last →
        ∃ entry, governing config.listed (DomainSuffixTrie.searched name) = some entry ∧
          Upholds config.listed entry last) ∧
    (DomainSuffixTrie.searched name = Text.trimMatches '.' name →
      Text.trimMatches '.' name ≠ [] →
      (LaterOverrides config name ↔
        ∀ word ip,
          lastAbout config.listed (Text.trimMatches '.' name) = some (.address word ip) →
          ∃ again first,
            lastAbout (introductions config.listed) (Text.trimMatches '.' name) =
              some (.address again first) ∧
            ip ∈ addressesOf config.listed (trimWildcards again))) := by
  constructor
  · exact forall_congr' fun last => imp_congr_right fun _ => reflects_lookup_iff config name last
  · intro asItStands nonempty
    unfold LaterOverrides
    simp only [reflects_lookup_iff, asItStands]
    constructor
    · intro decides word ip known
      obtain ⟨entry, governs, upholds⟩ := decides _ known
      rw [governing_of_lastAbout nonempty known] at governs
      cases entry with
      | aliasName other original named => exact upholds.elim
      | address again first => exact ⟨again, first, governs, upholds⟩
    · intro listed last known
      rw [governing_of_lastAbout nonempty known]
      cases last with
      | aliasName word original named =>
          exact ⟨_, lastAbout_introductions_of_alias known, rfl⟩
      | address word ip =>
          obtain ⟨again, first, governs, member⟩ := listed word ip known
          exact ⟨_, governs, member⟩

/-- A second address line of a host does not take its name back from an alias. -/
theorem address_line_not_overriding :
    ∃ config : HostsConfig,
      config.entries = ["10.0.0.1 d".toList, "o d".toList, "10.0.0.2 d".toList] ∧
      config.trie.lookup "d".toList = .Alias "o".toList ∧ ¬ LaterOverrides config "d".toList := by
  let lines := ["10.0.0.1 d".toList, "o d".toList, "10.0.0.2 d".toList]
  let config : HostsConfig :=
    { files := fun _ => none, entries := lines, bounded := by decide }
  have found : config.trie.lookup "d".toList = .Alias "o".toList := by decide
  refine ⟨config, rfl, found, fun overrides => ?_⟩
  have last : ∃ word, lastAbout config.listed (Text.trimMatches '.' "d".toList) =
      some (.address word (.v4 (BitVec.ofNat 32 0x0a000002))) := ⟨"d".toList, rfl⟩
  obtain ⟨word, known⟩ := last
  obtain ⟨ips, listed, _⟩ := overrides _ known
  cases found.symm.trans listed

end Rsdns.Plugins
