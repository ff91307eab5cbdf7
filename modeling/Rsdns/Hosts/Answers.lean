import Rsdns.Hosts.History

/-!
# Where the answers of the hosts trie come from

Every address and every alias stands on a line about a domain that covers the query.
Addresses are kept under the spelling of a host and domains without dots at their ends,
so of two spellings of one domain only the last to come is answered.
-/

namespace Rsdns.Plugins

open Common Dns

/-- The address an entry has for a domain, in any spelling. -/
def HostEntry.addressAbout (domain : Text) : HostEntry → Option IpAddr
  | .address word ip => if Text.trimMatches '.' (trimWildcards word) = domain then some ip else none
  | .aliasName .. => none

def addressesAbout (entries : List HostEntry) (domain : Text) : List IpAddr :=
  entries.filterMap (HostEntry.addressAbout domain)

/-- A lookup answers with all the addresses of the longest domain of the lines that
covers the query, and misses if there is none. -/
def KeepsAddresses (config : HostsConfig) (query : Text) : Prop :=
  (∀ domain, LongestNamed config.listed (Text.trimMatches '.' query) domain →
    config.trie.lookup query = .Ips (addressesAbout config.listed domain)) ∧
  ((∀ entry ∈ config.listed,
      ¬ LabelKey.Covers '.' entry.domain (Text.trimMatches '.' query)) →
    config.trie.lookup query = .Miss)

/-! ### Lists with a weaker filter -/

theorem filterMap_sublist_of_le {α β : Type} {strict loose : α → Option β}
    (le : ∀ item value, strict item = some value → loose item = some value) (items : List α) :
    (items.filterMap strict).Sublist (items.filterMap loose) := by
  induction items with
  | nil => exact .slnil
  | cons item items inductionHypothesis =>
      rw [List.filterMap_cons, List.filterMap_cons]
      cases kept : strict item with
      | some value =>
          rw [le item value kept]
          exact inductionHypothesis.cons_cons value
      | none =>
          cases loose item with
          | none => exact inductionHypothesis
          | some value => exact inductionHypothesis.cons value

/-- A weaker filter keeps no more only if the filters agree on every item. -/
theorem filterMap_eq_iff_of_le {α β : Type} {strict loose : α → Option β}
    (le : ∀ item value, strict item = some value → loose item = some value) (items : List α) :
    items.filterMap strict = items.filterMap loose ↔ ∀ item ∈ items, strict item = loose item := by
  refine ⟨fun same => ?_, List.filterMap_congr⟩
  induction items with
  | nil => simp
  | cons item items inductionHypothesis =>
      rw [List.filterMap_cons, List.filterMap_cons] at same
      have shorter := (filterMap_sublist_of_le le items).length_le
      cases kept : strict item with
      | some value =>
          have also := le item value kept
          simp only [kept, also, List.cons.injEq, true_and] at same
          exact List.forall_mem_cons.mpr ⟨kept.trans also.symm, inductionHypothesis same⟩
      | none =>
          cases also : loose item with
          | none =>
              simp only [kept, also] at same
              exact List.forall_mem_cons.mpr ⟨kept.trans also.symm, inductionHypothesis same⟩
          | some value =>
              simp only [kept, also] at same
              rw [same, List.length_cons] at shorter
              exact absurd shorter (Nat.not_succ_le_self _)

/-! ### All addresses of a domain -/

theorem addressesOf_eq_addressesAbout_iff {entries : List HostEntry}
    (addresses : ∀ entry ∈ entries, ∃ word ip, entry = .address word ip) {spelling domain : Text}
    (spelled : Text.trimMatches '.' spelling = domain) :
    addressesOf entries spelling = addressesAbout entries domain ↔
      ∀ entry ∈ entries, entry.domain = domain → entry.name = spelling := by
  have le : ∀ entry ip, HostEntry.addressFor spelling entry = some ip →
      HostEntry.addressAbout domain entry = some ip := by
    intro entry ip given
    cases entry with
    | aliasName word original named => cases given
    | address word other =>
        simp only [HostEntry.addressFor, Option.ite_none_right_eq_some, Option.some.injEq] at given
        obtain ⟨rfl, rfl⟩ := given
        exact if_pos spelled
  rw [addressesOf, addressesAbout, filterMap_eq_iff_of_le le]
  refine forall₂_congr fun entry member => ?_
  obtain ⟨word, ip, rfl⟩ := addresses entry member
  simp only [HostEntry.addressFor, HostEntry.addressAbout, HostEntry.domain_address,
    HostEntry.name]
  by_cases own : trimWildcards word = spelling
  · simp [own, spelled]
  · by_cases about : Text.trimMatches '.' (trimWildcards word) = domain <;> simp [own, about]

theorem lookup_eq_ips_iff (config : HostsConfig) (query : Text) (ips : List IpAddr) :
    config.trie.lookup query = .Ips ips ↔
      ∃ word ip, governing config.listed (DomainSuffixTrie.searched query) =
          some (.address word ip) ∧
        addressesOf config.listed (trimWildcards word) = ips := by
  rw [config.lookup_eq]
  cases governing config.listed (DomainSuffixTrie.searched query) with
  | none => simp
  | some entry => cases entry <;> simp [lookupBy]

theorem lookup_eq_miss_iff (config : HostsConfig) (query : Text) :
    config.trie.lookup query = .Miss ↔
      governing config.listed (DomainSuffixTrie.searched query) = none := by
  rw [config.lookup_eq]
  cases governing config.listed (DomainSuffixTrie.searched query) with
  | none => simp
  | some entry => cases entry <;> simp [lookupBy]

theorem keepsAddresses_iff_governing (config : HostsConfig) (query : Text) :
    KeepsAddresses config query ↔
      (∀ domain, LongestNamed config.listed (Text.trimMatches '.' query) domain →
        ∃ word ip, governing config.listed (DomainSuffixTrie.searched query) =
            some (.address word ip) ∧
          addressesOf config.listed (trimWildcards word) = addressesAbout config.listed domain) ∧
      ((∀ entry ∈ config.listed,
          ¬ LabelKey.Covers '.' entry.domain (Text.trimMatches '.' query)) →
        governing config.listed (DomainSuffixTrie.searched query) = none) := by
  simp only [KeepsAddresses, lookup_eq_ips_iff, lookup_eq_miss_iff]

theorem governing_eq_none_of_longestNamed_nil {entries : List HostEntry} {text : Text}
    (longest : LongestNamed entries text []) : governing entries text = none := by
  apply governing_eq_none_of_uncovered
  intro entry member nonempty covers
  exact nonempty (List.length_eq_zero_iff.mp (Nat.le_zero.mp (longest.longest entry member covers)))

/-- Among address lines a lookup keeps all addresses exactly if the entry that governs the
query has them all in its spelling.  For a query that is searched for as it stands, that
is exactly if its longest domain is not empty and all lines spell it alike. -/
theorem keeps_addresses_iff (config : HostsConfig)
    (addresses : ∀ entry ∈ config.listed, ∃ word ip, entry = .address word ip) (query : Text) :
    (KeepsAddresses config query ↔
      (∀ domain, LongestNamed config.listed (Text.trimMatches '.' query) domain →
        ∃ word ip, governing config.listed (DomainSuffixTrie.searched query) =
            some (.address word ip) ∧
          addressesOf config.listed (trimWildcards word) = addressesAbout config.listed domain) ∧
      ((∀ entry ∈ config.listed,
          ¬ LabelKey.Covers '.' entry.domain (Text.trimMatches '.' query)) →
        governing config.listed (DomainSuffixTrie.searched query) = none)) ∧
    (DomainSuffixTrie.searched query = Text.trimMatches '.' query →
      (KeepsAddresses config query ↔
        ∀ domain, LongestNamed config.listed (Text.trimMatches '.' query) domain →
          domain ≠ [] ∧ ∀ entry ∈ config.listed, ∀ other ∈ config.listed,
            entry.domain = domain → other.domain = domain → entry.name = other.name)) := by
  refine ⟨keepsAddresses_iff_governing config query, fun asItStands => ?_⟩
  rw [keepsAddresses_iff_governing, asItStands]
  constructor
  · rintro ⟨kept, _⟩ domain longest
    obtain ⟨word, ip, governs, all⟩ := kept domain longest
    have nonempty : domain ≠ [] := by
      rintro rfl
      rw [governing_eq_none_of_longestNamed_nil longest] at governs
      cases governs
    rw [longest.governing_eq nonempty] at governs
    have spelled : Text.trimMatches '.' (trimWildcards word) = domain := (of_lastAbout governs).2
    have alike := (addressesOf_eq_addressesAbout_iff addresses spelled).mp all
    refine ⟨nonempty, fun entry member other otherMember about otherAbout => ?_⟩
    exact (alike entry member about).trans (alike other otherMember otherAbout).symm
  · intro alike
    constructor
    · intro domain longest
      obtain ⟨nonempty, same⟩ := alike domain longest
      obtain ⟨entry, found⟩ := exists_lastAbout longest.named
      have introduced := of_lastAbout found
      have member := (introductions_sublist config.listed).mem introduced.1
      obtain ⟨word, ip, rfl⟩ := addresses entry member
      refine ⟨word, ip, (longest.governing_eq nonempty).trans found, ?_⟩
      refine (addressesOf_eq_addressesAbout_iff addresses introduced.2).mpr ?_
      exact fun other otherMember about => same other otherMember _ member about introduced.2
    · intro uncovered
      exact governing_eq_none_of_uncovered fun entry member _ => uncovered entry member

/-- Two lines of one domain in one spelling, and a query below it. -/
theorem keeps_addresses_of_wildcard :
    ∃ config : HostsConfig,
      (∀ entry ∈ config.listed, ∃ word ip, entry = .address word ip) ∧
      KeepsAddresses config "a.d".toList := by
  let lines := ["10.0.0.1 d".toList, "10.0.0.2 *.d".toList]
  let config : HostsConfig :=
    { files := fun _ => none, entries := lines, bounded := by decide }
  have listed : config.listed =
      [.address "d".toList (.v4 (BitVec.ofNat 32 0x0a000001)),
        .address "*.d".toList (.v4 (BitVec.ofNat 32 0x0a000002))] := rfl
  have addresses : ∀ entry ∈ config.listed, ∃ word ip, entry = .address word ip := by
    rw [listed]
    simp
  have asItStands : DomainSuffixTrie.searched "a.d".toList =
      Text.trimMatches '.' "a.d".toList := by decide
  refine ⟨config, addresses,
    ((keeps_addresses_iff config addresses "a.d".toList).2 asItStands).mpr ?_⟩
  intro domain longest
  obtain ⟨entry, member, about⟩ := longest.named
  rw [listed] at member ⊢
  have names : ∀ entry ∈ [HostEntry.address "d".toList (.v4 (BitVec.ofNat 32 0x0a000001)),
      .address "*.d".toList (.v4 (BitVec.ofNat 32 0x0a000002))],
      entry.name = "d".toList ∧ entry.domain = "d".toList := by
    intro entry member
    rcases List.mem_pair.mp member with rfl | rfl <;> decide
  refine ⟨?_, fun first firstMember second secondMember _ _ => ?_⟩
  · rw [← about, (names entry member).2]
    decide
  · rw [(names first firstMember).1, (names second secondMember).1]

/-- The address of one spelling is lost behind that of the other. -/
theorem dotted_spelling_loses_address :
    ∃ config : HostsConfig,
      config.entries = ["10.0.0.1 d".toList, "10.0.0.2 d.".toList] ∧
      (∀ entry ∈ config.listed, ∃ word ip, entry = .address word ip) ∧
      config.trie.lookup "d".toList = .Ips [.v4 (BitVec.ofNat 32 0x0a000002)] ∧
      ¬ KeepsAddresses config "d".toList := by
  let lines := ["10.0.0.1 d".toList, "10.0.0.2 d.".toList]
  let config : HostsConfig :=
    { files := fun _ => none, entries := lines, bounded := by decide }
  have listed : config.listed =
      [.address "d".toList (.v4 (BitVec.ofNat 32 0x0a000001)),
        .address "d.".toList (.v4 (BitVec.ofNat 32 0x0a000002))] := rfl
  have found : config.trie.lookup "d".toList = .Ips [.v4 (BitVec.ofNat 32 0x0a000002)] := by
    decide
  have trimmed : Text.trimMatches '.' "d".toList = "d".toList := by decide
  refine ⟨config, rfl, ?_, found, fun keeps => ?_⟩
  · rw [listed]
    simp
  · have named : ∃ entry ∈ config.listed, entry.domain = "d".toList := by
      rw [listed]
      exact ⟨_, List.mem_cons_self, by decide⟩
    rw [KeepsAddresses, trimmed] at keeps
    have kept := keeps.1 _ (longestNamed_self named)
    have all : addressesAbout config.listed "d".toList =
        [.v4 (BitVec.ofNat 32 0x0a000001), .v4 (BitVec.ofNat 32 0x0a000002)] := by
      rw [listed]
      rfl
    rw [found, all] at kept
    cases kept

/-! ### What stands behind an answer -/

/-- The addresses stand on lines about domains that cover the text; the original is the
first word of a line that lists such a domain. -/
def StandsOnLines (config : HostsConfig) (text : Text) : Lookup → Prop
  | .Ips ips =>
      ips ≠ [] ∧ ∀ ip ∈ ips, ∃ first words, (first :: words) ∈ config.words ∧
        IpAddr.parse first = some ip ∧
        ∃ word ∈ words, LabelKey.Covers '.' (Text.trimMatches '.' (trimWildcards word)) text
  | .Alias original =>
      ∃ words, (original :: words) ∈ config.words ∧ IpAddr.parse original = none ∧
        Text.parseUnsigned usizeBound original = none ∧
        ∃ word ∈ words, word ≠ original ∧ LabelKey.Covers '.' (Text.trimMatches '.' word) text
  | .Miss => True

theorem line_of_address {config : HostsConfig} {word : Text} {ip : IpAddr}
    (member : HostEntry.address word ip ∈ config.listed) :
    ∃ first words, (first :: words) ∈ config.words ∧ IpAddr.parse first = some ip ∧
      word ∈ words := by
  obtain ⟨line, lineMember, inside⟩ := List.mem_flatMap.mp member
  cases line with
  | nil => cases inside
  | cons first words =>
      obtain ⟨other, otherMember, made⟩ := List.mem_filterMap.mp inside
      unfold wordEntry at made
      split at made
      · next parsed =>
          cases made
          exact ⟨first, words, lineMember, parsed, otherMember⟩
      · split at made
        · split at made <;> cases made
        · cases made

theorem line_of_aliasName {config : HostsConfig} {word original : Text}
    {named : Text.parseUnsigned usizeBound original = none}
    (member : HostEntry.aliasName word original named ∈ config.listed) :
    ∃ words, (original :: words) ∈ config.words ∧ IpAddr.parse original = none ∧
      word ∈ words ∧ word ≠ original := by
  obtain ⟨line, lineMember, inside⟩ := List.mem_flatMap.mp member
  cases line with
  | nil => cases inside
  | cons first words =>
      obtain ⟨other, otherMember, made⟩ := List.mem_filterMap.mp inside
      unfold wordEntry at made
      split at made
      · cases made
      · next unparsed =>
          split at made
          · split at made
            · cases made
            · next different =>
                cases made
                exact ⟨words, lineMember, unparsed, otherMember, different⟩
          · cases made

theorem standsOnLines_lookup (config : HostsConfig) (query : Text) :
    StandsOnLines config (DomainSuffixTrie.searched query) (config.trie.lookup query) := by
  rw [config.lookup_eq]
  cases governs : governing config.listed (DomainSuffixTrie.searched query) with
  | none => trivial
  | some entry =>
      obtain ⟨domain, _, covers, last, _⟩ := governing_eq_some_iff.mp governs
      obtain ⟨introduced, rfl⟩ := of_lastAbout last
      have member := (introductions_sublist config.listed).mem introduced
      cases entry with
      | address word ip =>
          constructor
          · exact List.ne_nil_of_mem (mem_addressesOf.mpr ⟨word, member, rfl⟩)
          · intro other given
            obtain ⟨otherWord, otherMember, same⟩ := mem_addressesOf.mp given
            obtain ⟨first, words, line, parsed, inside⟩ := line_of_address otherMember
            refine ⟨first, words, line, parsed, otherWord, inside, ?_⟩
            rw [same]
            exact covers
      | aliasName word original named =>
          obtain ⟨words, line, unparsed, inside, different⟩ := line_of_aliasName member
          exact ⟨words, line, unparsed, named, word, inside, different, covers⟩

theorem listed_of_lookup {builder : HostsTrieBuilder} {hosts : HostMap}
    (represents : Represents builder hosts) (bounded : builder.ips.length ≤ usizeBound)
    {query tag : Text} {idx : Nat} (found : builder.build.trie.lookup query = some tag)
    (number : Text.parseUnsigned usizeBound tag = some idx) : idx < builder.ips.length := by
  obtain ⟨domain, _, _, stored, _⟩ := DomainSuffixTrie.lookup_eq_some_iff.mp found
  have tagged := represents.tagged domain
  have known : builder.builder.tagAt (LabelKey.reverseLabels '.' domain) = some tag := stored
  rw [known] at tagged
  generalize hosts.target domain = target at tagged
  cases tagged with
  | some tagFor =>
      cases tagFor with
      | @host owner listIdx numbered =>
          have small := builder.listed owner listIdx numbered
          rw [Text.parseUnsigned_ofNat (Nat.lt_of_lt_of_le small bounded),
            Option.some.injEq] at number
          exact number ▸ small
      | original named => cases named.symm.trans number

/-- A lookup finds a list for every number, and answers what stands on lines about the
text it searches for. -/
theorem hosts_tags_sound (config : HostsConfig) (query : Text) :
    (∀ tag idx, config.trie.trie.lookup query = some tag →
      Text.parseUnsigned usizeBound tag = some idx → idx < config.trie.ips.length) ∧
    StandsOnLines config (DomainSuffixTrie.searched query) (config.trie.lookup query) := by
  refine ⟨fun tag idx found number => ?_, standsOnLines_lookup config query⟩
  have built := buildHostsTrie_eq config.files config.entries
  have bounded := config.bounded
  rw [built] at bounded
  unfold HostsConfig.trie at found ⊢
  rw [built] at found ⊢
  exact listed_of_lookup (represents_foldl_enter represents_new _) bounded found number

/-- A query of more than 256 bytes is searched for in lower case. -/
theorem long_query_lowered :
    ∃ (config : HostsConfig) (query : Text), config.entries = ["10.0.0.1 a".toList] ∧
      query = List.replicate 64 (Char.ofNat 0x10348) ++ ".A".toList ∧
      ¬ StandsOnLines config (Text.trimMatches '.' query) (config.trie.lookup query) := by
  let config : HostsConfig :=
    { files := fun _ => none, entries := ["10.0.0.1 a".toList], bounded := by decide }
  let query := List.replicate 64 (Char.ofNat 0x10348) ++ ".A".toList
  have found : config.trie.lookup query = .Ips [.v4 (BitVec.ofNat 32 0x0a000001)] := by decide
  have words : config.words = [["10.0.0.1".toList, "a".toList]] := by decide
  have trimmed : Text.trimMatches '.' query = query := by decide
  refine ⟨config, query, rfl, rfl, ?_⟩
  rw [found, trimmed]
  rintro ⟨_, stands⟩
  obtain ⟨first, rest, line, _, word, inside, covers⟩ := stands _ List.mem_cons_self
  rw [words] at line
  cases List.mem_singleton.mp line
  cases List.mem_singleton.mp inside
  have ending := covers.isSuffix
  revert ending
  decide

end Rsdns.Plugins
