import Rsdns.Hosts.Entries

/-!
# What a lookup owes to the entries

The trie is written by every alias, but only by the first address of each spelling of
a host: later ones find its list and go there.  An answer is read off the entries that
wrote to the trie, and an address list off all of them.
-/

namespace Rsdns.Plugins

open Common Dns

namespace HostEntry

def domain (self : HostEntry) : Text := Text.trimMatches '.' self.name

@[simp]
theorem domain_address (word : Text) (ip : IpAddr) :
    (HostEntry.address word ip).domain = Text.trimMatches '.' (trimWildcards word) := rfl

@[simp]
theorem domain_aliasName (word original : Text)
    (named : Text.parseUnsigned usizeBound original = none) :
    (HostEntry.aliasName word original named).domain = Text.trimMatches '.' word := rfl

def addressFor (spelling : Text) : HostEntry → Option IpAddr
  | .address word ip => if trimWildcards word = spelling then some ip else none
  | .aliasName .. => none

/-- Both are addresses of one spelling. -/
def Extends (earlier later : HostEntry) : Prop :=
  match earlier, later with
  | .address word _, .address again _ => trimWildcards word = trimWildcards again
  | _, _ => False

instance (earlier later : HostEntry) : Decidable (earlier.Extends later) :=
  match earlier, later with
  | .address word _, .address again _ =>
      inferInstanceAs (Decidable (trimWildcards word = trimWildcards again))
  | .address .., .aliasName .. => inferInstanceAs (Decidable False)
  | .aliasName .., _ => inferInstanceAs (Decidable False)

def target : HostEntry → HostTarget
  | .address word _ => .host (trimWildcards word)
  | .aliasName _ original _ => .original original

theorem Extends.domain_eq {earlier later : HostEntry} (again : earlier.Extends later) :
    earlier.domain = later.domain := by
  cases earlier with
  | aliasName word original named => exact again.elim
  | address word ip =>
      cases later with
      | aliasName word original named => exact again.elim
      | address other ip => exact congrArg (Text.trimMatches '.') again

end HostEntry

def addressesOf (entries : List HostEntry) (spelling : Text) : List IpAddr :=
  entries.filterMap (HostEntry.addressFor spelling)

/-- The entries that write to the trie. -/
def introductions : List HostEntry → List HostEntry
  | [] => []
  | entry :: entries =>
      entry :: (introductions entries).filter fun later => ¬ entry.Extends later

def lastAbout (entries : List HostEntry) (domain : Text) : Option HostEntry :=
  entries.reverse.find? fun entry => entry.domain = domain

/-- The last introduction of the longest domain that covers a text. -/
def governing (entries : List HostEntry) (text : Text) : Option HostEntry :=
  LabelKey.scan '.'
    (fun key => lastAbout (introductions entries) (LabelKey.reverseLabels '.' key))
    (LabelKey.reverseLabels '.' text)

/-- What a lookup says when this entry governs. -/
def lookupBy (entries : List HostEntry) : HostEntry → Lookup
  | .address word _ => .Ips (addressesOf entries (trimWildcards word))
  | .aliasName _ original _ => .Alias original

/-! ### Entering one more -/

theorem addressesOf_concat (entries : List HostEntry) (last : HostEntry) (spelling : Text) :
    addressesOf (entries ++ [last]) spelling =
      addressesOf entries spelling ++ (last.addressFor spelling).toList := by
  rw [addressesOf, List.filterMap_append, List.filterMap_cons]
  cases last.addressFor spelling with
  | none => rfl
  | some ip => rfl

theorem lastAbout_concat (entries : List HostEntry) (last : HostEntry) (domain : Text) :
    lastAbout (entries ++ [last]) domain =
      if last.domain = domain then some last else lastAbout entries domain := by
  simp only [lastAbout, List.reverse_append, List.reverse_singleton, List.singleton_append,
    List.find?_cons]
  split <;> simp_all

theorem introductions_concat (entries : List HostEntry) (last : HostEntry) :
    introductions (entries ++ [last]) =
      introductions entries ++
        if ∃ earlier ∈ entries, earlier.Extends last then [] else [last] := by
  induction entries with
  | nil => simp [introductions]
  | cons entry entries inductionHypothesis =>
      simp only [List.cons_append, introductions, inductionHypothesis, List.filter_append,
        List.mem_cons, exists_eq_or_imp]
      by_cases first : entry.Extends last
      · by_cases later : ∃ earlier ∈ entries, earlier.Extends last <;> simp [first, later]
      · by_cases later : ∃ earlier ∈ entries, earlier.Extends last <;> simp [first, later]

theorem introductions_sublist (entries : List HostEntry) :
    (introductions entries).Sublist entries := by
  induction entries with
  | nil => exact .slnil
  | cons entry entries inductionHypothesis =>
      exact (List.filter_sublist.trans inductionHypothesis).cons_cons entry

theorem of_lastAbout {entries : List HostEntry} {domain : Text} {last : HostEntry}
    (found : lastAbout entries domain = some last) : last ∈ entries ∧ last.domain = domain := by
  refine ⟨List.mem_reverse.mp (List.mem_of_find?_eq_some found), ?_⟩
  simpa using List.find?_some found

theorem lastAbout_eq_none_iff {entries : List HostEntry} {domain : Text} :
    lastAbout entries domain = none ↔ ∀ entry ∈ entries, entry.domain ≠ domain := by
  simp [lastAbout]

theorem mem_addressesOf {entries : List HostEntry} {spelling : Text} {ip : IpAddr} :
    ip ∈ addressesOf entries spelling ↔
      ∃ word, HostEntry.address word ip ∈ entries ∧ trimWildcards word = spelling := by
  rw [addressesOf, List.mem_filterMap]
  constructor
  · rintro ⟨entry, member, given⟩
    cases entry with
    | aliasName word original named => cases given
    | address word other =>
        simp only [HostEntry.addressFor, Option.ite_none_right_eq_some, Option.some.injEq] at given
        obtain ⟨same, rfl⟩ := given
        exact ⟨word, member, same⟩
  · rintro ⟨word, member, rfl⟩
    exact ⟨_, member, if_pos rfl⟩

theorem addressesOf_eq_nil_iff {entries : List HostEntry} {word : Text} (ip : IpAddr) :
    addressesOf entries (trimWildcards word) = [] ↔
      ¬ ∃ earlier ∈ entries, earlier.Extends (.address word ip) := by
  rw [List.eq_nil_iff_forall_not_mem]
  constructor
  · rintro empty ⟨earlier, member, again⟩
    cases earlier with
    | aliasName other original named => exact again
    | address other first => exact empty first (mem_addressesOf.mpr ⟨other, member, again⟩)
  · rintro fresh first listed
    obtain ⟨other, member, same⟩ := mem_addressesOf.mp listed
    exact fresh ⟨_, member, same⟩

/-! ### The table of the entries -/

/-- The table leads a domain where its last introduction does, and a host to all the
addresses of its spelling. -/
structure Recounts (entries : List HostEntry) (hosts : HostMap) : Prop where
  target : ∀ domain, hosts.target domain =
    (lastAbout (introductions entries) domain).map HostEntry.target
  addresses : ∀ spelling, hosts.addresses spelling =
    if addressesOf entries spelling = [] then none else some (addressesOf entries spelling)

theorem recounts_new : Recounts [] .new where
  target _ := rfl
  addresses _ := rfl

theorem Recounts.enter {entries : List HostEntry} {hosts : HostMap}
    (recounts : Recounts entries hosts) (last : HostEntry) :
    Recounts (entries ++ [last]) (hosts.enter last) := by
  cases last with
  | aliasName word original named =>
      have introduces :
          ¬ ∃ earlier ∈ entries, earlier.Extends (.aliasName word original named) := by
        rintro ⟨earlier, _, again⟩
        cases earlier <;> exact again
      constructor
      · intro domain
        rw [HostMap.target_enter_alias, introductions_concat, if_neg introduces,
          lastAbout_concat, recounts.target, HostEntry.domain_aliasName]
        by_cases own : domain = Text.trimMatches '.' word
        · rw [if_pos own, if_pos own.symm]
          rfl
        · rw [if_neg own, if_neg (fun same => own same.symm)]
      · intro spelling
        rw [addressesOf_concat, HostEntry.addressFor, Option.toList_none, List.append_nil]
        exact recounts.addresses spelling
  | address word ip =>
      have listed := recounts.addresses (trimWildcards word)
      constructor
      · intro domain
        rw [HostMap.target_enter_address, introductions_concat, recounts.target, listed]
        by_cases fresh : addressesOf entries (trimWildcards word) = []
        · rw [if_neg ((addressesOf_eq_nil_iff ip).mp fresh), lastAbout_concat, if_pos fresh,
            HostEntry.domain_address]
          by_cases own : domain = Text.trimMatches '.' (trimWildcards word)
          · rw [if_pos ⟨own, rfl⟩, if_pos own.symm]
            rfl
          · rw [if_neg (fun both => own both.1), if_neg (fun same => own same.symm)]
        · have again := not_not.mp (mt (addressesOf_eq_nil_iff ip).mpr fresh)
          rw [if_pos again, List.append_nil, if_neg fresh, if_neg (fun both => by cases both.2)]
      · intro spelling
        rw [HostMap.addresses_enter_address, addressesOf_concat, HostEntry.addressFor,
          recounts.addresses]
        by_cases own : spelling = trimWildcards word
        · subst own
          by_cases empty : addressesOf entries (trimWildcards word) = [] <;> simp [empty]
        · have other : ¬ trimWildcards word = spelling := fun same => own same.symm
          rw [if_neg own, if_neg other, Option.toList_none, List.append_nil]

theorem recounts_foldl_enter (entries : List HostEntry) :
    Recounts entries (entries.foldl HostMap.enter .new) := by
  induction entries using List.reverseRecOn with
  | nil => exact recounts_new
  | append_singleton entries last inductionHypothesis =>
      rw [List.foldl_append]
      exact inductionHypothesis.enter last

/-- A lookup says what the governing entry says. -/
theorem Recounts.lookup {entries : List HostEntry} {hosts : HostMap}
    (recounts : Recounts entries hosts) (query : Text) :
    hosts.lookup query =
      ((governing entries (DomainSuffixTrie.searched query)).map
        (lookupBy entries)).getD .Miss := by
  unfold HostMap.lookup governing
  rw [LabelKey.scan_map]
  refine congrArg (fun found : Option Lookup => found.getD .Miss) (LabelKey.scan_congr ?_)
  intro key _
  rw [recounts.target]
  cases found : lastAbout (introductions entries) (LabelKey.reverseLabels '.' key) with
  | none => rfl
  | some entry =>
      cases entry with
      | aliasName word original named => rfl
      | address word ip =>
          have member := (introductions_sublist entries).mem (of_lastAbout found).1
          have listed : addressesOf entries (trimWildcards word) ≠ [] :=
            List.ne_nil_of_mem (mem_addressesOf.mpr ⟨word, member, rfl⟩)
          simp [HostEntry.target, HostMap.answer, lookupBy, recounts.addresses, listed]

theorem lookup_hostsBuilder {lines : List (List Text)}
    (bounded : (hostsBuilder lines).ips.length ≤ usizeBound) (query : Text) :
    (hostsBuilder lines).build.lookup query =
      ((governing (lines.flatMap lineEntries) (DomainSuffixTrie.searched query)).map
        (lookupBy (lines.flatMap lineEntries))).getD .Miss := by
  rw [hostsBuilder, lookup_build (represents_foldl_enter represents_new _) bounded]
  exact (recounts_foldl_enter _).lookup query

namespace HostsConfig

/-- The entries of all lines, in order. -/
def listed (self : HostsConfig) : List HostEntry := self.words.flatMap lineEntries

theorem lookup_eq (self : HostsConfig) (query : Text) :
    self.trie.lookup query =
      ((governing self.listed (DomainSuffixTrie.searched query)).map
        (lookupBy self.listed)).getD .Miss := by
  rw [self.lookup_trie]
  exact (recounts_foldl_enter self.listed).lookup query

end HostsConfig

/-! ### Which entry governs -/

theorem governing_eq_some_iff {entries : List HostEntry} {text : Text} {entry : HostEntry} :
    governing entries text = some entry ↔
      ∃ domain, domain ≠ [] ∧ LabelKey.Covers '.' domain text ∧
        lastAbout (introductions entries) domain = some entry ∧
        ∀ longer, LabelKey.Covers '.' longer text → domain.length < longer.length →
          lastAbout (introductions entries) longer = none := by
  rw [governing, LabelKey.scan_reverseLabels_eq_some_iff]
  simp only [LabelKey.reverseLabels_reverseLabels]

theorem governing_eq_none_iff {entries : List HostEntry} {text : Text} :
    governing entries text = none ↔
      ∀ domain, domain ≠ [] → LabelKey.Covers '.' domain text →
        lastAbout (introductions entries) domain = none := by
  rw [governing, LabelKey.scan_reverseLabels_eq_none_iff]
  simp only [LabelKey.reverseLabels_reverseLabels]

theorem lastAbout_introductions_eq_none_iff {entries : List HostEntry} {domain : Text} :
    lastAbout (introductions entries) domain = none ↔ lastAbout entries domain = none := by
  induction entries using List.reverseRecOn with
  | nil => rfl
  | append_singleton entries last inductionHypothesis =>
      rw [introductions_concat, lastAbout_concat]
      split
      · next again =>
          obtain ⟨earlier, member, sameSpelling⟩ := again
          rw [List.append_nil, inductionHypothesis]
          split
          · next own =>
              have known : lastAbout entries domain ≠ none := fun absent =>
                lastAbout_eq_none_iff.mp absent earlier member (sameSpelling.domain_eq.trans own)
              simp [known]
          · rfl
      · rw [lastAbout_concat]
        split
        · simp
        · exact inductionHypothesis

/-- The longest domain with an entry that a text is or that follows a dot at its end. -/
structure LongestNamed (entries : List HostEntry) (text domain : Text) : Prop where
  covers : LabelKey.Covers '.' domain text
  named : ∃ entry ∈ entries, entry.domain = domain
  longest : ∀ entry ∈ entries, LabelKey.Covers '.' entry.domain text →
    entry.domain.length ≤ domain.length

theorem longestNamed_self {entries : List HostEntry} {domain : Text}
    (named : ∃ entry ∈ entries, entry.domain = domain) : LongestNamed entries domain domain where
  covers := .inl rfl
  named := named
  longest _ _ covers := covers.length_le

theorem exists_lastAbout {entries : List HostEntry} {domain : Text}
    (named : ∃ entry ∈ entries, entry.domain = domain) :
    ∃ entry, lastAbout (introductions entries) domain = some entry := by
  obtain ⟨entry, member, about⟩ := named
  rw [← Option.ne_none_iff_exists', ne_eq, lastAbout_introductions_eq_none_iff,
    lastAbout_eq_none_iff]
  exact fun absent => absent entry member about

theorem LongestNamed.governing_eq {entries : List HostEntry} {text domain : Text}
    (longest : LongestNamed entries text domain) (nonempty : domain ≠ []) :
    governing entries text = lastAbout (introductions entries) domain := by
  obtain ⟨entry, found⟩ := exists_lastAbout longest.named
  rw [found, governing_eq_some_iff]
  refine ⟨domain, nonempty, longest.covers, found, fun longer covers above => ?_⟩
  rw [lastAbout_introductions_eq_none_iff, lastAbout_eq_none_iff]
  rintro other member rfl
  exact absurd (longest.longest other member covers) (Nat.not_le_of_lt above)

theorem governing_eq_none_of_uncovered {entries : List HostEntry} {text : Text}
    (uncovered : ∀ entry ∈ entries, entry.domain ≠ [] →
      ¬ LabelKey.Covers '.' entry.domain text) : governing entries text = none := by
  rw [governing_eq_none_iff]
  intro domain nonempty covers
  rw [lastAbout_introductions_eq_none_iff, lastAbout_eq_none_iff]
  rintro entry member rfl
  exact uncovered entry member nonempty covers

end Rsdns.Plugins
