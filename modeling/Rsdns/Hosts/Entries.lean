import Mathlib.Data.Bool.AllAny
import Rsdns.Plugins.Hosts

/-!
# The entries of the hosts trie

The lines are lists of words, and each word behind the first makes an entry.  The
builder numbers its address lists and tags a host with a number; a `HostMap` has no
numbers: a name leads to a host or to an original, and a host has its addresses.
-/

namespace Rsdns.Plugins

open Common Dns

/-- An address of a host, or an alias whose original does not read as a number. -/
inductive HostEntry where
  | address (word : Text) (ip : IpAddr)
  | aliasName (word original : Text) (named : Text.parseUnsigned usizeBound original = none)

def HostEntry.name : HostEntry → Text
  | .address word _ => trimWildcards word
  | .aliasName word _ _ => word

def HostsTrieBuilder.enter (self : HostsTrieBuilder) : HostEntry → HostsTrieBuilder
  | .address word ip => self.insert word ip
  | .aliasName word original _ => self.insertAlias word original

def lineWords (line : Text) : List Text := (lineContent line).splitWhitespace

/-- The entry a word makes on a line with this first word. -/
def wordEntry (first word : Text) : Option HostEntry :=
  match IpAddr.parse first with
  | some ip => some (.address word ip)
  | none =>
      if named : Text.parseUnsigned usizeBound first = none then
        if word = first then none else some (.aliasName word first named)
      else none

def lineEntries : List Text → List HostEntry
  | first :: rest => rest.filterMap (wordEntry first)
  | [] => []

def hostsLines (files : Files) (entries : List Text) : List Text :=
  entries.flatMap fun entry =>
    match filePath entry with
    | some path => ((files path).map Text.lines).getD []
    | none => [entry]

def hostsWords (files : Files) (entries : List Text) : List (List Text) :=
  (hostsLines files entries).map lineWords

/-! ### Words -/

/-- What can stand on a line as a word. -/
structure IsHostsWord (word : Text) : Prop where
  nonempty : word ≠ []
  chars : ∀ char ∈ word, Text.isWhitespace char = false ∧ char ≠ '#'

instance (word : Text) : Decidable (IsHostsWord word) :=
  decidable_of_iff
    (word ≠ [] ∧
      word.all (fun char => decide (Text.isWhitespace char = false ∧ char ≠ '#')) = true)
    ⟨fun ⟨nonempty, chars⟩ => ⟨nonempty, List.all_iff_forall_prop.mp chars⟩,
      fun isWord => ⟨isWord.nonempty, List.all_iff_forall_prop.mpr isWord.chars⟩⟩

theorem not_mem_lineContent (line : Text) : '#' ∉ lineContent line := by
  intro member
  unfold lineContent at member
  split at member
  · next content rest cut =>
      exact (Text.splitOnce_eq_some_iff.mp cut).1 (Text.trim_subset _ member)
  · next uncut =>
      exact Text.splitOnce_eq_none_iff.mp uncut (Text.trim_subset _ member)

theorem lineContent_head?_ne (line : Text) : (lineContent line).head? ≠ some '#' :=
  fun head => not_mem_lineContent line (List.mem_of_mem_head? head)

theorem isHostsWord_of_mem {line word : Text} (member : word ∈ lineWords line) :
    IsHostsWord word := by
  obtain ⟨piece, nonempty⟩ := List.mem_filter.mp member
  refine ⟨by simpa using nonempty, fun char inside => ?_⟩
  have found := LabelKey.of_mem_splitOnP piece char inside
  refine ⟨found.2, ?_⟩
  rintro rfl
  exact not_mem_lineContent line found.1

theorem splitWhitespace_word {word : Text} (isWord : IsHostsWord word) :
    word.splitOnP Text.isWhitespace = [word] :=
  List.splitOnP_eq_singleton fun char member => (isWord.chars char member).1

theorem trim_words {first second : Text} (firstWord : IsHostsWord first)
    (secondWord : IsHostsWord second) :
    Text.trim (first ++ ' ' :: second) = first ++ ' ' :: second := by
  apply Text.trim_eq_self
  · intro char isFirst
    rw [List.head?_append_of_ne_nil _ firstWord.nonempty] at isFirst
    exact (firstWord.chars char (List.mem_of_mem_head? isFirst)).1
  · intro char isLast
    rw [List.getLast?_append_of_ne_nil _ (List.cons_ne_nil _ _),
      List.getLast?_cons_of_ne_nil secondWord.nonempty] at isLast
    exact (secondWord.chars char (List.mem_of_mem_getLast? isLast)).1

theorem lineWords_pair {first second : Text} (firstWord : IsHostsWord first)
    (secondWord : IsHostsWord second) : lineWords (first ++ ' ' :: second) = [first, second] := by
  have noComment : '#' ∉ first ++ ' ' :: second := by
    intro member
    rcases List.mem_append.mp member with inFirst | inRest
    · exact (firstWord.chars _ inFirst).2 rfl
    · rcases List.mem_cons.mp inRest with same | inSecond
      · exact absurd same (by decide)
      · exact (secondWord.chars _ inSecond).2 rfl
  have content : lineContent (first ++ ' ' :: second) = first ++ ' ' :: second := by
    unfold lineContent
    rw [Text.splitOnce_eq_none_iff.mpr noComment]
    exact trim_words firstWord secondWord
  have space : Text.isWhitespace ' ' = true := by decide
  unfold lineWords
  rw [content, Text.splitWhitespace, List.splitOnP_append_cons first second space,
    splitWhitespace_word firstWord, splitWhitespace_word secondWord]
  simp [firstWord.nonempty, secondWord.nonempty]

theorem hostsWords_pair {first second : Text} (firstWord : IsHostsWord first)
    (secondWord : IsHostsWord second) :
    hostsWords (fun _ => some (first ++ ' ' :: second)) ["file:".toList] = [[first, second]] := by
  have path : filePath "file:".toList = some [] := by decide
  have newline : '\n' ∉ first ++ ' ' :: second := by
    intro member
    rcases List.mem_append.mp member with inFirst | inRest
    · exact absurd (firstWord.chars _ inFirst).1 (by decide)
    · rcases List.mem_cons.mp inRest with same | inSecond
      · exact absurd same (by decide)
      · exact absurd (secondWord.chars _ inSecond).1 (by decide)
  have line : Text.lines (first ++ ' ' :: second) = [first ++ ' ' :: second] :=
    Text.lines_of_not_mem (by simp) newline
  unfold hostsWords hostsLines
  rw [List.flatMap_singleton, path]
  simp [line, lineWords_pair firstWord secondWord]

/-! ### The builder enters the entries of all lines -/

theorem foldl_enter_address (builder : HostsTrieBuilder) (ip : IpAddr) (words : List Text) :
    (words.map fun word => HostEntry.address word ip).foldl HostsTrieBuilder.enter builder =
      words.foldl (fun builder word => builder.insert word ip) builder := by
  rw [List.foldl_map]
  rfl

theorem foldl_enter_alias (builder : HostsTrieBuilder) {original : Text}
    (named : Text.parseUnsigned usizeBound original = none) (words : List Text) :
    (words.filterMap fun word =>
        if word = original then none else some (HostEntry.aliasName word original named)).foldl
        HostsTrieBuilder.enter builder =
      words.foldl (fun builder word =>
        if word = original then builder else builder.insertAlias word original) builder := by
  rw [List.foldl_filterMap]
  apply List.foldl_ext
  intro builder word _
  by_cases own : word = original
  · simp [own]
  · simp [own, HostsTrieBuilder.enter]

theorem parseEntryLine_eq (builder : HostsTrieBuilder) (line : Text) :
    parseEntryLine builder line =
      (lineEntries (lineWords line)).foldl HostsTrieBuilder.enter builder := by
  have noComment := lineContent_head?_ne line
  unfold parseEntryLine parseHostsLine parseAliasLine lineWords
  by_cases empty : lineContent line = []
  · simp [empty, Text.splitWhitespace, lineEntries]
  · simp only [empty, noComment, or_self, if_false]
    cases (lineContent line).splitWhitespace with
    | nil => rfl
    | cons first rest =>
        cases rest with
        | nil => rfl
        | cons second rest =>
            simp only [lineEntries]
            cases parsed : IpAddr.parse first with
            | some ip =>
                have entries : wordEntry first = fun word => some (HostEntry.address word ip) := by
                  funext word
                  simp [wordEntry, parsed]
                rw [entries, List.filterMap_eq_map', foldl_enter_address]
                rfl
            | none =>
                simp only [Option.map_none, Option.isSome_none, Bool.false_eq_true, false_or]
                split
                · next number =>
                    have entries : wordEntry first = fun _ => none := by
                      funext word
                      simp [wordEntry, parsed, Option.isSome_iff_ne_none.mp number]
                    rw [entries, List.filterMap_none]
                    rfl
                · next number =>
                    have named : Text.parseUnsigned usizeBound first = none := by
                      simpa using number
                    have entries : wordEntry first = fun word =>
                        if word = first then none else some (.aliasName word first named) := by
                      funext word
                      simp [wordEntry, parsed, named]
                    rw [entries, foldl_enter_alias]

theorem foldl_parseEntryLine (builder : HostsTrieBuilder) (lines : List Text) :
    lines.foldl parseEntryLine builder =
      ((lines.map lineWords).flatMap lineEntries).foldl HostsTrieBuilder.enter builder := by
  rw [List.foldl_flatMap, List.foldl_map]
  apply List.foldl_ext
  intro builder line _
  exact parseEntryLine_eq builder line

def hostsBuilder (lines : List (List Text)) : HostsTrieBuilder :=
  (lines.flatMap lineEntries).foldl HostsTrieBuilder.enter HostsTrieBuilder.new

theorem buildHostsTrie_eq (files : Files) (entries : List Text) :
    buildHostsTrie files entries = (hostsBuilder (hostsWords files entries)).build := by
  unfold buildHostsTrie hostsBuilder hostsWords hostsLines
  rw [← foldl_parseEntryLine, List.foldl_flatMap]
  dsimp only
  congr 2
  funext builder entry
  cases filePath entry with
  | none => rfl
  | some path =>
      dsimp only
      cases files path with
      | none => rfl
      | some content => rfl

/-! ### Hosts without numbers -/

inductive HostTarget where
  | host (owner : Text)
  | original (name : Text)

structure HostMap where
  target : Text → Option HostTarget
  addresses : Text → Option (List IpAddr)
  owned : ∀ name owner, target name = some (.host owner) → Text.trimMatches '.' owner = name

namespace HostMap

def new : HostMap where
  target _ := none
  addresses _ := none
  owned := by simp

/-- Lead a name to a host of that name, or to an original. -/
def pointTo (self : HostMap) (name : Text) (target : HostTarget)
    (own : ∀ owner, target = .host owner → Text.trimMatches '.' owner = name) : HostMap :=
  { self with
    target := Function.update self.target name (some target)
    owned := by
      intro other owner found
      by_cases same : other = name
      · subst same
        rw [Function.update_self, Option.some.injEq] at found
        exact own owner found
      · rw [Function.update_of_ne same] at found
        exact self.owned other owner found }

/-- A host without addresses takes its name over and starts a list. -/
def claim (self : HostMap) (owner : Text) : HostMap :=
  match self.addresses owner with
  | some _ => self
  | none =>
      { self.pointTo (Text.trimMatches '.' owner) (.host owner) (fun _ same => by cases same; rfl)
        with addresses := Function.update self.addresses owner (some []) }

def addAddress (self : HostMap) (owner : Text) (ip : IpAddr) : HostMap :=
  { self with
    addresses :=
      Function.update self.addresses owner ((self.addresses owner).map fun ips => ips ++ [ip]) }

def enter (self : HostMap) : HostEntry → HostMap
  | .address word ip => (self.claim (trimWildcards word)).addAddress (trimWildcards word) ip
  | .aliasName word original _ =>
      self.pointTo (Text.trimMatches '.' word) (.original original) (fun _ same => by cases same)

def answer (self : HostMap) : HostTarget → Lookup
  | .host owner =>
      match self.addresses owner with
      | some ips => .Ips ips
      | none => .Miss
  | .original name => .Alias name

/-- What the longest known name that covers the query leads to. -/
def lookup (self : HostMap) (query : Text) : Lookup :=
  (LabelKey.scan '.' (fun key => (self.target (LabelKey.reverseLabels '.' key)).map self.answer)
    (LabelKey.reverseLabels '.' (DomainSuffixTrie.searched query))).getD .Miss

end HostMap

/-! ### The builder keeps a host map -/

/-- The tag the builder gives a target. -/
inductive TagFor (builder : HostsTrieBuilder) : HostTarget → Text → Prop where
  | host {owner idx} (numbered : builder.domainToIdx owner = some idx) :
      TagFor builder (.host owner) (Text.ofNat idx)
  | original {name} (named : Text.parseUnsigned usizeBound name = none) :
      TagFor builder (.original name) name

/-- Tags stand for targets, and a host's number for its addresses. -/
structure Represents (builder : HostsTrieBuilder) (hosts : HostMap) : Prop where
  tagged : ∀ name, Option.Rel (TagFor builder) (hosts.target name)
    (builder.builder.tagAt (LabelKey.reverseLabels '.' name))
  addresses : ∀ owner, hosts.addresses owner =
    (builder.domainToIdx owner).bind fun idx => builder.ips[idx]?
  distinct : ∀ first second idx, builder.domainToIdx first = some idx →
    builder.domainToIdx second = some idx → first = second

theorem represents_new : Represents .new .new where
  tagged _ := .none
  addresses _ := rfl
  distinct _ _ _ found := by cases found

theorem rel_tagFor_mono {builder later : HostsTrieBuilder} {target : Option HostTarget}
    {tag : Option Text} (tagged : Option.Rel (TagFor builder) target tag)
    (kept : ∀ owner idx, builder.domainToIdx owner = some idx →
      later.domainToIdx owner = some idx) : Option.Rel (TagFor later) target tag := by
  cases tagged with
  | none => exact .none
  | some tagFor =>
      cases tagFor with
      | host numbered => exact .some (.host (kept _ _ numbered))
      | original named => exact .some (.original named)

theorem rel_tagAt_insert {builder : HostsTrieBuilder} {hosts : HostMap}
    {tags : DomainSuffixTrieBuilder}
    (tagged : ∀ name, Option.Rel (TagFor builder) (hosts.target name)
      (tags.tagAt (LabelKey.reverseLabels '.' name)))
    {word tag : Text} {target : HostTarget} (tagFor : TagFor builder target tag)
    (own : ∀ owner, target = .host owner →
      Text.trimMatches '.' owner = Text.trimMatches '.' word) (name : Text) :
    Option.Rel (TagFor builder)
      ((hosts.pointTo (Text.trimMatches '.' word) target own).target name)
      ((tags.insert word tag).tagAt (LabelKey.reverseLabels '.' name)) := by
  have key := DomainSuffixTrieBuilder.reverseDomainBytes_eq_iff word name
  simp only [HostMap.pointTo, DomainSuffixTrieBuilder.tagAt_insert, Function.update_apply]
  by_cases same : name = Text.trimMatches '.' word
  · rw [if_pos same, if_pos (key.mpr same.symm).symm]
    exact .some tagFor
  · rw [if_neg same, if_neg fun equal => same (key.mp equal.symm).symm]
    exact tagged name

theorem represents_insertAlias {builder : HostsTrieBuilder} {hosts : HostMap}
    (represents : Represents builder hosts) (word original : Text)
    (named : Text.parseUnsigned usizeBound original = none) :
    Represents (builder.enter (.aliasName word original named))
      (hosts.enter (.aliasName word original named)) where
  tagged name := by
    have own : ∀ owner, HostTarget.original original = .host owner →
        Text.trimMatches '.' owner = Text.trimMatches '.' word := fun _ same => by cases same
    have inserted := rel_tagAt_insert represents.tagged (.original named) own name
    exact rel_tagFor_mono inserted fun _ _ numbered => numbered
  addresses := represents.addresses
  distinct := represents.distinct

theorem domainToIdx_entry (builder : HostsTrieBuilder) (owner : Text) :
    (builder.entry owner).2.domainToIdx owner = some (builder.entry owner).1 := by
  unfold HostsTrieBuilder.entry
  split
  · next idx found => exact found
  · exact Function.update_self ..

theorem distinct_update {builder : HostsTrieBuilder}
    (distinct : ∀ first second idx, builder.domainToIdx first = some idx →
      builder.domainToIdx second = some idx → first = second) (owner : Text)
    (first second : Text) (idx : Nat)
    (firstIs : Function.update builder.domainToIdx owner (some builder.ips.length) first =
      some idx)
    (secondIs : Function.update builder.domainToIdx owner (some builder.ips.length) second =
      some idx) : first = second := by
  have unlisted : ∀ other, builder.domainToIdx other ≠ some builder.ips.length :=
    fun other found => absurd (builder.listed other _ found) (Nat.lt_irrefl _)
  rw [Function.update_apply] at firstIs secondIs
  split at firstIs
  · next firstOwner =>
      split at secondIs
      · next secondOwner => exact firstOwner.trans secondOwner.symm
      · cases firstIs
        exact absurd secondIs (unlisted second)
  · split at secondIs
    · cases secondIs
      exact absurd firstIs (unlisted first)
    · exact distinct first second idx firstIs secondIs

theorem represents_entry {builder : HostsTrieBuilder} {hosts : HostMap}
    (represents : Represents builder hosts) (owner : Text) :
    Represents (builder.entry owner).2 (hosts.claim owner) := by
  have listed := represents.addresses owner
  unfold HostsTrieBuilder.entry HostMap.claim
  cases numbered : builder.domainToIdx owner with
  | some idx =>
      rw [numbered, Option.bind_some,
        List.getElem?_eq_getElem (builder.listed owner idx numbered)] at listed
      rw [listed]
      exact represents
  | none =>
      rw [numbered, Option.bind_none] at listed
      rw [listed]
      have kept : ∀ other idx, builder.domainToIdx other = some idx → other ≠ owner := by
        rintro other idx found rfl
        rw [numbered] at found
        cases found
      constructor
      · intro name
        apply rel_tagAt_insert
        · intro other
          refine rel_tagFor_mono (represents.tagged other) fun first idx found => ?_
          exact (Function.update_of_ne (kept first idx found) ..).trans found
        · exact .host (Function.update_self ..)
        · exact fun _ same => by cases same; rfl
      · intro other
        by_cases same : other = owner
        · subst same
          simp
        · simp only [Function.update_of_ne same, represents.addresses]
          cases found : builder.domainToIdx other with
          | none => rfl
          | some idx =>
              exact (List.getElem?_append_left (builder.listed other idx found)).symm
      · exact distinct_update represents.distinct owner

theorem represents_insert {builder : HostsTrieBuilder} {hosts : HostMap}
    (represents : Represents builder hosts) (word : Text) (ip : IpAddr) :
    Represents (builder.enter (.address word ip)) (hosts.enter (.address word ip)) := by
  have entered := represents_entry represents (trimWildcards word)
  have numbered := domainToIdx_entry builder (trimWildcards word)
  constructor
  · intro name
    exact rel_tagFor_mono (entered.tagged name) fun _ _ found => found
  · intro other
    have inserted : (builder.insert word ip).ips =
        (builder.entry (trimWildcards word)).2.ips.modify
          (builder.entry (trimWildcards word)).1 fun ips => ips ++ [ip] := rfl
    have kept : (builder.insert word ip).domainToIdx =
        (builder.entry (trimWildcards word)).2.domainToIdx := rfl
    simp only [HostMap.enter, HostMap.addAddress, HostsTrieBuilder.enter, inserted, kept]
    by_cases same : other = trimWildcards word
    · rw [same]
      simp [entered.addresses, numbered]
    · rw [Function.update_of_ne same, entered.addresses]
      cases found : (builder.entry (trimWildcards word)).2.domainToIdx other with
      | none => rfl
      | some idx =>
          have different : (builder.entry (trimWildcards word)).1 ≠ idx := by
            rintro rfl
            exact same (entered.distinct other _ _ found numbered)
          exact (List.getElem?_modify_ne _ _ different).symm
  · exact entered.distinct

theorem represents_foldl_enter {builder : HostsTrieBuilder} {hosts : HostMap}
    (represents : Represents builder hosts) (entries : List HostEntry) :
    Represents (entries.foldl HostsTrieBuilder.enter builder)
      (entries.foldl HostMap.enter hosts) := by
  induction entries generalizing builder hosts with
  | nil => exact represents
  | cons entry entries inductionHypothesis =>
      apply inductionHypothesis
      cases entry with
      | address word ip => exact represents_insert represents word ip
      | aliasName word original named => exact represents_insertAlias represents word original named

/-! ### Lookups -/

/-- What a hosts lookup makes of a tag. -/
def readTag (ips : List (List IpAddr)) (tag : Text) : Lookup :=
  match Text.parseUnsigned usizeBound tag with
  | some idx =>
      match ips[idx]? with
      | some ips => .Ips ips
      | none => .Miss
  | none => .Alias tag

theorem readTag_of_tagFor {builder : HostsTrieBuilder} {hosts : HostMap}
    (represents : Represents builder hosts) (bounded : builder.ips.length ≤ usizeBound)
    {target : HostTarget} {tag : Text} (tagFor : TagFor builder target tag) :
    readTag builder.ips tag = hosts.answer target := by
  cases tagFor with
  | @host owner idx numbered =>
      have small : idx < usizeBound :=
        Nat.lt_of_lt_of_le (builder.listed owner idx numbered) bounded
      simp [readTag, HostMap.answer, represents.addresses, numbered,
        Text.parseUnsigned_ofNat small]
  | original named => simp [readTag, HostMap.answer, named]

theorem HostsTrie.lookup_eq_scan (self : HostsTrie) (query : Text) :
    self.lookup query =
      (LabelKey.scan '.' (fun key => (self.trie.tagAt key).map (readTag self.ips))
        (LabelKey.reverseLabels '.' (DomainSuffixTrie.searched query))).getD .Miss := by
  rw [← LabelKey.scan_map, ← DomainSuffixTrie.lookup_eq_scan]
  unfold HostsTrie.lookup
  cases self.trie.lookup query with
  | none => rfl
  | some tag => rfl

theorem map_readTag_of_rel {builder : HostsTrieBuilder} {hosts : HostMap}
    (represents : Represents builder hosts) (bounded : builder.ips.length ≤ usizeBound)
    {target : Option HostTarget} {tag : Option Text}
    (tagged : Option.Rel (TagFor builder) target tag) :
    tag.map (readTag builder.ips) = target.map hosts.answer := by
  cases tagged with
  | none => rfl
  | some tagFor => exact congrArg some (readTag_of_tagFor represents bounded tagFor)

/-- The numbers do not show in a lookup. -/
theorem lookup_build {builder : HostsTrieBuilder} {hosts : HostMap}
    (represents : Represents builder hosts) (bounded : builder.ips.length ≤ usizeBound)
    (query : Text) : builder.build.lookup query = hosts.lookup query := by
  rw [HostsTrie.lookup_eq_scan]
  unfold HostMap.lookup
  refine congrArg (fun found : Option Lookup => found.getD .Miss) (LabelKey.scan_congr ?_)
  intro key _
  have tagged := represents.tagged (LabelKey.reverseLabels '.' key)
  rw [LabelKey.reverseLabels_reverseLabels] at tagged
  exact map_readTag_of_rel represents bounded tagged

/-- The table of a configuration. -/
def hostMap (lines : List (List Text)) : HostMap :=
  (lines.flatMap lineEntries).foldl HostMap.enter HostMap.new

/-- The entries of the `hosts:` section and what the disk holds.  A vector is never
longer than a machine word counts. -/
structure HostsConfig where
  files : Files
  entries : List Text
  bounded : (buildHostsTrie files entries).ips.length ≤ usizeBound

namespace HostsConfig

def trie (self : HostsConfig) : HostsTrie := buildHostsTrie self.files self.entries

def words (self : HostsConfig) : List (List Text) := hostsWords self.files self.entries

theorem lookup_trie (self : HostsConfig) (query : Text) :
    self.trie.lookup query = (hostMap self.words).lookup query := by
  have built := buildHostsTrie_eq self.files self.entries
  have bounded := self.bounded
  rw [built] at bounded
  unfold trie words
  rw [built]
  exact lookup_build (represents_foldl_enter represents_new _) bounded query

end HostsConfig

theorem HostMap.lookup_new (query : Text) : HostMap.new.lookup query = .Miss := by
  unfold HostMap.lookup
  rw [LabelKey.scan_of_none]
  · rfl
  · exact fun _ _ => rfl

theorem HostMap.lookup_of_target {hosts : HostMap} {query : Text} {target : HostTarget}
    (nonempty : query ≠ []) (whole : DomainSuffixTrie.searched query = query)
    (known : hosts.target query = some target) : hosts.lookup query = hosts.answer target := by
  have reversed : LabelKey.reverseLabels '.' query ≠ [] := by
    rw [← List.length_pos_iff, LabelKey.length_reverseLabels]
    exact List.length_pos_iff.mpr nonempty
  have found : (hosts.target (LabelKey.reverseLabels '.'
      (LabelKey.reverseLabels '.' query))).map hosts.answer = some (hosts.answer target) := by
    rw [LabelKey.reverseLabels_reverseLabels, known]
    rfl
  unfold HostMap.lookup
  rw [whole, LabelKey.scan_of_whole reversed found]
  rfl

theorem length_ips_foldl_enter (builder : HostsTrieBuilder) (entries : List HostEntry) :
    (entries.foldl HostsTrieBuilder.enter builder).ips.length ≤
      builder.ips.length + entries.length := by
  induction entries generalizing builder with
  | nil => exact Nat.le_refl _
  | cons entry entries inductionHypothesis =>
      have step : (builder.enter entry).ips.length ≤ builder.ips.length + 1 := by
        cases entry with
        | aliasName word original named => exact Nat.le_succ _
        | address word ip =>
            simp only [HostsTrieBuilder.enter, HostsTrieBuilder.insert, List.length_modify]
            unfold HostsTrieBuilder.entry
            split <;> simp
      have rest := inductionHypothesis (builder.enter entry)
      simp only [List.foldl_cons, List.length_cons]
      omega

/-- A file that is one line of two words. -/
def pairConfig {first second : Text} (firstWord : IsHostsWord first)
    (secondWord : IsHostsWord second) : HostsConfig where
  files _ := some (first ++ ' ' :: second)
  entries := ["file:".toList]
  bounded := by
    rw [buildHostsTrie_eq, hostsWords_pair firstWord secondWord]
    have grown := length_ips_foldl_enter .new ([[first, second]].flatMap lineEntries)
    have single : ([[first, second]].flatMap lineEntries).length ≤ 1 := by
      simpa [lineEntries] using List.length_filterMap_le (wordEntry first) [second]
    have few : (hostsBuilder [[first, second]]).ips.length ≤ 1 :=
      grown.trans (by simpa [HostsTrieBuilder.new] using single)
    exact few.trans (by simp [usizeBound])

theorem words_pairConfig {first second : Text} (firstWord : IsHostsWord first)
    (secondWord : IsHostsWord second) :
    (pairConfig firstWord secondWord).words = [[first, second]] :=
  hostsWords_pair firstWord secondWord

/-! ### Names in lower case -/

namespace HostMap

/-- The maps agree on the names and hosts in lower case. -/
structure AgreesBelow (left right : HostMap) : Prop where
  target : ∀ name, Text.IsLower name → left.target name = right.target name
  addresses : ∀ owner, Text.IsLower owner → left.addresses owner = right.addresses owner

theorem AgreesBelow.refl (hosts : HostMap) : AgreesBelow hosts hosts :=
  ⟨fun _ _ => rfl, fun _ _ => rfl⟩

theorem AgreesBelow.symm {left right : HostMap} (agrees : AgreesBelow left right) :
    AgreesBelow right left :=
  ⟨fun name lower => (agrees.target name lower).symm,
    fun owner lower => (agrees.addresses owner lower).symm⟩

theorem AgreesBelow.trans {first second third : HostMap} (front : AgreesBelow first second)
    (back : AgreesBelow second third) : AgreesBelow first third :=
  ⟨fun name lower => (front.target name lower).trans (back.target name lower),
    fun owner lower => (front.addresses owner lower).trans (back.addresses owner lower)⟩

theorem AgreesBelow.lookup {left right : HostMap} (agrees : AgreesBelow left right)
    {query : Text} (lower : Text.IsLower query) : left.lookup query = right.lookup query := by
  unfold HostMap.lookup
  refine congrArg (fun found : Option Lookup => found.getD .Miss) (LabelKey.scan_congr ?_)
  intro key front
  have lowerName := DomainSuffixTrie.isLower_of_isPrefix lower front
  rw [agrees.target _ lowerName]
  cases found : right.target (LabelKey.reverseLabels '.' key) with
  | none => rfl
  | some target =>
      cases target with
      | original name => rfl
      | host owner =>
          have trimmed := right.owned _ owner found
          have lowerOwner : Text.IsLower owner := by
            rw [← Text.isLower_trimMatches_iff (by decide : '.'.isAlpha = false), trimmed]
            exact lowerName
          simp only [Option.map_some, answer, agrees.addresses owner lowerOwner]

theorem target_enter_address (hosts : HostMap) (word : Text) (ip : IpAddr) (name : Text) :
    (hosts.enter (.address word ip)).target name =
      if name = Text.trimMatches '.' (trimWildcards word) ∧
          hosts.addresses (trimWildcards word) = none
      then some (.host (trimWildcards word)) else hosts.target name := by
  change (hosts.claim (trimWildcards word)).target name = _
  unfold claim
  split
  · next ips listed => simp [listed]
  · next unlisted => simp [pointTo, Function.update_apply, unlisted]

theorem addresses_enter_address (hosts : HostMap) (word : Text) (ip : IpAddr) (owner : Text) :
    (hosts.enter (.address word ip)).addresses owner =
      if owner = trimWildcards word then some ((hosts.addresses owner).getD [] ++ [ip])
      else hosts.addresses owner := by
  simp only [enter, addAddress, claim, Function.update_apply]
  split
  · next same =>
      subst same
      split
      · next ips listed => simp [listed]
      · next unlisted => simp [unlisted]
  · next different =>
      split
      · rfl
      · simp [different]

theorem target_enter_alias (hosts : HostMap) (word original : Text)
    (named : Text.parseUnsigned usizeBound original = none) (name : Text) :
    (hosts.enter (.aliasName word original named)).target name =
      if name = Text.trimMatches '.' word then some (.original original)
      else hosts.target name := by
  simp [enter, pointTo, Function.update_apply]

theorem AgreesBelow.enter {left right : HostMap} (agrees : AgreesBelow left right)
    (entry : HostEntry) : AgreesBelow (left.enter entry) (right.enter entry) := by
  cases entry with
  | aliasName word original named =>
      constructor
      · intro name lower
        simp only [target_enter_alias, agrees.target name lower]
      · exact agrees.addresses
  | address word ip =>
      constructor
      · intro name lower
        simp only [target_enter_address, agrees.target name lower]
        by_cases same : name = Text.trimMatches '.' (trimWildcards word)
        · have lowerOwner : Text.IsLower (trimWildcards word) := by
            rw [← Text.isLower_trimMatches_iff (by decide : '.'.isAlpha = false), ← same]
            exact lower
          simp only [agrees.addresses _ lowerOwner]
        · simp only [same, false_and, if_false]
      · intro owner lower
        simp only [addresses_enter_address, agrees.addresses owner lower]

theorem agreesBelow_enter (hosts : HostMap) {entry : HostEntry}
    (capital : ¬ Text.IsLower entry.name) : AgreesBelow hosts (hosts.enter entry) := by
  have trimmed : ∀ name, Text.IsLower name → name ≠ Text.trimMatches '.' entry.name := by
    rintro name lower rfl
    exact capital ((Text.isLower_trimMatches_iff (by decide) _).mp lower)
  cases entry with
  | aliasName word original named =>
      constructor
      · intro name lower
        rw [target_enter_alias]
        exact (if_neg (trimmed name lower)).symm
      · exact fun _ _ => rfl
  | address word ip =>
      constructor
      · intro name lower
        rw [target_enter_address]
        exact (if_neg fun both => trimmed name lower both.1).symm
      · intro owner lower
        rw [addresses_enter_address, if_neg]
        rintro rfl
        exact capital lower

theorem AgreesBelow.foldl_enter {left right : HostMap} (agrees : AgreesBelow left right)
    (entries : List HostEntry) :
    AgreesBelow (entries.foldl HostMap.enter left) (entries.foldl HostMap.enter right) := by
  induction entries generalizing left right with
  | nil => exact agrees
  | cons entry entries inductionHypothesis => exact inductionHypothesis (agrees.enter entry)

theorem agreesBelow_foldl_enter (hosts : HostMap) {entries : List HostEntry}
    (capital : ∀ entry ∈ entries, ¬ Text.IsLower entry.name) :
    AgreesBelow hosts (entries.foldl HostMap.enter hosts) := by
  induction entries generalizing hosts with
  | nil => exact .refl hosts
  | cons entry entries inductionHypothesis =>
      obtain ⟨first, rest⟩ := List.forall_mem_cons.mp capital
      exact (hosts.agreesBelow_enter first).trans (inductionHypothesis _ rest)

end HostMap

end Rsdns.Plugins
