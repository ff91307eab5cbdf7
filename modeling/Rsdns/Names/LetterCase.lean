import Rsdns.Hosts.Entries
import Rsdns.Plugins.Groups
import Rsdns.Plugins.MatchTarget
import Rsdns.Rules.FirstMatch

/-!
# Letter case in the configuration

Queries are lowered by the server and configured domains are kept as they are
written.  A name in lower case never meets a domain with a capital, so two
spellings of a domain do the same for all queries exactly if both are in lower
case or neither is.
-/

namespace Rsdns.Plugins

open Common Dns Text

/-- A name as the server looks it up. -/
structure QueryName (query : Text) : Prop where
  lower : IsLower query
  trimmed : query.getLast? ≠ some '.'

/-! ### Two configurations that differ in the spelling of one domain -/

def InlineTrieIgnores (domain variant : Text) : Prop :=
  ∀ (rules variants : Rules) (before after : List Rule) (rule : Rule) (left right : List Text),
    rules.rules =
      before ++ { rule with target := .InlineDomains (left ++ domain :: right) } :: after →
    variants.rules =
      before ++ { rule with target := .InlineDomains (left ++ variant :: right) } :: after →
    ∀ query, QueryName query →
      (rules.inlineHit query).map Fin.val = (variants.inlineHit query).map Fin.val

def SuffixMatchIgnores (domain variant : Text) : Prop :=
  ∀ query, QueryName query → suffixMatch domain query = suffixMatch variant query

def TemplateMatchIgnores (domain variant : Text) : Prop :=
  ∀ placeholders query, QueryName query →
    templateMatch { suffix := domain, placeholders := placeholders } query =
      templateMatch { suffix := variant, placeholders := placeholders } query

def GroupTrieIgnores (domain variant : Text) : Prop :=
  ∀ (inlineDomains remote inlineVariants remoteVariants left right : List Text)
    (version versionVariant : Nat),
    inlineDomains ++ remote = left ++ trimWildcards domain :: right →
    inlineVariants ++ remoteVariants = left ++ trimWildcards variant :: right →
    ∀ query, QueryName query →
      (buildGroupTrie inlineDomains remote version).trie.lookup query =
        (buildGroupTrie inlineVariants remoteVariants versionVariant).trie.lookup query

/-- The domain stands behind a first word of this role. -/
def HostsTrieIgnores (role : Text → Prop) (domain variant : Text) : Prop :=
  ∀ (config variants : HostsConfig) (before after : List (List Text)) (first : Text)
    (front back : List Text), role first →
    config.words = before ++ (first :: front ++ domain :: back) :: after →
    variants.words = before ++ (first :: front ++ variant :: back) :: after →
    ∀ query, QueryName query → config.trie.lookup query = variants.trie.lookup query

def HostNameIgnores : Text → Text → Prop :=
  HostsTrieIgnores fun first => (IpAddr.parse first).isSome = true

def HostAliasIgnores : Text → Text → Prop :=
  HostsTrieIgnores fun first => IpAddr.parse first = none

/-- The domain is the first word. -/
def HostOriginalIgnores (domain variant : Text) : Prop :=
  ∀ (config variants : HostsConfig) (before after : List (List Text)) (rest : List Text),
    config.words = before ++ (domain :: rest) :: after →
    variants.words = before ++ (variant :: rest) :: after →
    ∀ query, QueryName query → config.trie.lookup query = variants.trie.lookup query

/-! ### What is in lower case -/

/-- Both spellings are in lower case, or neither is. -/
def SameCase (domain variant : Text) : Prop := IsLower domain ↔ IsLower variant

instance (domain variant : Text) : Decidable (SameCase domain variant) :=
  inferInstanceAs (Decidable (_ ↔ _))

theorem SameCase.symm {domain variant : Text} (sameCase : SameCase domain variant) :
    SameCase variant domain := Iff.symm sameCase

theorem part_eq {part : Text → Text} (keepsCase : ∀ text, IsLower (part text) ↔ IsLower text)
    {domain variant : Text} (same : SameLetters domain variant)
    (sameCase : SameCase domain variant) (lower : IsLower (part domain)) :
    part variant = part domain := by
  have domainLower := (keepsCase domain).mp lower
  rw [same.eq_of_isLower domainLower (sameCase.mp domainLower)]

theorem part_eq_iff {part : Text → Text}
    (keepsCase : ∀ text, IsLower (part text) ↔ IsLower text)
    {domain variant name : Text} (same : SameLetters domain variant)
    (sameCase : SameCase domain variant) (lower : IsLower name) :
    part domain = name ↔ part variant = name := by
  constructor
  · rintro rfl
    exact part_eq keepsCase same sameCase lower
  · rintro rfl
    exact part_eq keepsCase same.symm sameCase.symm lower

theorem isLower_trimDots_iff (text : Text) : IsLower (trimMatches '.' text) ↔ IsLower text :=
  isLower_trimMatches_iff (by decide) text

theorem trimWildcards_suffix (text : Text) : trimWildcards text <:+ text := by
  fun_induction trimWildcards text with
  | case1 rest inductionHypothesis => exact inductionHypothesis.trans ⟨['*', '.'], rfl⟩
  | case2 text => exact List.suffix_rfl

theorem mem_trimWildcards {text : Text} {char : Char} (member : char ∈ text)
    (letter : char.isAlpha = true) : char ∈ trimWildcards text := by
  fun_induction trimWildcards text with
  | case1 rest inductionHypothesis =>
      apply inductionHypothesis
      rcases List.mem_cons.mp member with rfl | later
      · exact absurd letter (by decide)
      · rcases List.mem_cons.mp later with rfl | inRest
        · exact absurd letter (by decide)
        · exact inRest
  | case2 text => exact member

theorem isLower_trimWildcards_iff (text : Text) : IsLower (trimWildcards text) ↔ IsLower text :=
  isLower_congr (trimWildcards_suffix text).subset fun _ => mem_trimWildcards

/-- One law for all the matchers: a matcher that forgets capitals, and shows the
spelling in lower case to some query, ignores the case of those that agree. -/
theorem ignores_iff {Ignores : Text → Text → Prop}
    (symmetric : ∀ {domain variant}, Ignores domain variant → Ignores variant domain)
    (ignores : ∀ {domain variant}, SameLetters domain variant → SameCase domain variant →
      Ignores domain variant)
    {domain variant : Text} (same : SameLetters domain variant)
    (shows : IsLower domain → ¬ IsLower variant → ¬ Ignores domain variant)
    (showsVariant : IsLower variant → ¬ IsLower domain → ¬ Ignores variant domain) :
    Ignores domain variant ↔ SameCase domain variant := by
  constructor
  · intro ignored
    constructor
    · intro lower
      by_contra capital
      exact shows lower capital ignored
    · intro lower
      by_contra capital
      exact showsVariant lower capital (symmetric ignored)
  · exact ignores same

theorem trim_ne_nil {part : Text → Text}
    (keeps : ∀ {text char}, char ∈ text → char.isAlpha = true → char ∈ part text)
    {domain variant : Text} (same : SameLetters domain variant) (capital : ¬ IsLower variant) :
    part domain ≠ [] := by
  obtain ⟨char, member, letter⟩ := same.exists_isAlpha capital
  exact List.ne_nil_of_mem (keeps member letter)

theorem ne_dot_of_isAlpha {char : Char} (letter : char.isAlpha = true) : char ≠ '.' := by
  rintro rfl
  exact absurd letter (by decide)

theorem trimDots_ne_nil {domain variant : Text} (same : SameLetters domain variant)
    (capital : ¬ IsLower variant) : trimMatches '.' domain ≠ [] :=
  trim_ne_nil (fun member letter => mem_trimMatches member (ne_dot_of_isAlpha letter))
    same capital

theorem queryName_trimDots {domain : Text} (lower : IsLower domain) :
    QueryName (trimMatches '.' domain) where
  lower := (isLower_trimDots_iff domain).mpr lower
  trimmed := trimMatches_getLast?_ne '.' domain

theorem searched_trimDots {domain : Text} (lower : IsLower domain) :
    DomainSuffixTrie.searched (trimMatches '.' domain) = trimMatches '.' domain := by
  rw [DomainSuffixTrie.searched_of_isLower (queryName_trimDots lower).lower,
    trimMatches_trimMatches]

/-! ### Suffixes and templates -/

theorem isLower_trimEndDots_iff (text : Text) :
    IsLower (trimEndMatches '.' text) ↔ IsLower text :=
  isLower_trimEndMatches_iff (by decide) text

theorem suffixMatch_imp {domain variant : Text} (same : SameLetters domain variant)
    (sameCase : SameCase domain variant) {query : Text} (lower : IsLower query)
    (accepted : suffixMatch domain query = true) : suffixMatch variant query = true := by
  rw [suffixMatch_iff] at accepted ⊢
  have lowerEnd := (isLower_trimEndDots_iff query).mpr lower
  have lowerPart := lowerEnd.of_subset accepted.isSuffix.subset
  rw [part_eq isLower_trimEndDots_iff same sameCase lowerPart]
  exact accepted

theorem suffixMatchIgnores_of_sameCase {domain variant : Text}
    (same : SameLetters domain variant) (sameCase : SameCase domain variant) :
    SuffixMatchIgnores domain variant := by
  intro query queryName
  rw [Bool.eq_iff_iff]
  constructor
  · exact suffixMatch_imp same sameCase queryName.lower
  · exact suffixMatch_imp same.symm sameCase.symm queryName.lower

theorem templateMatch_imp {domain variant : Text} (same : SameLetters domain variant)
    (sameCase : SameCase domain variant) {query : Text} (lower : IsLower query)
    {placeholders : List UInt32} {captures : List Text}
    (accepted : templateMatch { suffix := domain, placeholders := placeholders } query =
      some captures) :
    templateMatch { suffix := variant, placeholders := placeholders } query = some captures := by
  rw [templateMatch_eq_some_iff] at accepted ⊢
  obtain ⟨rest, nonempty, whole, captured⟩ := accepted
  have lowerEnd := (isLower_trimEndDots_iff query).mpr lower
  have lowerPart : IsLower (trimEndMatches '.' domain) := by
    apply lowerEnd.of_subset
    rw [whole]
    intro char member
    exact List.mem_append_right _ (List.mem_cons_of_mem _ member)
  refine ⟨rest, nonempty, ?_, captured⟩
  rw [whole]
  dsimp only
  rw [part_eq isLower_trimEndDots_iff same sameCase lowerPart]

theorem templateMatchIgnores_of_sameCase {domain variant : Text}
    (same : SameLetters domain variant) (sameCase : SameCase domain variant) :
    TemplateMatchIgnores domain variant := by
  intro placeholders query queryName
  apply Option.ext
  intro captures
  constructor
  · exact templateMatch_imp same sameCase queryName.lower
  · exact templateMatch_imp same.symm sameCase.symm queryName.lower

theorem queryName_trimEnd {domain : Text} (lower : IsLower domain) :
    QueryName (trimEndMatches '.' domain) where
  lower := (isLower_trimEndDots_iff domain).mpr lower
  trimmed := trimEndMatches_getLast?_ne '.' domain

theorem suffixMatch_shows {domain variant : Text} (lower : IsLower domain)
    (capital : ¬ IsLower variant) : ¬ SuffixMatchIgnores domain variant := by
  intro ignored
  have agree := ignored _ (queryName_trimEnd lower)
  have accepted : suffixMatch domain (trimEndMatches '.' domain) = true := by
    rw [suffixMatch_iff, trimEndMatches_trimEndMatches]
    exact .inl rfl
  have covers := (suffixMatch_iff _ _).mp (agree.symm.trans accepted)
  rw [trimEndMatches_trimEndMatches] at covers
  have lowerEnd := (isLower_trimEndDots_iff domain).mpr lower
  exact capital ((isLower_trimEndDots_iff variant).mp (lowerEnd.of_subset covers.isSuffix.subset))

theorem suffixMatchIgnores_iff {domain variant : Text} (same : SameLetters domain variant) :
    SuffixMatchIgnores domain variant ↔ SameCase domain variant :=
  ignores_iff (fun ignored query queryName => (ignored query queryName).symm)
    suffixMatchIgnores_of_sameCase same suffixMatch_shows suffixMatch_shows

theorem templateMatch_shows {domain variant : Text} (same : SameLetters domain variant)
    (lower : IsLower domain) (capital : ¬ IsLower variant) :
    ¬ TemplateMatchIgnores domain variant := by
  intro ignored
  have lowerEnd := (isLower_trimEndDots_iff domain).mpr lower
  have nonempty : trimEndMatches '.' domain ≠ [] :=
    trim_ne_nil (fun member letter => mem_trimEndMatches member (ne_dot_of_isAlpha letter))
      same capital
  have queryName : QueryName ('0' :: '.' :: trimEndMatches '.' domain) := by
    constructor
    · simp only [IsLower, toAsciiLowercase, List.map_cons]
      rw [← toAsciiLowercase, lowerEnd]
      rfl
    · rw [List.getLast?_cons_cons, List.getLast?_cons_of_ne_nil nonempty]
      exact trimEndMatches_getLast?_ne '.' domain
  have trimmed := trimEndMatches_eq_self queryName.trimmed
  have agree := ignored [1] _ queryName
  have accepted : templateMatch { suffix := domain, placeholders := [1] }
      ('0' :: '.' :: trimEndMatches '.' domain) = some [['0']] := by
    have captured : [1].mapM (capture (['0'].splitOn '.')) = some [['0']] := by decide
    rw [templateMatch_eq_some_iff, trimmed]
    exact ⟨['0'], by decide, rfl, captured⟩
  obtain ⟨rest, _, whole, _⟩ := templateMatch_eq_some_iff.mp (agree.symm.trans accepted)
  rw [trimmed] at whole
  apply capital
  rw [← isLower_trimEndDots_iff]
  apply queryName.lower.of_subset
  rw [whole]
  intro char member
  exact List.mem_append_right _ (List.mem_cons_of_mem _ member)

theorem templateMatchIgnores_iff {domain variant : Text} (same : SameLetters domain variant) :
    TemplateMatchIgnores domain variant ↔ SameCase domain variant :=
  ignores_iff
    (fun ignored placeholders query queryName => (ignored placeholders query queryName).symm)
    templateMatchIgnores_of_sameCase same (templateMatch_shows same)
    (templateMatch_shows same.symm)

/-! ### The trie of the inline rules -/

/-- For names in lower case the rules list the same. -/
structure ListSameBelow (rules variants : List Rule) : Prop where
  lists : ∀ name, IsLower name →
    rules.map (fun rule => rule.lists name) = variants.map fun rule => rule.lists name
  inline : rules.map (fun rule => (inlineDomains rule).isSome) =
    variants.map fun rule => (inlineDomains rule).isSome

namespace ListSameBelow

theorem symm {rules variants : List Rule} (same : ListSameBelow rules variants) :
    ListSameBelow variants rules :=
  ⟨fun name lower => (same.lists name lower).symm, same.inline.symm⟩

theorem length_eq {rules variants : List Rule} (same : ListSameBelow rules variants) :
    rules.length = variants.length := by
  simpa using congrArg List.length same.inline

theorem lists_get {rules variants : List Rule} (same : ListSameBelow rules variants)
    {name : Text} (lower : IsLower name) (idx : Fin rules.length) :
    (variants.get (idx.cast same.length_eq)).lists name = (rules.get idx).lists name := by
  have position := congrArg (fun listed => listed[idx.val]?) (same.lists name lower)
  have bound : idx.val < variants.length := same.length_eq ▸ idx.isLt
  simpa [bound] using position.symm

theorem inline_get {rules variants : List Rule} (same : ListSameBelow rules variants)
    (idx : Fin rules.length) :
    (inlineDomains (variants.get (idx.cast same.length_eq))).isSome =
      (inlineDomains (rules.get idx)).isSome := by
  have position := congrArg (fun listed => listed[idx.val]?) same.inline
  have bound : idx.val < variants.length := same.length_eq ▸ idx.isLt
  simpa [bound] using position.symm

theorem filter_finRange {count other : Nat} (same : count = other) {keeps : Fin count → Bool}
    {keepsOther : Fin other → Bool} (agree : ∀ idx, keepsOther (idx.cast same) = keeps idx) :
    (List.finRange other).filter keepsOther =
      ((List.finRange count).filter keeps).map (Fin.cast same) := by
  subst same
  have equal : keepsOther = keeps := funext agree
  rw [equal]
  exact (List.map_id _).symm

theorem inlineRules_eq {rules variants : List Rule} (same : ListSameBelow rules variants) :
    inlineRules variants = (inlineRules rules).map (Fin.cast same.length_eq) :=
  filter_finRange same.length_eq same.inline_get

theorem owns {rules variants : Rules} (same : ListSameBelow rules.rules variants.rules)
    {query : Text} (lower : IsLower query) {owner : Fin rules.rules.length}
    (owns : rules.Owns query owner) : variants.Owns query (owner.cast same.length_eq) := by
  obtain ⟨domain, nonempty, covers, lists, last, longest⟩ := owns
  have below : ∀ name, LabelKey.Covers '.' name (DomainSuffixTrie.searched query) →
      IsLower name := by
    intro name covered
    rw [DomainSuffixTrie.searched_of_isLower lower] at covered
    exact lower.of_subset fun char member =>
      trimMatches_subset '.' query (covered.isSuffix.subset member)
  have elsewhere : ∀ name, IsLower name → ∀ idx : Fin variants.rules.length,
      (variants.rules.get idx).lists name =
        (rules.rules.get (idx.cast same.length_eq.symm)).lists name := by
    intro name lowerName idx
    exact same.lists_get lowerName (idx.cast same.length_eq.symm)
  refine ⟨domain, nonempty, covers, ?_, ?_, ?_⟩
  · exact (same.lists_get (below domain covers) owner).trans lists
  · intro later after
    rw [elsewhere domain (below domain covers)]
    exact last _ after
  · intro longer longerCovers above other
    rw [elsewhere longer (below longer longerCovers)]
    exact longest longer longerCovers above _

theorem inlineHit {rules variants : Rules} (same : ListSameBelow rules.rules variants.rules)
    {query : Text} (lower : IsLower query) {position : Nat}
    (found : (rules.inlineHit query).map Fin.val = some position) :
    (variants.inlineHit query).map Fin.val = some position := by
  obtain ⟨hit, hits, rfl⟩ := Option.map_eq_some_iff.mp found
  obtain ⟨owner, owns, listed⟩ := (rules.inlineHit_eq_some_iff query hit).mp hits
  have moved : variants.inlineHit query = some (hit.cast same.length_eq) := by
    rw [Rules.inlineHit_eq_some_iff]
    refine ⟨_, same.owns lower owns, ?_⟩
    rw [same.inlineRules_eq, List.getElem?_map]
    simp [listed]
  rw [moved]
  rfl

end ListSameBelow

theorem listSameBelow_of_sameCase {domain variant : Text} (same : SameLetters domain variant)
    (sameCase : SameCase domain variant) (before after : List Rule) (rule : Rule)
    (left right : List Text) :
    ListSameBelow
      (before ++ { rule with target := .InlineDomains (left ++ domain :: right) } :: after)
      (before ++ { rule with target := .InlineDomains (left ++ variant :: right) } :: after) := by
  constructor
  · intro name lower
    have spelling : (trimMatches '.' domain == name) = (trimMatches '.' variant == name) := by
      rw [Bool.eq_iff_iff, beq_iff_eq, beq_iff_eq]
      exact part_eq_iff isLower_trimDots_iff same sameCase lower
    simp [Rule.lists, inlineDomains, spelling]
  · simp [inlineDomains]

theorem inlineTrieIgnores_of_sameCase {domain variant : Text} (same : SameLetters domain variant)
    (sameCase : SameCase domain variant) : InlineTrieIgnores domain variant := by
  intro rules variants before after rule left right rulesAre variantsAre query queryName
  have below : ListSameBelow rules.rules variants.rules := by
    rw [rulesAre, variantsAre]
    exact listSameBelow_of_sameCase same sameCase before after rule left right
  apply Option.ext
  intro position
  constructor
  · exact below.inlineHit queryName.lower
  · exact below.symm.inlineHit queryName.lower

/-- One rule for one domain. -/
def inlineOnly (domain : Text) : Rules :=
  .init [{ target := .InlineDomains [domain], qtype := none, action := .Block .NXDomain }]
    (by simp [usizeBound])

theorem inlineOnly_lists (domain name : Text) (idx : Fin (inlineOnly domain).rules.length) :
    ((inlineOnly domain).rules.get idx).lists name = (trimMatches '.' domain == name) := by
  obtain ⟨position, below⟩ := idx
  obtain rfl : position = 0 := Nat.lt_one_iff.mp below
  exact Bool.or_false _

theorem inlineHit_inlineOnly {domain : Text} (lower : IsLower domain)
    (nonempty : trimMatches '.' domain ≠ []) :
    (inlineOnly domain).inlineHit (trimMatches '.' domain) = some ⟨0, Nat.one_pos⟩ := by
  rw [Rules.inlineHit_eq_some_iff]
  refine ⟨⟨0, Nat.one_pos⟩, ⟨trimMatches '.' domain, nonempty, ?_, ?_, ?_, ?_⟩, rfl⟩
  · rw [searched_trimDots lower]
    exact .inl rfl
  · rw [inlineOnly_lists, beq_iff_eq]
  · intro later above
    exact absurd (Nat.lt_one_iff.mp later.isLt) (Nat.ne_of_gt above)
  · intro longer covers above
    rw [searched_trimDots lower] at covers
    exact absurd covers.length_le (Nat.not_le_of_lt above)

theorem inlineTrie_shows {domain variant : Text} (same : SameLetters domain variant)
    (lower : IsLower domain) (capital : ¬ IsLower variant) :
    ¬ InlineTrieIgnores domain variant := by
  intro ignored
  have nonempty := trimDots_ne_nil same capital
  have agree := ignored (inlineOnly domain) (inlineOnly variant) [] []
    { target := .MatchAll, qtype := none, action := .Block .NXDomain } [] [] rfl rfl _
    (queryName_trimDots lower)
  rw [inlineHit_inlineOnly lower nonempty] at agree
  obtain ⟨hit, hits, _⟩ := Option.map_eq_some_iff.mp agree.symm
  obtain ⟨owner, ⟨name, _, covers, lists, _⟩, _⟩ := (Rules.inlineHit_eq_some_iff _ _ _).mp hits
  rw [inlineOnly_lists, beq_iff_eq] at lists
  rw [searched_trimDots lower] at covers
  apply capital
  rw [← isLower_trimDots_iff, lists]
  exact (queryName_trimDots lower).lower.of_subset covers.isSuffix.subset

theorem inlineTrieIgnores_iff {domain variant : Text} (same : SameLetters domain variant) :
    InlineTrieIgnores domain variant ↔ SameCase domain variant := by
  refine ignores_iff ?_ inlineTrieIgnores_of_sameCase same (inlineTrie_shows same)
    (inlineTrie_shows same.symm)
  intro domain variant ignored rules variants before after rule left right rulesAre variantsAre
    query queryName
  exact (ignored variants rules before after rule left right variantsAre rulesAre query
    queryName).symm

/-! ### The tries of groups -/

theorem tagAt_buildGroupTrie (inlineDomains remote : List Text) (version : Nat) (name : Text) :
    (buildGroupTrie inlineDomains remote version).trie.tagAt (LabelKey.reverseLabels '.' name) =
      if (inlineDomains ++ remote).any (fun listed => trimMatches '.' listed == name)
      then some "hit".toList else none := by
  have stored := DomainSuffixTrieBuilder.tagAt_foldl_insert_domain .new
    (inlineDomains ++ remote) "hit".toList name
  exact stored

theorem isLower_trimItem_iff (text : Text) :
    IsLower (trimMatches '.' (trimWildcards text)) ↔ IsLower text :=
  (isLower_trimDots_iff _).trans (isLower_trimWildcards_iff text)

theorem groupTrieIgnores_of_sameCase {domain variant : Text} (same : SameLetters domain variant)
    (sameCase : SameCase domain variant) : GroupTrieIgnores domain variant := by
  intro inlineDomains remote inlineVariants remoteVariants left right version versionVariant
    domainsAre variantsAre query queryName
  apply DomainSuffixTrie.lookup_congr queryName.lower
  intro name lower
  have spelling : (trimMatches '.' (trimWildcards domain) == name) =
      (trimMatches '.' (trimWildcards variant) == name) := by
    rw [Bool.eq_iff_iff, beq_iff_eq, beq_iff_eq]
    exact part_eq_iff isLower_trimItem_iff same sameCase lower
  simp [tagAt_buildGroupTrie, domainsAre, variantsAre, spelling]

theorem groupTrie_shows {domain variant : Text} (same : SameLetters domain variant)
    (lower : IsLower domain) (capital : ¬ IsLower variant) :
    ¬ GroupTrieIgnores domain variant := by
  intro ignored
  have itemLower := (isLower_trimWildcards_iff domain).mpr lower
  have nonempty : trimMatches '.' (trimWildcards domain) ≠ [] :=
    trim_ne_nil
      (fun member letter => mem_trimMatches (mem_trimWildcards member letter)
        (ne_dot_of_isAlpha letter)) same capital
  have agree := ignored [trimWildcards domain] [] [trimWildcards variant] [] [] [] 0 0 rfl rfl _
    (queryName_trimDots itemLower)
  have found : ((buildGroupTrie [trimWildcards domain] [] 0).trie.lookup
      (trimMatches '.' (trimWildcards domain))).isSome = true := by
    rw [DomainSuffixTrie.lookup_isSome_iff, searched_trimDots itemLower]
    exact ⟨_, nonempty, .inl rfl, by simp [tagAt_buildGroupTrie]⟩
  rw [agree, DomainSuffixTrie.lookup_isSome_iff, searched_trimDots itemLower] at found
  obtain ⟨name, _, covers, stored⟩ := found
  have listed : trimMatches '.' (trimWildcards variant) = name := by
    simpa [tagAt_buildGroupTrie] using stored
  apply capital
  rw [← isLower_trimItem_iff, listed]
  exact (queryName_trimDots itemLower).lower.of_subset covers.isSuffix.subset

theorem groupTrieIgnores_iff {domain variant : Text} (same : SameLetters domain variant) :
    GroupTrieIgnores domain variant ↔ SameCase domain variant := by
  refine ignores_iff ?_ groupTrieIgnores_of_sameCase same (groupTrie_shows same)
    (groupTrie_shows same.symm)
  intro domain variant ignored inlineDomains remote inlineVariants remoteVariants left right
    version versionVariant domainsAre variantsAre query queryName
  exact (ignored inlineVariants remoteVariants inlineDomains remote left right versionVariant
    version variantsAre domainsAre query queryName).symm

/-! ### The hosts trie -/

theorem name_wordEntry {first word : Text} {entry : HostEntry}
    (made : wordEntry first word = some entry) :
    entry.name = trimWildcards word ∨ entry.name = word := by
  unfold wordEntry at made
  split at made
  · cases made
    exact .inl rfl
  · split at made
    · split at made
      · cases made
      · cases made
        exact .inr rfl
    · cases made

theorem isLower_name_iff {first word : Text} {entry : HostEntry}
    (made : wordEntry first word = some entry) : IsLower entry.name ↔ IsLower word := by
  rcases name_wordEntry made with trimmed | whole
  · rw [trimmed]
    exact isLower_trimWildcards_iff word
  · rw [whole]

theorem agreesBelow_word {first word : Text} (capital : ¬ IsLower word) (hosts : HostMap) :
    hosts.AgreesBelow ([word].filterMap (wordEntry first) |>.foldl HostMap.enter hosts) := by
  apply HostMap.agreesBelow_foldl_enter
  intro entry member
  obtain ⟨other, inside, made⟩ := List.mem_filterMap.mp member
  obtain rfl := List.mem_singleton.mp inside
  rwa [isLower_name_iff made]

theorem hostMap_word (before after : List (List Text)) (first : Text) (front back : List Text)
    (word : Text) :
    hostMap (before ++ (first :: front ++ word :: back) :: after) =
      (back.filterMap (wordEntry first) ++ after.flatMap lineEntries).foldl HostMap.enter
        (([word].filterMap (wordEntry first)).foldl HostMap.enter
          ((before.flatMap lineEntries ++ front.filterMap (wordEntry first)).foldl HostMap.enter
            HostMap.new)) := by
  rw [← List.foldl_append, ← List.foldl_append]
  unfold hostMap
  congr 1
  have words : front.filterMap (wordEntry first) ++ ([word].filterMap (wordEntry first) ++
      back.filterMap (wordEntry first)) = (front ++ word :: back).filterMap (wordEntry first) := by
    rw [← List.filterMap_append, ← List.filterMap_append]
    rfl
  simp only [List.flatMap_append, List.flatMap_cons, List.cons_append, lineEntries, ← words,
    List.append_assoc]

theorem hostsTrieIgnores_of_sameCase {role : Text → Prop} {domain variant : Text}
    (same : SameLetters domain variant) (sameCase : SameCase domain variant) :
    HostsTrieIgnores role domain variant := by
  intro config variants before after first front back _ wordsAre variantsAre query queryName
  rw [config.lookup_trie, variants.lookup_trie, wordsAre, variantsAre]
  by_cases lower : IsLower domain
  · rw [same.eq_of_isLower lower (sameCase.mp lower)]
  · have capital : ¬ IsLower variant := fun other => lower (sameCase.mpr other)
    rw [hostMap_word, hostMap_word]
    apply HostMap.AgreesBelow.lookup _ queryName.lower
    apply HostMap.AgreesBelow.foldl_enter
    exact (agreesBelow_word lower _).symm.trans (agreesBelow_word capital _)

theorem HostsTrieIgnores.symm {role : Text → Prop} {domain variant : Text}
    (ignored : HostsTrieIgnores role domain variant) : HostsTrieIgnores role variant domain := by
  intro config variants before after first front back plays wordsAre variantsAre query queryName
  exact (ignored variants config before after first front back plays variantsAre wordsAre query
    queryName).symm

theorem isHostsWord_of_sameLetters {domain variant : Text} (same : SameLetters domain variant)
    (isWord : IsHostsWord domain) : IsHostsWord variant where
  nonempty := by
    rintro rfl
    exact isWord.nonempty (List.map_eq_nil_iff.mp same)
  chars := by
    refine same.forall (fun char letter => ?_) isWord.chars
    have range : 65 ≤ char.toNat ∧ char.toNat ≤ 122 := by
      simp only [isAlpha_eq, Bool.or_eq_true, isUpper_iff_toNat, isLower_iff_toNat] at letter
      omega
    constructor
    · simp only [isWhitespace, Bool.or_eq_false_iff, Bool.and_eq_false_iff,
        decide_eq_false_iff_not, beq_eq_false_iff_ne]
      omega
    · rintro rfl
      exact absurd letter (by decide)

theorem lookup_pair {first second : Text} (firstWord : IsHostsWord first)
    (secondWord : IsHostsWord second) (query : Text) :
    (pairConfig firstWord secondWord).trie.lookup query =
      (([second].filterMap (wordEntry first)).foldl HostMap.enter HostMap.new).lookup query := by
  rw [HostsConfig.lookup_trie, words_pairConfig]
  exact congrArg (fun hosts => hosts.lookup query) (hostMap_word [] [] first [] [] second)

/-- What a lookup finds where an entry is the only one. -/
def entryLookup : HostEntry → Lookup
  | .address _ ip => .Ips [ip]
  | .aliasName _ original _ => .Alias original

theorem lookup_enter_new {entry : HostEntry} (lower : IsLower entry.name)
    (nonempty : trimMatches '.' entry.name ≠ []) :
    (HostMap.new.enter entry).lookup (trimMatches '.' entry.name) = entryLookup entry := by
  have whole := searched_trimDots lower
  cases entry with
  | address word ip =>
      have known : (HostMap.new.enter (.address word ip)).target
          (trimMatches '.' (trimWildcards word)) = some (.host (trimWildcards word)) := by
        rw [HostMap.target_enter_address]
        exact if_pos ⟨rfl, rfl⟩
      have listed : (HostMap.new.enter (.address word ip)).addresses (trimWildcards word) =
          some [ip] := by
        rw [HostMap.addresses_enter_address]
        exact if_pos rfl
      have answer := HostMap.lookup_of_target nonempty whole known
      simp only [HostEntry.name, entryLookup] at answer ⊢
      rw [answer, HostMap.answer, listed]
  | aliasName word original named =>
      have known : (HostMap.new.enter (.aliasName word original named)).target
          (trimMatches '.' word) = some (.original original) := by
        rw [HostMap.target_enter_alias]
        exact if_pos rfl
      exact HostMap.lookup_of_target nonempty whole known

theorem trimDots_name_ne_nil {first domain variant : Text} {entry : HostEntry}
    (made : wordEntry first domain = some entry) (same : SameLetters domain variant)
    (capital : ¬ IsLower variant) : trimMatches '.' entry.name ≠ [] := by
  obtain ⟨char, member, letter⟩ := same.exists_isAlpha capital
  have named : char ∈ entry.name := by
    rcases name_wordEntry made with trimmed | whole
    · rw [trimmed]
      exact mem_trimWildcards member letter
    · rwa [whole]
  exact List.ne_nil_of_mem (mem_trimMatches named (ne_dot_of_isAlpha letter))

theorem hostsTrie_shows {role : Text → Prop} {first domain variant : Text} (plays : role first)
    (firstWord : IsHostsWord first) (isWord : IsHostsWord domain)
    (same : SameLetters domain variant) (lower : IsLower domain) (capital : ¬ IsLower variant)
    {entry : HostEntry} (made : wordEntry first domain = some entry) :
    ¬ HostsTrieIgnores role domain variant := by
  intro ignored
  have variantWord := isHostsWord_of_sameLetters same isWord
  have nameLower := (isLower_name_iff made).mpr lower
  have agree := ignored (pairConfig firstWord isWord) (pairConfig firstWord variantWord) [] []
    first [] [] plays (words_pairConfig firstWord isWord) (words_pairConfig firstWord variantWord)
    _ (queryName_trimDots nameLower)
  rw [lookup_pair, lookup_pair] at agree
  have unchanged := @agreesBelow_word first variant capital HostMap.new
  have missed := unchanged.lookup (queryName_trimDots nameLower).lower
  rw [← missed, HostMap.lookup_new] at agree
  have answered := lookup_enter_new nameLower (trimDots_name_ne_nil made same capital)
  have miss : (HostMap.new.enter entry).lookup (trimMatches '.' entry.name) = .Miss := by
    simpa [made] using agree
  rw [answered] at miss
  cases entry <;> cases miss

/-- The roles a first word can give the words behind it, each with a first word that
gives it to every domain with a letter. -/
theorem hostsTrieIgnores_iff {role : Text → Prop} {first : Text} (plays : role first)
    (firstWord : IsHostsWord first)
    (makes : ∀ word, word ≠ first → ∃ entry, wordEntry first word = some entry)
    (noLetter : ∀ char ∈ first, char.isAlpha = false)
    {domain variant : Text} (isWord : IsHostsWord domain) (same : SameLetters domain variant) :
    HostsTrieIgnores role domain variant ↔ SameCase domain variant := by
  have entered : ∀ {domain variant : Text}, SameLetters domain variant → ¬ IsLower variant →
      ∃ entry, wordEntry first domain = some entry := by
    intro domain variant same capital
    obtain ⟨char, member, letter⟩ := same.exists_isAlpha capital
    apply makes
    rintro rfl
    simp [noLetter char member] at letter
  refine ignores_iff HostsTrieIgnores.symm hostsTrieIgnores_of_sameCase same ?_ ?_
  · intro lower capital
    obtain ⟨entry, made⟩ := entered same capital
    exact hostsTrie_shows plays firstWord isWord same lower capital made
  · intro lower capital
    obtain ⟨entry, made⟩ := entered same.symm capital
    exact hostsTrie_shows plays firstWord (isHostsWord_of_sameLetters same isWord) same.symm lower
      capital made

theorem hostNameIgnores_iff {domain variant : Text} (isWord : IsHostsWord domain)
    (same : SameLetters domain variant) :
    HostNameIgnores domain variant ↔ SameCase domain variant := by
  have parsed : (IpAddr.parse "0.0.0.0".toList).isSome = true := by decide
  refine hostsTrieIgnores_iff parsed (by decide) ?_ (List.all_iff_forall_prop.mp (by decide))
    isWord same
  intro word _
  obtain ⟨ip, parses⟩ := Option.isSome_iff_exists.mp parsed
  exact ⟨.address word ip, by rw [wordEntry, parses]⟩

theorem hostAliasIgnores_iff {domain variant : Text} (isWord : IsHostsWord domain)
    (same : SameLetters domain variant) :
    HostAliasIgnores domain variant ↔ SameCase domain variant := by
  have unparsed : IpAddr.parse "_".toList = none := by decide
  have named : Text.parseUnsigned usizeBound "_".toList = none := by decide
  refine hostsTrieIgnores_iff unparsed (by decide) ?_ (List.all_iff_forall_prop.mp (by decide))
    isWord same
  intro word different
  exact ⟨.aliasName word "_".toList named, by simp only [wordEntry, unparsed, named, different,
    dite_true, if_false]⟩

theorem lookup_zero {first : Text} (firstWord : IsHostsWord first)
    (zeroWord : IsHostsWord "0".toList) :
    (pairConfig firstWord zeroWord).trie.lookup "0".toList =
      ((wordEntry first "0".toList).map entryLookup).getD .Miss := by
  rw [lookup_pair]
  cases made : wordEntry first "0".toList with
  | none =>
      rw [List.filterMap_cons_none made]
      exact HostMap.lookup_new _
  | some entry =>
      rw [List.filterMap_cons_some made]
      have name : trimMatches '.' entry.name = "0".toList := by
        rcases name_wordEntry made with same | same
        · rw [same]
          decide
        · rw [same]
          decide
      have lower : IsLower entry.name := (isLower_name_iff made).mpr (by decide)
      have nonempty : trimMatches '.' entry.name ≠ [] := by
        rw [name]
        decide
      have answer := lookup_enter_new lower nonempty
      rw [name] at answer
      exact answer

theorem hostOriginalIgnores_iff {domain variant : Text} (isWord : IsHostsWord domain)
    (unparsed : IpAddr.parse domain = none)
    (named : Text.parseUnsigned usizeBound domain = none) (same : SameLetters domain variant) :
    HostOriginalIgnores domain variant ↔ domain = variant := by
  have zeroWord : IsHostsWord "0".toList := by decide
  constructor
  · intro ignored
    have variantWord := isHostsWord_of_sameLetters same isWord
    have agree := ignored (pairConfig isWord zeroWord) (pairConfig variantWord zeroWord) [] []
      ["0".toList] (words_pairConfig isWord zeroWord) (words_pairConfig variantWord zeroWord)
      "0".toList ⟨by decide, by decide⟩
    have different : "0".toList ≠ domain := by
      rintro rfl
      exact absurd named (by decide)
    have made : wordEntry domain "0".toList = some (.aliasName "0".toList domain named) := by
      simp only [wordEntry, unparsed, named, different, dite_true, if_false]
    rw [lookup_zero, lookup_zero, made] at agree
    unfold wordEntry at agree
    split at agree
    · cases agree
    · split at agree
      · split at agree
        · cases agree
        · exact Lookup.Alias.inj agree
      · cases agree
  · rintro rfl config variants before after rest wordsAre variantsAre query _
    rw [config.lookup_trie, variants.lookup_trie, wordsAre, variantsAre]

/-! ### All the paths -/

/-- Two spellings of a domain that a rule, a group or a hosts line accepts give the same
results for all queries exactly if both are in lower case or neither is; an original is
given back as written, so its spellings never do. -/
theorem letter_case_ignored_iff {domain variant : Text} (same : SameLetters domain variant) :
    (∀ stored, validateDomain domain = some stored →
      ∃ storedVariant, validateDomain variant = some storedVariant ∧
        (InlineTrieIgnores stored storedVariant ↔ SameCase domain variant) ∧
        (SuffixMatchIgnores stored storedVariant ↔ SameCase domain variant) ∧
        (TemplateMatchIgnores stored storedVariant ↔ SameCase domain variant)) ∧
    (GroupTrieIgnores domain variant ↔ SameCase domain variant) ∧
    ∀ line, domain ∈ lineWords line →
      (HostNameIgnores domain variant ↔ SameCase domain variant) ∧
      (HostAliasIgnores domain variant ↔ SameCase domain variant) ∧
      (IpAddr.parse domain = none → Text.parseUnsigned usizeBound domain = none →
        (HostOriginalIgnores domain variant ↔ domain = variant)) := by
  refine ⟨fun stored accepted => ?_, groupTrieIgnores_iff same, fun line member => ?_⟩
  · obtain rfl := eq_of_validateDomain accepted
    exact ⟨variant, validateDomain_of_sameLetters same accepted, inlineTrieIgnores_iff same,
      suffixMatchIgnores_iff same, templateMatchIgnores_iff same⟩
  · have isWord := isHostsWord_of_mem member
    exact ⟨hostNameIgnores_iff isWord same, hostAliasIgnores_iff isWord same,
      fun unparsed named => hostOriginalIgnores_iff isWord unparsed named same⟩

/-- The two spellings of a word tell every path apart. -/
theorem spellings_of_lan_differ :
    (∃ stored, validateDomain "Lan".toList = some stored ∧
      ¬ InlineTrieIgnores "lan".toList stored ∧ ¬ SuffixMatchIgnores "lan".toList stored ∧
      ¬ TemplateMatchIgnores "lan".toList stored) ∧
    ¬ GroupTrieIgnores "lan".toList "Lan".toList ∧
    ¬ HostNameIgnores "lan".toList "Lan".toList ∧
    ¬ HostAliasIgnores "lan".toList "Lan".toList ∧
    ¬ HostOriginalIgnores "lan".toList "Lan".toList := by
  have same : SameLetters "lan".toList "Lan".toList := by decide
  have differ : ¬ SameCase "lan".toList "Lan".toList := by decide
  obtain ⟨rules, groups, hosts⟩ := letter_case_ignored_iff same
  obtain ⟨stored, accepted, inline, suffix, template⟩ := rules "lan".toList (by decide)
  obtain ⟨name, byAlias, original⟩ := hosts "0.0.0.0 lan".toList (by decide)
  refine ⟨⟨stored, accepted, mt inline.mp differ, mt suffix.mp differ, mt template.mp differ⟩,
    mt groups.mp differ, mt name.mp differ, mt byAlias.mp differ, ?_⟩
  exact mt (original (by decide) (by decide)).mp (by decide)

/-- A rule may hold a capital, and then misses the lowered name it is meant for. -/
theorem capital_suffix_misses_name :
    ¬ ∀ domain variant stored, SameLetters domain variant →
        validateDomain variant = some stored → SuffixMatchIgnores domain stored := by
  intro ignores
  have ignored := ignores "lan".toList "Lan".toList "Lan".toList (by decide) (by decide)
  have agree := ignored "nas.lan".toList ⟨by decide, by decide⟩
  revert agree
  decide

end Rsdns.Plugins
