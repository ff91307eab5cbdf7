import Rsdns.Plugins.Groups

/-!
# Inline members

The inline domains of a group are part of every trie that is built for it.  The
trie it starts with is not built: it is the empty one, and it stays until all
files could be read once.
-/

namespace Rsdns.Plugins

open Common

def FallsUnder (domains : List Text) (name : Text) : Prop :=
  ∃ domain ∈ domains, Text.trimMatches '.' domain ≠ [] ∧
    LabelKey.Covers '.' (Text.trimMatches '.' domain) name

theorem lookup_buildGroupTrie_isSome_iff (inlineDomains remote : List Text) (version : Nat)
    (name : Text) :
    ((buildGroupTrie inlineDomains remote version).trie.lookup name).isSome ↔
      FallsUnder (inlineDomains ++ remote) (DomainSuffixTrie.searched name) := by
  have fresh : ∀ key, DomainSuffixTrieBuilder.new.tagAt key = none := fun _ => rfl
  unfold buildGroupTrie FallsUnder
  rw [DomainSuffixTrie.lookup_isSome_iff]
  simp only [DomainSuffixTrie.tagAt_build, DomainSuffixTrieBuilder.tagAt_foldl_insert_isSome, fresh,
    Option.isSome_none, Bool.false_eq_true, or_false]
  constructor
  · rintro ⟨_, nonempty, covers, listed, member, rfl⟩
    exact ⟨listed, member, nonempty, covers⟩
  · rintro ⟨listed, member, nonempty, covers⟩
    exact ⟨_, nonempty, covers, listed, member, rfl⟩

theorem lookup_new (name : Text) : DomainSuffixTrie.new.lookup name = none := by
  rw [← Option.not_isSome_iff_eq_none, DomainSuffixTrie.lookup_isSome_iff]
  rintro ⟨_, _, _, stored⟩
  cases stored

/-! ### Fingerprints -/

theorem sortUnstable_perm (domains : List Text) : (sortUnstable domains).Perm domains :=
  List.perm_insertionSort _ _

theorem buildGroupTrie_of_sortUnstable_eq {domains others : List Text}
    (same : sortUnstable domains = sortUnstable others) (inlineDomains : List Text)
    (version : Nat) :
    buildGroupTrie inlineDomains domains version = buildGroupTrie inlineDomains others version := by
  have permuted : domains.Perm others :=
    (sortUnstable_perm domains).symm.trans (same ▸ sortUnstable_perm others)
  have whole := permuted.append_left inlineDomains
  unfold buildGroupTrie
  rw [DomainSuffixTrieBuilder.foldl_insert_perm _ whole, whole.length_eq]

/-! ### What a reload keeps -/

/-- The trie was built, with the inline domains in it. -/
def GroupState.Built (state : GroupState) : Prop :=
  ∃ remote version, state.current = buildGroupTrie state.inlineDomains remote version

def Readable (disk : Files) (files : List Text) : Prop := (readFileDomains disk files).isSome

/-- A reload does nothing, or builds a trie from what it read. -/
inductive Reloaded (disk : Files) (state : GroupState) : GroupState → Prop where
  | unread (failed : readFileDomains disk state.files = none) : Reloaded disk state state
  | unchanged (domains : List Text) (read : readFileDomains disk state.files = some domains)
      (same : state.lastFiles = some (sortUnstable domains)) : Reloaded disk state state
  | rebuilt (domains : List Text) (read : readFileDomains disk state.files = some domains) :
      Reloaded disk state
        { state with
          lastFiles := some (sortUnstable domains)
          current := buildGroupTrie state.inlineDomains domains (state.current.version + 1) }

theorem reloaded_reloadGroup (disk : Files) (state : GroupState) :
    Reloaded disk state (reloadGroup disk state) := by
  unfold reloadGroup
  cases read : readFileDomains disk state.files with
  | none => exact .unread read
  | some domains =>
      dsimp only
      split
      · next same => exact .unchanged domains read same
      · exact .rebuilt domains read

namespace Groups

/-- A group after it was loaded from one disk and reloaded from others. -/
def afterReloads (cfg : GroupConfig) (initial : Files) (reloads : List Files) : GroupState :=
  reloads.foldl (fun state disk => reloadGroup disk state) (initState initial cfg)

/-- What is known of a group: its domains are those of the configuration, and its trie was
built, or it still is the one it was made with. -/
structure Loaded (cfg : GroupConfig) (disks : List Files) (state : GroupState) : Prop where
  inlineDomains : state.inlineDomains = (GroupState.buildFrom cfg).inlineDomains
  files : state.files = (GroupState.buildFrom cfg).files
  built : (∃ disk ∈ disks, Readable disk state.files) → state.Built
  unbuilt : (∀ disk ∈ disks, ¬ Readable disk state.files) → state = GroupState.buildFrom cfg
  marked : state.lastFiles ≠ none → state.Built

theorem lastFiles_initState (initial : Files) (cfg : GroupConfig) :
    (initState initial cfg).lastFiles = none := by
  unfold initState
  dsimp only
  split <;> rfl

theorem loaded_initState (initial : Files) (cfg : GroupConfig) :
    Loaded cfg [initial] (initState initial cfg) := by
  unfold initState
  dsimp only
  cases read : readFileDomains initial (GroupState.buildFrom cfg).files with
  | some domains =>
      have built : GroupState.Built
          { GroupState.buildFrom cfg with
            current := buildGroupTrie (GroupState.buildFrom cfg).inlineDomains domains 0 } :=
        ⟨domains, 0, rfl⟩
      refine ⟨rfl, rfl, fun _ => built, fun unread => ?_, fun _ => built⟩
      exact absurd (by simp [Readable, read]) (unread initial (by simp))
  | none =>
      refine ⟨rfl, rfl, ?_, fun _ => rfl, fun marked => absurd rfl marked⟩
      rintro ⟨disk, member, readable⟩
      rw [List.mem_singleton] at member
      subst member
      simp [Readable, read] at readable

theorem loaded_reloadGroup {cfg : GroupConfig} {disks : List Files} {state : GroupState}
    (loaded : Loaded cfg disks state) (disk : Files) :
    Loaded cfg (disks ++ [disk]) (reloadGroup disk state) := by
  have outcome := reloaded_reloadGroup disk state
  generalize reloadGroup disk state = next at outcome ⊢
  cases outcome with
  | unread failed =>
      refine ⟨loaded.inlineDomains, loaded.files, ?_, fun unread => ?_, loaded.marked⟩
      · rintro ⟨other, member, readable⟩
        rcases List.mem_append.mp member with earlier | now
        · exact loaded.built ⟨other, earlier, readable⟩
        · cases List.mem_singleton.mp now
          simp [Readable, failed] at readable
      · exact loaded.unbuilt fun other earlier => unread other (List.mem_append_left _ earlier)
  | unchanged domains read same =>
      have built := loaded.marked (by simp [same])
      refine ⟨loaded.inlineDomains, loaded.files, fun _ => built, fun unread => ?_, fun _ => built⟩
      exact absurd (by simp [Readable, read]) (unread disk (by simp))
  | rebuilt domains read =>
      have built : GroupState.Built
          { state with
            lastFiles := some (sortUnstable domains)
            current := buildGroupTrie state.inlineDomains domains (state.current.version + 1) } :=
        ⟨domains, _, rfl⟩
      refine ⟨loaded.inlineDomains, loaded.files, fun _ => built, fun unread => ?_, fun _ => built⟩
      exact absurd (by simp [Readable, read]) (unread disk (by simp))

theorem loaded_afterReloads (cfg : GroupConfig) (initial : Files) (reloads : List Files) :
    Loaded cfg (initial :: reloads) (afterReloads cfg initial reloads) := by
  have run : ∀ (later : List Files) {disks : List Files} {state : GroupState},
      Loaded cfg disks state →
      Loaded cfg (disks ++ later) (later.foldl (fun state disk => reloadGroup disk state) state) := by
    intro later
    induction later with
    | nil =>
        intro disks state loaded
        rw [List.append_nil]
        exact loaded
    | cons disk later inductionHypothesis =>
        intro disks state loaded
        have rest := inductionHypothesis (loaded_reloadGroup loaded disk)
        rw [List.append_assoc] at rest
        exact rest
  exact run reloads (loaded_initState initial cfg)

/-- Every query name under an inline domain is found. -/
def KeepsInline (cfg : GroupConfig) (state : GroupState) : Prop :=
  ∀ name, Text.IsLower name →
    FallsUnder (GroupState.buildFrom cfg).inlineDomains (Text.trimMatches '.' name) →
    (state.current.trie.lookup name).isSome

/-- The inline members are found after some reloads exactly if all files could be read at
least once by then, or no query name falls under an inline domain. -/
theorem inline_members_found_iff (cfg : GroupConfig) (initial : Files) (reloads : List Files) :
    KeepsInline cfg (afterReloads cfg initial reloads) ↔
      (∃ disk ∈ initial :: reloads, Readable disk (GroupState.buildFrom cfg).files) ∨
        ∀ name, Text.IsLower name →
          ¬ FallsUnder (GroupState.buildFrom cfg).inlineDomains (Text.trimMatches '.' name) := by
  have loaded := loaded_afterReloads cfg initial reloads
  unfold KeepsInline
  by_cases read : ∃ disk ∈ initial :: reloads, Readable disk (GroupState.buildFrom cfg).files
  · refine iff_of_true (fun name lower under => ?_) (.inl read)
    obtain ⟨remote, version, built⟩ := loaded.built (by rwa [loaded.files])
    rw [built, loaded.inlineDomains, lookup_buildGroupTrie_isSome_iff,
      DomainSuffixTrie.searched_of_isLower lower]
    obtain ⟨domain, member, rest⟩ := under
    exact ⟨domain, List.mem_append_left remote member, rest⟩
  · have unread : ∀ disk ∈ initial :: reloads, ¬ Readable disk
        (afterReloads cfg initial reloads).files := by
      intro disk member readable
      rw [loaded.files] at readable
      exact read ⟨disk, member, readable⟩
    rw [loaded.unbuilt unread]
    constructor
    · intro keeps
      refine .inr fun name lower under => ?_
      have found := keeps name lower under
      rw [show (GroupState.buildFrom cfg).current.trie = DomainSuffixTrie.new from rfl,
        lookup_new] at found
      cases found
    · intro condition name lower under
      exact absurd under (condition.resolve_left read name lower)

/-- An inline domain beside a file that is missing at first. -/
theorem inline_member_missing_at_first :
    ∃ (cfg : GroupConfig) (initial : Files),
      cfg.domains = ["a".toList, "file:/x".toList] ∧ initial "/x".toList = none ∧
        ¬ KeepsInline cfg (afterReloads cfg initial []) := by
  refine ⟨⟨"g".toList, ["a".toList, "file:/x".toList], false, false⟩, fun _ => none, rfl, rfl, ?_⟩
  intro keeps
  have found := keeps "a".toList (by decide)
    ⟨"a".toList, by decide, by decide, .inl (by decide)⟩
  revert found
  decide

end Groups

end Rsdns.Plugins
