import Rsdns.Groups.Inline

/-!
# Reloads that find nothing new

A reload is skipped if the domains are those of the fingerprint.  The fingerprint is
exchanged only together with the trie, so the active trie is the one of the fingerprint,
and to skip the reload shows the same members as to build the trie anew.
-/

namespace Rsdns.Plugins

open Common

/-- `reload_group` with a new trie after every reading. -/
def rebuildGroup (disk : Files) (state : GroupState) : GroupState :=
  match readFileDomains disk state.files with
  | none => state
  | some fileDomains =>
      { state with
        lastFiles := some (sortUnstable fileDomains)
        current := buildGroupTrie state.inlineDomains fileDomains (state.current.version + 1) }

/-- The same trie is active, and it is the one of the fingerprint as soon as there is one. -/
structure ShowsSame (reloaded rebuilt : GroupState) : Prop where
  inlineDomains : reloaded.inlineDomains = rebuilt.inlineDomains
  files : reloaded.files = rebuilt.files
  trie : reloaded.current.trie = rebuilt.current.trie
  marked : ∀ fingerprint, reloaded.lastFiles = some fingerprint →
    ∃ domains version, sortUnstable domains = fingerprint ∧
      reloaded.current = buildGroupTrie reloaded.inlineDomains domains version

theorem showsSame_refl {state : GroupState} (unmarked : state.lastFiles = none) :
    ShowsSame state state := by
  refine ⟨rfl, rfl, rfl, fun fingerprint marked => ?_⟩
  cases unmarked.symm.trans marked

theorem trie_of_sortUnstable_eq {domains others : List Text}
    (same : sortUnstable domains = sortUnstable others) (inlineDomains : List Text)
    (version otherVersion : Nat) :
    (buildGroupTrie inlineDomains domains version).trie =
      (buildGroupTrie inlineDomains others otherVersion).trie := by
  rw [buildGroupTrie_of_sortUnstable_eq same]
  rfl

theorem showsSame_reload {reloaded rebuilt : GroupState} (same : ShowsSame reloaded rebuilt)
    (disk : Files) : ShowsSame (reloadGroup disk reloaded) (rebuildGroup disk rebuilt) := by
  have outcome := reloaded_reloadGroup disk reloaded
  generalize reloadGroup disk reloaded = next at outcome ⊢
  unfold rebuildGroup
  rw [← same.files, ← same.inlineDomains]
  cases outcome with
  | unread failed =>
      rw [failed]
      exact same
  | unchanged domains read unchanged =>
      obtain ⟨shown, version, print, current⟩ := same.marked _ unchanged
      rw [read]
      refine ⟨rfl, rfl, ?_, same.marked⟩
      rw [current]
      exact trie_of_sortUnstable_eq print _ _ _
  | rebuilt domains read =>
      rw [read]
      refine ⟨rfl, rfl, rfl, fun fingerprint marked => ?_⟩
      exact ⟨domains, _, Option.some.inj marked, rfl⟩

theorem showsSame_run {reloaded rebuilt : GroupState} (same : ShowsSame reloaded rebuilt)
    (reloads : List Files) :
    ShowsSame (reloads.foldl (fun state disk => reloadGroup disk state) reloaded)
      (reloads.foldl (fun state disk => rebuildGroup disk state) rebuilt) := by
  induction reloads generalizing reloaded rebuilt with
  | nil => exact same
  | cons disk reloads inductionHypothesis =>
      exact inductionHypothesis (showsSame_reload same disk)

namespace Groups

/-- A group after it was loaded from one disk and built anew from others. -/
def afterRebuilds (cfg : GroupConfig) (initial : Files) (reloads : List Files) : GroupState :=
  reloads.foldl (fun state disk => rebuildGroup disk state) (initState initial cfg)

theorem showsSame_afterReloads (cfg : GroupConfig) (initial : Files) (reloads : List Files) :
    ShowsSame (afterReloads cfg initial reloads) (afterRebuilds cfg initial reloads) :=
  showsSame_run (showsSame_refl (lastFiles_initState initial cfg)) reloads

/-- After every reload the members are those of a group that is built anew every time: what
was read last, if it could be read, and what was active before otherwise. -/
theorem unchanged_reload_sound (cfg : GroupConfig) (initial : Files) (reloads : List Files) :
    (∀ name, (afterReloads cfg initial reloads).current.trie.lookup name =
      (afterRebuilds cfg initial reloads).current.trie.lookup name) ∧
    (∀ disk, readFileDomains disk (GroupState.buildFrom cfg).files = none →
      afterReloads cfg initial (reloads ++ [disk]) = afterReloads cfg initial reloads) ∧
    (∀ disk domains, readFileDomains disk (GroupState.buildFrom cfg).files = some domains →
      ∀ name, ((afterReloads cfg initial (reloads ++ [disk])).current.trie.lookup name).isSome ↔
        FallsUnder ((GroupState.buildFrom cfg).inlineDomains ++ domains)
          (DomainSuffixTrie.searched name)) ∧
    ∀ inlineDomains domains others version, sortUnstable domains = sortUnstable others →
      buildGroupTrie inlineDomains domains version =
        buildGroupTrie inlineDomains others version := by
  have loaded := loaded_afterReloads cfg initial reloads
  have same := showsSame_afterReloads cfg initial reloads
  refine ⟨fun name => by rw [same.trie], fun disk failed => ?_, fun disk domains read name => ?_,
    fun inlineDomains domains others version print =>
      buildGroupTrie_of_sortUnstable_eq print inlineDomains version⟩
  · have last : afterReloads cfg initial (reloads ++ [disk]) =
        reloadGroup disk (afterReloads cfg initial reloads) := List.foldl_append
    rw [last, reloadGroup, loaded.files, failed]
  · have last : afterRebuilds cfg initial (reloads ++ [disk]) =
        rebuildGroup disk (afterRebuilds cfg initial reloads) := List.foldl_append
    rw [(showsSame_afterReloads cfg initial (reloads ++ [disk])).trie, last, rebuildGroup,
      ← same.files, loaded.files, read, ← same.inlineDomains, loaded.inlineDomains]
    exact lookup_buildGroupTrie_isSome_iff _ _ _ name

end Groups

end Rsdns.Plugins
