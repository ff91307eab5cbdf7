import Rsdns.Hosts.Locality
import Rsdns.Library.Machine
import Rsdns.Plugins.Watch

/-!
# Watched hosts files

Every file of the hosts entries has a watcher of its own, and each watcher rebuilds the
whole trie, so reloads run beside each other.  A trie is made of what could be read while
it was built, whatever the trie before it held.
-/

namespace Rsdns.Plugins

open Common Dns

/-- An entry, and what its file reads as at its turn. -/
structure HostsSource where
  entry : Text
  content : Option Text

namespace HostsSource

def onDisk (files : Files) (entry : Text) : HostsSource where
  entry := entry
  content := (filePath entry).bind files

def IsLost (self : HostsSource) : Prop :=
  (filePath self.entry).isSome = true ∧ self.content = none

instance (self : HostsSource) : Decidable self.IsLost := inferInstanceAs (Decidable (_ ∧ _))

def lines (self : HostsSource) : List Text :=
  match filePath self.entry with
  | some _ => (self.content.map Text.lines).getD []
  | none => [self.entry]

def words (self : HostsSource) : List (List Text) := self.lines.map lineWords

def entries (self : HostsSource) : List HostEntry := self.words.flatMap lineEntries

end HostsSource

/-- One round of the loop over the entries. -/
def HostsTrieBuilder.enterSource (self : HostsTrieBuilder) (source : HostsSource) :
    HostsTrieBuilder :=
  match filePath source.entry with
  | some _ =>
      match source.content with
      | some content => content.lines.foldl parseEntryLine self
      | none => self
  | none => parseEntryLine self source.entry

/-- `buildHostsTrie`, on a disk that may change from one entry to the next. -/
def buildSources (sources : List HostsSource) : HostsTrie :=
  (sources.foldl HostsTrieBuilder.enterSource .new).build

theorem buildSources_onDisk (files : Files) (entries : List Text) :
    buildSources (entries.map (HostsSource.onDisk files)) = buildHostsTrie files entries := by
  unfold buildSources buildHostsTrie
  rw [List.foldl_map]
  dsimp only
  congr 2
  funext builder entry
  unfold HostsTrieBuilder.enterSource HostsSource.onDisk
  cases filePath entry with
  | none => rfl
  | some path => rfl

theorem enterSource_eq (builder : HostsTrieBuilder) (source : HostsSource) :
    builder.enterSource source = source.entries.foldl HostsTrieBuilder.enter builder := by
  unfold HostsSource.entries HostsSource.words
  rw [← foldl_parseEntryLine]
  unfold HostsTrieBuilder.enterSource HostsSource.lines
  cases filePath source.entry with
  | none => rfl
  | some path =>
      cases source.content with
      | none => rfl
      | some content => rfl

theorem entries_of_isLost {source : HostsSource} (lost : source.IsLost) : source.entries = [] := by
  obtain ⟨path, named⟩ := Option.isSome_iff_exists.mp lost.1
  simp [HostsSource.entries, HostsSource.words, HostsSource.lines, named, lost.2]

theorem buildSources_eq (sources : List HostsSource) :
    buildSources sources = (hostsBuilder (sources.flatMap HostsSource.words)).build := by
  unfold buildSources hostsBuilder
  rw [List.flatMap_assoc, List.foldl_flatMap]
  congr 2
  funext builder source
  exact enterSource_eq builder source

theorem buildSources_readable (sources : List HostsSource) :
    buildSources (sources.filter fun source => ¬ source.IsLost) = buildSources sources := by
  unfold buildSources
  rw [List.foldl_filter]
  congr 2
  funext builder source
  by_cases lost : source.IsLost
  · simp [lost, enterSource_eq, entries_of_isLost lost]
  · simp [lost]

/-! ### Tables -/

/-- What all the entries read as, one after the other. -/
structure HostsTable (entries : List Text) where
  sources : List HostsSource
  ofEntries : sources.map HostsSource.entry = entries
  bounded : (buildSources sources).ips.length ≤ usizeBound

namespace HostsTable

variable {entries : List Text}

def trie (self : HostsTable entries) : HostsTrie := buildSources self.sources

def listed (self : HostsTable entries) : List HostEntry :=
  self.sources.flatMap HostsSource.entries

def about (self : HostsTable entries) (query : Text) : List HostEntry :=
  entriesAbout self.listed (DomainSuffixTrie.searched query)

theorem lookup_trie (self : HostsTable entries) (query : Text) :
    self.trie.lookup query = answerOf self.listed (DomainSuffixTrie.searched query) := by
  have built := buildSources_eq self.sources
  have bounded := self.bounded
  rw [built] at bounded
  have listed : (self.sources.flatMap HostsSource.words).flatMap lineEntries = self.listed :=
    List.flatMap_assoc
  rw [trie, built, lookup_hostsBuilder bounded, listed]
  rfl

/-- The entries of both tables say the same of a query: it is governed by entries with the
same answer, or by none. -/
def SaysAs (self other : HostsTable entries) (query : Text) : Prop :=
  answerOf self.listed (DomainSuffixTrie.searched query) =
    answerOf other.listed (DomainSuffixTrie.searched query)

theorem lookup_eq_iff {self other : HostsTable entries} {query : Text} :
    self.trie.lookup query = other.trie.lookup query ↔ self.SaysAs other query := by
  rw [lookup_trie, lookup_trie, SaysAs]

theorem lookup_congr {before after : HostsTable entries} {query : Text}
    (same : after.about query = before.about query) :
    after.trie.lookup query = before.trie.lookup query := by
  rw [lookup_trie, lookup_trie]
  exact answerOf_congr same

theorem lookup_eq_miss {self : HostsTable entries} {query : Text}
    (unnamed : self.about query = []) : self.trie.lookup query = .Miss := by
  rw [lookup_trie]
  exact answerOf_eq_miss unnamed

end HostsTable

/-- The source reads as before, or it is lost and had no entry about the text. -/
def KeepsSource (text : Text) (before after : HostsSource) : Prop :=
  after.entries = before.entries ∨ after.IsLost ∧ entriesAbout before.entries text = []

theorem KeepsSource.entriesAbout_eq {text : Text} {before after : HostsSource}
    (keeps : KeepsSource text before after) :
    entriesAbout after.entries text = entriesAbout before.entries text := by
  rcases keeps with same | ⟨lost, unnamed⟩
  · rw [same]
  · rw [unnamed, entries_of_isLost lost]
    rfl

theorem entriesAbout_flatMap_eq {text : Text} {before after : List HostsSource}
    (kept : List.Forall₂ (KeepsSource text) before after) :
    entriesAbout (after.flatMap HostsSource.entries) text =
      entriesAbout (before.flatMap HostsSource.entries) text := by
  induction kept with
  | nil => rfl
  | cons keeps _ inductionHypothesis =>
      have here := keeps.entriesAbout_eq
      simp only [entriesAbout, List.flatMap_cons, List.filter_append] at here inductionHypothesis ⊢
      rw [here, inductionHypothesis]

/-! ### Watchers -/

/-- The entries, and the place each watcher looks out for.  There is none if its directory
cannot be watched. -/
structure HostsWatch (Path : Type) where
  entries : List Text
  place : Nat → Text → Option Path

/-- The trie in use, and what the reloads under way have read. -/
structure HostsState (entries : List Text) where
  current : HostsTable entries
  building : Nat → Option (HostsTable entries)

/-- A watcher is told of an event, or exchanges the trie for the one it has built. -/
inductive HostsEvent (Path : Type) (entries : List Text) where
  | deliver (watcher : Nat) (result : Option (WatchEvent Path)) (table : HostsTable entries)
  | install (watcher : Nat)

namespace HostsWatch

variable {Path : Type} [DecidableEq Path]

/-- What the watcher of an entry looks out for; an entry that names no file has none. -/
def target (self : HostsWatch Path) (watcher : Nat) : Option Path := do
  let entry ← self.entries[watcher]?
  let path ← filePath entry
  self.place watcher path

def init (self : HostsWatch Path) (table : HostsTable self.entries) : HostsState self.entries where
  current := table
  building _ := none

/-- A watcher hears of nothing while it builds. -/
def step (self : HostsWatch Path) (state : HostsState self.entries) :
    HostsEvent Path self.entries → Option (HostsState self.entries)
  | .deliver watcher result table =>
      match state.building watcher with
      | some _ => none
      | none =>
          if watchFile (self.target watcher) result then
            some { state with building := Function.update state.building watcher (some table) }
          else some state
  | .install watcher =>
      match state.building watcher with
      | some table =>
          some { current := table, building := Function.update state.building watcher none }
      | none => none

def machine (self : HostsWatch Path) :
    Machine (HostsState self.entries) (HostsEvent Path self.entries) := ⟨self.step⟩

/-- All that an event can do. -/
inductive Moves (self : HostsWatch Path) (state : HostsState self.entries) :
    HostsEvent Path self.entries → HostsState self.entries → Prop where
  | ignores (watcher result table) (idle : state.building watcher = none)
      (unconcerned : watchFile (self.target watcher) result = false) :
      Moves self state (.deliver watcher result table) state
  | starts (watcher result table) (idle : state.building watcher = none)
      (concerned : watchFile (self.target watcher) result = true) :
      Moves self state (.deliver watcher result table)
        { state with building := Function.update state.building watcher (some table) }
  | installs (watcher table) (built : state.building watcher = some table) :
      Moves self state (.install watcher)
        { current := table, building := Function.update state.building watcher none }

theorem moves_of_step {self : HostsWatch Path} {state next : HostsState self.entries}
    {event : HostsEvent Path self.entries} (stepped : self.machine.step state event = some next) :
    self.Moves state event next := by
  cases event with
  | deliver watcher result table =>
      simp only [machine, step] at stepped
      cases idle : state.building watcher with
      | some other => simp [idle] at stepped
      | none =>
          rw [idle] at stepped
          cases concerned : watchFile (self.target watcher) result with
          | true =>
              rw [concerned] at stepped
              cases stepped
              exact .starts watcher result table idle concerned
          | false =>
              rw [concerned] at stepped
              cases stepped
              exact .ignores watcher result table idle concerned
  | install watcher =>
      simp only [machine, step] at stepped
      cases built : state.building watcher with
      | none => simp [built] at stepped
      | some table =>
          rw [built] at stepped
          cases stepped
          exact .installs watcher table built

/-- A reload, from the state in which the event comes.  While the trie is built other
watchers may go on, and `before` is the state in which it is installed. -/
structure Reloads (watch : HostsWatch Path) (watcher : Nat) (result : Option (WatchEvent Path))
    (table : HostsTable watch.entries) (first before after : HostsState watch.entries) :
    Prop where
  concerned : watchFile (watch.target watcher) result = true
  reads : ∃ started, watch.machine.step first (.deliver watcher result table) = some started ∧
    watch.machine.GuardedRun (fun _ event => event ≠ .install watcher) started before
  installs : watch.machine.step before (.install watcher) = some after

theorem building_of_run {self : HostsWatch Path} {watcher : Nat}
    {table : HostsTable self.entries} {started state : HostsState self.entries}
    (run : self.machine.GuardedRun (fun _ event => event ≠ .install watcher) started state)
    (reads : started.building watcher = some table) : state.building watcher = some table := by
  apply run.invariant reads
  intro state next event reads others stepped
  cases moves_of_step stepped with
  | ignores => exact reads
  | starts other result again idle concerned =>
      have different : watcher ≠ other := by
        rintro rfl
        rw [reads] at idle
        cases idle
      exact (Function.update_of_ne different ..).trans reads
  | installs other built found =>
      have different : watcher ≠ other := by
        rintro rfl
        exact others rfl
      exact (Function.update_of_ne different ..).trans reads

theorem Reloads.current_eq {self : HostsWatch Path} {watcher : Nat}
    {result : Option (WatchEvent Path)} {table : HostsTable self.entries}
    {first before after : HostsState self.entries}
    (reloads : self.Reloads watcher result table first before after) : after.current = table := by
  obtain ⟨started, delivered, others⟩ := reloads.reads
  have reads : started.building watcher = some table := by
    cases moves_of_step delivered with
    | ignores _ _ _ _ unconcerned =>
        rw [reloads.concerned] at unconcerned
        cases unconcerned
    | starts => exact Function.update_self ..
  cases moves_of_step reloads.installs with
  | installs _ other found =>
      exact Option.some.inj (found.symm.trans (building_of_run others reads))

theorem exists_reloads {self : HostsWatch Path} {watcher : Nat}
    {result : Option (WatchEvent Path)} {state : HostsState self.entries}
    (idle : state.building watcher = none)
    (concerned : watchFile (self.target watcher) result = true) (table : HostsTable self.entries) :
    ∃ before after, self.Reloads watcher result table state before after ∧
      before.current = state.current := by
  let before : HostsState self.entries :=
    { state with building := Function.update state.building watcher (some table) }
  have delivered : self.machine.step state (.deliver watcher result table) = some before := by
    simp [machine, step, idle, concerned, before]
  have built : before.building watcher = some table := Function.update_self ..
  have installed : self.machine.step before (.install watcher) =
      some { current := table, building := Function.update before.building watcher none } := by
    simp [machine, step, built]
  exact ⟨before, _, ⟨concerned, ⟨before, delivered, .refl⟩, installed⟩, rfl⟩

/-- The reloads an event starts read about the query what the trie in use was built from. -/
def ReadsAlike (self : HostsWatch Path) (query : Text) (state : HostsState self.entries) :
    HostsEvent Path self.entries → Prop
  | .deliver watcher result table =>
      watchFile (self.target watcher) result = true →
        table.about query = state.current.about query
  | .install _ => True

/-- While the reloads read alike about a query, so do all tables. -/
theorem about_of_run {self : HostsWatch Path} {query : Text} {start : HostsTable self.entries}
    {state : HostsState self.entries}
    (run : self.machine.GuardedRun (self.ReadsAlike query) (self.init start) state) :
    state.current.about query = start.about query ∧
      ∀ watcher table, state.building watcher = some table →
        table.about query = start.about query := by
  apply run.invariant
  · exact ⟨rfl, fun _ _ found => by cases found⟩
  · rintro state next event ⟨inUse, underWay⟩ alike stepped
    cases moves_of_step stepped with
    | ignores => exact ⟨inUse, underWay⟩
    | starts watcher result table idle concerned =>
        refine ⟨inUse, fun other read found => ?_⟩
        by_cases same : other = watcher
        · subst same
          simp only [Function.update_self, Option.some.injEq] at found
          rw [← found]
          exact (alike concerned).trans inUse
        · simp only [Function.update_of_ne same] at found
          exact underWay other read found
    | installs watcher table built =>
        refine ⟨underWay watcher table built, fun other read found => ?_⟩
        by_cases same : other = watcher
        · subst same
          simp at found
        · simp only [Function.update_of_ne same] at found
          exact underWay other read found

/-- A reload in which a file is lost leaves every lookup as it was. -/
def KeepsOnFailure (self : HostsWatch Path) (start : HostsTable self.entries) : Prop :=
  ∀ watcher result table first before after,
    self.machine.Run (self.init start) first →
    self.Reloads watcher result table first before after →
    (∃ source ∈ table.sources, source.IsLost) →
    ∀ query, after.current.trie.lookup query = first.current.trie.lookup query

end HostsWatch

end Rsdns.Plugins
