import Rsdns.Groups.Inline
import Rsdns.Library.Machine

/-!
# Concurrent reloads of one group

Every file of a group has a watcher of its own, so reloads run beside each
other.  A reload reads the files, exchanges the fingerprint, reads the version
and installs its trie, and anything may happen between two of these steps.
-/

namespace Rsdns.Plugins

open Common

/-- How far a reload has come since it read the files. -/
inductive Reload where
  | failed
  | read (domains : List Text)
  | skipped (domains : List Text)
  | changed (domains : List Text)
  | building (domains : List Text) (version : Nat)
  | installed (domains : List Text)
  deriving DecidableEq

namespace Reload

def IsFinished : Reload → Prop
  | failed => True
  | skipped _ => True
  | installed _ => True
  | _ => False

instance (reload : Reload) : Decidable reload.IsFinished := by
  cases reload <;> unfold IsFinished <;> infer_instance

def domains : Reload → Option (List Text)
  | failed => none
  | read domains => some domains
  | skipped domains => some domains
  | changed domains => some domains
  | building domains _ => some domains
  | installed domains => some domains

def compared : Reload → Option (List Text)
  | failed => none
  | read _ => none
  | skipped domains => some domains
  | changed domains => some domains
  | building domains _ => some domains
  | installed domains => some domains

def replaced : Reload → Option (List Text)
  | changed domains => some domains
  | building domains _ => some domains
  | installed domains => some domains
  | _ => none

def shown : Reload → Option (List Text)
  | installed domains => some domains
  | _ => none

end Reload

/-- `due` counts the calls that have not read the files yet; the others stand in the
order in which they read them. -/
structure ReloadState where
  disk : Files
  group : GroupState
  due : Nat
  reloads : List Reload

inductive ReloadEvent where
  | modify (disk : Files)
  | notify
  | read
  | advance (index : Nat)

namespace ReloadState

def startReload (disk : Files) (files : List Text) : Reload :=
  match readFileDomains disk files with
  | some domains => .read domains
  | none => .failed

def next (group : GroupState) : Reload → Option (GroupState × Reload)
  | .read domains =>
      if group.lastFiles = some (sortUnstable domains) then some (group, .skipped domains)
      else some ({ group with lastFiles := some (sortUnstable domains) }, .changed domains)
  | .changed domains => some (group, .building domains (group.current.version + 1))
  | .building domains version =>
      some ({ group with current := buildGroupTrie group.inlineDomains domains version },
        .installed domains)
  | .failed => none
  | .skipped _ => none
  | .installed _ => none

/-- A change of a file makes its watcher call the reload; a watcher may also call it
without one. -/
def step (state : ReloadState) : ReloadEvent → Option ReloadState
  | .modify disk => some { state with disk := disk, due := state.due + 1 }
  | .notify => some { state with due := state.due + 1 }
  | .read =>
      if state.due = 0 then none
      else
        some { state with
          due := state.due - 1
          reloads := state.reloads ++ [startReload state.disk state.group.files] }
  | .advance index => do
      let reload ← state.reloads[index]?
      let (group, reload) ← next state.group reload
      return { state with group := group, reloads := state.reloads.set index reload }

def start (cfg : GroupConfig) (disk : Files) : ReloadState where
  disk := disk
  group := Groups.initState disk cfg
  due := 0
  reloads := []

def Quiet (state : ReloadState) : Prop :=
  state.due = 0 ∧ ∀ reload ∈ state.reloads, reload.IsFinished

instance (state : ReloadState) : Decidable state.Quiet :=
  inferInstanceAs (Decidable (_ ∧ _))

/-- The active trie is the one of the files as they are, if they can be read. -/
def UpToDate (state : ReloadState) : Prop :=
  ∀ domains, readFileDomains state.disk state.group.files = some domains →
    ∃ version, state.group.current = buildGroupTrie state.group.inlineDomains domains version

def aspectAt (aspect : Reload → Option (List Text)) (reloads : List Reload) (index : Nat) :
    Option (List Text) :=
  reloads[index]?.bind aspect

/-- No reload that read the files later, and found other domains, has got past `aspect`. -/
def NotOvertaken (aspect : Reload → Option (List Text)) (reloads : List Reload) (index : Nat)
    (domains : List Text) : Prop :=
  ∀ later, index < later → ∀ others, aspectAt aspect reloads later = some others →
    sortUnstable others = sortUnstable domains

/-- A reload exchanges the fingerprint and installs its trie in the order of the reading. -/
def InOrder (state : ReloadState) : ReloadEvent → Prop
  | .advance index =>
      match state.reloads[index]? with
      | some (.read domains) => NotOvertaken Reload.compared state.reloads index domains
      | some (.building domains _) => NotOvertaken Reload.shown state.reloads index domains
      | _ => True
  | _ => True

end ReloadState

def reloadMachine : Machine ReloadState ReloadEvent := ⟨ReloadState.step⟩

namespace ReloadState

/-! ### The steps of one reload -/

/-- All that one step of a reload can do. -/
inductive Moves (group : GroupState) : Reload → GroupState → Reload → Prop where
  | skips (domains) (same : group.lastFiles = some (sortUnstable domains)) :
      Moves group (.read domains) group (.skipped domains)
  | replaces (domains) (differs : group.lastFiles ≠ some (sortUnstable domains)) :
      Moves group (.read domains) { group with lastFiles := some (sortUnstable domains) }
        (.changed domains)
  | readsVersion (domains) :
      Moves group (.changed domains) group (.building domains (group.current.version + 1))
  | installs (domains version) :
      Moves group (.building domains version)
        { group with current := buildGroupTrie group.inlineDomains domains version }
        (.installed domains)

theorem moves_of_next {group group' : GroupState} {reload reload' : Reload}
    (moved : next group reload = some (group', reload')) : Moves group reload group' reload' := by
  cases reload with
  | read domains =>
      simp only [next] at moved
      split at moved
      · next same =>
          cases moved
          exact .skips domains same
      · next differs =>
          cases moved
          exact .replaces domains differs
  | changed domains =>
      cases moved
      exact .readsVersion domains
  | building domains version =>
      cases moved
      exact .installs domains version
  | failed | skipped _ | installed _ => cases moved

theorem Moves.domains_eq {group group' : GroupState} {reload reload' : Reload}
    (moves : Moves group reload group' reload') : reload'.domains = reload.domains := by
  cases moves <;> rfl

/-- A reload that no other disturbs does what the whole function does. -/
theorem undisturbed_reload {state : ReloadState} {due : Nat} (called : state.due = due + 1) :
    ∃ reload : Reload, reload.IsFinished ∧
      reloadMachine.Run state
        { disk := state.disk
          group := reloadGroup state.disk state.group
          due := due
          reloads := state.reloads ++ [reload] } := by
  have reads : reloadMachine.step state .read = some
      { state with
        due := due
        reloads := state.reloads ++ [startReload state.disk state.group.files] } := by
    simp [reloadMachine, step, called]
  have advances : ∀ {group group' : GroupState} {reload reload' : Reload},
      next group reload = some (group', reload') →
      reloadMachine.step
          { disk := state.disk, group := group, due := due, reloads := state.reloads ++ [reload] }
          (.advance state.reloads.length) =
        some { disk := state.disk, group := group', due := due,
               reloads := state.reloads ++ [reload'] } := by
    intro group group' reload reload' moved
    simp [reloadMachine, step, moved]
  have here : reloadMachine.Run state state := .refl
  have started := here.step trivial reads
  unfold reloadGroup
  unfold startReload at started
  cases read : readFileDomains state.disk state.group.files with
  | none =>
      rw [read] at started
      exact ⟨.failed, trivial, started⟩
  | some domains =>
      rw [read] at started
      dsimp only at started ⊢
      split
      · next same =>
          have skipped : next state.group (.read domains) =
              some (state.group, .skipped domains) := by
            rw [next, if_pos same]
          exact ⟨.skipped domains, trivial, .step started trivial (advances skipped)⟩
      · next differs =>
          have replaced : next state.group (.read domains) =
              some ({ state.group with lastFiles := some (sortUnstable domains) },
                .changed domains) := by
            rw [next, if_neg differs]
          have changed := Machine.GuardedRun.step started trivial (advances replaced)
          have building := Machine.GuardedRun.step changed trivial (advances rfl)
          exact ⟨.installed domains, trivial, .step building trivial (advances rfl)⟩

/-! ### Reloads by their index -/

theorem aspectAt_set {aspect : Reload → Option (List Text)} {reloads : List Reload}
    {index : Nat} {old new : Reload} (found : reloads[index]? = some old) (other : Nat) :
    aspectAt aspect (reloads.set index new) other =
      if other = index then aspect new else aspectAt aspect reloads other := by
  have bound := (List.getElem?_eq_some_iff.mp found).1
  unfold aspectAt
  split
  · next same =>
      subst same
      rw [List.getElem?_set_self bound, Option.bind_some]
  · next different => rw [List.getElem?_set_ne (Ne.symm different)]

theorem aspectAt_set_of_same (aspect : Reload → Option (List Text)) {reloads : List Reload}
    {index : Nat} {old : Reload} (new : Reload) (found : reloads[index]? = some old)
    (same : aspect new = aspect old) :
    aspectAt aspect (reloads.set index new) = aspectAt aspect reloads := by
  funext other
  rw [aspectAt_set found]
  split
  · next here =>
      subst here
      rw [aspectAt, found, Option.bind_some, same]
  · rfl

theorem aspectAt_concat_of_none {aspect : Reload → Option (List Text)} {new : Reload}
    (absent : aspect new = none) (reloads : List Reload) :
    aspectAt aspect (reloads ++ [new]) = aspectAt aspect reloads := by
  funext index
  unfold aspectAt
  rcases Nat.lt_trichotomy index reloads.length with inside | last | outside
  · rw [List.getElem?_append_left inside]
  · subst last
    rw [List.getElem?_concat_length, Option.bind_some, absent, List.getElem?_eq_none (le_refl _)]
    rfl
  · rw [List.getElem?_eq_none (by simp; omega), List.getElem?_eq_none (by omega)]

/-- What the last reload to read the files has read. -/
def newest (initial : Option (List Text)) (reloads : List Reload) : Option (List Text) :=
  (reloads.map Reload.domains).getLast?.getD initial

theorem newest_set {reloads : List Reload} {index : Nat} {old new : Reload}
    (found : reloads[index]? = some old) (same : new.domains = old.domains)
    (initial : Option (List Text)) :
    newest initial (reloads.set index new) = newest initial reloads := by
  have unchanged : (reloads.set index new).map Reload.domains = reloads.map Reload.domains := by
    apply List.ext_getElem?
    intro other
    rw [List.getElem?_map, List.getElem?_map]
    by_cases here : index = other
    · subst here
      have bound := (List.getElem?_eq_some_iff.mp found).1
      rw [List.getElem?_set_self bound, found, Option.map_some, Option.map_some, same]
    · rw [List.getElem?_set_ne here]
  rw [newest, newest, unchanged]

/-! ### What a run in order keeps -/

/-- The fingerprint is the one of the last reload that has been there, and the active trie
the one of the last reload that has installed one. -/
structure Settled (cfg : GroupConfig) (disk : Files) (state : ReloadState) : Prop where
  inlineDomains : state.group.inlineDomains = (GroupState.buildFrom cfg).inlineDomains
  files : state.group.files = (GroupState.buildFrom cfg).files
  seen : state.due = 0 →
    newest (readFileDomains disk state.group.files) state.reloads =
      readFileDomains state.disk state.group.files
  unmarked : state.group.lastFiles = none →
    ∀ index, aspectAt Reload.compared state.reloads index = none
  marked : ∀ fingerprint, state.group.lastFiles = some fingerprint →
    ∃ index domains, aspectAt Reload.replaced state.reloads index = some domains ∧
      sortUnstable domains = fingerprint ∧
      NotOvertaken Reload.compared state.reloads index domains
  active : (∃ index domains version, aspectAt Reload.shown state.reloads index = some domains ∧
      state.group.current = buildGroupTrie state.group.inlineDomains domains version ∧
      NotOvertaken Reload.shown state.reloads index domains) ∨
    ((∀ index, aspectAt Reload.shown state.reloads index = none) ∧
      state.group.current = (Groups.initState disk cfg).current)

theorem settled_start (cfg : GroupConfig) (disk : Files) : Settled cfg disk (start cfg disk) := by
  have loaded := Groups.loaded_initState disk cfg
  refine ⟨loaded.inlineDomains, loaded.files, fun _ => rfl, fun _ _ => rfl, ?_,
    .inr ⟨fun _ => rfl, rfl⟩⟩
  intro fingerprint marked
  cases (Groups.lastFiles_initState disk cfg).symm.trans marked

theorem settled_called {cfg : GroupConfig} {initial : Files} {state : ReloadState}
    (settled : Settled cfg initial state) (disk : Files) :
    Settled cfg initial { state with disk := disk, due := state.due + 1 } :=
  ⟨settled.inlineDomains, settled.files, nofun, settled.unmarked, settled.marked,
    settled.active⟩

/-- Of the reloads only what they have read last, compared, replaced and shown counts. -/
theorem Settled.withReloads {cfg : GroupConfig} {initial : Files} {state : ReloadState}
    (settled : Settled cfg initial state) {due : Nat} {reloads : List Reload}
    (seen : due = 0 → newest (readFileDomains initial state.group.files) reloads =
      readFileDomains state.disk state.group.files)
    (compared : aspectAt Reload.compared reloads = aspectAt Reload.compared state.reloads)
    (replaced : aspectAt Reload.replaced reloads = aspectAt Reload.replaced state.reloads)
    (shown : aspectAt Reload.shown reloads = aspectAt Reload.shown state.reloads) :
    Settled cfg initial { state with due := due, reloads := reloads } := by
  refine ⟨settled.inlineDomains, settled.files, seen, fun unmarked => ?_,
    fun fingerprint marked => ?_, ?_⟩
  · rw [compared]
    exact settled.unmarked unmarked
  · unfold NotOvertaken
    rw [compared, replaced]
    exact settled.marked fingerprint marked
  · unfold NotOvertaken
    rw [shown]
    exact settled.active

theorem domains_startReload (disk : Files) (files : List Text) :
    (startReload disk files).domains = readFileDomains disk files := by
  unfold startReload
  cases readFileDomains disk files <;> rfl

theorem settled_read {cfg : GroupConfig} {initial : Files} {state : ReloadState}
    (settled : Settled cfg initial state) (due : Nat) :
    Settled cfg initial { state with
      due := due
      reloads := state.reloads ++ [startReload state.disk state.group.files] } := by
  have new : ∀ aspect : Reload → Option (List Text),
      (∀ domains, aspect (.read domains) = none) → aspect .failed = none →
      aspectAt aspect (state.reloads ++ [startReload state.disk state.group.files]) =
        aspectAt aspect state.reloads := by
    intro aspect ofRead ofFailed
    apply aspectAt_concat_of_none
    unfold startReload
    split
    · exact ofRead _
    · exact ofFailed
  refine settled.withReloads (fun _ => ?_) (new Reload.compared (fun _ => rfl) rfl)
    (new Reload.replaced (fun _ => rfl) rfl) (new Reload.shown (fun _ => rfl) rfl)
  simp [newest, domains_startReload]

theorem settled_advance {cfg : GroupConfig} {initial : Files} {state : ReloadState}
    (settled : Settled cfg initial state) {index : Nat} {reload reload' : Reload}
    {group : GroupState} (found : state.reloads[index]? = some reload)
    (inOrder : InOrder state (.advance index)) (moves : Moves state.group reload group reload') :
    Settled cfg initial
      { state with group := group, reloads := state.reloads.set index reload' } := by
  simp only [InOrder, found] at inOrder
  have seen : state.due = 0 →
      newest (readFileDomains initial state.group.files) (state.reloads.set index reload') =
        readFileDomains state.disk state.group.files := by
    rw [newest_set found moves.domains_eq]
    exact settled.seen
  cases moves with
  | skips domains same =>
      have replaced := aspectAt_set_of_same Reload.replaced (.skipped domains) found rfl
      have shown := aspectAt_set_of_same Reload.shown (.skipped domains) found rfl
      refine ⟨settled.inlineDomains, settled.files, seen, fun unmarked => ?_,
        fun fingerprint marked => ?_, ?_⟩
      · cases unmarked.symm.trans same
      · obtain ⟨setter, set, isSetter, print, kept⟩ := settled.marked fingerprint marked
        refine ⟨setter, set, by rw [replaced]; exact isSetter, print, ?_⟩
        intro later after others compared
        rw [aspectAt_set found] at compared
        split at compared
        · cases compared
          rw [print]
          exact Option.some.inj (same.symm.trans marked)
        · exact kept later after others compared
      · unfold NotOvertaken
        rw [shown]
        exact settled.active
  | replaces domains differs =>
      have shown := aspectAt_set_of_same Reload.shown (.changed domains) found rfl
      refine ⟨settled.inlineDomains, settled.files, seen, nofun, fun fingerprint marked => ?_, ?_⟩
      · refine ⟨index, domains, ?_, Option.some.inj marked, ?_⟩
        · rw [aspectAt_set found, if_pos rfl]
          rfl
        · intro later after others compared
          rw [aspectAt_set found, if_neg (Nat.ne_of_gt after)] at compared
          exact inOrder later after others compared
      · unfold NotOvertaken
        rw [shown]
        exact settled.active
  | readsVersion domains =>
      have same : ∀ aspect : Reload → Option (List Text),
          aspect (.building domains (state.group.current.version + 1)) =
            aspect (.changed domains) →
          aspectAt aspect (state.reloads.set index
            (.building domains (state.group.current.version + 1))) =
            aspectAt aspect state.reloads :=
        fun aspect => aspectAt_set_of_same aspect _ found
      exact settled.withReloads seen (same Reload.compared rfl) (same Reload.replaced rfl)
        (same Reload.shown rfl)
  | installs domains version =>
      have compared := aspectAt_set_of_same Reload.compared (.installed domains) found rfl
      have replaced := aspectAt_set_of_same Reload.replaced (.installed domains) found rfl
      refine ⟨settled.inlineDomains, settled.files, seen, fun unmarked => ?_,
        fun fingerprint marked => ?_, .inl ⟨index, domains, version, ?_, rfl, ?_⟩⟩
      · rw [compared]
        exact settled.unmarked unmarked
      · unfold NotOvertaken
        rw [compared, replaced]
        exact settled.marked fingerprint marked
      · rw [aspectAt_set found, if_pos rfl]
        rfl
      · intro later after others shown
        rw [aspectAt_set found, if_neg (Nat.ne_of_gt after)] at shown
        exact inOrder later after others shown

theorem settled_step {cfg : GroupConfig} {initial : Files} {state next : ReloadState}
    {event : ReloadEvent} (settled : Settled cfg initial state) (inOrder : InOrder state event)
    (stepped : state.step event = some next) : Settled cfg initial next := by
  cases event with
  | modify disk =>
      cases stepped
      exact settled_called settled disk
  | notify =>
      cases stepped
      exact settled_called settled state.disk
  | read =>
      simp only [step] at stepped
      split at stepped
      · cases stepped
      · cases stepped
        exact settled_read settled _
  | advance index =>
      simp only [step, bind, Option.bind_eq_some_iff] at stepped
      obtain ⟨reload, found, ⟨group, reload'⟩, moved, same⟩ := stepped
      cases same
      exact settled_advance settled found inOrder (moves_of_next moved)

/-! ### The end of a run -/

theorem shown_of_replaced {reload : Reload} (finished : reload.IsFinished) :
    reload.shown = reload.replaced := by
  cases reload with
  | failed | skipped _ | installed _ => rfl
  | read _ | changed _ | building _ _ => exact absurd finished id

theorem compared_of_finished {reload : Reload} (finished : reload.IsFinished) :
    reload.compared = reload.domains := by
  cases reload with
  | failed | skipped _ | installed _ => rfl
  | read _ | changed _ | building _ _ => exact absurd finished id

theorem aspectAt_congr {reloads : List Reload} {aspect other : Reload → Option (List Text)}
    (same : ∀ reload ∈ reloads, aspect reload = other reload) :
    aspectAt aspect reloads = aspectAt other reloads := by
  funext index
  unfold aspectAt
  cases found : reloads[index]? with
  | none => rfl
  | some reload => exact same reload (List.mem_of_getElem? found)

theorem lt_length_of_aspectAt {aspect : Reload → Option (List Text)} {reloads : List Reload}
    {index : Nat} {domains : List Text} (holds : aspectAt aspect reloads index = some domains) :
    index < reloads.length := by
  obtain ⟨_, present, _⟩ := Option.bind_eq_some_iff.mp holds
  exact (List.getElem?_eq_some_iff.mp present).1

theorem compared_of_shown {reloads : List Reload} {index : Nat} {domains : List Text}
    (shown : aspectAt Reload.shown reloads index = some domains) :
    aspectAt Reload.compared reloads index = some domains := by
  obtain ⟨reload, present, isShown⟩ := Option.bind_eq_some_iff.mp shown
  rw [aspectAt, present, Option.bind_some]
  cases reload with
  | installed domains => exact isShown
  | failed | read _ | skipped _ | changed _ | building _ _ => cases isShown

theorem upToDate_of_no_reloads {cfg : GroupConfig} {initial : Files} {state : ReloadState}
    (settled : Settled cfg initial state) (noneDue : state.due = 0) (nobody : state.reloads = []) :
    state.UpToDate := by
  intro domains read
  have initially := (settled.seen noneDue).trans read
  rw [nobody, settled.files] at initially
  change readFileDomains initial (GroupState.buildFrom cfg).files = some domains at initially
  rcases settled.active with ⟨index, shownDomains, _, shown, _⟩ | ⟨_, untouched⟩
  · rw [nobody] at shown
    cases shown
  · refine ⟨0, ?_⟩
    rw [untouched, settled.inlineDomains, Groups.initState]
    simp only [initially]

theorem compared_last {state : ReloadState} (finished : ∀ reload ∈ state.reloads, reload.IsFinished)
    (initial : Option (List Text)) (nonempty : state.reloads ≠ []) :
    aspectAt Reload.compared state.reloads (state.reloads.length - 1) =
      newest initial state.reloads := by
  have last := List.getLast?_eq_some_getLast nonempty
  have comparedIs := compared_of_finished (finished _ (List.getLast_mem nonempty))
  rw [newest, List.getLast?_map, last, Option.map_some, Option.getD_some, ← comparedIs, aspectAt,
    ← List.getLast?_eq_getElem?, last, Option.bind_some]

/-- The last reload found what the fingerprint stands for. -/
theorem sortUnstable_last {reloads : List Reload} {setter : Nat} {set last : List Text}
    (shown : aspectAt Reload.shown reloads setter = some set)
    (kept : NotOvertaken Reload.compared reloads setter set)
    (atEnd : aspectAt Reload.compared reloads (reloads.length - 1) = some last) :
    sortUnstable last = sortUnstable set := by
  have inside := lt_length_of_aspectAt shown
  rcases Nat.lt_or_ge setter (reloads.length - 1) with before | atLast
  · exact kept _ before last atEnd
  · have same : setter = reloads.length - 1 := by omega
    subst same
    cases (compared_of_shown shown).symm.trans atEnd
    rfl

theorem upToDate_of_settled {cfg : GroupConfig} {initial : Files} {state : ReloadState}
    (settled : Settled cfg initial state) (quiet : state.Quiet) : state.UpToDate := by
  obtain ⟨noneDue, finished⟩ := quiet
  by_cases nobody : state.reloads = []
  · exact upToDate_of_no_reloads settled noneDue nobody
  · intro domains read
    have atEnd : aspectAt Reload.compared state.reloads (state.reloads.length - 1) =
        some domains :=
      (compared_last finished _ nobody).trans ((settled.seen noneDue).trans read)
    cases mark : state.group.lastFiles with
    | none => cases (settled.unmarked mark _).symm.trans atEnd
    | some fingerprint =>
        obtain ⟨setter, set, isSetter, print, kept⟩ := settled.marked fingerprint mark
        have isShown := aspectAt_congr fun reload member =>
          shown_of_replaced (finished reload member)
        have shown := (congrFun isShown setter).trans isSetter
        have fresh := sortUnstable_last shown kept atEnd
        rcases settled.active with ⟨index, active, version, isActive, current, newer⟩ | ⟨none, _⟩
        · refine ⟨version, current.trans (buildGroupTrie_of_sortUnstable_eq ?_ _ _)⟩
          rw [fresh]
          rcases Nat.lt_trichotomy setter index with before | same | after
          · exact kept index before active (compared_of_shown isActive)
          · subst same
            cases isActive.symm.trans shown
            rfl
          · exact (newer setter after set shown).symm
        · cases (none setter).symm.trans shown

end ReloadState

/-- Once every reload of a run in order has finished, the active trie is the one of the
files as they are. -/
theorem reloads_in_order_reach_files {cfg : GroupConfig} {disk : Files} {state : ReloadState}
    (run : reloadMachine.GuardedRun ReloadState.InOrder (ReloadState.start cfg disk) state)
    (quiet : state.Quiet) : state.UpToDate := by
  have settled : ReloadState.Settled cfg disk state := by
    apply run.invariant
    · exact ReloadState.settled_start cfg disk
    · exact ReloadState.settled_step
  exact ReloadState.upToDate_of_settled settled quiet

/-- Only the reload that read the files last goes on. -/
def AdvancesLast (state : ReloadState) : ReloadEvent → Prop
  | .advance index => index + 1 = state.reloads.length
  | _ => True

instance (state : ReloadState) (event : ReloadEvent) : Decidable (AdvancesLast state event) := by
  cases event <;> unfold AdvancesLast <;> infer_instance

theorem inOrder_of_advancesLast {state : ReloadState} {event : ReloadEvent}
    (last : AdvancesLast state event) : ReloadState.InOrder state event := by
  cases event with
  | modify _ | notify | read => trivial
  | advance index =>
      have nobodyLater : ∀ aspect domains,
          ReloadState.NotOvertaken aspect state.reloads index domains := by
        intro aspect domains later after others found
        have inside := ReloadState.lt_length_of_aspectAt found
        have last : index + 1 = state.reloads.length := last
        omega
      unfold ReloadState.InOrder
      dsimp only
      split
      · exact nobodyLater _ _
      · exact nobodyLater _ _
      · trivial

/-- A group of two files, each with a watcher of its own. -/
def twoFiles : GroupConfig := ⟨"g".toList, ["file:/x".toList, "file:/y".toList], false, false⟩

def contents (first second : Text) : Files := fun path =>
  if path = "/x".toList then some first
  else if path = "/y".toList then some second
  else none

/-- Both files have changed and been reloaded, one after the other. -/
theorem reloads_in_turn_reach_files :
    ∃ state, reloadMachine.GuardedRun ReloadState.InOrder
        (ReloadState.start twoFiles (contents [] [])) state ∧
      state.Quiet ∧ state.UpToDate := by
  let events : List ReloadEvent :=
    [.modify (contents "a".toList []), .read, .advance 0, .advance 0, .advance 0,
      .modify (contents "a".toList "b".toList), .read, .advance 1, .advance 1, .advance 1]
  have checked : (reloadMachine.execWhile AdvancesLast
      (ReloadState.start twoFiles (contents [] [])) events).any
      (fun state => decide state.Quiet) = true := by decide +kernel
  obtain ⟨state, executed, quiet⟩ := (Option.any_eq_true _ _).mp checked
  have run := (Machine.GuardedRun.of_execWhile .refl executed).mono inOrder_of_advancesLast
  have quiet := of_decide_eq_true quiet
  exact ⟨state, run, quiet, reloads_in_order_reach_files run quiet⟩

/-- The reload of the second change installs its trie before the reload of the first one
does; the reload after them finds the fingerprint of the files and leaves the older trie. -/
theorem overtaken_reload_is_lost :
    ∃ state, reloadMachine.Run (ReloadState.start twoFiles (contents [] [])) state ∧
      state.Quiet ∧ ¬ state.UpToDate := by
  let events : List ReloadEvent :=
    [.modify (contents "a".toList []), .read, .modify (contents "a".toList "b".toList), .read,
      .advance 0, .advance 1, .advance 1, .advance 1, .advance 0, .advance 0,
      .notify, .read, .advance 2]
  let stale (state : ReloadState) : Bool :=
    readFileDomains state.disk state.group.files == some ["a".toList, "b".toList] &&
      state.group.inlineDomains == [] && (state.group.current.trie.lookup "b".toList).isNone
  have checked : (reloadMachine.execWhile (fun _ _ => True)
      (ReloadState.start twoFiles (contents [] [])) events).any
      (fun state => decide state.Quiet && stale state) = true := by decide +kernel
  obtain ⟨state, executed, checks⟩ := (Option.any_eq_true _ _).mp checked
  obtain ⟨quiet, isStale⟩ := Bool.and_eq_true_iff.mp checks
  obtain ⟨⟨read, inlineDomains⟩, missing⟩ := by
    simpa only [stale, Bool.and_eq_true, beq_iff_eq] using isStale
  refine ⟨state, Machine.GuardedRun.of_execWhile .refl executed, of_decide_eq_true quiet, ?_⟩
  intro upToDate
  obtain ⟨version, current⟩ := upToDate _ read
  rw [current, inlineDomains] at missing
  have found : ((buildGroupTrie [] ["a".toList, "b".toList] 0).trie.lookup
      "b".toList).isNone = false := by decide +kernel
  cases missing.symm.trans found

end Rsdns.Plugins
