import Rsdns.Dns.LabelName
import Rsdns.Library.Machine
import Rsdns.Library.RwLock
import Rsdns.Plugins.Hosts

/-!
# Lookups and reloads of the hosts trie

The trie stands behind a reader-writer lock.  A lookup keeps its guard to the
end of the outer match and takes a second one where the name is an alias; a
reload builds its trie first and takes the lock once.
-/

namespace Rsdns.Plugins

open Dns RwLock

variable {Name : Type} [NameApi Name]

/-- How far a lookup or a reload has come. -/
inductive Call (Name : Type) where
  | called (ctx : QueryContext Name)
  | reading (ctx : QueryContext Name)
  | readingTwice (ctx : QueryContext Name) (original : Text)
  | returned (result : Step × QueryContext Name)
  | rebuilt (trie : HostsTrie)
  | waiting (trie : HostsTrie)
  | writing (trie : HostsTrie)
  | reloaded

namespace Call

def holding : Call Name → Holding
  | called _ => .nothing
  | reading _ => .reading 1
  | readingTwice _ _ => .reading 2
  | returned _ => .nothing
  | rebuilt _ => .nothing
  | waiting _ => .waiting
  | writing _ => .writing
  | reloaded => .nothing

def IsFresh : Call Name → Prop
  | called _ => True
  | rebuilt _ => True
  | _ => False

def IsFinished : Call Name → Prop
  | returned _ => True
  | reloaded => True
  | _ => False

end Call

structure LockState (Name : Type) where
  trie : HostsTrie
  calls : List (Call Name)

namespace LockState

def holdings (state : LockState Name) : List Holding := state.calls.map Call.holding

/-- The next step of a call: the trie and the call after it. -/
def next (state : LockState Name) : Call Name → Option (HostsTrie × Call Name)
  | .called ctx => if readAdmitted state.holdings then some (state.trie, .reading ctx) else none
  | .reading ctx =>
      match state.trie.lookup ctx.name with
      | .Miss => some (state.trie, .returned (.continue, ctx))
      | .Ips ips => some (state.trie, .returned (Hosts.respondData ctx ctx.name ips))
      | .Alias original =>
          if readAdmitted state.holdings then some (state.trie, .readingTwice ctx original)
          else none
  | .readingTwice ctx original =>
      some (state.trie, .returned (Hosts.handleAlias ctx original (state.trie.lookup original)))
  | .returned _ => none
  | .rebuilt trie => some (state.trie, .waiting trie)
  | .waiting trie => if writeAdmitted state.holdings then some (state.trie, .writing trie) else none
  | .writing trie => some (trie, .reloaded)
  | .reloaded => none

def step (state : LockState Name) (index : Nat) : Option (LockState Name) := do
  let call ← state.calls[index]?
  let (trie, call) ← state.next call
  return { trie := trie, calls := state.calls.set index call }

end LockState

def lockMachine : Machine (LockState Name) Nat := ⟨LockState.step⟩

/-- No reload starts to wait while a lookup that hit an alias is between its two
guards. -/
def NoReloadBetweenGuards (state : LockState Name) (index : Nat) : Prop :=
  ∀ trie, state.calls[index]? = some (.rebuilt trie) →
    ∀ ctx, .reading ctx ∈ state.calls → ∀ original, state.trie.lookup ctx.name ≠ .Alias original

namespace LockState

/-- All that one step of a call can do. -/
inductive Moves (state : LockState Name) : Call Name → HostsTrie → Call Name → Prop where
  | startsReading (ctx) (admitted : readAdmitted state.holdings = true) :
      Moves state (.called ctx) state.trie (.reading ctx)
  | answers (ctx result) (unaliased : ∀ original, state.trie.lookup ctx.name ≠ .Alias original)
      (returns : result = Hosts.handle state.trie ctx) :
      Moves state (.reading ctx) state.trie (.returned result)
  | readsAgain (ctx original) (hit : state.trie.lookup ctx.name = .Alias original)
      (admitted : readAdmitted state.holdings = true) :
      Moves state (.reading ctx) state.trie (.readingTwice ctx original)
  | answersAlias (ctx original result)
      (returns : result = Hosts.handleAlias ctx original (state.trie.lookup original)) :
      Moves state (.readingTwice ctx original) state.trie (.returned result)
  | startsWaiting (new) : Moves state (.rebuilt new) state.trie (.waiting new)
  | startsWriting (new) (admitted : writeAdmitted state.holdings = true) :
      Moves state (.waiting new) state.trie (.writing new)
  | installs (new) : Moves state (.writing new) new .reloaded

theorem moves_of_next {state : LockState Name} {call call' : Call Name} {trie : HostsTrie}
    (moved : state.next call = some (trie, call')) : state.Moves call trie call' := by
  cases call with
  | called ctx =>
      obtain ⟨admitted, same⟩ := Option.ite_none_right_eq_some.mp moved
      cases same
      exact .startsReading ctx admitted
  | reading ctx =>
      simp only [LockState.next] at moved
      cases hit : state.trie.lookup ctx.name with
      | Miss =>
          simp only [hit, Option.some.injEq, Prod.mk.injEq] at moved
          obtain ⟨rfl, rfl⟩ := moved
          exact .answers ctx _ (by simp [hit]) (by rw [Hosts.handle, hit])
      | Ips ips =>
          simp only [hit, Option.some.injEq, Prod.mk.injEq] at moved
          obtain ⟨rfl, rfl⟩ := moved
          exact .answers ctx _ (by simp [hit]) (by rw [Hosts.handle, hit])
      | Alias original =>
          rw [hit] at moved
          obtain ⟨admitted, same⟩ := Option.ite_none_right_eq_some.mp moved
          cases same
          exact .readsAgain ctx original hit admitted
  | readingTwice ctx original =>
      simp only [LockState.next, Option.some.injEq, Prod.mk.injEq] at moved
      obtain ⟨rfl, rfl⟩ := moved
      exact .answersAlias ctx original _ rfl
  | rebuilt new =>
      cases moved
      exact .startsWaiting new
  | waiting new =>
      obtain ⟨admitted, same⟩ := Option.ite_none_right_eq_some.mp moved
      cases same
      exact .startsWriting new admitted
  | writing new =>
      cases moved
      exact .installs _
  | returned result => exact absurd moved nofun
  | reloaded => exact absurd moved nofun

theorem step_cases {state next : LockState Name} {index : Nat}
    (stepped : state.step index = some next) :
    ∃ call trie call', state.calls[index]? = some call ∧ state.Moves call trie call' ∧
      next = { trie := trie, calls := state.calls.set index call' } := by
  simp only [step, bind, Option.bind_eq_some_iff] at stepped
  obtain ⟨call, found, ⟨trie, call'⟩, moved, same⟩ := stepped
  exact ⟨call, trie, call', found, moves_of_next moved, (Option.some.inj same).symm⟩

/-! ### What the lock keeps apart -/

omit [NameApi Name] in
theorem blocksReaders_of_readAdmitted {state : LockState Name}
    (admitted : readAdmitted state.holdings = true) {call : Call Name}
    (member : call ∈ state.calls) : call.holding.blocksReaders = false :=
  readAdmitted_iff.mp admitted _ (List.mem_map_of_mem member)

omit [NameApi Name] in
theorem blocksWriters_of_writeAdmitted {state : LockState Name}
    (admitted : writeAdmitted state.holdings = true) {call : Call Name}
    (member : call ∈ state.calls) : call.holding.blocksWriters = false :=
  writeAdmitted_iff.mp admitted _ (List.mem_map_of_mem member)

def Exclusive (state : LockState Name) : Prop :=
  ∀ trie, .writing trie ∈ state.calls →
    ∀ call ∈ state.calls, ∀ guards, call.holding ≠ .reading guards

omit [NameApi Name] in
theorem exclusive_set {state : LockState Name} (exclusive : state.Exclusive) {index : Nat}
    {trie : HostsTrie} {call : Call Name}
    (asWriter : call.holding = .writing →
      ∀ other ∈ state.calls, other.holding.blocksWriters = false)
    (asReader : ∀ guards, call.holding = .reading guards →
      ∀ other ∈ state.calls, other.holding.blocksReaders = false) :
    Exclusive { trie := trie, calls := state.calls.set index call } := by
  intro writerTrie writer other member guards reads
  cases List.mem_or_eq_of_mem_set writer with
  | inl oldWriter =>
      cases List.mem_or_eq_of_mem_set member with
      | inl oldOther => exact exclusive writerTrie oldWriter other oldOther guards reads
      | inr newOther =>
          subst newOther
          exact absurd (asReader guards reads _ oldWriter) nofun
  | inr newWriter =>
      subst newWriter
      cases List.mem_or_eq_of_mem_set member with
      | inl oldOther =>
          have admitted := asWriter rfl other oldOther
          rw [reads] at admitted
          exact absurd admitted nofun
      | inr newOther =>
          subst newOther
          exact absurd reads nofun

theorem exclusive_step {state next : LockState Name} {index : Nat}
    (exclusive : state.Exclusive) (stepped : state.step index = some next) :
    next.Exclusive := by
  obtain ⟨call, trie, call', _, moves, rfl⟩ := step_cases stepped
  cases moves with
  | startsReading ctx admitted | readsAgain ctx original hit admitted =>
      exact exclusive_set exclusive nofun fun _ _ _ => blocksReaders_of_readAdmitted admitted
  | startsWriting new admitted =>
      exact exclusive_set exclusive (fun _ _ => blocksWriters_of_writeAdmitted admitted) nofun
  | answers | answersAlias | startsWaiting | installs =>
      exact exclusive_set exclusive nofun nofun

/-! ### Progress -/

/-- While a reload waits, no lookup is about to take a second guard. -/
def Unnested (state : LockState Name) : Prop :=
  ∀ trie, .waiting trie ∈ state.calls →
    ∀ ctx, .reading ctx ∈ state.calls → ∀ original, state.trie.lookup ctx.name ≠ .Alias original

omit [NameApi Name] in
theorem unnested_set {state : LockState Name} (unnested : state.Unnested) {index : Nat}
    {call : Call Name}
    (asReload : ∀ trie, call = .waiting trie → ∀ ctx, .reading ctx ∈ state.calls →
      ∀ original, state.trie.lookup ctx.name ≠ .Alias original)
    (asLookup : ∀ ctx, call = .reading ctx → ∀ trie, .waiting trie ∉ state.calls) :
    Unnested { trie := state.trie, calls := state.calls.set index call } := by
  intro trie waits ctx reads
  cases List.mem_or_eq_of_mem_set waits with
  | inl oldWaits =>
      cases List.mem_or_eq_of_mem_set reads with
      | inl oldReads => exact unnested trie oldWaits ctx oldReads
      | inr newReads => exact absurd oldWaits (asLookup ctx newReads.symm trie)
  | inr newWaits =>
      cases List.mem_or_eq_of_mem_set reads with
      | inl oldReads => exact asReload trie newWaits.symm ctx oldReads
      | inr newReads => exact absurd (newWaits.trans newReads.symm) nofun

theorem unnested_step {state next : LockState Name} {index : Nat}
    (exclusive : state.Exclusive) (unnested : state.Unnested)
    (permitted : NoReloadBetweenGuards state index) (stepped : state.step index = some next) :
    next.Unnested := by
  obtain ⟨call, trie, call', found, moves, rfl⟩ := step_cases stepped
  cases moves with
  | startsReading ctx admitted =>
      apply unnested_set unnested
      · intro trie other
        exact absurd other nofun
      · intro _ _ trie waits
        exact absurd (blocksReaders_of_readAdmitted admitted waits) nofun
  | startsWaiting new =>
      apply unnested_set unnested
      · intro _ _
        exact permitted new found
      · intro ctx other
        exact absurd other nofun
  | answers | readsAgain | answersAlias | startsWriting =>
      apply unnested_set unnested
      · intro trie other
        exact absurd other nofun
      · intro ctx other
        exact absurd other nofun
  | installs =>
      -- the trie changes, but nobody is reading
      intro waitingTrie _ ctx reads
      have writes := List.mem_of_getElem? found
      cases List.mem_or_eq_of_mem_set reads with
      | inl oldReads => exact absurd rfl (exclusive trie writes _ oldReads 1)
      | inr newReads => exact absurd newReads nofun

/-- What a call asks of the lock. -/
def request (state : LockState Name) : Call Name → Request
  | .called _ => .read
  | .reading ctx =>
      match state.trie.lookup ctx.name with
      | .Alias _ => .read
      | _ => .free
  | .readingTwice _ _ => .free
  | .returned _ => .done
  | .rebuilt _ => .free
  | .waiting _ => .write
  | .writing _ => .free
  | .reloaded => .done

def client (state : LockState Name) (call : Call Name) : Client where
  holding := call.holding
  request := state.request call

omit [NameApi Name] in
theorem client_disciplined (state : LockState Name) (call : Call Name) :
    (state.client call).Disciplined := by
  cases call with
  | reading ctx =>
      have neither : state.request (.reading ctx) ≠ .write ∧
          state.request (.reading ctx) ≠ .done := by
        simp only [request]
        split <;> exact ⟨nofun, nofun⟩
      exact ⟨iff_of_false nofun neither.1, nofun, fun done => absurd done neither.2⟩
  | waiting trie => exact ⟨iff_of_true rfl rfl, nofun, nofun⟩
  | writing trie => exact ⟨iff_of_false nofun nofun, fun _ => rfl, nofun⟩
  | called _ | readingTwice _ _ | rebuilt _ => exact ⟨iff_of_false nofun nofun, nofun, nofun⟩
  | returned _ | reloaded => exact ⟨iff_of_false nofun nofun, nofun, fun _ => rfl⟩

omit [NameApi Name] in
theorem isFinished_of_done {state : LockState Name} {call : Call Name}
    (done : (state.client call).request = .done) : call.IsFinished := by
  cases call with
  | returned result => trivial
  | reloaded => trivial
  | reading ctx =>
      simp only [client, request] at done
      split at done <;> exact absurd done nofun
  | called _ | readingTwice _ _ | rebuilt _ | waiting _ | writing _ => exact absurd done nofun

omit [NameApi Name] in
/-- A lookup asks to read a second time only after an alias hit. -/
theorem holding_of_read {state : LockState Name} (unnested : state.Unnested)
    {trie : HostsTrie} (waits : .waiting trie ∈ state.calls) {call : Call Name}
    (member : call ∈ state.calls) (reads : (state.client call).request = .read) :
    (state.client call).holding = .nothing := by
  cases call with
  | called ctx => rfl
  | reading ctx =>
      simp only [client, request] at reads
      split at reads
      · next original hit => exact absurd hit (unnested trie waits ctx member original)
      · exact absurd reads nofun
  | readingTwice _ _ | returned _ | rebuilt _ | waiting _ | writing _ | reloaded =>
      exact absurd reads nofun

/-- A call whose request is granted has a next step. -/
theorem exists_next_of_granted {state : LockState Name} {call : Call Name}
    (granted : Granted (state.calls.map state.client) (state.client call)) :
    ∃ trie call', state.next call = some (trie, call') := by
  have holdings : (state.calls.map state.client).map Client.holding = state.holdings := by
    rw [List.map_map]
    rfl
  unfold Granted at granted
  rw [holdings] at granted
  cases call with
  | called ctx => exact ⟨_, _, if_pos granted⟩
  | reading ctx =>
      simp only [client, request] at granted
      simp only [LockState.next]
      cases hit : state.trie.lookup ctx.name with
      | Miss => exact ⟨_, _, rfl⟩
      | Ips ips => exact ⟨_, _, rfl⟩
      | Alias original =>
          rw [hit] at granted
          exact ⟨_, _, if_pos granted⟩
  | readingTwice ctx original => exact ⟨_, _, rfl⟩
  | rebuilt trie => exact ⟨_, _, rfl⟩
  | waiting trie => exact ⟨_, _, if_pos granted⟩
  | writing trie => exact ⟨_, _, rfl⟩
  | returned result => exact absurd granted id
  | reloaded => exact absurd granted id

theorem enabled_of_next {state : LockState Name} {call call' : Call Name} {trie : HostsTrie}
    (member : call ∈ state.calls) (moved : state.next call = some (trie, call')) :
    lockMachine.Enabled state := by
  obtain ⟨index, found⟩ := List.mem_iff_getElem?.mp member
  refine ⟨index, { trie := trie, calls := state.calls.set index call' }, ?_⟩
  simp only [lockMachine, step, bind, found, Option.bind_some, moved]
  rfl

end LockState

open LockState

/-- In a run in which no reload starts to wait between the two guards of a lookup
there is always a call that can go on, until all are finished. -/
theorem lookups_and_reloads_progress {start state : LockState Name}
    (fresh : ∀ call ∈ start.calls, call.IsFresh)
    (run : lockMachine.GuardedRun NoReloadBetweenGuards start state)
    (unfinished : ∃ call ∈ state.calls, ¬ call.IsFinished) :
    lockMachine.Enabled state := by
  have orderly : state.Exclusive ∧ state.Unnested := by
    apply run.invariant
    · constructor
      · intro trie writes
        exact absurd (fresh _ writes) id
      · intro trie waits
        exact absurd (fresh _ waits) id
    · intro state next index holds permitted stepped
      exact ⟨exclusive_step holds.1 stepped, unnested_step holds.1 holds.2 permitted stepped⟩
  have disciplined : ∀ client ∈ state.calls.map state.client, client.Disciplined :=
    List.forall_mem_map.mpr fun call _ => state.client_disciplined call
  have noNesting : (∃ client ∈ state.calls.map state.client, client.holding = .waiting) →
      ∀ client ∈ state.calls.map state.client, client.request = .read →
        client.holding = .nothing := by
    intro waiting
    obtain ⟨waiter, waiterMember, waits⟩ := waiting
    obtain ⟨writer, writerMember, rfl⟩ := List.mem_map.mp waiterMember
    cases writer with
    | waiting trie =>
        exact List.forall_mem_map.mpr fun call member =>
          holding_of_read orderly.2 writerMember member
    | called _ | reading _ | readingTwice _ _ | returned _ | rebuilt _ | writing _ | reloaded =>
        exact absurd waits nofun
  have someLeft : ∃ client ∈ state.calls.map state.client, client.request ≠ .done := by
    obtain ⟨call, member, notFinished⟩ := unfinished
    exact ⟨state.client call, List.mem_map_of_mem member, mt isFinished_of_done notFinished⟩
  obtain ⟨client, member, granted⟩ := exists_granted disciplined noNesting someLeft
  obtain ⟨call, callMember, rfl⟩ := List.mem_map.mp member
  obtain ⟨trie, call', moved⟩ := exists_next_of_granted granted
  exact enabled_of_next callMember moved

/-! ### The deadlock -/

/-- A reload starts to wait while the lookup of an alias holds its first guard: the
lookup cannot take the second one, and the reload waits for the first. -/
theorem reload_between_guards_deadlocks :
    ∃ start state : LockState LabelName,
      (∀ call ∈ start.calls, call.IsFresh) ∧ lockMachine.Run start state ∧
      (∃ call ∈ state.calls, ¬ call.IsFinished) ∧ ¬ lockMachine.Enabled state := by
  let trie := (HostsTrieBuilder.new.insertAlias "a".toList "b".toList).build
  let ctx : QueryContext LabelName :=
    .new (LabelName.ask ⟨["a".toList], true⟩ .A) (List.cons_ne_nil _ _)
      { name := "a".toList, qtype := .A }
  let start : LockState LabelName :=
    { trie := trie, calls := [.called ctx, .rebuilt HostsTrieBuilder.new.build] }
  let stuck : LockState LabelName :=
    { trie := trie, calls := [.reading ctx, .waiting HostsTrieBuilder.new.build] }
  have hit : trie.lookup ctx.name = .Alias "b".toList := by decide
  have executed : lockMachine.execWhile (fun _ _ => True) start [0, 1] = some stuck := rfl
  refine ⟨start, stuck, ?_, .of_execWhile .refl executed, ⟨_, List.mem_cons_self, id⟩, ?_⟩
  · intro call member
    cases List.mem_pair.mp member with
    | inl first => exact first ▸ trivial
    | inr second => exact second ▸ trivial
  · rintro ⟨index, next, stepped⟩
    obtain ⟨call, trie', call', found, moves, _⟩ := step_cases stepped
    have member := List.mem_of_getElem? found
    cases List.mem_pair.mp member with
    | inl first =>
        subst first
        cases moves with
        | answers _ _ unaliased => exact unaliased _ hit
        | readsAgain _ _ _ admitted => exact absurd admitted (by decide)
    | inr second =>
        subst second
        cases moves with
        | startsWriting _ admitted => exact absurd admitted (by decide)

/-- A lookup of an alias and a reload, one after the other. -/
theorem lookup_before_reload_progresses :
    ∃ start state : LockState LabelName,
      lockMachine.GuardedRun NoReloadBetweenGuards start state ∧
      (∃ call ∈ state.calls, ¬ call.IsFinished) ∧ lockMachine.Enabled state := by
  let trie := (HostsTrieBuilder.new.insertAlias "a".toList "b".toList).build
  let ctx : QueryContext LabelName :=
    .new (LabelName.ask ⟨["a".toList], true⟩ .A) (List.cons_ne_nil _ _)
      { name := "a".toList, qtype := .A }
  let reload : Call LabelName := .rebuilt HostsTrieBuilder.new.build
  let start : LockState LabelName := { trie := trie, calls := [.called ctx, reload] }
  let first : LockState LabelName := { trie := trie, calls := [.reading ctx, reload] }
  let second : LockState LabelName :=
    { trie := trie, calls := [.readingTwice ctx "b".toList, reload] }
  let third : LockState LabelName :=
    { trie := trie, calls := [.readingTwice ctx "b".toList, .waiting HostsTrieBuilder.new.build] }
  have firstGuard : lockMachine.step start 0 = some first := rfl
  have secondGuard : lockMachine.step first 0 = some second := rfl
  have waits : lockMachine.step second 1 = some third := rfl
  have noneReads : NoReloadBetweenGuards second 1 := by
    intro _ _ other reads
    cases List.mem_pair.mp reads with
    | inl isLookup => exact absurd isLookup nofun
    | inr isReload => exact absurd isReload nofun
  have notReload : NoReloadBetweenGuards start 0 ∧ NoReloadBetweenGuards first 0 := by
    constructor <;>
      · intro trie isReload
        cases isReload
  have run : lockMachine.GuardedRun NoReloadBetweenGuards start third :=
    .step (.step (.step .refl notReload.1 firstGuard) notReload.2 secondGuard) noneReads waits
  have fresh : ∀ call ∈ start.calls, call.IsFresh := by
    intro call member
    cases List.mem_pair.mp member with
    | inl isLookup => exact isLookup ▸ trivial
    | inr isReload => exact isReload ▸ trivial
  have unfinished : ∃ call ∈ third.calls, ¬ call.IsFinished := ⟨_, List.mem_cons_self, id⟩
  exact ⟨start, third, run, unfinished, lookups_and_reloads_progress fresh run unfinished⟩

/-! ### A lookup sees one trie -/

/-- How far the lookup of `ctx` has come, as the trie stands. -/
def Follows (ctx : QueryContext Name) (trie : HostsTrie) : Call Name → Prop
  | .called started => started = ctx
  | .reading started => started = ctx
  | .readingTwice started original => started = ctx ∧ trie.lookup ctx.name = .Alias original
  | .returned result => ∃ seen, result = Hosts.handle seen ctx
  | _ => False

theorem follows_step {state next : LockState Name} {index lookup : Nat}
    {ctx : QueryContext Name} {call : Call Name}
    (exclusive : state.Exclusive) (stepped : state.step index = some next)
    (found : state.calls[lookup]? = some call) (follows : Follows ctx state.trie call) :
    ∃ call', next.calls[lookup]? = some call' ∧ Follows ctx next.trie call' := by
  obtain ⟨moved, trie, moved', movedFound, moves, rfl⟩ := step_cases stepped
  by_cases same : index = lookup
  · -- the lookup itself goes on
    subst same
    cases found.symm.trans movedFound
    have bound := (List.getElem?_eq_some_iff.mp found).1
    refine ⟨moved', List.getElem?_set_self bound, ?_⟩
    cases moves with
    | startsReading started admitted => exact follows
    | answers started result unaliased returns =>
        cases follows
        exact ⟨state.trie, returns⟩
    | readsAgain started original hit admitted =>
        cases follows
        exact ⟨rfl, hit⟩
    | answersAlias started original result returns =>
        obtain ⟨rfl, hit⟩ := follows
        refine ⟨state.trie, ?_⟩
        rw [returns, Hosts.handle, hit]
    | startsWaiting | startsWriting | installs => exact absurd follows id
  · -- another call moves: the trie changes only when no lookup reads
    refine ⟨call, by rw [List.getElem?_set_ne same]; exact found, ?_⟩
    cases moves with
    | startsReading | answers | readsAgain | answersAlias | startsWaiting | startsWriting =>
        exact follows
    | installs =>
        cases call with
        | readingTwice started original =>
            have writes := List.mem_of_getElem? movedFound
            exact absurd rfl (exclusive trie writes _ (List.mem_of_getElem? found) 2)
        | called _ | reading _ | returned _ | rebuilt _ | waiting _ | writing _ | reloaded =>
            exact follows

/-- Whatever else happens between its steps, a lookup returns what the whole stage
returns on one of the tries. -/
theorem returned_eq_handle {start state : LockState Name} {lookup : Nat}
    {ctx : QueryContext Name} {result : Step × QueryContext Name}
    (fresh : ∀ call ∈ start.calls, call.IsFresh) (run : lockMachine.Run start state)
    (called : start.calls[lookup]? = some (.called ctx))
    (returned : state.calls[lookup]? = some (.returned result)) :
    ∃ trie, result = Hosts.handle trie ctx := by
  have follows : state.Exclusive ∧
      ∃ call, state.calls[lookup]? = some call ∧ Follows ctx state.trie call := by
    apply run.invariant
    · refine ⟨?_, .called ctx, called, rfl⟩
      intro trie writes
      exact absurd (fresh _ writes) id
    · intro state next index holds _ stepped
      obtain ⟨exclusive, call, found, follows⟩ := holds
      exact ⟨exclusive_step exclusive stepped, follows_step exclusive stepped found follows⟩
  obtain ⟨_, call, found, follows⟩ := follows
  cases found.symm.trans returned
  exact follows

end Rsdns.Plugins
