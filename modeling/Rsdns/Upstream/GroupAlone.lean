import Rsdns.Upstream.GroupCalls

/-!
# A call that nothing disturbs

The steps of a call that is alone with its group amount to `UpstreamGroup.query`: in every
phase what is left of the query is known, and each step keeps what it will come to.
-/

namespace Rsdns.Upstream

variable {Client Response Error : Type}

namespace GroupCall

/-- What the rest of a call comes to if nothing else happens. -/
def remaining (world : Meeting Response Error) (group : UpstreamGroup Client)
    (call : GroupCall Response Error) : Option (Outcome Client Response Error) :=
  match call.phase with
  | .trying order firstErr triedAny => do
      let rest ← UpstreamGroup.queryOrdered world order group firstErr triedAny
      return { rest with contacted := call.taken ++ rest.contacted }
  | .awaiting idx order firstErr =>
      match world.reply idx with
      | .ok response =>
          some {
            result := .ok response, group := group.recordSuccess idx, contacted := call.taken }
      | .error error => do
          let group ← group.recordFailure world.last idx (world.completed idx)
          let rest ← UpstreamGroup.queryOrdered world order group (firstErr.or (some error)) true
          return { rest with contacted := call.taken ++ rest.contacted }
  | .gathering order indices =>
      let sent := indices ++ order.filter (group.eligible call.now)
      if sent = [] then some { result := .error .allCooling, group := group, contacted := [] }
      else do
        let (result, group) ← UpstreamGroup.awaitFirst world (world.completion sent) group none
        return { result := result, group := group, contacted := sent }
  | .racing _ firstErr => do
      let (result, group) ← UpstreamGroup.awaitFirst world
        ((world.completion call.taken).drop call.failed.length) group firstErr
      return { result := result, group := group, contacted := call.taken }
  | .finished result => some { result := result, group := group, contacted := call.taken }
  | .dropped => none

/-- Queries that were sent together complete in the order of the world. -/
def NextToComplete (world : Meeting Response Error) (idx : Nat)
    (call : GroupCall Response Error) : Prop :=
  match call.phase with
  | .racing _ _ => call.failedClients ++ [idx] <+: world.completion call.taken
  | _ => True

instance (world : Meeting Response Error) (idx : Nat) (call : GroupCall Response Error) :
    Decidable (call.NextToComplete world idx) := by
  unfold NextToComplete
  split <;> infer_instance

theorem drop_completion {world : Meeting Response Error} {idx : Nat}
    {call : GroupCall Response Error}
    (next : call.failedClients ++ [idx] <+: world.completion call.taken) :
    (world.completion call.taken).drop call.failed.length =
      idx :: (world.completion call.taken).drop (call.failed.length + 1) := by
  obtain ⟨rest, cut⟩ := next
  have length : call.failed.length = call.failedClients.length := by
    rw [failedClients, List.length_map]
  rw [← cut, length, List.append_assoc, List.drop_left]
  have further : call.failedClients ++ ([idx] ++ rest) = (call.failedClients ++ [idx]) ++ rest := by
    rw [List.append_assoc]
  have counted : call.failedClients.length + 1 = (call.failedClients ++ [idx]).length := by simp
  rw [further, counted, List.drop_left]
  rfl

/-- The call goes on, and has heard what it has heard in the order of the world. -/
def Proceeds (world : Meeting Response Error) (call : GroupCall Response Error) : Prop :=
  match call.phase with
  | .racing _ _ => call.failedClients <+: world.completion call.taken
  | .dropped => False
  | _ => True

/-- A bound on the steps that a call has before it. -/
def stepsLeft (call : GroupCall Response Error) : Nat :=
  match call.phase with
  | .trying order _ _ => 2 * order.length + 1
  | .awaiting _ order _ => 2 * order.length + 2
  | .gathering order indices => 2 * order.length + indices.length + 2
  | .racing inFlight _ => inFlight.length + 1
  | .finished _ => 0
  | .dropped => 0

theorem Looks.proceeds {group : UpstreamGroup Client} {call next : GroupCall Response Error}
    {count : Nat} (looked : call.Looks group next) (accounted : call.Accounted count)
    (world : Meeting Response Error) :
    next.Proceeds world ∧ next.stepsLeft < call.stepsLeft := by
  unfold Accounted at accounted
  cases looked with
  | ends firstErr triedAny phase => exact ⟨trivial, by simp [stepsLeft, phase]⟩
  | tries idx order firstErr triedAny phase eligible =>
      refine ⟨trivial, ?_⟩
      simp only [stepsLeft, phase, List.length_cons]
      omega
  | passes idx order firstErr triedAny phase cools =>
      refine ⟨trivial, ?_⟩
      simp only [stepsLeft, phase, List.length_cons]
      omega
  | sendsNone phase => exact ⟨trivial, by simp [stepsLeft, phase]⟩
  | sends first indices phase =>
      rw [phase] at accounted
      refine ⟨?_, by simp [stepsLeft, phase]⟩
      simp [Proceeds, failedClients, accounted.2.2]
  | gathers idx order indices phase eligible =>
      refine ⟨trivial, ?_⟩
      simp only [stepsLeft, phase, List.length_cons, List.length_append, List.length_nil]
      omega
  | leavesOut idx order indices phase cools =>
      refine ⟨trivial, ?_⟩
      simp only [stepsLeft, phase, List.length_cons]
      omega
  | loses firstErr phase => exact ⟨trivial, by simp [stepsLeft, phase]⟩

theorem Answers.proceeds {world : Meeting Response Error} {call next : GroupCall Response Error}
    {idx : Nat} {result : Except Error Response} (answered : call.Answers idx result next)
    (ordered : call.NextToComplete world idx) :
    next.Proceeds world ∧ next.stepsLeft < call.stepsLeft := by
  unfold NextToComplete at ordered
  cases answered with
  | tried order firstErr response phase => exact ⟨trivial, by simp [stepsLeft, phase]⟩
  | raced inFlight firstErr response phase member => exact ⟨trivial, by simp [stepsLeft, phase]⟩
  | failsOver order firstErr error phase => exact ⟨trivial, by simp [stepsLeft, phase]⟩
  | dropsOut inFlight firstErr error phase member =>
      rw [phase] at ordered
      refine ⟨?_, ?_⟩
      · simpa [Proceeds, failedClients] using ordered
      · simp only [stepsLeft, phase]
        have shorter := List.length_erase_of_mem member
        have nonempty := List.length_pos_of_mem member
        omega

/-- A step that the call takes by itself keeps what it will come to. -/
theorem Looks.remaining {world : Meeting Response Error} {group : UpstreamGroup Client}
    {call next : GroupCall Response Error} {count : Nat} (looked : call.Looks group next)
    (accounted : call.Accounted count) (started : call.now = world.now) :
    next.now = world.now ∧ next.remaining world group = call.remaining world group := by
  unfold Accounted at accounted
  cases looked with
  | ends firstErr triedAny phase =>
      refine ⟨started, ?_⟩
      simp [GroupCall.remaining, phase, UpstreamGroup.queryOrdered, exhausted]
  | tries idx order firstErr triedAny phase eligible =>
      refine ⟨started, ?_⟩
      rw [started] at eligible
      cases replied : world.reply idx <;>
        simp [GroupCall.remaining, phase, UpstreamGroup.queryOrdered, eligible, replied,
          Option.bind_assoc]
  | passes idx order firstErr triedAny phase cools =>
      refine ⟨started, ?_⟩
      rw [started] at cools
      simp [GroupCall.remaining, phase, UpstreamGroup.queryOrdered, cools]
  | sendsNone phase =>
      refine ⟨started, ?_⟩
      rw [phase] at accounted
      simp [GroupCall.remaining, phase, accounted.2.1]
  | sends first indices phase =>
      refine ⟨started, ?_⟩
      rw [phase] at accounted
      simp [GroupCall.remaining, phase, accounted.2.1, accounted.2.2]
  | gathers idx order indices phase eligible =>
      refine ⟨started, ?_⟩
      simp [GroupCall.remaining, phase, eligible]
  | leavesOut idx order indices phase cools =>
      refine ⟨started, ?_⟩
      simp [GroupCall.remaining, phase, cools]
  | loses firstErr phase =>
      refine ⟨started, ?_⟩
      rw [phase] at accounted
      have heard : call.failedClients.Perm call.taken := by
        simpa only [List.append_nil] using accounted.2.1
      have all : (world.completion call.taken).length = call.failed.length := by
        rw [(world.completes call.taken).length_eq, ← heard.length_eq, failedClients,
          List.length_map]
      have done : (world.completion call.taken).drop call.failed.length = [] := by
        rw [List.drop_eq_nil_iff, all]
      simp [GroupCall.remaining, phase, done, UpstreamGroup.awaitFirst]

/-- So does the answer that the world has for the client, if its report does not panic; if
it does the call comes to nothing. -/
theorem Answers.remaining {world : Meeting Response Error} (group : UpstreamGroup Client)
    {call next : GroupCall Response Error} {idx : Nat} {result : Except Error Response}
    (answered : call.Answers idx result next) (replied : world.reply idx = result)
    (ordered : call.NextToComplete world idx) (started : call.now = world.now) :
    next.now = world.now ∧
      call.remaining world group =
        (group.report world.last idx result (world.completed idx)).bind (next.remaining world) := by
  unfold NextToComplete at ordered
  cases answered with
  | tried order firstErr response phase =>
      refine ⟨started, ?_⟩
      simp [GroupCall.remaining, phase, replied, UpstreamGroup.report]
  | raced inFlight firstErr response phase member =>
      refine ⟨started, ?_⟩
      rw [phase] at ordered
      simp [GroupCall.remaining, phase, drop_completion ordered, replied,
        UpstreamGroup.awaitFirst, UpstreamGroup.report]
  | failsOver order firstErr error phase =>
      refine ⟨started, ?_⟩
      simp [GroupCall.remaining, phase, replied, UpstreamGroup.report]
  | dropsOut inFlight firstErr error phase member =>
      refine ⟨started, ?_⟩
      rw [phase] at ordered
      simp [GroupCall.remaining, phase, drop_completion ordered, replied,
        UpstreamGroup.awaitFirst, UpstreamGroup.report, Option.bind_assoc]

end GroupCall

/-- One call only, and everything that comes from outside is what the world has. -/
def AloneIn (world : Meeting Response Error) (state : GroupState Client Response Error) :
    GroupEvent Response Error → Prop
  | .query now shuffled =>
      state.calls.length = 0 ∧ now = world.now ∧
        shuffled = world.shuffle (List.range state.group.clients.length)
  | .look _ => True
  | .answer index idx result told =>
      world.reply idx = result ∧ told = world.completed idx ∧
        ∀ call ∈ state.calls[index]?, call.NextToComplete world idx
  | .drop _ => False

theorem GroupCall.remaining_fresh_trying (world : Meeting Response Error)
    (group : UpstreamGroup Client) (order : List Nat) :
    (GroupCall.fresh world.now (.trying order none false)).remaining world group =
      UpstreamGroup.queryOrdered world order group none false :=
  Option.bind_fun_some _

theorem UpstreamGroup.firstPhase_remaining {self group : UpstreamGroup Client}
    {world : Meeting Response Error} {phase : GroupPhase Response Error}
    (opened : self.firstPhase (world.shuffle (List.range self.clients.length)) =
      some (phase, group)) :
    (GroupCall.fresh world.now phase).remaining world group = self.query world := by
  unfold firstPhase at opened
  split at opened
  · next mode =>
      cases opened
      rw [GroupCall.remaining_fresh_trying, query, mode]
  · next mode =>
      obtain ⟨_, same⟩ := Option.ite_none_right_eq_some.mp opened
      cases same
      rw [GroupCall.remaining_fresh_trying, query, mode, randomOrder]
  · next mode =>
      cases opened
      rw [GroupCall.remaining_fresh_trying, query, mode]
  · next mode =>
      cases opened
      rw [query, mode]
      rfl

theorem UpstreamGroup.firstPhase_proceeds {self group : UpstreamGroup Client}
    {world : Meeting Response Error} {shuffled : List Nat} {phase : GroupPhase Response Error}
    (opened : self.firstPhase shuffled = some (phase, group)) :
    (GroupCall.fresh world.now phase).Proceeds world := by
  unfold firstPhase at opened
  split at opened
  · cases opened
    trivial
  · obtain ⟨_, same⟩ := Option.ite_none_right_eq_some.mp opened
    cases same
    trivial
  · cases opened
    trivial
  · cases opened
    trivial

/-- Before the call there is the group; from then on the call comes to the query. -/
structure Alone (world : Meeting Response Error) (group : UpstreamGroup Client)
    (state : GroupState Client Response Error) : Prop where
  accounted : state.CallsAccounted group.clients
  before : state.calls = [] → state.group = group
  only : state.calls.length ≤ 1
  during : ∀ call ∈ state.calls, call.now = world.now ∧
    call.remaining world state.group = group.query world
  proceeds : ∀ call ∈ state.calls, call.Proceeds world

theorem eq_singleton_of_getElem? {Item : Type} {items : List Item} {index : Nat} {item : Item}
    (only : items.length ≤ 1) (found : items[index]? = some item) : items = [item] ∧ index = 0 := by
  cases items with
  | nil => cases found
  | cons first rest =>
      have noMore : rest = [] := by simpa using only
      subst noMore
      cases index with
      | zero => exact ⟨congrArg (fun item => [item]) (Option.some.inj found), rfl⟩
      | succ index => cases found

theorem Alone.step {world : Meeting Response Error} {group : UpstreamGroup Client}
    {state next : GroupState Client Response Error} {event : GroupEvent Response Error}
    (alone : Alone world group state) (allowed : AloneIn world state event)
    (stepped : state.step world.last event = some next) : Alone world group next := by
  have accounted := alone.accounted.step stepped
  cases GroupState.moves_of_step stepped with
  | begins now shuffled phase opened_group opened =>
      obtain ⟨noCalls, rfl, rfl⟩ := allowed
      rw [List.length_eq_zero_iff] at noCalls
      have same := alone.before noCalls
      rw [same] at opened
      refine ⟨accounted, ?_, ?_, ?_, ?_⟩
      · exact fun empty => absurd empty (by simp)
      · simp [noCalls]
      · intro call member
        rw [noCalls, List.nil_append, List.mem_singleton] at member
        subst member
        exact ⟨rfl, UpstreamGroup.firstPhase_remaining opened⟩
      · intro call member
        rw [noCalls, List.nil_append, List.mem_singleton] at member
        subst member
        exact UpstreamGroup.firstPhase_proceeds opened
  | looks index call changed found looked =>
      obtain ⟨single, rfl⟩ := eq_singleton_of_getElem? alone.only found
      have isCall := List.mem_of_getElem? found
      obtain ⟨started, comesTo⟩ := alone.during call isCall
      obtain ⟨stillStarted, kept⟩ :=
        looked.remaining (alone.accounted.calls call isCall) started
      rw [single] at accounted ⊢
      refine ⟨accounted, fun empty => absurd empty (by simp), by simp, ?_, ?_⟩
      · intro other member
        cases List.mem_singleton.mp member
        exact ⟨stillStarted, kept.trans comesTo⟩
      · intro other member
        cases List.mem_singleton.mp member
        exact (looked.proceeds (alone.accounted.calls call isCall) world).1
  | answers index idx result told call changed told_group found answered reported =>
      obtain ⟨replied, rfl, ordered⟩ := allowed
      obtain ⟨single, rfl⟩ := eq_singleton_of_getElem? alone.only found
      obtain ⟨started, comesTo⟩ := alone.during call (List.mem_of_getElem? found)
      obtain ⟨stillStarted, kept⟩ :=
        answered.remaining state.group replied (ordered call found) started
      rw [reported, Option.bind_some] at kept
      rw [single] at accounted ⊢
      refine ⟨accounted, fun empty => absurd empty (by simp), by simp, ?_, ?_⟩
      · intro other member
        cases List.mem_singleton.mp member
        exact ⟨stillStarted, kept.symm.trans comesTo⟩
      · intro other member
        cases List.mem_singleton.mp member
        exact (answered.proceeds (ordered call found)).1
  | drops index call found => exact absurd allowed id

def GroupCall.Ended (call : GroupCall Response Error) : Prop :=
  ∃ result, call.phase = .finished result

theorem GroupCall.goesOn {world : Meeting Response Error} {call : GroupCall Response Error}
    {count : Nat} (group : UpstreamGroup Client) (accounted : call.Accounted count)
    (proceeds : call.Proceeds world) (running : ¬ call.Ended) :
    (∃ after, call.look group = some after) ∨
      ∃ idx after, call.answer idx (world.reply idx) = some after ∧
        call.NextToComplete world idx := by
  unfold Accounted at accounted
  unfold Proceeds at proceeds
  cases phase : call.phase with
  | trying order firstErr triedAny =>
      left
      cases order with
      | nil =>
          simp only [look, phase]
          exact ⟨_, rfl⟩
      | cons idx order =>
          simp only [look, phase]
          split <;> exact ⟨_, rfl⟩
  | awaiting idx order firstErr =>
      right
      have ordered : call.NextToComplete world idx := by simp only [NextToComplete, phase]
      refine ⟨idx, ?_⟩
      cases world.reply idx with
      | ok response =>
          simp only [answer, phase, if_true]
          exact ⟨_, rfl, ordered⟩
      | error error =>
          simp only [answer, phase, if_true]
          exact ⟨_, rfl, ordered⟩
  | gathering order indices =>
      left
      cases order with
      | nil =>
          simp only [look, phase]
          split <;> exact ⟨_, rfl⟩
      | cons idx order =>
          simp only [look, phase]
          split <;> exact ⟨_, rfl⟩
  | racing inFlight firstErr =>
      cases inFlight with
      | nil =>
          left
          simp only [look, phase]
          exact ⟨_, rfl⟩
      | cons first inFlight =>
          right
          rw [phase] at accounted proceeds
          obtain ⟨rest, cut⟩ := proceeds
          have arranged : (call.failedClients ++ rest).Perm (call.failedClients ++ first :: inFlight) := by
            rw [cut]
            exact (world.completes call.taken).trans accounted.2.1.symm
          rw [List.perm_append_left_iff] at arranged
          cases rest with
          | nil => exact absurd arranged.length_eq (by simp)
          | cons idx rest =>
              have member : idx ∈ first :: inFlight := arranged.subset List.mem_cons_self
              have ordered : call.NextToComplete world idx := by
                simp only [NextToComplete, phase]
                exact ⟨rest, by rw [← cut]; simp⟩
              refine ⟨idx, ?_⟩
              cases world.reply idx with
              | ok response =>
                  simp only [answer, phase, if_pos member]
                  exact ⟨_, rfl, ordered⟩
              | error error =>
                  simp only [answer, phase, if_pos member]
                  exact ⟨_, rfl, ordered⟩
  | finished result => exact absurd ⟨result, phase⟩ running
  | dropped =>
      rw [phase] at proceeds
      exact absurd proceeds id

/-- As long as the query comes to something the call that has not ended has a step. -/
theorem Alone.progress {world : Meeting Response Error} {group : UpstreamGroup Client}
    {state : GroupState Client Response Error} {call : GroupCall Response Error}
    (alone : Alone world group state) (single : state.calls = [call]) (running : ¬ call.Ended)
    {outcome : Outcome Client Response Error} (ends : group.query world = some outcome) :
    ∃ event next after, AloneIn world state event ∧ state.step world.last event = some next ∧
      next.calls = [after] ∧ after.stepsLeft < call.stepsLeft := by
  have isCall : call ∈ state.calls := single ▸ List.mem_cons_self
  have accounted := alone.accounted.calls call isCall
  have found : state.calls[0]? = some call := by rw [single]; rfl
  rcases GroupCall.goesOn state.group accounted (alone.proceeds call isCall) running with
    ⟨after, looked⟩ | ⟨idx, after, answered, ordered⟩
  · refine ⟨.look 0, { state with calls := [after] }, after, trivial, ?_, rfl, ?_⟩
    · simp [GroupState.step, looked, single]
    · exact ((GroupCall.looks_of_look looked).proceeds accounted world).2
  · have answers := GroupCall.answers_of_answer answered
    -- a report that panicked would leave the query without an outcome
    obtain ⟨started, comesTo⟩ := alone.during call isCall
    have kept := (answers.remaining state.group rfl ordered started).2
    rw [comesTo, ends] at kept
    obtain ⟨told, reported, _⟩ := Option.bind_eq_some_iff.mp kept.symm
    have onlyThis : ∀ other ∈ state.calls[0]?, other.NextToComplete world idx := by
      intro other member
      rw [found] at member
      cases member
      exact ordered
    refine ⟨.answer 0 idx (world.reply idx) (world.completed idx),
      { group := told, calls := [after] }, after, ⟨rfl, rfl, onlyThis⟩, ?_, rfl, ?_⟩
    · simp [GroupState.step, answered, single, reported]
    · exact (answers.proceeds ordered).2

/-- From there on the call can be brought to its end. -/
theorem Alone.exists_ended {world : Meeting Response Error} {group : UpstreamGroup Client}
    {state : GroupState Client Response Error} {call : GroupCall Response Error}
    (alone : Alone world group state) (single : state.calls = [call])
    {outcome : Outcome Client Response Error} (ends : group.query world = some outcome)
    (run : (groupMachine world.last Client Response Error).GuardedRun (AloneIn world)
      (.start group) state) :
    ∃ final ended, (groupMachine world.last Client Response Error).GuardedRun (AloneIn world)
      (.start group) final ∧ final.calls = [ended] ∧ ended.Ended := by
  induction left : call.stepsLeft using Nat.strong_induction_on generalizing state call with
  | _ left inductionHypothesis =>
      by_cases ended : call.Ended
      · exact ⟨state, call, run, single, ended⟩
      · obtain ⟨event, next, after, allowed, stepped, still, fewer⟩ :=
          alone.progress single ended ends
        subst left
        exact inductionHypothesis _ fewer (alone.step allowed stepped) still
          (run.step allowed stepped) rfl

theorem Alone.start (world : Meeting Response Error) (group : UpstreamGroup Client) :
    Alone world group (.start group : GroupState Client Response Error) where
  accounted := ⟨rfl, fun _ none => nomatch none⟩
  before _ := rfl
  only := Nat.zero_le 1
  during _ none := nomatch none
  proceeds _ none := nomatch none

theorem UpstreamGroup.exists_firstPhase (self : UpstreamGroup Client)
    (world : Meeting Response Error) :
    ∃ (phase : GroupPhase Response Error) (group : UpstreamGroup Client),
      self.firstPhase (world.shuffle (List.range self.clients.length)) = some (phase, group) := by
  unfold firstPhase
  cases self.mode with
  | Serial => exact ⟨_, _, rfl⟩
  | Random => exact ⟨_, _, if_pos (world.shuffles _)⟩
  | RoundRobin => exact ⟨_, _, rfl⟩
  | Parallel => exact ⟨_, _, rfl⟩

/-- A call that is alone with its group can be brought to an end exactly if the query has
an outcome, and wherever it has ended it did what `query` says in one step: the same result,
the same breakers and cursor behind it, and the same clients asked. -/
theorem group_call_alone (group : UpstreamGroup Client) (world : Meeting Response Error) :
    ((∃ state call, (groupMachine world.last Client Response Error).GuardedRun (AloneIn world)
        (.start group) state ∧ state.calls = [call] ∧ call.Ended) ↔
      ∃ outcome, group.query world = some outcome) ∧
    ∀ state, (groupMachine world.last Client Response Error).GuardedRun (AloneIn world)
        (.start group) state →
      ∀ call ∈ state.calls, ∀ result, call.phase = .finished result →
        group.query world =
          some { result := result, group := state.group, contacted := call.taken } := by
  have wherever : ∀ state, (groupMachine world.last Client Response Error).GuardedRun
      (AloneIn world) (.start group) state → ∀ call ∈ state.calls, ∀ result,
        call.phase = .finished result → group.query world =
          some { result := result, group := state.group, contacted := call.taken } := by
    intro state run call member result finished
    have alone : Alone world group state :=
      run.invariant (Alone.start world group) fun alone allowed stepped =>
        alone.step allowed stepped
    obtain ⟨_, comesTo⟩ := alone.during call member
    unfold GroupCall.remaining at comesTo
    rw [finished] at comesTo
    exact comesTo.symm
  refine ⟨⟨?_, ?_⟩, wherever⟩
  · rintro ⟨state, call, run, single, result, finished⟩
    exact ⟨_, wherever state run call (single ▸ List.mem_cons_self) result finished⟩
  · rintro ⟨outcome, ends⟩
    obtain ⟨phase, moved, opened⟩ := group.exists_firstPhase world
    let state : GroupState Client Response Error :=
      { group := moved, calls := [GroupCall.fresh world.now phase] }
    let event : GroupEvent Response Error :=
      .query world.now (world.shuffle (List.range group.clients.length))
    have allowed : AloneIn world (.start group : GroupState Client Response Error) event :=
      ⟨rfl, rfl, rfl⟩
    have stepped : (GroupState.start group).step world.last event = some state := by
      simp [event, state, GroupState.step, GroupState.start, opened]
    exact ((Alone.start world group).step allowed stepped).exists_ended rfl ends
      (.step .refl allowed stepped)

/-- A parallel query to two clients, the second of which answers first, and with an error. -/
theorem parallel_call_alone :
    let group : UpstreamGroup Bool := .withCooldown [true, false] (by decide) .Parallel none
    let world : Meeting Nat Unit := {
      now := 0
      last := lastInstant
      reply := fun idx => if idx = 0 then .ok 7 else .error ()
      completed := fun idx => 5 - idx
      shuffle := id
      shuffles := fun order => .refl order
      completion := List.reverse
      completes := List.reverse_perm }
    ((∃ state call, (groupMachine lastInstant Bool Nat Unit).GuardedRun (AloneIn world)
        (.start group) state ∧ state.calls = [call] ∧ call.Ended) ↔
      ∃ outcome, group.query world = some outcome) ∧
    ∀ state, (groupMachine lastInstant Bool Nat Unit).GuardedRun (AloneIn world)
        (.start group) state →
      ∀ call ∈ state.calls, ∀ result, call.phase = .finished result →
        group.query world =
          some { result := result, group := state.group, contacted := call.taken } := by
  intro group world
  exact group_call_alone group world

end Rsdns.Upstream
