import Rsdns.Upstream.GroupRun

/-!
# What one call does among others

Whatever other calls do to the breakers, a call looks at every client at most once, asks
those that it did not pass over, and ends with the first good answer it gets or, if there
is none, with the first error.
-/

namespace Rsdns.Upstream

variable {Client Response Error : Type}

namespace GroupCall

def firstError (call : GroupCall Response Error) : Option Error :=
  call.failed.head?.map Prod.snd

def failedClients (call : GroupCall Response Error) : List Nat := call.failed.map Prod.fst

/-- What the record of a call says in its phase, for a group of `count` clients. -/
def Accounted (count : Nat) (call : GroupCall Response Error) : Prop :=
  match call.phase with
  | .trying order firstErr triedAny =>
      (call.passed ++ call.taken ++ order).Perm (List.range count) ∧
        call.taken = call.failedClients ∧ firstErr = call.firstError ∧
        triedAny = !call.failed.isEmpty
  | .awaiting idx order firstErr =>
      (call.passed ++ call.taken ++ order).Perm (List.range count) ∧
        call.taken = call.failedClients ++ [idx] ∧ firstErr = call.firstError
  | .gathering order indices =>
      (call.passed ++ call.taken ++ order).Perm (List.range count) ∧
        call.taken = indices ∧ call.failed = []
  | .racing inFlight firstErr =>
      (call.passed ++ call.taken).Perm (List.range count) ∧
        (call.failedClients ++ inFlight).Perm call.taken ∧ firstErr = call.firstError ∧
        call.taken ≠ []
  | .finished (.ok response) =>
      (call.passed ++ call.taken).Subperm (List.range count) ∧
        ∃ idx unheard, call.answered = some (idx, response) ∧
          (call.failedClients ++ idx :: unheard).Perm call.taken
  | .finished (.error error) =>
      (call.passed ++ call.taken).Perm (List.range count) ∧
        call.failedClients.Perm call.taken ∧
        error = call.firstError.elim .allCooling .client
  | .dropped => True

theorem firstError_concat (failed : List (Nat × Error)) (idx : Nat) (error : Error) :
    (failed ++ [(idx, error)]).head?.map Prod.snd =
      (failed.head?.map Prod.snd).or (some error) := by
  cases failed <;> rfl

theorem perm_take (passed taken order : List Nat) (idx : Nat) :
    (passed ++ (taken ++ [idx]) ++ order).Perm (passed ++ taken ++ idx :: order) := by
  simp

theorem perm_pass (passed taken order : List Nat) (idx : Nat) :
    ((passed ++ [idx]) ++ taken ++ order).Perm (passed ++ taken ++ idx :: order) := by
  simp only [List.append_assoc, List.singleton_append, List.perm_append_left_iff]
  exact List.perm_middle.symm

theorem Looks.accounted {group : UpstreamGroup Client} {call next : GroupCall Response Error}
    {count : Nat} (looked : call.Looks group next) (accounted : call.Accounted count) :
    next.Accounted count := by
  unfold Accounted at accounted
  cases looked with
  | ends firstErr triedAny phase =>
      rw [phase] at accounted
      obtain ⟨all, taken, rfl, rfl⟩ := accounted
      rw [List.append_nil] at all
      have heard : call.failedClients.Perm call.taken := .of_eq taken.symm
      have ended : (exhausted call.firstError (!call.failed.isEmpty) :
          Except (GroupError Error) Response) =
          .error (call.firstError.elim .allCooling .client) := by
        cases failed : call.failed with
        | nil => simp [exhausted, firstError, failed]
        | cons first rest => simp [exhausted, firstError, failed]
      unfold Accounted
      rw [ended]
      exact ⟨all, heard, rfl⟩
  | tries idx order firstErr triedAny phase eligible =>
      rw [phase] at accounted
      obtain ⟨all, taken, kept, _⟩ := accounted
      exact ⟨(perm_take _ _ _ _).trans all, congrArg (· ++ [idx]) taken, kept⟩
  | passes idx order firstErr triedAny phase cools =>
      rw [phase] at accounted
      obtain ⟨all, taken, kept, tried⟩ := accounted
      exact ⟨(perm_pass _ _ _ _).trans all, taken, kept, tried⟩
  | sendsNone phase =>
      rw [phase] at accounted
      obtain ⟨all, taken, failed⟩ := accounted
      rw [List.append_nil] at all
      refine ⟨all, ?_, ?_⟩
      · simp [failedClients, failed, taken]
      · simp [firstError, failed]
  | sends first indices phase =>
      rw [phase] at accounted
      obtain ⟨all, taken, failed⟩ := accounted
      rw [List.append_nil] at all
      refine ⟨all, ?_, ?_, ?_⟩
      · simp [failedClients, failed, taken]
      · simp [firstError, failed]
      · simp [taken]
  | gathers idx order indices phase eligible =>
      rw [phase] at accounted
      obtain ⟨all, taken, failed⟩ := accounted
      exact ⟨(perm_take _ _ _ _).trans all, congrArg (· ++ [idx]) taken, failed⟩
  | leavesOut idx order indices phase cools =>
      rw [phase] at accounted
      obtain ⟨all, taken, failed⟩ := accounted
      exact ⟨(perm_pass _ _ _ _).trans all, taken, failed⟩
  | loses firstErr phase =>
      rw [phase] at accounted
      obtain ⟨all, heard, rfl, some_taken⟩ := accounted
      rw [List.append_nil] at heard
      refine ⟨all, heard, ?_⟩
      cases failed : call.failed with
      | nil =>
          rw [failedClients, failed] at heard
          exact absurd heard.symm.eq_nil some_taken
      | cons first rest => simp [firstError, failed]

theorem Answers.accounted {call next : GroupCall Response Error} {idx count : Nat}
    {result : Except Error Response} (answered : call.Answers idx result next)
    (accounted : call.Accounted count) : next.Accounted count := by
  unfold Accounted at accounted
  cases answered with
  | tried order firstErr response phase =>
      rw [phase] at accounted
      obtain ⟨all, taken, _⟩ := accounted
      refine ⟨?_, idx, [], rfl, .of_eq taken.symm⟩
      exact (List.sublist_append_left _ order).subperm.trans all.subperm
  | raced inFlight firstErr response phase member =>
      rw [phase] at accounted
      obtain ⟨all, heard, _⟩ := accounted
      refine ⟨all.subperm, idx, inFlight.erase idx, rfl, ?_⟩
      exact ((List.perm_cons_erase member).symm.append_left _).trans heard
  | failsOver order firstErr error phase =>
      rw [phase] at accounted
      obtain ⟨all, taken, rfl⟩ := accounted
      refine ⟨all, ?_, ?_, ?_⟩
      · simp [taken, failedClients]
      · exact (firstError_concat call.failed idx error).symm
      · simp
  | dropsOut inFlight firstErr error phase member =>
      rw [phase] at accounted
      obtain ⟨all, heard, rfl, some_taken⟩ := accounted
      refine ⟨all, ?_, (firstError_concat call.failed idx error).symm, some_taken⟩
      have moved : (call.failedClients ++ [idx] ++ inFlight.erase idx).Perm
          (call.failedClients ++ inFlight) := by
        rw [List.append_assoc]
        exact (List.perm_cons_erase member).symm.append_left _
      simpa [failedClients] using moved.trans heard

end GroupCall

namespace UpstreamGroup

theorem told_of_report {last : Nat} {self group : UpstreamGroup Client} {idx : Nat}
    {result : Except Error Response} {told : Nat}
    (reported : self.report last idx result told = some group) :
    Told idx (fun cfg breaker =>
      match result with
      | .ok _ => some breaker.recordSuccess
      | .error _ => breaker.recordFailure last cfg told) self group := by
  cases result with
  | ok response =>
      cases reported
      exact self.told_of_recordSuccess idx
  | error error => exact told_of_recordFailure reported

@[simp]
theorem clients_roundRobinOrder (self : UpstreamGroup Client) :
    self.roundRobinOrder.2.clients = self.clients := by
  unfold roundRobinOrder
  dsimp only
  split <;> rfl

theorem firstPhase_spec {self group : UpstreamGroup Client} {shuffled : List Nat}
    {phase : GroupPhase Response Error}
    (opened : self.firstPhase shuffled = some (phase, group)) :
    group.clients = self.clients ∧ ∀ now, (GroupCall.fresh now phase).Accounted self.clients.length := by
  unfold firstPhase at opened
  split at opened
  · cases opened
    exact ⟨rfl, fun _ => ⟨.refl _, rfl, rfl, rfl⟩⟩
  · obtain ⟨drawn, same⟩ := Option.ite_none_right_eq_some.mp opened
    cases same
    exact ⟨rfl, fun _ => ⟨drawn, rfl, rfl, rfl⟩⟩
  · cases opened
    exact ⟨self.clients_roundRobinOrder, fun _ => ⟨self.roundRobinOrder_perm, rfl, rfl, rfl⟩⟩
  · cases opened
    exact ⟨rfl, fun _ => ⟨.refl _, rfl, rfl⟩⟩

end UpstreamGroup

namespace GroupState

/-- The clients stay the same and every call is accounted for. -/
structure CallsAccounted (clients : List Client) (state : GroupState Client Response Error) :
    Prop where
  kept : state.group.clients = clients
  calls : ∀ call ∈ state.calls, call.Accounted clients.length

theorem CallsAccounted.step {last : Nat} {clients : List Client}
    {state next : GroupState Client Response Error} {event : GroupEvent Response Error}
    (accounted : state.CallsAccounted clients) (stepped : state.step last event = some next) :
    next.CallsAccounted clients := by
  cases moves_of_step stepped with
  | begins now shuffled phase group opened =>
      obtain ⟨kept, opens⟩ := UpstreamGroup.firstPhase_spec opened
      refine ⟨kept.trans accounted.kept, fun call member => ?_⟩
      rcases List.mem_append.mp member with before | new
      · exact accounted.calls call before
      · rw [List.mem_singleton.mp new, ← accounted.kept]
        exact opens now
  | looks index call next found looked =>
      refine ⟨accounted.kept, fun other member => ?_⟩
      rcases List.mem_or_eq_of_mem_set member with before | rfl
      · exact accounted.calls other before
      · exact looked.accounted (accounted.calls call (List.mem_of_getElem? found))
  | answers index idx result told call next group found answered reported =>
      refine ⟨(UpstreamGroup.told_of_report reported).clients.trans accounted.kept,
        fun other member => ?_⟩
      rcases List.mem_or_eq_of_mem_set member with before | rfl
      · exact accounted.calls other before
      · exact answered.accounted (accounted.calls call (List.mem_of_getElem? found))
  | drops index call found =>
      refine ⟨accounted.kept, fun other member => ?_⟩
      rcases List.mem_or_eq_of_mem_set member with before | rfl
      · exact accounted.calls other before
      · trivial

theorem CallsAccounted.of_run {last : Nat} {allowed : GroupState Client Response Error →
      GroupEvent Response Error → Prop} {group : UpstreamGroup Client}
    {state : GroupState Client Response Error}
    (run : (groupMachine last Client Response Error).GuardedRun allowed (start group) state) :
    state.CallsAccounted group.clients :=
  run.invariant ⟨rfl, fun _ none => nomatch none⟩ fun accounted _ stepped => accounted.step stepped

end GroupState

/-- Where the result of a call comes from: the client asked that answered it, heard before
no other good answer; or the first error, when every client was passed over or answered
with one. -/
def GroupCall.Explains (count : Nat) (call : GroupCall Response Error) :
    Except (GroupError Error) Response → Prop
  | .ok response =>
      ∃ idx ∈ call.taken, idx ∉ call.failedClients ∧ call.answered = some (idx, response)
  | .error error =>
      (∀ idx < count, idx ∈ call.passed ∨ idx ∈ call.failedClients) ∧
        error = call.firstError.elim .allCooling .client

/-- However the calls of a group interleave: a call that has ended looked at no client twice,
asked none that it passed over, and its result is that of a client that it asked or the first
of the errors it got.  Without any error every client was passed over; that a group has no
upstreams is never the answer. -/
theorem group_call_outcome (last : Nat) (group : UpstreamGroup Client)
    (state : GroupState Client Response Error)
    (run : (groupMachine last Client Response Error).Run (.start group) state)
    (call : GroupCall Response Error) (member : call ∈ state.calls)
    (result : Except (GroupError Error) Response) (finished : call.phase = .finished result) :
    (call.passed ++ call.taken).Nodup ∧
      (∀ idx ∈ call.passed ++ call.taken, idx < group.clients.length) ∧
      call.failedClients.Nodup ∧ call.failedClients ⊆ call.taken ∧
      call.Explains group.clients.length result := by
  have accounted := (GroupState.CallsAccounted.of_run run).calls call member
  unfold GroupCall.Accounted at accounted
  rw [finished] at accounted
  cases result with
  | ok response =>
      obtain ⟨looked, idx, unheard, answered, heard⟩ := accounted
      have distinct : (call.passed ++ call.taken).Nodup := by
        obtain ⟨part, arranged, cut⟩ := looked
        exact arranged.nodup_iff.mp (List.nodup_range.sublist cut)
      have heardOnce := heard.nodup_iff.mpr (List.nodup_append.mp distinct).2.1
      refine ⟨distinct, fun other among => List.mem_range.mp (looked.subset among),
        (List.nodup_append.mp heardOnce).1, ?_, idx, ?_, ?_, answered⟩
      · exact fun other failed => heard.subset (List.mem_append_left _ failed)
      · exact heard.subset (List.mem_append_right _ List.mem_cons_self)
      · intro failed
        exact (List.nodup_append.mp heardOnce).2.2 idx failed idx List.mem_cons_self rfl
  | error error =>
      obtain ⟨looked, heard, same⟩ := accounted
      have distinct : (call.passed ++ call.taken).Nodup := looked.nodup_iff.mpr List.nodup_range
      refine ⟨distinct, fun other among => List.mem_range.mp (looked.subset among),
        heard.nodup_iff.mpr (List.nodup_append.mp distinct).2.1, heard.subset, ?_, same⟩
      intro idx inRange
      have among := looked.symm.subset (List.mem_range.mpr inRange)
      rcases List.mem_append.mp among with passed | taken
      · exact .inl passed
      · exact .inr (heard.symm.subset taken)

/-- Two parallel queries to two clients; the first fails over to the good answer of the
other client. -/
theorem overlapping_calls_outcome :
    let group : UpstreamGroup Bool := .withCooldown [true, false] (by decide) .Parallel none
    ∃ (state : GroupState Bool Nat Unit), ∃ call ∈ state.calls,
      call.phase = .finished (.ok 7) ∧ state.calls.length = 2 ∧
      (call.passed ++ call.taken).Nodup ∧
      (∀ idx ∈ call.passed ++ call.taken, idx < group.clients.length) ∧
      call.failedClients.Nodup ∧ call.failedClients ⊆ call.taken ∧
      call.Explains group.clients.length (.ok 7) := by
  intro group
  let events : List (GroupEvent Nat Unit) :=
    [.query 0 [], .look 0, .query 0 [], .look 0, .look 1, .look 0,
      .answer 0 1 (.error ()) 2, .look 1, .answer 0 0 (.ok 7) 3]
  have checked : ((groupMachine lastInstant Bool Nat Unit).execWhile (fun _ _ => True) (.start group)
      events).any (fun state => decide (state.calls.length = 2) &&
        state.calls.any fun call => decide (call.phase = .finished (.ok 7))) = true := by
    decide +kernel
  obtain ⟨state, executed, ends⟩ := (Option.any_eq_true _ _).mp checked
  rw [Bool.and_eq_true] at ends
  obtain ⟨call, member, answered⟩ := List.any_eq_true.mp ends.2
  have finished := of_decide_eq_true answered
  have run := Machine.GuardedRun.of_execWhile .refl executed
  exact ⟨state, call, member, finished, of_decide_eq_true ends.1,
    group_call_outcome lastInstant group state run call member (.ok 7) finished⟩

end Rsdns.Upstream
