import Rsdns.Upstream.Breaker
import Rsdns.Upstream.GroupCalls

/-!
# The breakers of a group whose queries interleave

Every answer is told to the breaker of its client, by whichever call it was for.  As long as
the reports of each client come in the order of their times, its breaker follows all that
was reported about it, and this decides who is passed over.
-/

namespace Rsdns.Upstream

variable {Client Response Error : Type}

/-- What an event tells the breaker of which client. -/
def GroupEvent.reported : GroupEvent Response Error → Option (Nat × BreakerEvent)
  | .answer _ idx (.ok _) told => some (idx, .success told)
  | .answer _ idx (.error _) told => some (idx, .failure told)
  | _ => none

abbrev Histories : Type := Nat → List BreakerEvent

def Histories.add (histories : Histories) (report : Nat × BreakerEvent) : Histories :=
  Function.update histories report.1 (histories report.1 ++ [report.2])

def noteReport (_ : GroupState Client Response Error) (event : GroupEvent Response Error)
    (_ : GroupState Client Response Error) (histories : Histories) : Histories :=
  event.reported.elim histories histories.add

/-- The count in 32 bits decides as the count. -/
def CountDecides (cfg : CooldownConfig) (earlier : List BreakerEvent) : BreakerEvent → Prop
  | .failure t =>
      cfg.threshold.toNat ≤ windowCount cfg earlier t →
        cfg.threshold.toNat ≤ windowCount cfg earlier t % 2 ^ 32
  | .success _ => True

/-- The report comes after those before it, and its count decides. -/
def InOrder (cfg : CooldownConfig) (recorded : GroupState Client Response Error × Histories)
    (event : GroupEvent Response Error) : Prop :=
  ∀ report ∈ event.reported,
    (∀ earlier ∈ recorded.2 report.1, earlier.time ≤ report.2.time) ∧
      CountDecides cfg (recorded.2 report.1) report.2

/-! ### One report -/

theorem Trips.append {cfg : CooldownConfig} {history : List BreakerEvent} {t : Nat}
    (trips : Trips cfg history t) (event : BreakerEvent) : Trips cfg (history ++ [event]) t := by
  obtain ⟨earlier, later, rfl, enough⟩ := trips
  exact ⟨earlier, later ++ [event], by simp, enough⟩

theorem Trips.add {cfg : CooldownConfig} {histories : Histories} {idx t : Nat}
    (trips : Trips cfg (histories idx) t) (report : Nat × BreakerEvent) :
    Trips cfg (histories.add report idx) t := by
  by_cases same : idx = report.1
  · subst same
    rw [Histories.add, Function.update_self]
    exact trips.append report.2
  · rw [Histories.add, Function.update_of_ne same]
    exact trips

/-- The breaker of each client follows what was reported about it. -/
structure AllFollow (cfg : CooldownConfig) (group : UpstreamGroup Client)
    (histories : Histories) : Prop where
  cooling : group.cooldown = some cfg
  follow : ∀ idx breaker, group.breaker[idx]? = some breaker →
    Follows cfg (histories idx) breaker

namespace AllFollow

variable {cfg : CooldownConfig} {group : UpstreamGroup Client} {histories : Histories}

theorem withCooldown (clients : List Client) (bounded : clients.length < usizeBound)
    (mode : QueryModeConfig) (cfg : CooldownConfig) :
    AllFollow cfg (.withCooldown clients bounded mode (some cfg)) fun _ => [] := by
  refine ⟨rfl, fun idx breaker found => ?_⟩
  have isNew := List.eq_of_mem_replicate (List.mem_of_getElem? found)
  rw [isNew]
  exact follows_new cfg

theorem of_told (follows : AllFollow cfg group histories) {next : UpstreamGroup Client}
    {idx : Nat} {change : CooldownConfig → Breaker → Option Breaker}
    (told : UpstreamGroup.Told idx change group next) (event : BreakerEvent)
    (changed : ∀ before after, Follows cfg (histories idx) before →
      change cfg before = some after → Follows cfg (histories idx ++ [event]) after) :
    AllFollow cfg next (histories.add (idx, event)) := by
  refine ⟨told.cooldown.trans follows.cooling, fun other after found => ?_⟩
  rw [told.breaker cfg follows.cooling, Option.bind_eq_some_iff] at found
  obtain ⟨before, found, isAfter⟩ := found
  have followed := follows.follow other before found
  by_cases same : other = idx
  · subst same
    rw [if_pos rfl] at isAfter
    rw [Histories.add, Function.update_self]
    exact changed before after followed isAfter
  · rw [if_neg same] at isAfter
    cases isAfter
    rw [Histories.add, Function.update_of_ne same]
    exact followed

theorem report {last : Nat} {state : GroupState Client Response Error}
    (follows : AllFollow cfg state.group histories) {next : UpstreamGroup Client}
    (index idx told : Nat) (result : Except Error Response)
    (reported : state.group.report last idx result told = some next)
    (inOrder : InOrder cfg (state, histories) (.answer index idx result told)) :
    AllFollow cfg next
      (noteReport state (.answer index idx result told) state histories) := by
  have isTold := UpstreamGroup.told_of_report reported
  cases result with
  | ok response =>
      refine follows.of_told isTold (.success told) fun before after followed changed => ?_
      cases changed
      exact followed.recordSuccess told
  | error error =>
      obtain ⟨latest, decides⟩ := inOrder (idx, .failure told) rfl
      refine follows.of_told isTold (.failure told) fun before after followed changed => ?_
      have recorded : before.record last cfg (.failure told) = some after := changed
      rw [← (Breaker.record_eq_some_iff.mp recorded).2]
      exact followed.recordFailure latest decides

theorem roundRobinOrder (follows : AllFollow cfg group histories) :
    AllFollow cfg group.roundRobinOrder.2 histories := by
  unfold UpstreamGroup.roundRobinOrder
  dsimp only
  split
  · exact follows
  · exact ⟨follows.cooling, follows.follow⟩

theorem firstPhase (follows : AllFollow cfg group histories) {next : UpstreamGroup Client}
    {shuffled : List Nat} {phase : GroupPhase Response Error}
    (opened : group.firstPhase shuffled = some (phase, next)) : AllFollow cfg next histories := by
  unfold UpstreamGroup.firstPhase at opened
  split at opened
  · cases opened
    exact follows
  · obtain ⟨_, same⟩ := Option.ite_none_right_eq_some.mp opened
    cases same
    exact follows
  · cases opened
    exact follows.roundRobinOrder
  · cases opened
    exact follows

/-- A client is eligible at an instant that no cooldown of its history reaches. -/
theorem eligible_iff (follows : AllFollow cfg group histories) {idx : Nat}
    (inRange : idx < group.clients.length) (now : Nat) :
    group.eligible now idx = true ↔
      ∀ t, Trips cfg (histories idx) t → t + cfg.cooldown ≤ now := by
  have within : idx < group.breaker.length := by rwa [group.paired]
  have found := List.getElem?_eq_getElem within
  have cooling := (follows.follow idx _ found).cooling now
  unfold UpstreamGroup.eligible
  rw [found]
  simp only [follows.cooling, Option.isSome_some, Bool.true_and, Bool.not_eq_true',
    Bool.eq_false_iff, ne_eq, cooling, not_exists, not_and, Nat.not_lt]

end AllFollow

/-! ### Runs -/

def Cools (cfg : CooldownConfig) (histories : Histories) (now idx : Nat) : Prop :=
  ∃ t, Trips cfg (histories idx) t ∧ now < t + cfg.cooldown

theorem Cools.noteReport {cfg : CooldownConfig} {histories : Histories} {now idx : Nat}
    (cools : Cools cfg histories now idx) (state next : GroupState Client Response Error)
    (event : GroupEvent Response Error) : Cools cfg (noteReport state event next histories) now idx := by
  obtain ⟨t, trips, lasts⟩ := cools
  refine ⟨t, ?_, lasts⟩
  unfold Upstream.noteReport
  cases event.reported with
  | none => exact trips
  | some report => exact trips.add report

/-- The breakers follow, and whoever was passed over was cooling down when the call began. -/
structure Justified (cfg : CooldownConfig) (clients : List Client)
    (recorded : GroupState Client Response Error × Histories) : Prop where
  accounted : recorded.1.CallsAccounted clients
  follow : AllFollow cfg recorded.1.group recorded.2
  passed : ∀ call ∈ recorded.1.calls, ∀ idx ∈ call.passed, Cools cfg recorded.2 call.now idx

theorem GroupCall.Looks.passed {group : UpstreamGroup Client}
    {call next : GroupCall Response Error} {count : Nat} (looked : call.Looks group next)
    (accounted : call.Accounted count) :
    next.now = call.now ∧ ∀ idx ∈ next.passed, idx ∈ call.passed ∨
      idx < count ∧ group.eligible call.now idx = false := by
  have kept : ∀ idx ∈ call.passed, idx ∈ call.passed ∨
      idx < count ∧ group.eligible call.now idx = false := fun _ before => .inl before
  unfold Accounted at accounted
  cases looked with
  | ends firstErr triedAny phase => exact ⟨rfl, kept⟩
  | tries idx order firstErr triedAny phase eligible => exact ⟨rfl, kept⟩
  | passes idx order firstErr triedAny phase cools =>
      rw [phase] at accounted
      have inRange : idx < count := List.mem_range.mp (accounted.1.subset (by simp))
      refine ⟨rfl, fun other member => ?_⟩
      rcases List.mem_append.mp member with before | last
      · exact .inl before
      · rw [List.mem_singleton.mp last]
        exact .inr ⟨inRange, cools⟩
  | sendsNone phase => exact ⟨rfl, kept⟩
  | sends first indices phase => exact ⟨rfl, kept⟩
  | gathers idx order indices phase eligible => exact ⟨rfl, kept⟩
  | leavesOut idx order indices phase cools =>
      rw [phase] at accounted
      have inRange : idx < count := List.mem_range.mp (accounted.1.subset (by simp))
      refine ⟨rfl, fun other member => ?_⟩
      rcases List.mem_append.mp member with before | last
      · exact .inl before
      · rw [List.mem_singleton.mp last]
        exact .inr ⟨inRange, cools⟩
  | loses firstErr phase => exact ⟨rfl, kept⟩

theorem GroupCall.Answers.passed {call next : GroupCall Response Error} {idx : Nat}
    {result : Except Error Response} (answered : call.Answers idx result next) :
    next.now = call.now ∧ next.passed = call.passed := by
  cases answered <;> exact ⟨rfl, rfl⟩

theorem Justified.step {last : Nat} {cfg : CooldownConfig} {clients : List Client}
    {recorded next : GroupState Client Response Error × Histories}
    {event : GroupEvent Response Error} (justified : Justified cfg clients recorded)
    (inOrder : InOrder cfg recorded event)
    (stepped : ((groupMachine last Client Response Error).recording noteReport).step recorded event =
      some next) : Justified cfg clients next := by
  obtain ⟨state, histories⟩ := recorded
  obtain ⟨after, later⟩ := next
  obtain ⟨taken, noted⟩ := Machine.recording_step_eq_some.mp stepped
  dsimp only at taken noted
  subst noted
  have accounted := justified.accounted.step taken
  have stay : ∀ call ∈ state.calls, ∀ idx ∈ call.passed,
      Cools cfg (noteReport state event after histories) call.now idx :=
    fun call member idx passed => (justified.passed call member idx passed).noteReport _ _ _
  cases GroupState.moves_of_step taken with
  | begins now shuffled phase group opened =>
      refine ⟨accounted, justified.follow.firstPhase opened, fun call member idx passed => ?_⟩
      rcases List.mem_append.mp member with before | new
      · exact stay call before idx passed
      · rw [List.mem_singleton.mp new] at passed
        exact nomatch passed
  | looks index call changed found looked =>
      refine ⟨accounted, justified.follow, fun other member idx passed => ?_⟩
      rcases List.mem_or_eq_of_mem_set member with before | rfl
      · exact stay other before idx passed
      · have isCall := List.mem_of_getElem? found
        obtain ⟨sameNow, from_⟩ := looked.passed (justified.accounted.calls call isCall)
        rw [sameNow]
        rcases from_ idx passed with before | ⟨inRange, notEligible⟩
        · exact stay call isCall idx before
        · rw [← justified.accounted.kept] at inRange
          have reached := mt (justified.follow.eligible_iff inRange call.now).mpr
            (Bool.eq_false_iff.mp notEligible)
          have cools : Cools cfg histories call.now idx := by
            simpa only [Cools, not_forall, Nat.not_le, exists_prop] using reached
          exact cools.noteReport state state (.look index)
  | answers index idx result told call changed group found answered reported =>
      refine ⟨accounted, justified.follow.report index idx told result reported inOrder,
        fun other member client passed => ?_⟩
      rcases List.mem_or_eq_of_mem_set member with before | rfl
      · exact stay other before client passed
      · obtain ⟨sameNow, samePassed⟩ := answered.passed
        rw [sameNow]
        rw [samePassed] at passed
        exact stay call (List.mem_of_getElem? found) client passed
  | drops index call found =>
      refine ⟨accounted, justified.follow, fun other member idx passed => ?_⟩
      rcases List.mem_or_eq_of_mem_set member with before | rfl
      · exact stay other before idx passed
      · exact stay call (List.mem_of_getElem? found) idx passed

instance (cfg : CooldownConfig) (earlier : List BreakerEvent) (event : BreakerEvent) :
    Decidable (CountDecides cfg earlier event) := by
  cases event <;> unfold CountDecides <;> infer_instance

instance (cfg : CooldownConfig) (recorded : GroupState Client Response Error × Histories)
    (event : GroupEvent Response Error) : Decidable (InOrder cfg recorded event) :=
  inferInstanceAs (Decidable (∀ report ∈ event.reported, _ ∧ _))

end Rsdns.Upstream
