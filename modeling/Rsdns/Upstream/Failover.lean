import Mathlib.Data.List.Rotate
import Mathlib.Data.List.TakeWhile
import Rsdns.Upstream.Cooldown

/-!
# What a query to a group does

Every mode is one loop over a sequence of clients: the order of the mode without the
clients that cool down, or the completions of all that do not.  The loop stops at the
first good answer, and it records one failure for each client in front of it.
-/

namespace Rsdns.Upstream

open Plugins

variable {Client Response Error : Type}

/-! ### How a loop over the clients ends -/

def Meeting.fails (world : Meeting Response Error) (idx : Nat) : Bool :=
  match world.reply idx with
  | .ok _ => false
  | .error _ => true

theorem Meeting.fails_iff {world : Meeting Response Error} {idx : Nat} :
    world.fails idx = true ↔ ∃ error, world.reply idx = .error error := by
  unfold fails
  cases world.reply idx <;> simp

theorem Meeting.not_fails_iff {world : Meeting Response Error} {idx : Nat} :
    world.fails idx = false ↔ ∃ response, world.reply idx = .ok response := by
  unfold fails
  cases world.reply idx <;> simp

namespace UpstreamGroup

/-- One failure for each of these clients, at the time it answered. -/
def recordFailures (self : UpstreamGroup Client) (world : Meeting Response Error)
    (failed : List Nat) : Option (UpstreamGroup Client) :=
  failed.foldlM
    (fun group idx => group.recordFailure world.last idx (world.completed idx)) self

/-- All that a loop comes to when it takes the clients in this order: failures are recorded
up to the first good answer, and there is an error in case there is none. -/
def settle (self : UpstreamGroup Client) (world : Meeting Response Error) (sequence : List Nat)
    (error : GroupError Error) :
    Option (Except (GroupError Error) Response × UpstreamGroup Client) :=
  (self.recordFailures world (sequence.takeWhile world.fails)).map fun group =>
    match (sequence.dropWhile world.fails).head? with
    | none => (.error error, group)
    | some winner => ((world.reply winner).mapError .client, group.recordSuccess winner)

/-- The clients that a loop waits for. -/
def heard (world : Meeting Response Error) (sequence : List Nat) : List Nat :=
  sequence.takeWhile world.fails ++ ((sequence.dropWhile world.fails).head?).toList

theorem settle_cons_of_fails (self : UpstreamGroup Client) {world : Meeting Response Error}
    {idx : Nat} (fails : world.fails idx = true) (sequence : List Nat) (error : GroupError Error) :
    self.settle world (idx :: sequence) error =
      (self.recordFailure world.last idx (world.completed idx)).bind fun group =>
        group.settle world sequence error := by
  unfold settle recordFailures
  rw [List.takeWhile_cons_of_pos fails, List.dropWhile_cons_of_pos fails, List.foldlM_cons]
  exact Option.map_bind

theorem settle_cons_of_answers (self : UpstreamGroup Client) {world : Meeting Response Error}
    {idx : Nat} {response : Response} (answers : world.reply idx = .ok response)
    (sequence : List Nat) (error : GroupError Error) :
    self.settle world (idx :: sequence) error = some (.ok response, self.recordSuccess idx) := by
  have succeeds : ¬ world.fails idx = true :=
    Bool.eq_false_iff.mp (Meeting.not_fails_iff.mpr ⟨response, answers⟩)
  unfold settle recordFailures
  rw [List.takeWhile_cons_of_neg succeeds, List.dropWhile_cons_of_neg succeeds, List.head?_cons]
  simp only [List.foldlM_nil, answers]
  rfl

/-! ### What is told about one client -/

/-- What a report about one client leaves of the group. -/
structure Told (idx : Nat) (change : CooldownConfig → Breaker → Option Breaker)
    (group next : UpstreamGroup Client) : Prop where
  clients : next.clients = group.clients
  mode : next.mode = group.mode
  cursor : next.rrCursor = group.rrCursor
  cooldown : next.cooldown = group.cooldown
  unwatched : group.cooldown = none → next = group
  breaker : ∀ cfg, group.cooldown = some cfg → ∀ other,
    next.breaker[other]? = (group.breaker[other]?).bind fun breaker =>
      if other = idx then change cfg breaker else some breaker

theorem told_setBreaker {self : UpstreamGroup Client} {cfg : CooldownConfig}
    (cooling : self.cooldown = some cfg) {idx : Nat} {breaker next : Breaker}
    (found : self.breaker[idx]? = some breaker)
    {change : CooldownConfig → Breaker → Option Breaker} (changed : change cfg breaker = some next) :
    Told idx change self (self.setBreaker idx next) where
  clients := rfl
  mode := rfl
  cursor := rfl
  cooldown := rfl
  unwatched without := by rw [cooling] at without; cases without
  breaker other_cfg same other := by
    cases cooling.symm.trans same
    rw [setBreaker, List.getElem?_set]
    by_cases own : other = idx
    · subst own
      have inRange := (List.getElem?_eq_some_iff.mp found).1
      rw [found, Option.bind_some, if_pos rfl, changed]
      simp [inRange]
    · simp [own, Ne.symm own]

theorem told_self {self : UpstreamGroup Client} {idx : Nat}
    {change : CooldownConfig → Breaker → Option Breaker}
    (nobody : ∀ cfg breaker, self.cooldown = some cfg → self.breaker[idx]? ≠ some breaker) :
    Told idx change self self where
  clients := rfl
  mode := rfl
  cursor := rfl
  cooldown := rfl
  unwatched _ := rfl
  breaker cfg cooling other := by
    cases found : self.breaker[other]? with
    | none => rfl
    | some breaker =>
        have different : other ≠ idx := by
          rintro rfl
          exact nobody cfg breaker cooling found
        rw [Option.bind_some, if_neg different]

theorem told_of_recordFailure {self next : UpstreamGroup Client} {last idx now : Nat}
    (recorded : self.recordFailure last idx now = some next) :
    Told idx (fun cfg breaker => breaker.recordFailure last cfg now) self next := by
  unfold recordFailure at recorded
  split at recorded
  · next cfg breaker cooling found =>
      obtain ⟨changed, isChanged, rfl⟩ := Option.map_eq_some_iff.mp recorded
      exact told_setBreaker cooling found isChanged
  · next nobody =>
      cases recorded
      exact told_self nobody

theorem told_of_recordSuccess (self : UpstreamGroup Client) (idx : Nat) :
    Told idx (fun _ breaker => some breaker.recordSuccess) self (self.recordSuccess idx) := by
  unfold recordSuccess
  split
  · next cfg breaker cooling found => exact told_setBreaker cooling found rfl
  · next nobody => exact told_self nobody

section Others

variable {self next : UpstreamGroup Client} {idx other : Nat}
  {change : CooldownConfig → Breaker → Option Breaker} (told : Told idx change self next)
  (different : other ≠ idx)

include told different

theorem Told.breaker_of_ne : next.breaker[other]? = self.breaker[other]? := by
  cases cooling : self.cooldown with
  | none => rw [told.unwatched cooling]
  | some cfg =>
      rw [told.breaker cfg cooling other]
      simp only [if_neg different]
      exact Option.bind_fun_some _

theorem Told.eligible_of_ne (now : Nat) : next.eligible now other = self.eligible now other := by
  unfold eligible
  rw [told.breaker_of_ne different, told.cooldown]

end Others

theorem recordFailure_isSome_iff {self : UpstreamGroup Client} {cfg : CooldownConfig}
    (cooling : self.cooldown = some cfg) (last idx now : Nat) :
    (∃ next, self.recordFailure last idx now = some next) ↔
      ∀ breaker, self.breaker[idx]? = some breaker → breaker.Fits last cfg (.failure now) := by
  unfold recordFailure
  rw [cooling]
  cases self.breaker[idx]? with
  | none => simp
  | some breaker =>
      have records (changed : Breaker) : breaker.record last cfg (.failure now) = some changed ↔
          breaker.Fits last cfg (.failure now) ∧ breaker.apply cfg (.failure now) = changed :=
        Breaker.record_eq_some_iff
      simp only [Option.map_eq_some_iff, Option.some.injEq, forall_eq']
      constructor
      · rintro ⟨_, changed, recorded, _⟩
        exact ((records changed).mp recorded).1
      · intro fits
        exact ⟨_, _, (records _).mpr ⟨fits, rfl⟩, rfl⟩

/-! ### The loops -/

theorem queryOrdered_eq (world : Meeting Response Error) {order : List Nat}
    (distinct : order.Nodup) (self : UpstreamGroup Client) (firstErr : Option Error)
    (triedAny : Bool) :
    ∃ error, queryOrdered world order self firstErr triedAny =
      (self.settle world (order.filter (self.eligible world.now)) error).map fun ended =>
        { result := ended.1
          group := ended.2
          contacted := heard world (order.filter (self.eligible world.now)) } := by
  induction order generalizing self firstErr triedAny with
  | nil =>
      unfold queryOrdered
      cases triedAny with
      | false => exact ⟨_, rfl⟩
      | true => exact ⟨_, rfl⟩
  | cons idx order inductionHypothesis =>
      obtain ⟨fresh, rest⟩ := List.nodup_cons.mp distinct
      unfold queryOrdered
      by_cases takes : self.eligible world.now idx = true
      · rw [if_pos takes, List.filter_cons_of_pos takes]
        cases replied : world.reply idx with
        | ok response =>
            have succeeds : ¬ world.fails idx = true :=
              Bool.eq_false_iff.mp (Meeting.not_fails_iff.mpr ⟨response, replied⟩)
            refine ⟨.noUpstreams, ?_⟩
            rw [self.settle_cons_of_answers replied, heard, List.takeWhile_cons_of_neg succeeds,
              List.dropWhile_cons_of_neg succeeds]
            rfl
        | error error =>
            have fails := Meeting.fails_iff.mpr ⟨error, replied⟩
            have heardFirst : ∀ sequence : List Nat,
                heard world (idx :: sequence) = idx :: heard world sequence := fun sequence => by
              rw [heard, heard, List.takeWhile_cons_of_pos fails, List.dropWhile_cons_of_pos fails,
                List.cons_append]
            simp only [self.settle_cons_of_fails fails, heardFirst]
            cases recorded : self.recordFailure world.last idx (world.completed idx) with
            | none => exact ⟨.noUpstreams, rfl⟩
            | some next =>
                have told := told_of_recordFailure recorded
                have unchanged : order.filter (next.eligible world.now) =
                    order.filter (self.eligible world.now) := by
                  refine List.filter_congr fun other member => ?_
                  have different : other ≠ idx := fun same => fresh (same ▸ member)
                  exact told.eligible_of_ne different world.now
                obtain ⟨last, later⟩ :=
                  inductionHypothesis rest next (firstErr.or (some error)) true
                rw [unchanged] at later
                refine ⟨last, ?_⟩
                simp only [Option.bind_eq_bind, Option.bind_some, later, Option.pure_def,
                  Option.map_eq_bind, Option.bind_assoc, Function.comp_def]
      · rw [if_neg takes, List.filter_cons_of_neg takes]
        exact inductionHypothesis rest self firstErr triedAny

theorem awaitFirst_eq (world : Meeting Response Error) (completed : List Nat)
    (self : UpstreamGroup Client) (firstErr : Option Error) :
    ∃ error, awaitFirst world completed self firstErr = self.settle world completed error := by
  induction completed generalizing self firstErr with
  | nil => exact ⟨_, rfl⟩
  | cons idx completed inductionHypothesis =>
      unfold awaitFirst
      cases replied : world.reply idx with
      | ok response => exact ⟨.noUpstreams, (self.settle_cons_of_answers replied _ _).symm⟩
      | error error =>
          have fails := Meeting.fails_iff.mpr ⟨error, replied⟩
          simp only [self.settle_cons_of_fails fails]
          cases recorded : self.recordFailure world.last idx (world.completed idx) with
          | none => exact ⟨.noUpstreams, rfl⟩
          | some next => exact inductionHypothesis next (firstErr.or (some error))

/-! ### The breakers -/

section Recorded

variable {cfg : CooldownConfig} (world : Meeting Response Error) {failed : List Nat}
  (distinct : failed.Nodup) {self : UpstreamGroup Client} (cooling : self.cooldown = some cfg)

include distinct cooling

theorem breaker_recordFailures {group : UpstreamGroup Client}
    (recorded : self.recordFailures world failed = some group) (other : Nat) :
    group.cooldown = some cfg ∧
      group.breaker[other]? = (self.breaker[other]?).bind fun breaker =>
        if other ∈ failed then breaker.recordFailure world.last cfg (world.completed other)
        else some breaker := by
  induction failed generalizing self with
  | nil =>
      cases recorded
      exact ⟨cooling, by simp⟩
  | cons idx failed inductionHypothesis =>
      obtain ⟨fresh, rest⟩ := List.nodup_cons.mp distinct
      obtain ⟨next, first, later⟩ := Option.bind_eq_some_iff.mp recorded
      have told := told_of_recordFailure first
      obtain ⟨stillCooling, after⟩ :=
        inductionHypothesis rest (told.cooldown.trans cooling) later
      refine ⟨stillCooling, after.trans ?_⟩
      rw [told.breaker cfg cooling, Option.bind_assoc]
      congr 1
      funext breaker
      by_cases same : other = idx
      · subst same
        simp [fresh]
      · simp [same]

theorem recordFailures_isSome_iff :
    (∃ group, self.recordFailures world failed = some group) ↔
      ∀ idx ∈ failed, ∀ breaker, self.breaker[idx]? = some breaker →
        breaker.Fits world.last cfg (.failure (world.completed idx)) := by
  induction failed generalizing self with
  | nil => exact iff_of_true ⟨self, rfl⟩ (List.forall_mem_nil _)
  | cons idx failed inductionHypothesis =>
      obtain ⟨fresh, rest⟩ := List.nodup_cons.mp distinct
      rw [List.forall_mem_cons, ← recordFailure_isSome_iff cooling]
      have others : ∀ next, self.recordFailure world.last idx (world.completed idx) = some next →
          ((∃ group, next.recordFailures world failed = some group) ↔
            ∀ other ∈ failed, ∀ breaker, self.breaker[other]? = some breaker →
              breaker.Fits world.last cfg (.failure (world.completed other))) := by
        intro next recorded
        have told := told_of_recordFailure recorded
        rw [inductionHypothesis rest (told.cooldown.trans cooling)]
        refine forall₂_congr fun other member => ?_
        have different : other ≠ idx := fun same => fresh (same ▸ member)
        rw [told.breaker_of_ne different]
      constructor
      · rintro ⟨group, recorded⟩
        obtain ⟨next, first, later⟩ := Option.bind_eq_some_iff.mp recorded
        exact ⟨⟨next, first⟩, (others next first).mp ⟨group, later⟩⟩
      · rintro ⟨⟨next, first⟩, fits⟩
        obtain ⟨group, later⟩ := (others next first).mpr fits
        exact ⟨group, Option.bind_eq_some_iff.mpr ⟨next, first, later⟩⟩

end Recorded

/-! ### What a query does -/

/-- The clients that are not cooling down when the query starts. -/
def eligibleClients (self : UpstreamGroup Client) (world : Meeting Response Error) : List Nat :=
  (List.range self.clients.length).filter (self.eligible world.now)

/-- The order of all clients, for the modes that have one. -/
def order (self : UpstreamGroup Client) (world : Meeting Response Error) : List Nat :=
  match self.mode with
  | .Serial => self.serialOrder
  | .Random => self.randomOrder world
  | .RoundRobin => self.roundRobinOrder.1
  | .Parallel => []

/-- The clients in the order in which the query comes to their answers. -/
def sequence (self : UpstreamGroup Client) (world : Meeting Response Error) : List Nat :=
  match self.mode with
  | .Parallel => world.completion (self.eligibleClients world)
  | _ => (self.order world).filter (self.eligible world.now)

/-- The clients that answered with an error before any answered well. -/
def failedFirst (self : UpstreamGroup Client) (world : Meeting Response Error) : List Nat :=
  (self.sequence world).takeWhile world.fails

def winner (self : UpstreamGroup Client) (world : Meeting Response Error) : Option Nat :=
  ((self.sequence world).dropWhile world.fails).head?

theorem roundRobinOrder_perm (self : UpstreamGroup Client) :
    self.roundRobinOrder.1.Perm (List.range self.clients.length) := by
  unfold roundRobinOrder
  dsimp only
  split
  · next empty =>
      rw [empty]
      exact .refl _
  · next positive =>
      have rotated : ((List.range self.clients.length).map fun i =>
          (self.rrCursor % self.clients.length + i) % self.clients.length) =
          (List.range self.clients.length).rotate (self.rrCursor % self.clients.length) := by
        apply List.ext_getElem
        · simp
        · intro i _ _
          simp [List.getElem_rotate, Nat.add_comm]
      rw [rotated]
      exact List.rotate_perm _ _

theorem order_perm (self : UpstreamGroup Client) (world : Meeting Response Error)
    (ordered : self.mode ≠ .Parallel) :
    (self.order world).Perm (List.range self.clients.length) := by
  unfold order
  cases mode : self.mode with
  | Serial => exact .refl _
  | Random => exact world.shuffles _
  | RoundRobin => exact self.roundRobinOrder_perm
  | Parallel => exact absurd mode ordered

theorem sequence_perm (self : UpstreamGroup Client) (world : Meeting Response Error) :
    (self.sequence world).Perm (self.eligibleClients world) := by
  unfold sequence
  split
  · exact world.completes _
  · next ordered => exact (self.order_perm world ordered).filter _

theorem sequence_nodup (self : UpstreamGroup Client) (world : Meeting Response Error) :
    (self.sequence world).Nodup :=
  (self.sequence_perm world).nodup_iff.mpr (List.nodup_range.filter _)

/-- The query is one loop over its sequence, from a group that differs in the cursor at
most; the ordered modes ask the clients that they wait for. -/
theorem query_eq (self : UpstreamGroup Client) (world : Meeting Response Error) :
    ∃ (base : UpstreamGroup Client) (error : GroupError Error) (contacted : List Nat),
      base.breaker = self.breaker ∧ base.cooldown = self.cooldown ∧
      self.query world = (base.settle world (self.sequence world) error).map (fun ended =>
        { result := ended.1, group := ended.2, contacted := contacted }) ∧
      (self.mode ≠ .Parallel → contacted = heard world (self.sequence world)) := by
  cases mode : self.mode with
  | Serial =>
      have distinct : self.serialOrder.Nodup := List.nodup_range
      obtain ⟨error, queried⟩ := queryOrdered_eq world distinct self none false
      refine ⟨self, error, _, rfl, rfl, ?_, fun _ => rfl⟩
      simpa only [sequence, order, query, mode] using queried
  | Random =>
      have distinct : (self.randomOrder world).Nodup :=
        (world.shuffles _).nodup_iff.mpr List.nodup_range
      obtain ⟨error, queried⟩ := queryOrdered_eq world distinct self none false
      refine ⟨self, error, _, rfl, rfl, ?_, fun _ => rfl⟩
      simpa only [sequence, order, query, mode] using queried
  | RoundRobin =>
      have distinct := self.roundRobinOrder_perm.nodup_iff.mpr List.nodup_range
      obtain ⟨error, queried⟩ := queryOrdered_eq world distinct self.roundRobinOrder.2 none false
      have breaker : self.roundRobinOrder.2.breaker = self.breaker := by
        unfold roundRobinOrder
        dsimp only
        split <;> rfl
      have cooldown : self.roundRobinOrder.2.cooldown = self.cooldown := by
        unfold roundRobinOrder
        dsimp only
        split <;> rfl
      have eligible : self.roundRobinOrder.2.eligible world.now = self.eligible world.now := by
        funext idx
        simp only [UpstreamGroup.eligible, breaker, cooldown]
      rw [eligible] at queried
      refine ⟨self.roundRobinOrder.2, error, _, breaker, cooldown, ?_, fun _ => rfl⟩
      simpa only [sequence, order, query, mode] using queried
  | Parallel =>
      have unordered : ¬ QueryModeConfig.Parallel ≠ .Parallel := fun different => different rfl
      have sent : self.queryParallel world =
          if self.eligibleClients world = [] then
            some { result := .error .allCooling, group := self, contacted := [] }
          else
            (awaitFirst world (world.completion (self.eligibleClients world)) self none).map
              fun ended =>
                { result := ended.1, group := ended.2, contacted := self.eligibleClients world } := by
        rw [Option.map_eq_bind]
        rfl
      by_cases empty : self.eligibleClients world = []
      · have noSequence : self.sequence world = [] :=
          List.Perm.eq_nil (empty ▸ self.sequence_perm world)
        refine ⟨self, .allCooling, [], rfl, rfl, ?_, fun ordered => absurd ordered unordered⟩
        rw [noSequence, query, mode]
        dsimp only
        rw [sent, if_pos empty]
        rfl
      · obtain ⟨error, awaited⟩ := awaitFirst_eq world
          (world.completion (self.eligibleClients world)) self none
        refine ⟨self, error, self.eligibleClients world, rfl, rfl, ?_,
          fun ordered => absurd ordered unordered⟩
        rw [query, mode]
        dsimp only
        rw [sent, if_neg empty, awaited, sequence, mode]

/-! ### What a loop comes to -/

section Settled

variable {world : Meeting Response Error} {self group : UpstreamGroup Client}
  {sequence : List Nat} {error : GroupError Error}
  {result : Except (GroupError Error) Response}
  (settled : self.settle world sequence error = some (result, group))

include settled

theorem result_iff_of_settle (response : Response) :
    result = .ok response ↔
      ∃ winner, (sequence.dropWhile world.fails).head? = some winner ∧
        world.reply winner = .ok response := by
  obtain ⟨recorded, _, ended⟩ := Option.map_eq_some_iff.mp settled
  cases first : (sequence.dropWhile world.fails).head? with
  | none =>
      rw [first] at ended
      cases ended
      simp
  | some winner =>
      rw [first] at ended
      cases ended
      cases replied : world.reply winner <;> simp [Except.mapError, replied]

theorem breaker_of_settle (distinct : sequence.Nodup) {cfg : CooldownConfig}
    (cooling : self.cooldown = some cfg) (idx : Nat) :
    group.breaker[idx]? = (self.breaker[idx]?).bind fun breaker =>
      if idx ∈ sequence.takeWhile world.fails then
        breaker.recordFailure world.last cfg (world.completed idx)
      else if (sequence.dropWhile world.fails).head? = some idx then some breaker.recordSuccess
      else some breaker := by
  obtain ⟨recorded, isRecorded, ended⟩ := Option.map_eq_some_iff.mp settled
  have parts := List.nodup_append.mp
    (List.takeWhile_append_dropWhile (p := world.fails) (l := sequence) ▸ distinct)
  obtain ⟨stillCooling, after⟩ := breaker_recordFailures world parts.1 cooling isRecorded idx
  cases first : (sequence.dropWhile world.fails).head? with
  | none =>
      rw [first] at ended
      cases ended
      simpa using after
  | some winner =>
      rw [first] at ended
      cases ended
      have apart : winner ∉ sequence.takeWhile world.fails := by
        intro member
        obtain ⟨rest, found⟩ := List.head?_eq_some_iff.mp first
        exact parts.2.2 winner member winner (found ▸ List.mem_cons_self) rfl
      rw [(told_of_recordSuccess recorded winner).breaker cfg stillCooling, after,
        Option.bind_assoc]
      congr 1
      funext breaker
      by_cases own : idx = winner
      · subst own
        simp [apart]
      · simp [own, Ne.symm own]

theorem settle_of_empty (empty : sequence = []) :
    (∃ last, result = .error last) ∧ group = self := by
  subst empty
  cases settled
  exact ⟨⟨error, rfl⟩, rfl⟩

end Settled

end UpstreamGroup

/-! ### The specification -/

/-- What a query to a group does, said without its loops. -/
structure QuerySemantics (group : UpstreamGroup Client) (world : Meeting Response Error)
    (outcome : Outcome Client Response Error) : Prop where
  answered : (∃ response, outcome.result = .ok response) ↔
    ∃ idx ∈ group.eligibleClients world, ∃ response, world.reply idx = .ok response
  ordered : group.mode ≠ .Parallel →
    (group.order world).Perm (List.range group.clients.length) ∧
    (∀ response, outcome.result = .ok response →
      ∃ before winner after, group.order world = before ++ winner :: after ∧
        winner ∈ group.eligibleClients world ∧ world.reply winner = .ok response ∧
        (∀ idx ∈ before, idx ∈ group.eligibleClients world →
          ∃ error, world.reply idx = .error error) ∧
        outcome.contacted ⊆ before ++ [winner]) ∧
    outcome.contacted = group.failedFirst world ++ (group.winner world).toList ∧
    outcome.contacted.Nodup ∧
    outcome.contacted ⊆ group.eligibleClients world
  parallel : group.mode = .Parallel → ∀ response, outcome.result = .ok response →
    ∃ before winner after,
      world.completion (group.eligibleClients world) = before ++ winner :: after ∧
      world.reply winner = .ok response ∧
      ∀ idx ∈ before, ∃ error, world.reply idx = .error error
  recorded : ∀ cfg, group.cooldown = some cfg → ∀ idx,
    outcome.group.breaker[idx]? = (group.breaker[idx]?).bind fun breaker =>
      if idx ∈ group.failedFirst world then
        breaker.recordFailure world.last cfg (world.completed idx)
      else if group.winner world = some idx then some breaker.recordSuccess
      else some breaker
  noneEligible : group.eligibleClients world = [] →
    (∃ error, outcome.result = .error error) ∧ outcome.group.breaker = group.breaker

/-- The cooldowns that the failures of the query start end on the clock. -/
def FailuresFit (group : UpstreamGroup Client) (world : Meeting Response Error) : Prop :=
  ∀ cfg, group.cooldown = some cfg → ∀ idx ∈ group.failedFirst world,
    ∀ breaker, group.breaker[idx]? = some breaker →
      breaker.Fits world.last cfg (.failure (world.completed idx))

namespace UpstreamGroup

theorem sequence_eq (self : UpstreamGroup Client) (world : Meeting Response Error)
    {winner : Nat} (first : self.winner world = some winner) :
    ∃ rest, self.sequence world = self.failedFirst world ++ winner :: rest := by
  obtain ⟨rest, found⟩ := List.head?_eq_some_iff.mp first
  refine ⟨rest, ?_⟩
  rw [← found]
  exact List.takeWhile_append_dropWhile.symm

theorem fails_of_mem_failedFirst {self : UpstreamGroup Client}
    {world : Meeting Response Error} {idx : Nat} (member : idx ∈ self.failedFirst world) :
    ∃ error, world.reply idx = .error error :=
  Meeting.fails_iff.mp (List.mem_takeWhile_imp member)

theorem winner_mem {self : UpstreamGroup Client} {world : Meeting Response Error} {winner : Nat}
    (first : self.winner world = some winner) : winner ∈ self.eligibleClients world := by
  obtain ⟨rest, cut⟩ := self.sequence_eq world first
  rw [← (self.sequence_perm world).mem_iff, cut]
  simp

theorem exists_winner {self : UpstreamGroup Client} {world : Meeting Response Error} {idx : Nat}
    (eligible : idx ∈ self.eligibleClients world) {response : Response}
    (answers : world.reply idx = .ok response) :
    ∃ winner found, self.winner world = some winner ∧ world.reply winner = .ok found := by
  rw [← (self.sequence_perm world).mem_iff] at eligible
  have succeeds := Meeting.not_fails_iff.mpr ⟨response, answers⟩
  cases first : self.winner world with
  | none =>
      have all := List.dropWhile_eq_nil_iff.mp (List.head?_eq_none_iff.mp first)
      rw [all idx eligible] at succeeds
      cases succeeds
  | some winner =>
      have notFails := List.head?_dropWhile_not world.fails (self.sequence world)
      unfold UpstreamGroup.winner at first
      rw [first] at notFails
      obtain ⟨found, isFound⟩ := Meeting.not_fails_iff.mp notFails
      exact ⟨winner, found, rfl, isFound⟩

theorem exists_before {self : UpstreamGroup Client} {world : Meeting Response Error}
    (ordered : self.mode ≠ .Parallel) {winner : Nat} (first : self.winner world = some winner) :
    ∃ before after, self.order world = before ++ winner :: after ∧
      self.failedFirst world ⊆ before ∧
      ∀ idx ∈ before, idx ∈ self.eligibleClients world →
        ∃ error, world.reply idx = .error error := by
  have filtered : self.sequence world =
      (self.order world).filter (self.eligible world.now) := by
    unfold sequence
    split
    · next parallel => exact absurd parallel ordered
    · rfl
  obtain ⟨rest, cut⟩ := self.sequence_eq world first
  rw [filtered] at cut
  obtain ⟨front, back, whole, failed, found⟩ := List.filter_eq_append_iff.mp cut
  obtain ⟨skipped, after, isBack, leftOut, _, _⟩ := List.filter_eq_cons_iff.mp found
  refine ⟨front ++ skipped, after, by rw [whole, isBack, List.append_assoc], ?_, ?_⟩
  · rw [← failed]
    exact fun idx member => List.mem_append_left _ (List.mem_of_mem_filter member)
  · intro idx member eligible
    have takes := (List.mem_filter.mp eligible).2
    rcases List.mem_append.mp member with inFront | inSkipped
    · apply fails_of_mem_failedFirst
      rw [← failed]
      exact List.mem_filter.mpr ⟨inFront, takes⟩
    · exact absurd takes (leftOut idx inSkipped)

theorem recordFailures_of_no_cooldown {self : UpstreamGroup Client}
    (unwatched : self.cooldown = none) (world : Meeting Response Error) (failed : List Nat) :
    self.recordFailures world failed = some self := by
  induction failed with
  | nil => rfl
  | cons idx failed inductionHypothesis =>
      have nothing : self.recordFailure world.last idx (world.completed idx) = some self := by
        unfold recordFailure
        rw [unwatched]
      rw [recordFailures, List.foldlM_cons, nothing]
      exact inductionHypothesis

/-- A query comes to an end, without a panic, exactly if its failures fit. -/
theorem query_isSome_iff (self : UpstreamGroup Client) (world : Meeting Response Error) :
    (∃ outcome, self.query world = some outcome) ↔ FailuresFit self world := by
  obtain ⟨base, error, contacted, breaker, cooldown, queried, _⟩ := self.query_eq world
  have ends : (∃ outcome, self.query world = some outcome) ↔
      ∃ group, base.recordFailures world (self.failedFirst world) = some group := by
    rw [queried, settle, Option.map_map]
    simp only [← Option.isSome_iff_exists, Option.isSome_map, failedFirst]
  rw [ends]
  unfold FailuresFit
  cases cooling : self.cooldown with
  | none =>
      have unwatched := recordFailures_of_no_cooldown (cooldown.trans cooling) world
        (self.failedFirst world)
      exact iff_of_true ⟨base, unwatched⟩ fun _ without => nomatch without
  | some cfg =>
      have distinct : (self.failedFirst world).Nodup :=
        (self.sequence_nodup world).sublist (List.takeWhile_sublist world.fails)
      rw [recordFailures_isSome_iff world distinct (cooldown.trans cooling), breaker]
      simp only [Option.some.injEq, forall_eq']

/-- Whatever a query ends with is as specified. -/
theorem semantics_of_query {self : UpstreamGroup Client} {world : Meeting Response Error}
    {outcome : Outcome Client Response Error} (ended : self.query world = some outcome) :
    QuerySemantics self world outcome := by
  obtain ⟨base, error, contacted, breaker, cooldown, queried, asks⟩ := self.query_eq world
  rw [queried] at ended
  obtain ⟨⟨result, group⟩, settled, rfl⟩ := Option.map_eq_some_iff.mp ended
  have permuted := self.sequence_perm world
  have distinct := self.sequence_nodup world
  have recorded : ∀ cfg, self.cooldown = some cfg → ∀ idx,
      group.breaker[idx]? = (self.breaker[idx]?).bind fun breaker =>
        if idx ∈ self.failedFirst world then
          breaker.recordFailure world.last cfg (world.completed idx)
        else if self.winner world = some idx then some breaker.recordSuccess
        else some breaker := by
    intro cfg cooling idx
    rw [← breaker]
    exact breaker_of_settle settled distinct (cooldown.trans cooling) idx
  have won : ∀ response, result = .ok response →
      ∃ winner, self.winner world = some winner ∧ world.reply winner = .ok response :=
    fun response => (result_iff_of_settle settled response).mp
  refine ⟨⟨?_, ?_⟩, ?_, ?_, recorded, ?_⟩
  · rintro ⟨response, isOk⟩
    obtain ⟨winner, first, answers⟩ := won response isOk
    exact ⟨winner, winner_mem first, response, answers⟩
  · rintro ⟨idx, eligible, response, answers⟩
    obtain ⟨winner, found, first, isFound⟩ := exists_winner eligible answers
    exact ⟨found, (result_iff_of_settle settled found).mpr ⟨winner, first, isFound⟩⟩
  · intro ordered
    have askedEq : contacted = self.failedFirst world ++ (self.winner world).toList :=
      asks ordered
    have inSequence : contacted.Sublist (self.sequence world) := by
      rw [askedEq]
      cases first : self.winner world with
      | none =>
          rw [Option.toList_none, List.append_nil]
          exact List.takeWhile_sublist world.fails
      | some winner =>
          obtain ⟨rest, cut⟩ := self.sequence_eq world first
          rw [cut]
          exact (List.Sublist.refl _).append (List.singleton_sublist.mpr List.mem_cons_self)
    refine ⟨self.order_perm world ordered, ?_, askedEq, distinct.sublist inSequence,
      fun idx member => permuted.mem_iff.mp (inSequence.subset member)⟩
    intro response isOk
    obtain ⟨winner, first, answers⟩ := won response isOk
    obtain ⟨before, after, whole, failed, errors⟩ := exists_before ordered first
    refine ⟨before, winner, after, whole, winner_mem first, answers, errors, ?_⟩
    rw [askedEq, first]
    exact List.append_subset.mpr
      ⟨fun idx member => List.mem_append_left _ (failed member), List.subset_append_right _ _⟩
  · intro parallel response isOk
    obtain ⟨winner, first, answers⟩ := won response isOk
    obtain ⟨rest, cut⟩ := self.sequence_eq world first
    have completions : self.sequence world = world.completion (self.eligibleClients world) := by
      unfold sequence
      rw [parallel]
    rw [completions] at cut
    exact ⟨_, winner, rest, cut, answers, fun idx member => fails_of_mem_failedFirst member⟩
  · intro none
    have empty : self.sequence world = [] := List.Perm.eq_nil (none ▸ permuted)
    obtain ⟨lost, same⟩ := settle_of_empty settled empty
    exact ⟨lost, by rw [same, breaker]⟩

/-- In every mode, from every breaker state and with every assignment of answers a query
ends as specified exactly if no failure that it records starts a cooldown past the last
instant of the clock. -/
theorem query_semantics (self : UpstreamGroup Client) (world : Meeting Response Error) :
    (∃ outcome, self.query world = some outcome ∧ QuerySemantics self world outcome) ↔
      FailuresFit self world := by
  rw [← query_isSome_iff]
  exact exists_congr fun outcome => and_iff_left_of_imp semantics_of_query

/-- With the longest cooldown that is accepted the error of the first client is the end of
the process, where the second client would have answered. -/
theorem longest_cooldown_ends_query :
    let cfg : CooldownConfig :=
      { window := Duration.fromSecs 60
        threshold := 1
        cooldown := Duration.fromSecs (2 ^ 64 - 1) }
    let group : UpstreamGroup Bool := .withCooldown [true, false] (by decide) .Serial (some cfg)
    let world : Meeting Nat Unit := {
      now := 0
      last := lastInstant
      reply := fun idx => if idx = 0 then .error () else .ok 7
      completed := fun _ => 1
      shuffle := id
      shuffles := .refl
      completion := id
      completes := .refl }
    parseCooldown "1m:1:18446744073709551615s".toList = .ok (some cfg) ∧
      1 ∈ group.eligibleClients world ∧ world.reply 1 = .ok 7 ∧
      ¬ ∃ outcome, group.query world = some outcome ∧ QuerySemantics group world outcome := by
  intro cfg group world
  have panics : (group.query world).isNone = true := by decide +kernel
  refine ⟨by decide, by decide, rfl, ?_⟩
  rintro ⟨outcome, ended, _⟩
  rw [ended] at panics
  cases panics

end UpstreamGroup

end Rsdns.Upstream
