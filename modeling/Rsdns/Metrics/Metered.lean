import Mathlib.Algebra.BigOperators.Group.List.Basic
import Rsdns.Library.Interaction
import Rsdns.Library.Slots
import Rsdns.Metrics.Totals

/-!
# Tasks that count what they do

Tasks of one kind run beside each other, beside scrapes and beside all else that changes the
metrics.  Each step of their program changes a metric or waits for something else, and where
it waits a task can be given up.  What the changes weigh in all is what they weigh task by
task.
-/

namespace Rsdns.Metrics

variable {A Ask Job Result : Type} {Answer : Ask → Type}

/-! ### Programs -/

inductive Need (A Ask : Type) where
  | change (change : Change A)
  | other (ask : Ask)

namespace Need

abbrev Reply (Answer : Ask → Type) : Need A Ask → Type
  | .change _ => Unit
  | .other ask => Answer ask

def change? : Need A Ask → Option (Change A)
  | .change made => some made
  | .other _ => none

end Need

abbrev Metered (A : Type) (Answer : Ask → Type) (Result : Type) : Type :=
  Interaction (Need A Ask) (Need.Reply Answer) Result

abbrev MeteredExchange (A : Type) (Answer : Ask → Type) : Type :=
  Exchange (Need A Ask) (Need.Reply Answer)

def count (change : Change A) (next : Metered A Answer Result) : Metered A Answer Result :=
  .ask (.change change) fun _ => next

def wait (ask : Ask) (proceed : Answer ask → Metered A Answer Result) :
    Metered A Answer Result :=
  .ask (.other ask) proceed

def Change.inc (counter : Handle) : Change A := .incBy counter 1

def changesIn (transcript : List (MeteredExchange A Answer)) : List (Change A) :=
  transcript.filterMap fun exchange => exchange.1.change?

/-- A program for each job, which changes are made by such programs only, and where a task may
be given up. -/
structure Programs (A Job : Type) (Answer : Ask → Type) (Result : Type) where
  program : Job → Metered A Answer Result
  owns : Change A → Bool
  givesWay : Ask → Bool

/-! ### The machine -/

structure MeteredTask (A Job : Type) (Answer : Ask → Type) (Result : Type) where
  job : Job
  transcript : List (MeteredExchange A Answer)
  rest : Metered A Answer Result
  givenUp : Bool := false

structure MeteredState (A Job : Type) (Answer : Ask → Type) (Result : Type) where
  metrics : State A
  tasks : List (MeteredTask A Job Answer Result) := []

/-- An answer comes from outside, as does what happens aside. -/
inductive MeteredEvent (A Job : Type) (Answer : Ask → Type) where
  | begin (job : Job)
  | count (index : Nat)
  | answer (index : Nat) (reply : (ask : Ask) → Answer ask)
  | giveUp (index : Nat)
  | aside (event : Event A)

namespace MeteredTask

def count (self : MeteredTask A Job Answer Result) :
    Option (Change A × MeteredTask A Job Answer Result) :=
  match self.rest with
  | .ask (.change change) proceed =>
      some (change, { self with
        transcript := self.transcript ++ [⟨.change change, ()⟩], rest := proceed () })
  | _ => none

def answer (self : MeteredTask A Job Answer Result) (reply : (ask : Ask) → Answer ask) :
    Option (MeteredTask A Job Answer Result) :=
  match self.rest with
  | .ask (.other ask) proceed =>
      if self.givenUp then none
      else
        some { self with
          transcript := self.transcript ++ [⟨.other ask, reply ask⟩], rest := proceed (reply ask) }
  | _ => none

def giveUp (self : MeteredTask A Job Answer Result) (givesWay : Ask → Bool) :
    Option (MeteredTask A Job Answer Result) :=
  match self.rest with
  | .ask (.other ask) _ => if givesWay ask then some { self with givenUp := true } else none
  | _ => none

/-- The task is about to do something of this kind, or was given up there. -/
def isAt (self : MeteredTask A Job Answer Result) (kind : Need A Ask → Bool) : Bool :=
  match self.rest with
  | .ask need _ => kind need
  | .done _ => false

end MeteredTask

/-- Nothing that is counted by the programs. -/
def Event.isForeign (owns : Change A → Bool) : Event A → Bool
  | .change made => !owns made
  | _ => true

def Event.change? : Event A → Option (Change A)
  | .change made => some made
  | _ => none

variable [Amount A]

namespace Programs

def step (self : Programs A Job Answer Result) (state : MeteredState A Job Answer Result) :
    MeteredEvent A Job Answer → Option (MeteredState A Job Answer Result)
  | .begin job =>
      some { state with
        tasks := state.tasks ++ [{ job := job, transcript := [], rest := self.program job }] }
  | .count index => do
      let task ← state.tasks[index]?
      let (change, next) ← task.count
      let metrics ← state.metrics.change change
      return { metrics := metrics, tasks := state.tasks.set index next }
  | .answer index reply => do
      let task ← state.tasks[index]?
      let next ← task.answer reply
      return { state with tasks := state.tasks.set index next }
  | .giveUp index => do
      let task ← state.tasks[index]?
      let next ← task.giveUp self.givesWay
      return { state with tasks := state.tasks.set index next }
  | .aside event =>
      if event.isForeign self.owns then
        (state.metrics.step event).map fun metrics => { state with metrics := metrics }
      else none

def machine (self : Programs A Job Answer Result) :
    Machine (MeteredState A Job Answer Result) (MeteredEvent A Job Answer) where
  step := self.step

end Programs

def noteMetered (state : MeteredState A Job Answer Result) (event : MeteredEvent A Job Answer)
    (next : MeteredState A Job Answer Result) (past : Past A) : Past A :=
  match event with
  | .count index =>
      match state.tasks[index]?.bind MeteredTask.count with
      | some (change, _) => Past.note state.metrics (.change change) next.metrics past
      | none => past
  | .aside event => Past.note state.metrics event next.metrics past
  | _ => past

abbrev Programs.recorded (self : Programs A Job Answer Result) :
    Machine (MeteredState A Job Answer Result × Past A) (MeteredEvent A Job Answer) :=
  self.machine.recording noteMetered

/-! ### What a step does -/

/-- The task is one exchange further. -/
structure MeteredTask.Follows (task next : MeteredTask A Job Answer Result)
    (exchange : MeteredExchange A Answer) : Prop where
  job : next.job = task.job
  transcript : next.transcript = task.transcript ++ [exchange]
  rest : ∃ proceed, task.rest = .ask exchange.1 proceed ∧ next.rest = proceed exchange.2

/-- Everything a step can do to the state and to the record beside it. -/
inductive MeteredMoves (self : Programs A Job Answer Result)
    (state : MeteredState A Job Answer Result) (past : Past A) :
    MeteredEvent A Job Answer → MeteredState A Job Answer Result → Past A → Prop where
  | begins (job : Job) :
      MeteredMoves self state past (.begin job)
        { state with
          tasks := state.tasks ++ [{ job := job, transcript := [], rest := self.program job }] }
        past
  | counts {index : Nat} {task next : MeteredTask A Job Answer Result} {change : Change A}
      {metrics : State A} {later : Past A} (here : state.tasks[index]? = some task)
      (follows : task.Follows next ⟨.change change, ()⟩)
      (taken : (Metrics.recorded A).step (state.metrics, past) (.change change) =
        some (metrics, later)) :
      MeteredMoves self state past (.count index)
        { metrics := metrics, tasks := state.tasks.set index next } later
  | hears {index : Nat} {task next : MeteredTask A Job Answer Result} (ask : Ask)
      (reply : (ask : Ask) → Answer ask) (here : state.tasks[index]? = some task)
      (follows : task.Follows next ⟨.other ask, reply ask⟩) :
      MeteredMoves self state past (.answer index reply)
        { state with tasks := state.tasks.set index next } past
  | leaves {index : Nat} {task : MeteredTask A Job Answer Result}
      (here : state.tasks[index]? = some task) :
      MeteredMoves self state past (.giveUp index)
        { state with tasks := state.tasks.set index { task with givenUp := true } } past
  | passes {event : Event A} {metrics : State A} {later : Past A}
      (foreign : event.isForeign self.owns = true)
      (taken : (Metrics.recorded A).step (state.metrics, past) event = some (metrics, later)) :
      MeteredMoves self state past (.aside event) { state with metrics := metrics } later

theorem meteredMoves_of_step {self : Programs A Job Answer Result}
    {state next : MeteredState A Job Answer Result} {past later : Past A}
    {event : MeteredEvent A Job Answer}
    (stepped : self.recorded.step (state, past) event = some (next, later)) :
    MeteredMoves self state past event next later := by
  obtain ⟨taken, noted⟩ := Machine.recording_step_eq_some.mp stepped
  dsimp only at taken noted
  subst noted
  cases event with
  | begin job =>
      cases taken
      exact .begins job
  | count index =>
      obtain ⟨task, here, rest⟩ := Option.bind_eq_some_iff.mp taken
      obtain ⟨⟨change, after⟩, counted, rest⟩ := Option.bind_eq_some_iff.mp rest
      obtain ⟨metrics, changed, same⟩ := Option.bind_eq_some_iff.mp rest
      cases same
      have follows : task.Follows after ⟨.change change, ()⟩ := by
        unfold MeteredTask.count at counted
        split at counted
        · next asked proceed asks =>
            cases counted
            exact ⟨rfl, rfl, proceed, asks, rfl⟩
        · cases counted
      simp only [noteMetered, here, Option.bind_some, counted]
      exact .counts here follows (Machine.recording_step_eq_some.mpr ⟨changed, rfl⟩)
  | answer index reply =>
      obtain ⟨task, here, rest⟩ := Option.bind_eq_some_iff.mp taken
      obtain ⟨after, answered, same⟩ := Option.bind_eq_some_iff.mp rest
      cases same
      unfold MeteredTask.answer at answered
      split at answered
      · next ask proceed asks =>
          obtain ⟨_, moved⟩ := Option.ite_none_left_eq_some.mp answered
          cases moved
          exact .hears ask reply here ⟨rfl, rfl, proceed, asks, rfl⟩
      · cases answered
  | giveUp index =>
      obtain ⟨task, here, rest⟩ := Option.bind_eq_some_iff.mp taken
      obtain ⟨after, left, same⟩ := Option.bind_eq_some_iff.mp rest
      cases same
      unfold MeteredTask.giveUp at left
      split at left
      · obtain ⟨_, moved⟩ := Option.ite_none_right_eq_some.mp left
        cases moved
        exact .leaves here
      · cases left
  | aside event =>
      obtain ⟨foreign, rest⟩ := Option.ite_none_right_eq_some.mp taken
      obtain ⟨metrics, passed, same⟩ := Option.map_eq_some_iff.mp rest
      cases same
      exact .passes foreign (Machine.recording_step_eq_some.mpr ⟨passed, rfl⟩)

/-! ### The books balance -/

def weight (weigh : Change A → Nat) (changes : List (Change A)) : Nat := (changes.map weigh).sum

omit [Amount A] in
theorem weight_append (weigh : Change A → Nat) (first second : List (Change A)) :
    weight weigh (first ++ second) = weight weigh first + weight weigh second := by
  rw [weight, List.map_append, List.sum_append]
  rfl

omit [Amount A] in
theorem weight_add (first second : Change A → Nat) (changes : List (Change A)) :
    weight (fun change => first change + second change) changes =
      weight first changes + weight second changes := List.sum_map_add

/-- Only what the programs do weighs anything. -/
def Programs.Weighs (self : Programs A Job Answer Result) (weigh : Change A → Nat) : Prop :=
  ∀ change, self.owns change = false → weigh change = 0

omit [Amount A] in
theorem Programs.Weighs.add {self : Programs A Job Answer Result} {first second : Change A → Nat}
    (firstOwned : self.Weighs first) (secondOwned : self.Weighs second) :
    self.Weighs fun change => first change + second change := by
  intro change foreign
  dsimp only
  rw [firstOwned change foreign, secondOwned change foreign]

/-- A task has come to where its exchanges lead, and all tasks together make up the changes. -/
structure Accounted (programs : Programs A Job Answer Result)
    (recorded : MeteredState A Job Answer Result × Past A) : Prop where
  onCourse : ∀ task ∈ recorded.1.tasks,
    Interaction.Reaches (programs.program task.job) task.transcript task.rest
  weights : ∀ weigh, programs.Weighs weigh → weight weigh (changesOf recorded.2.entries) =
    (recorded.1.tasks.map fun task => weight weigh (changesIn task.transcript)).sum

theorem changesOf_step {state next : State A} {past later : Past A} {event : Event A}
    (taken : (recorded A).step (state, past) event = some (next, later)) :
    changesOf later.entries = changesOf past.entries ++ event.change?.toList := by
  cases moves_of_step taken with
  | changes => exact filterMap_concat ..
  | visits => exact filterMap_concat ..
  | begins => exact (List.append_nil _).symm
  | opens => exact (List.append_nil _).symm
  | closes => exact (List.append_nil _).symm

omit [Amount A] in
theorem weight_changesIn_told (weigh : Change A → Nat)
    (transcript : List (MeteredExchange A Answer)) (exchange : MeteredExchange A Answer) :
    weight weigh (changesIn (transcript ++ [exchange])) =
      weight weigh (changesIn transcript) + weight weigh exchange.1.change?.toList := by
  rw [changesIn, filterMap_concat, weight_append]
  rfl

omit [Amount A] in
theorem MeteredTask.Follows.weight {task next : MeteredTask A Job Answer Result}
    {exchange : MeteredExchange A Answer} (follows : task.Follows next exchange)
    (weigh : Change A → Nat) :
    Metrics.weight weigh (changesIn next.transcript) =
      Metrics.weight weigh (changesIn task.transcript) +
        Metrics.weight weigh exchange.1.change?.toList := by
  rw [follows.transcript, weight_changesIn_told]

omit [Amount A] in
theorem MeteredTask.Follows.reaches {self : Programs A Job Answer Result}
    {task next : MeteredTask A Job Answer Result} {exchange : MeteredExchange A Answer}
    (follows : task.Follows next exchange)
    (reached : Interaction.Reaches (self.program task.job) task.transcript task.rest) :
    Interaction.Reaches (self.program next.job) next.transcript next.rest := by
  obtain ⟨job, transcript, proceed, asks, rest⟩ := follows
  rw [asks] at reached
  rw [job, transcript, rest]
  exact reached.told exchange.2

omit [Amount A] in
theorem Accounted.follows {self : Programs A Job Answer Result}
    {state : MeteredState A Job Answer Result} {past : Past A}
    (accounted : Accounted self (state, past)) {index : Nat}
    {task next : MeteredTask A Job Answer Result} {exchange : MeteredExchange A Answer}
    (here : state.tasks[index]? = some task) (follows : task.Follows next exchange)
    {metrics : State A} {later : Past A}
    (made : changesOf later.entries =
      changesOf past.entries ++ exchange.1.change?.toList) :
    Accounted self ({ metrics := metrics, tasks := state.tasks.set index next }, later) where
  onCourse := by
    intro other member
    rcases List.mem_or_eq_of_mem_set member with before | rfl
    · exact accounted.onCourse other before
    · exact follows.reaches (accounted.onCourse task (List.mem_of_getElem? here))
  weights := by
    intro weigh owned
    rw [made, weight_append, accounted.weights weigh owned]
    exact (Slots.sum_map_set here (fun task => weight weigh (changesIn task.transcript))
      (follows.weight weigh)).symm

theorem Accounted.step {self : Programs A Job Answer Result}
    {recorded next : MeteredState A Job Answer Result × Past A}
    {event : MeteredEvent A Job Answer} (accounted : Accounted self recorded)
    (stepped : self.recorded.step recorded event = some next) : Accounted self next := by
  obtain ⟨state, past⟩ := recorded
  obtain ⟨after, later⟩ := next
  cases meteredMoves_of_step stepped with
  | begins job =>
      refine { onCourse := fun task member => ?_, weights := fun weigh owned => ?_ }
      · rcases List.mem_append.mp member with before | isNew
        · exact accounted.onCourse task before
        · cases List.mem_singleton.mp isNew
          exact .start
      · rw [accounted.weights weigh owned, List.map_append, List.sum_append]
        rfl
  | counts here follows taken => exact accounted.follows here follows (changesOf_step taken)
  | hears ask reply here follows =>
      exact accounted.follows here follows (List.append_nil _).symm
  | @leaves index task here =>
      refine { onCourse := fun other member => ?_, weights := fun weigh owned => ?_ }
      · rcases List.mem_or_eq_of_mem_set member with before | rfl
        · exact accounted.onCourse other before
        · exact accounted.onCourse task (List.mem_of_getElem? here)
      · have same : weight weigh (changesIn { task with givenUp := true }.transcript) =
            weight weigh (changesIn task.transcript) + 0 := rfl
        rw [accounted.weights weigh owned]
        exact (Slots.sum_map_set here (fun task => weight weigh (changesIn task.transcript)) same).symm
  | @passes event metrics _ foreign taken =>
      refine { onCourse := accounted.onCourse, weights := fun weigh owned => ?_ }
      have nothing : weight weigh event.change?.toList = 0 := by
        cases event with
        | change made => exact owned made (by simpa [Event.isForeign] using foreign)
        | _ => rfl
      rw [changesOf_step taken, weight_append, nothing, accounted.weights weigh owned]
      rfl

/-- The requests of a program are where two weights differ by one, and are the same elsewhere. -/
def Balances (light heavy : Change A → Nat) (pending : Need A Ask → Bool)
    (program : Metered A Answer Result) : Prop :=
  program.Always
    (fun transcript need => weight heavy (changesIn transcript) =
      weight light (changesIn transcript) + (pending need).toNat)
    (fun transcript _ => weight heavy (changesIn transcript) =
      weight light (changesIn transcript)) []

/-- A program that makes up for what is owed, and says so at every request. -/
inductive Owes (light heavy : Change A → Nat) (pending : Need A Ask → Bool) :
    Nat → Metered A Answer Result → Prop where
  | done {result : Result} : Owes light heavy pending 0 (.done result)
  | count {change : Change A} {next : Metered A Answer Result} {owed : Nat} (after : Nat)
      (here : (pending (.change change)).toNat = owed)
      (paid : owed + heavy change = after + light change)
      (rest : Owes light heavy pending after next) :
      Owes light heavy pending owed (count change next)
  | wait {ask : Ask} {proceed : Answer ask → Metered A Answer Result} {owed : Nat}
      (here : (pending (.other ask)).toNat = owed)
      (rest : ∀ reply, Owes light heavy pending owed (proceed reply)) :
      Owes light heavy pending owed (wait ask proceed)

omit [Amount A] in
theorem Owes.always {light heavy : Change A → Nat} {pending : Need A Ask → Bool} {owed : Nat}
    {program : Metered A Answer Result} (owes : Owes light heavy pending owed program)
    {transcript : List (MeteredExchange A Answer)}
    (before : weight heavy (changesIn transcript) = weight light (changesIn transcript) + owed) :
    program.Always
      (fun transcript need => weight heavy (changesIn transcript) =
        weight light (changesIn transcript) + (pending need).toNat)
      (fun transcript _ => weight heavy (changesIn transcript) =
        weight light (changesIn transcript)) transcript := by
  induction owes generalizing transcript with
  | done => exact before
  | @count change next owed after here paid rest inductionHypothesis =>
      refine ⟨before.trans (by rw [here]), fun reply => inductionHypothesis ?_⟩
      have single (weigh : Change A → Nat) :
          weight weigh (.change change : Need A Ask).change?.toList = weigh change :=
        Nat.add_zero _
      rw [weight_changesIn_told, weight_changesIn_told, single, single]
      omega
  | wait here rest inductionHypothesis =>
      refine ⟨before.trans (by rw [here]), fun reply => inductionHypothesis reply ?_⟩
      rwa [weight_changesIn_told, weight_changesIn_told]

omit [Amount A] in
theorem Owes.balances {light heavy : Change A → Nat} {pending : Need A Ask → Bool}
    {program : Metered A Answer Result} (owes : Owes light heavy pending 0 program) :
    Balances light heavy pending program := owes.always rfl

omit [Amount A] in
theorem Balances.task {light heavy : Change A → Nat} {pending : Need A Ask → Bool}
    {program : Metered A Answer Result} (balances : Balances light heavy pending program)
    {task : MeteredTask A Job Answer Result}
    (reached : Interaction.Reaches program task.transcript task.rest) :
    weight heavy (changesIn task.transcript) =
      weight light (changesIn task.transcript) + (task.isAt pending).toNat := by
  have always := (reached.always balances).1
  unfold MeteredTask.isAt
  cases here : task.rest with
  | done result =>
      rw [here] at always
      exact always
  | ask need proceed =>
      rw [here] at always
      exact always.1

theorem sum_map_toNat {Item : Type*} (items : List Item) (is : Item → Bool) :
    (items.map fun item => (is item).toNat).sum = items.countP is := by
  induction items with
  | nil => rfl
  | cons item items inductionHypothesis =>
      rw [List.map_cons, List.sum_cons, inductionHypothesis, List.countP_cons]
      cases is item <;> simp [Nat.add_comm]

omit [Amount A] in
/-- If the weights balance in each program, they differ by as many as are between. -/
theorem Accounted.balance {self : Programs A Job Answer Result}
    {state : MeteredState A Job Answer Result} {past : Past A}
    (accounted : Accounted self (state, past)) {light heavy : Change A → Nat}
    {pending : Need A Ask → Bool} (lightOwned : self.Weighs light)
    (heavyOwned : self.Weighs heavy)
    (balances : ∀ job, Balances light heavy pending (self.program job)) :
    weight heavy (changesOf past.entries) = weight light (changesOf past.entries) +
      state.tasks.countP (MeteredTask.isAt · pending) := by
  have each : ∀ task ∈ state.tasks, weight heavy (changesIn task.transcript) =
      weight light (changesIn task.transcript) + (task.isAt pending).toNat :=
    fun task member => (balances task.job).task (accounted.onCourse task member)
  rw [accounted.weights heavy heavyOwned, accounted.weights light lightOwned,
    List.map_congr_left each, List.sum_map_add, sum_map_toNat]

/-- A program never makes the weight more than one. -/
def Once (weigh : Change A → Nat) (program : Metered A Answer Result) : Prop :=
  program.Always (fun transcript _ => weight weigh (changesIn transcript) ≤ 1)
    (fun transcript _ => weight weigh (changesIn transcript) ≤ 1) []

/-- A program that has no more than some weight left. -/
inductive Within (weigh : Change A → Nat) : Nat → Metered A Answer Result → Prop where
  | done {result : Result} {left : Nat} : Within weigh left (.done result)
  | count {change : Change A} {next : Metered A Answer Result} {left after : Nat}
      (fits : weigh change + after ≤ left) (rest : Within weigh after next) :
      Within weigh left (count change next)
  | wait {ask : Ask} {proceed : Answer ask → Metered A Answer Result} {left : Nat}
      (rest : ∀ reply, Within weigh left (proceed reply)) : Within weigh left (wait ask proceed)

omit [Amount A] in
theorem Within.always {weigh : Change A → Nat} {left : Nat} {program : Metered A Answer Result}
    (within : Within weigh left program) {transcript : List (MeteredExchange A Answer)}
    (before : weight weigh (changesIn transcript) + left ≤ 1) :
    program.Always (fun transcript _ => weight weigh (changesIn transcript) ≤ 1)
      (fun transcript _ => weight weigh (changesIn transcript) ≤ 1) transcript := by
  have small := Nat.le_of_add_right_le before
  induction within generalizing transcript with
  | done => exact small
  | @count change next left after fits rest inductionHypothesis =>
      have single : weight weigh (.change change : Need A Ask).change?.toList = weigh change :=
        Nat.add_zero _
      have told : weight weigh (changesIn (transcript ++ [⟨.change change, ()⟩])) + after ≤ 1 := by
        rw [weight_changesIn_told, single]
        omega
      exact ⟨small, fun _ => inductionHypothesis told (Nat.le_of_add_right_le told)⟩
  | wait rest inductionHypothesis =>
      refine ⟨small, fun reply => inductionHypothesis reply ?_ ?_⟩
      · rwa [weight_changesIn_told]
      · rwa [weight_changesIn_told]

omit [Amount A] in
theorem Within.once {weigh : Change A → Nat} {program : Metered A Answer Result}
    (within : Within weigh 1 program) : Once weigh program := within.always (Nat.le_refl 1)

theorem sum_le_length {values : List Nat} (each : ∀ value ∈ values, value ≤ 1) :
    values.sum ≤ values.length := by
  induction values with
  | nil => exact Nat.le_refl 0
  | cons value values inductionHypothesis =>
      obtain ⟨small, rest⟩ := List.forall_mem_cons.mp each
      rw [List.sum_cons, List.length_cons, Nat.add_comm]
      exact Nat.add_le_add (inductionHypothesis rest) small

omit [Amount A] in
theorem Accounted.weight_le {self : Programs A Job Answer Result}
    {state : MeteredState A Job Answer Result} {past : Past A}
    (accounted : Accounted self (state, past)) {weigh : Change A → Nat}
    (owned : self.Weighs weigh) (once : ∀ job, Once weigh (self.program job)) :
    weight weigh (changesOf past.entries) ≤ state.tasks.length := by
  have each : ∀ value ∈ state.tasks.map fun task => weight weigh (changesIn task.transcript),
      value ≤ 1 := by
    intro value member
    obtain ⟨task, inside, rfl⟩ := List.mem_map.mp member
    have always := ((accounted.onCourse task inside).always (once task.job)).1
    cases here : task.rest with
    | done result =>
        rw [here] at always
        exact always
    | ask need proceed =>
        rw [here] at always
        exact always.1
  have bound := sum_le_length each
  rwa [← accounted.weights weigh owned, List.length_map] at bound

/-- Nothing that the programs count has been counted. -/
def Unopened (owns : Change A → Bool) (past : Past A) : Prop :=
  ∀ change ∈ changesOf past.entries, owns change = false

omit [Amount A] in
theorem Unopened.weight_eq_zero {self : Programs A Job Answer Result} {past : Past A}
    (unopened : Unopened self.owns past) {weigh : Change A → Nat} (owned : self.Weighs weigh)
    {before : List (Entry A)} (front : before <+: past.entries) :
    weight weigh (changesOf before) = 0 := by
  refine List.sum_eq_zero fun value member => ?_
  obtain ⟨change, isChange, rfl⟩ := List.mem_map.mp member
  refine owned change (unopened change ?_)
  obtain ⟨rest, whole⟩ := front
  rw [← whole, changesOf, List.filterMap_append]
  exact List.mem_append_left _ isChange

omit [Amount A] in
theorem Unopened.accounted {self : Programs A Job Answer Result} {past : Past A}
    (unopened : Unopened self.owns past) (metrics : State A) :
    Accounted self ({ metrics := metrics }, past) where
  onCourse := nofun
  weights := fun _ owned => unopened.weight_eq_zero owned List.prefix_rfl

theorem entries_step {state next : State A} {past later : Past A} {event : Event A}
    (taken : (recorded A).step (state, past) event = some (next, later)) :
    later.entries = past.entries ∨ ∃ entry, later.entries = past.entries ++ [entry] := by
  cases moves_of_step taken with
  | changes => exact .inr ⟨_, rfl⟩
  | visits => exact .inr ⟨_, rfl⟩
  | begins => exact .inl rfl
  | opens => exact .inl rfl
  | closes => exact .inl rfl

/-- Up to any point, the lighter changes weigh no more than the heavier ones. -/
structure InOrder (programs : Programs A Job Answer Result) (light heavy : Change A → Nat)
    (recorded : MeteredState A Job Answer Result × Past A) : Prop where
  accounted : Accounted programs recorded
  ordered : ∀ before, before <+: recorded.2.entries →
    weight light (changesOf before) ≤ weight heavy (changesOf before)

theorem InOrder.step {self : Programs A Job Answer Result} {light heavy : Change A → Nat}
    {pending : Need A Ask → Bool} (lightOwned : self.Weighs light)
    (heavyOwned : self.Weighs heavy)
    (balances : ∀ job, Balances light heavy pending (self.program job))
    {recorded next : MeteredState A Job Answer Result × Past A}
    {event : MeteredEvent A Job Answer} (inOrder : InOrder self light heavy recorded)
    (stepped : self.recorded.step recorded event = some next) :
    InOrder self light heavy next := by
  obtain ⟨state, past⟩ := recorded
  obtain ⟨after, later⟩ := next
  have accounted := inOrder.accounted.step stepped
  refine { accounted := accounted, ordered := fun before front => ?_ }
  have grown : later.entries = past.entries ∨
      ∃ entry, later.entries = past.entries ++ [entry] := by
    cases meteredMoves_of_step stepped with
    | counts here follows taken => exact entries_step taken
    | passes foreign taken => exact entries_step taken
    | _ => exact .inl rfl
  dsimp only at front
  rcases grown with same | ⟨entry, grown⟩
  · exact inOrder.ordered before (same ▸ front)
  · rw [grown, List.prefix_concat_iff] at front
    rcases front with rfl | front
    · rw [← grown, accounted.balance lightOwned heavyOwned balances]
      exact Nat.le_add_right _ _
    · exact inOrder.ordered before front

/-- If the weights balance in each program, one is never ahead of the other, not even in what
happened up to some point. -/
theorem ordered_of_run {self : Programs A Job Answer Result} {metrics : State A}
    {past later : Past A} {state : MeteredState A Job Answer Result}
    (unopened : Unopened self.owns past)
    (run : self.recorded.Run ({ metrics := metrics }, past) (state, later))
    {light heavy : Change A → Nat} {pending : Need A Ask → Bool}
    (lightOwned : self.Weighs light) (heavyOwned : self.Weighs heavy)
    (balances : ∀ job, Balances light heavy pending (self.program job)) :
    InOrder self light heavy (state, later) := by
  refine run.invariant ?_ fun inOrder _ stepped =>
    inOrder.step lightOwned heavyOwned balances stepped
  refine { accounted := unopened.accounted metrics, ordered := fun before front => ?_ }
  rw [unopened.weight_eq_zero lightOwned front]
  exact Nat.zero_le _

/-! ### Totals of whole families -/

/-- All that was added to any series of the family. -/
def familyWeight (index : Nat) : Change A → Nat
  | .incBy handle v => if handle.series = index then v.toNat else 0
  | _ => 0

omit [Amount A] in
@[simp]
theorem familyWeight_inc (index : Nat) (counter : Handle) :
    familyWeight index (.inc counter : Change A) =
      if counter.series = index then 1 else 0 := rfl

omit [Amount A] in
@[simp]
theorem familyWeight_observe (index : Nat) (histogram : Handle) (value : A) :
    familyWeight index (.observe histogram value) = 0 := rfl

def Family.total (self : Family Series) : Nat := (self.series.values.entries.map Sigma.snd).sum

omit [Amount A] in
theorem sum_increments_cons (handle : Handle) (change : Change A) (changes : List (Change A)) :
    (increments handle (change :: changes)).sum =
      (change.increment? handle).getD 0 + (increments handle changes).sum := by
  unfold increments
  cases found : change.increment? handle <;> simp [found]

omit [Amount A] in
theorem increment_le_familyWeight (handle : Handle) (change : Change A) :
    (change.increment? handle).getD 0 ≤ familyWeight handle.series change := by
  cases change with
  | incBy there v =>
      by_cases same : there = handle
      · subst same
        simp [Change.increment?, familyWeight]
      · simp [Change.increment?, same]
  | _ => exact Nat.zero_le _

omit [Amount A] in
theorem sum_increments_le (handle : Handle) (changes : List (Change A)) :
    (increments handle changes).sum ≤ weight (familyWeight handle.series) changes := by
  induction changes with
  | nil => exact Nat.le_refl 0
  | cons change changes inductionHypothesis =>
      rw [sum_increments_cons, weight, List.map_cons, List.sum_cons]
      exact Nat.add_le_add (increment_le_familyWeight handle change) inductionHypothesis

theorem sum_map_ite_mem {Key : Type*} [DecidableEq Key] {keys : List Key} (nodup : keys.Nodup)
    {key : Key} (member : key ∈ keys) (value : Nat) :
    (keys.map fun other => if key = other then value else 0).sum = value := by
  induction keys with
  | nil => cases member
  | cons first keys inductionHypothesis =>
      obtain ⟨fresh, nodup⟩ := List.nodup_cons.mp nodup
      rw [List.map_cons, List.sum_cons]
      rcases List.mem_cons.mp member with rfl | member
      · have others : ∀ other ∈ keys, (if key = other then value else 0) = 0 :=
          fun other inside => if_neg fun same : key = other => fresh (same ▸ inside)
        rw [if_pos rfl, List.map_congr_left others]
        simp
      · rw [if_neg fun same : key = first => fresh (same ▸ member), inductionHypothesis nodup member,
          Nat.zero_add]

omit [Amount A] in
theorem sum_increments_keys (index : Nat) {keys : List (List Text)} (nodup : keys.Nodup)
    {changes : List (Change A)}
    (all : ∀ labels, increments ⟨index, labels⟩ changes ≠ [] → labels ∈ keys) :
    (keys.map fun labels => (increments ⟨index, labels⟩ changes).sum).sum =
      weight (familyWeight index) changes := by
  induction changes with
  | nil => simp [increments, weight]
  | cons change changes inductionHypothesis =>
      have later (labels : List Text) (some : increments ⟨index, labels⟩ changes ≠ []) :
          labels ∈ keys := by
        refine all labels fun none => some ?_
        rw [increments, List.filterMap_eq_nil_iff] at none ⊢
        exact fun other member => none other (List.mem_cons_of_mem _ member)
      have first : (keys.map fun labels => (change.increment? ⟨index, labels⟩).getD 0).sum =
          familyWeight index change := by
        cases change with
        | incBy handle v =>
            obtain ⟨series, label⟩ := handle
            by_cases same : series = index
            · subst same
              have member : label ∈ keys := all label (by simp [increments, Change.increment?])
              rw [familyWeight, if_pos rfl, ← sum_map_ite_mem nodup member v.toNat]
              refine congrArg List.sum (List.map_congr_left fun other _ => ?_)
              by_cases isLabel : label = other <;> simp [Change.increment?, isLabel]
            · simp [Change.increment?, familyWeight, same]
        | _ => simp [Change.increment?, familyWeight]
      simp only [sum_increments_cons, List.sum_map_add, inductionHypothesis later, first]
      rfl

/-- As long as the increments of a family fit a word, the values of its series add up to them. -/
theorem total_of_agrees {family : Family Series} {index : Nat} {changes : List (Change A)}
    (agrees : Found.Agrees index changes (.counter family))
    (fits : weight (familyWeight index) changes ≤ u64Max) :
    family.total = weight (familyWeight index) changes := by
  have value (entry : Sigma fun _ : List Text => Nat)
      (member : entry ∈ family.series.values.entries) :
      entry.2 = (increments ⟨index, entry.1⟩ changes).sum := by
    have found := Option.mem_def.mp (AList.mem_lookup_iff.mpr member)
    rw [agrees entry.1, counted] at found
    obtain ⟨_, isValue⟩ := Option.ite_none_left_eq_some.mp found
    have small := Nat.le_trans (sum_increments_le ⟨index, entry.1⟩ changes) fits
    rw [← Option.some.inj isValue, Nat.min_eq_left small]
  have keyed : family.total = (family.series.values.keys.map fun labels =>
      (increments ⟨index, labels⟩ changes).sum).sum := by
    rw [Family.total, List.map_congr_left value, AList.keys, List.keys, List.map_map]
    rfl
  rw [keyed]
  refine sum_increments_keys index family.series.values.keys_nodup fun labels added => ?_
  by_contra absent
  have found := agrees labels
  rw [AList.lookup_eq_none.mpr absent, counted, if_neg added] at found
  cases found

def Registry.counterTotal (self : Registry A) (index : Nat) : Nat :=
  self.counters[index]?.elim 0 Family.total

/-- What is shown for a counter, over all its labels. -/
def State.total (self : State A) (counter : Handle) : Nat :=
  self.registry.counterTotal counter.series

theorem increments_eq_nil {registry : Registry A} {changes : List (Change A)}
    (tallies : registry.Tallies changes) {handle : Handle}
    (absent : registry.counters.length ≤ handle.series) : increments handle changes = [] := by
  have value := tallies.counters handle
  rw [seriesValue, List.getElem?_eq_none absent, counted] at value
  by_contra some
  rw [if_neg some] at value
  cases value

omit [Amount A] in
theorem weight_eq_zero_of_increments {index : Nat} {changes : List (Change A)}
    (none : ∀ labels, increments ⟨index, labels⟩ changes = []) :
    weight (familyWeight index) changes = 0 := by
  rw [← sum_increments_keys index List.nodup_nil fun labels some => absurd (none labels) some]
  rfl

theorem counterTotal_of_tallies {registry : Registry A} {changes : List (Change A)}
    (tallies : registry.Tallies changes) {index : Nat}
    (fits : weight (familyWeight index) changes ≤ u64Max) :
    registry.counterTotal index = weight (familyWeight index) changes := by
  unfold Registry.counterTotal
  cases found : registry.counters[index]? with
  | none =>
      have absent : registry.counters.length ≤ index := List.getElem?_eq_none_iff.mp found
      exact (weight_eq_zero_of_increments fun labels => increments_eq_nil tallies absent).symm
  | some family =>
      have there : registry.familyAt index .counters = some (.counter family) := by
        rw [Registry.familyAt, found]
        rfl
      exact total_of_agrees (tallies.agrees there) fits

/-! ### What scrapes show -/

/-- A scrape looked at the counter behind these entries, and its values came to this. -/
def Past.Shows (past : Past A) (counter : Handle) (before : List (Entry A)) (amount : Nat) :
    Prop :=
  ∃ visit family after, past.entries = before ++ .saw visit :: after ∧
    visit.index = counter.series ∧ visit.found = .counter family ∧ family.total = amount

/-- The number of the counter that was looked at at this entry, and what its values came to. -/
def Past.shownAt (past : Past A) (place : Nat) : Option (Nat × Nat) :=
  match past.entries[place]? with
  | some (.saw ⟨_, _, _, index, .counter family⟩) => some (index, family.total)
  | _ => none

omit [Amount A] in
theorem Past.shows_of_shownAt {past : Past A} {place amount : Nat} {counter : Handle}
    (shown : past.shownAt place = some (counter.series, amount)) :
    past.Shows counter (past.entries.take place) amount := by
  unfold shownAt at shown
  split at shown
  · next task iteration block index family found =>
      cases shown
      obtain ⟨inside, isHere⟩ := List.getElem?_eq_some_iff.mp found
      refine ⟨⟨task, iteration, block, counter.series, .counter family⟩, family,
        past.entries.drop (place + 1), ?_, rfl, rfl, rfl⟩
      rw [← isHere, ← List.drop_eq_getElem_cons inside, List.take_append_drop]
  · cases shown

omit [Amount A] in
theorem weight_le_of_front (weigh : Change A → Nat) {before entries : List (Entry A)}
    (front : before <+: entries) :
    weight weigh (changesOf before) ≤ weight weigh (changesOf entries) := by
  obtain ⟨rest, rfl⟩ := front
  rw [changesOf, changesOf, List.filterMap_append, weight_append]
  exact Nat.le_add_right _ _

theorem Tallied.shows {recorded : State A × Past A} (tallied : Tallied recorded)
    {counter : Handle} {before : List (Entry A)} {amount : Nat}
    (shows : recorded.2.Shows counter before amount)
    (fits : weight (familyWeight counter.series) (changesOf recorded.2.entries) ≤ u64Max) :
    before <+: recorded.2.entries ∧
      amount = weight (familyWeight counter.series) (changesOf before) := by
  obtain ⟨visit, family, after, split, isIndex, isFound, rfl⟩ := shows
  have front : before <+: recorded.2.entries := ⟨_, split.symm⟩
  have agrees := tallied.seen before visit after split
  rw [isIndex, isFound] at agrees
  exact ⟨front, total_of_agrees agrees (Nat.le_trans (weight_le_of_front _ front) fits)⟩

/-- If two counters are never ahead of a third, they are not so in what scrapes show, as long as
the third is looked at last. -/
theorem Tallied.shows_le {recorded : State A × Past A} (tallied : Tallied recorded)
    {first second whole : Handle}
    (ordered : ∀ before, before <+: recorded.2.entries →
      weight (familyWeight first.series) (changesOf before) +
          weight (familyWeight second.series) (changesOf before) ≤
        weight (familyWeight whole.series) (changesOf before))
    (fits : weight (familyWeight whole.series) (changesOf recorded.2.entries) ≤ u64Max)
    {earlier other last : List (Entry A)} {one two all : Nat}
    (showsOne : recorded.2.Shows first earlier one)
    (showsTwo : recorded.2.Shows second other two) (showsAll : recorded.2.Shows whole last all)
    (earlierFirst : earlier <+: last) (otherFirst : other <+: last) : one + two ≤ all := by
  have now := ordered recorded.2.entries List.prefix_rfl
  obtain ⟨_, isOne⟩ := tallied.shows showsOne (by omega)
  obtain ⟨_, isTwo⟩ := tallied.shows showsTwo (by omega)
  obtain ⟨front, isAll⟩ := tallied.shows showsAll fits
  have oneLater := weight_le_of_front (familyWeight first.series) earlierFirst
  have twoLater := weight_le_of_front (familyWeight second.series) otherFirst
  have then_ := ordered last front
  omega

/-! ### The metrics beside the tasks -/

/-- What goes on aside only adds, as the programs do. -/
def MeteredEvent.Forward : MeteredEvent A Job Answer → Prop
  | .aside event => Metrics.Forward event
  | _ => True

instance : (event : MeteredEvent A Job Answer) → Decidable event.Forward
  | .aside event => inferInstanceAs (Decidable (Metrics.Forward event))
  | .begin _ | .count _ | .answer .. | .giveUp _ => isTrue trivial

/-- All increments of a program are small. -/
def Steady (program : Metered A Answer Result) : Prop :=
  ∀ transcript, program.Always
    (fun _ need => ∀ change ∈ need.change?, Metrics.Forward (.change change))
    (fun _ _ => True) transcript

omit [Amount A] in
theorem Steady.done (result : Result) : Steady (.done result : Metered A Answer Result) :=
  fun _ => trivial

omit [Amount A] in
theorem Steady.inc {counter : Handle} {next : Metered A Answer Result} (rest : Steady next) :
    Steady (count (.inc counter) next) := by
  refine fun transcript => ⟨fun change made => ?_, fun _ => rest _⟩
  cases made
  show (1 : UInt64).toNat < 2 ^ 63
  decide

omit [Amount A] in
theorem Steady.observe {histogram : Handle} {value : A} {next : Metered A Answer Result}
    (rest : Steady next) : Steady (count (.observe histogram value) next) := by
  refine fun transcript => ⟨fun change made => ?_, fun _ => rest _⟩
  cases made
  trivial

omit [Amount A] in
theorem Steady.wait {ask : Ask} {proceed : Answer ask → Metered A Answer Result}
    (rest : ∀ reply, Steady (proceed reply)) : Steady (wait ask proceed) :=
  fun _ => ⟨nofun, fun reply => rest reply _⟩

structure MeteredTallied (programs : Programs A Job Answer Result)
    (recorded : MeteredState A Job Answer Result × Past A) : Prop where
  accounted : Accounted programs recorded
  tallied : Tallied (recorded.1.metrics, recorded.2)

theorem MeteredTallied.step {self : Programs A Job Answer Result}
    (steady : ∀ job, Steady (self.program job))
    {recorded next : MeteredState A Job Answer Result × Past A}
    {event : MeteredEvent A Job Answer} (before : MeteredTallied self recorded)
    (forward : event.Forward) (stepped : self.recorded.step recorded event = some next) :
    MeteredTallied self next := by
  obtain ⟨state, past⟩ := recorded
  obtain ⟨after, later⟩ := next
  refine { accounted := before.accounted.step stepped, tallied := ?_ }
  cases meteredMoves_of_step stepped with
  | @counts index task after change metrics _ here follows taken =>
      have reached := before.accounted.onCourse task (List.mem_of_getElem? here)
      obtain ⟨proceed, asks, _⟩ := follows.rest
      have always := (reached.always (steady task.job [])).1
      rw [asks] at always
      exact before.tallied.step (always.1 change rfl) taken
  | passes foreign taken => exact before.tallied.step forward taken
  | _ => exact before.tallied

theorem tallied_of_metered_run {self : Programs A Job Answer Result} {metrics : State A}
    {past later : Past A} {state : MeteredState A Job Answer Result}
    (tallied : Tallied (metrics, past)) (unopened : Unopened self.owns past)
    (steady : ∀ job, Steady (self.program job))
    (run : self.recorded.GuardedRun (fun _ event => event.Forward)
      ({ metrics := metrics }, past) (state, later)) :
    MeteredTallied self (state, later) :=
  run.invariant { accounted := unopened.accounted metrics, tallied := tallied }
    (MeteredTallied.step steady)

/-! ### Registrations one after the other -/

def Registry.applyAll (self : Registry A) (changes : List (Change A)) : Option (Registry A) :=
  changes.foldlM Registry.apply self

theorem Registry.applyAll_cons {registry next : Registry A} {change : Change A}
    (applied : registry.apply change = some next) (changes : List (Change A)) :
    registry.applyAll (change :: changes) = next.applyAll changes := by
  rw [applyAll, List.foldlM_cons, applied]
  rfl

def Past.noteAll (self : Past A) (changes : List (Change A)) : Past A :=
  { self with entries := self.entries ++ changes.map .changed }

theorem Tallied.changedAll {state : State A} {past : Past A} (tallied : Tallied (state, past))
    {changes : List (Change A)} (forward : ∀ change ∈ changes, Forward (.change change))
    {registry : Registry A} (applied : state.registry.applyAll changes = some registry) :
    Tallied ({ state with registry := registry }, past.noteAll changes) := by
  induction changes generalizing state past with
  | nil =>
      cases applied
      rwa [Past.noteAll, List.map_nil, List.append_nil]
  | cons change changes inductionHypothesis =>
      obtain ⟨first, rest⟩ := List.forall_mem_cons.mp forward
      obtain ⟨middle, made, applied⟩ := Option.bind_eq_some_iff.mp applied
      have next := inductionHypothesis (tallied.changed first made) rest applied
      simpa [Past.noteAll] using next

omit [Amount A] in
theorem changesOf_noteAll (past : Past A) (changes : List (Change A)) :
    changesOf (past.noteAll changes).entries = changesOf past.entries ++ changes := by
  have noted : (changes.map Entry.changed).filterMap Entry.change? = changes := by
    rw [List.filterMap_map]
    exact List.filterMap_some
  rw [changesOf, Past.noteAll, List.filterMap_append, noted]
  rfl

end Rsdns.Metrics
