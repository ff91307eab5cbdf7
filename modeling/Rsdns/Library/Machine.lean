import Mathlib.Data.Option.Basic

/-!
# Event-driven machines

A machine either refuses an event or moves to its next state.  A guarded run
is a run every step of which meets a condition on the event and on the state
it is taken in; the plain runs are the guarded runs without a condition.
Safety is proved by one induction (`GuardedRun.invariant`), progress is
`Enabled`.  What a property says about the past of a run is kept in a record
beside the state (`recording`).
-/

universe u v w

/-- A machine that answers each event with its next state, or refuses it. -/
structure Machine (State : Type u) (Event : Type v) where
  step : State → Event → Option State

namespace Machine

variable {State : Type u} {Event : Type v}

def Enabled (machine : Machine State Event) (state : State) : Prop :=
  ∃ event next, machine.step state event = some next

/-- The runs from `start` in which every step is `allowed`. -/
inductive GuardedRun (machine : Machine State Event)
    (allowed : State → Event → Prop) (start : State) : State → Prop where
  | refl : GuardedRun machine allowed start start
  | step {state next event} :
      GuardedRun machine allowed start state →
      allowed state event →
      machine.step state event = some next →
      GuardedRun machine allowed start next

/-- The runs without a condition on their steps. -/
abbrev Run (machine : Machine State Event) (start : State) : State → Prop :=
  machine.GuardedRun (fun _ _ => True) start

variable {machine : Machine State Event} {allowed : State → Event → Prop}
  {start state : State}

/-- What holds at the start and survives every allowed step holds wherever an
allowed run leads. -/
theorem GuardedRun.invariant {invariant : State → Prop}
    (run : machine.GuardedRun allowed start state)
    (initially : invariant start)
    (preserved : ∀ {state next event}, invariant state → allowed state event →
      machine.step state event = some next → invariant next) :
    invariant state := by
  induction run with
  | refl => exact initially
  | step _ permitted stepped inductionHypothesis =>
      exact preserved inductionHypothesis permitted stepped

theorem GuardedRun.mono {weaker : State → Event → Prop}
    (run : machine.GuardedRun allowed start state)
    (weakens : ∀ {state event}, allowed state event → weaker state event) :
    machine.GuardedRun weaker start state := by
  induction run with
  | refl => exact .refl
  | step _ permitted stepped inductionHypothesis =>
      exact inductionHypothesis.step (weakens permitted) stepped

/-- The machine under other events, each of which stands for one of its own. -/
def translate {Other : Type w} (machine : Machine State Event) (read : Other → Event) :
    Machine State Other where
  step state other := machine.step state (read other)

/-- The machine beside a record, which every step writes and none reads. -/
def recording {Record : Type w} (machine : Machine State Event)
    (note : State → Event → State → Record → Record) : Machine (State × Record) Event where
  step := fun (state, record) event =>
    (machine.step state event).map fun next => (next, note state event next record)

theorem recording_step_eq_some {Record : Type w}
    {note : State → Event → State → Record → Record} {recorded next : State × Record}
    {event : Event} :
    (machine.recording note).step recorded event = some next ↔
      machine.step recorded.1 event = some next.1 ∧
        next.2 = note recorded.1 event next.1 recorded.2 := by
  constructor
  · intro stepped
    obtain ⟨after, taken, same⟩ := Option.map_eq_some_iff.mp stepped
    cases same
    exact ⟨taken, rfl⟩
  · intro ⟨taken, noted⟩
    exact Option.map_eq_some_iff.mpr ⟨next.1, taken, Prod.ext rfl noted.symm⟩

/-- Take a list of events, one after the other, each of which has to be allowed. -/
def execWhile (machine : Machine State Event) (allowed : State → Event → Prop)
    [∀ state event, Decidable (allowed state event)] (state : State) :
    List Event → Option State
  | [] => some state
  | event :: rest =>
      if allowed state event then
        (machine.step state event).bind fun next => machine.execWhile allowed next rest
      else none

theorem GuardedRun.of_execWhile [∀ state event, Decidable (allowed state event)]
    {events : List Event} {final : State} (run : machine.GuardedRun allowed start state)
    (executed : machine.execWhile allowed state events = some final) :
    machine.GuardedRun allowed start final := by
  induction events generalizing state with
  | nil =>
      cases executed
      exact run
  | cons event rest inductionHypothesis =>
      rw [execWhile, Option.ite_none_right_eq_some, Option.bind_eq_some_iff] at executed
      obtain ⟨permitted, next, stepped, rested⟩ := executed
      exact inductionHypothesis (.step run permitted stepped) rested

end Machine
