import Mathlib.Init

/-!
# Interactions with typed replies

A computation asks something outside, gets a reply of the type that the request calls for,
and goes on from there.  What it has asked and was told so far is its transcript.  A
condition on every request and on every result, in view of the transcript, is proved once
along the computation (`Always`) and then holds wherever the replies lead (`Reaches`).
Against numbered replies the computation is run to its end (`run`).
-/

universe u v w x

abbrev Exchange (Request : Type u) (Reply : Request → Type v) : Type (max u v) :=
  Sigma Reply

inductive Interaction (Request : Type u) (Reply : Request → Type v) (Result : Type w) where
  | done (result : Result)
  | ask (request : Request) (proceed : Reply request → Interaction Request Reply Result)

namespace Interaction

variable {Request : Type u} {Reply : Request → Type v} {Result : Type w} {Next : Type x}

def bind (first : Interaction Request Reply Result)
    (next : Result → Interaction Request Reply Next) : Interaction Request Reply Next :=
  match first with
  | .done result => next result
  | .ask request proceed => .ask request fun reply => (proceed reply).bind next

def map (build : Result → Next) (first : Interaction Request Reply Result) :
    Interaction Request Reply Next :=
  first.bind fun result => .done (build result)

def isDone : Interaction Request Reply Result → Bool
  | .done _ => true
  | .ask _ _ => false

theorem isDone_iff {rest : Interaction Request Reply Result} :
    rest.isDone = true ↔ ∃ result, rest = .done result := by
  cases rest with
  | done result => simp [isDone]
  | ask request proceed => simp [isDone]

/-- The result, and what was asked and told until then. -/
def run (reply : Nat → (request : Request) → Reply request) :
    Nat → Interaction Request Reply Result → Result × List (Exchange Request Reply)
  | _, .done result => (result, [])
  | number, .ask request proceed =>
      let told := reply number request
      let rest := run reply (number + 1) (proceed told)
      (rest.1, ⟨request, told⟩ :: rest.2)

/-- No more is asked than so often, whatever the replies are. -/
inductive AsksAtMost : Nat → Interaction Request Reply Result → Prop where
  | done {bound : Nat} {result : Result} : AsksAtMost bound (.done result)
  | ask {bound : Nat} {request : Request}
      {proceed : Reply request → Interaction Request Reply Result} :
      (∀ reply, AsksAtMost bound (proceed reply)) → AsksAtMost (bound + 1) (.ask request proceed)

theorem AsksAtMost.length_run_le {bound : Nat} {rest : Interaction Request Reply Result}
    (bounded : AsksAtMost bound rest) (reply : Nat → (request : Request) → Reply request)
    (number : Nat) : (run reply number rest).2.length ≤ bound := by
  induction bounded generalizing number with
  | done => exact Nat.zero_le _
  | ask _ inductionHypothesis =>
      rw [run, List.length_cons]
      exact Nat.succ_le_succ (inductionHypothesis _ (number + 1))

/-- Where the transcript leads. -/
inductive Reaches (origin : Interaction Request Reply Result) :
    List (Exchange Request Reply) → Interaction Request Reply Result → Prop where
  | start : Reaches origin [] origin
  | told {transcript request proceed} (reached : Reaches origin transcript (.ask request proceed))
      (reply : Reply request) : Reaches origin (transcript ++ [⟨request, reply⟩]) (proceed reply)

/-- Every request meets a condition on what was exchanged before it, and so does every
result. -/
def Always (asks : List (Exchange Request Reply) → Request → Prop)
    (ends : List (Exchange Request Reply) → Result → Prop) :
    List (Exchange Request Reply) → Interaction Request Reply Result → Prop
  | transcript, .done result => ends transcript result
  | transcript, .ask request proceed =>
      asks transcript request ∧
        ∀ reply, Always asks ends (transcript ++ [⟨request, reply⟩]) (proceed reply)

variable {asks : List (Exchange Request Reply) → Request → Prop}
  {ends : List (Exchange Request Reply) → Result → Prop}
  {transcript : List (Exchange Request Reply)}

/-- What always holds of the first part brings the second about. -/
theorem Always.bind {first : Interaction Request Reply Result}
    {next : Result → Interaction Request Reply Next}
    {finally_ : List (Exchange Request Reply) → Next → Prop}
    (front : Always asks ends transcript first)
    (back : ∀ transcript result, ends transcript result →
      Always asks finally_ transcript (next result)) :
    Always asks finally_ transcript (first.bind next) := by
  induction first generalizing transcript with
  | done result => exact back transcript result front
  | ask request proceed inductionHypothesis =>
      exact ⟨front.1, fun reply => inductionHypothesis reply (front.2 reply)⟩

theorem Always.mono {first : Interaction Request Reply Result}
    {weakerAsks : List (Exchange Request Reply) → Request → Prop}
    {weakerEnds : List (Exchange Request Reply) → Result → Prop}
    (always : Always asks ends transcript first)
    (asked : ∀ transcript request, asks transcript request → weakerAsks transcript request)
    (ended : ∀ transcript result, ends transcript result → weakerEnds transcript result) :
    Always weakerAsks weakerEnds transcript first := by
  induction first generalizing transcript with
  | done result => exact ended transcript result always
  | ask request proceed inductionHypothesis =>
      exact ⟨asked transcript request always.1,
        fun reply => inductionHypothesis reply (always.2 reply)⟩

/-- Wherever the replies lead, the rest still always meets the condition, and what was
asked on the way met it. -/
theorem Reaches.always {origin rest : Interaction Request Reply Result}
    (reached : Reaches origin transcript rest) (always : Always asks ends [] origin) :
    Always asks ends transcript rest ∧
      ∀ earlier exchange later, transcript = earlier ++ exchange :: later →
        asks earlier exchange.1 := by
  induction reached with
  | start => exact ⟨always, fun _ _ _ cut => absurd cut (by simp)⟩
  | told reached reply inductionHypothesis =>
      obtain ⟨⟨permitted, goesOn⟩, before⟩ := inductionHypothesis
      refine ⟨goesOn reply, fun earlier exchange later cut => ?_⟩
      rcases List.eq_nil_or_concat later with rfl | ⟨between, final, rfl⟩
      · obtain ⟨rfl, same⟩ := List.append_inj' cut rfl
        cases same
        exact permitted
      · rw [List.concat_eq_append, ← List.cons_append, ← List.append_assoc] at cut
        obtain ⟨rfl, _⟩ := List.append_inj' cut rfl
        exact before earlier exchange between rfl

end Interaction
