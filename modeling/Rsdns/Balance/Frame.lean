import Rsdns.Balance.Settled

/-!
# What the balance stage leaves as it is

Whatever the mode, the offsets and the latencies are, records only change places with
records of their family, and of the whole answer a front part is kept.
-/

namespace Rsdns.Plugins

open Dns Slots StableCut

variable {Name : Type}

/-- Records change places with records of their family only. -/
structure MovesWithin (answers arranged : List (Record Name)) : Prop where
  permuted : arranged.Perm answers
  slots : ∀ isA, arranged.map (hasValue (familyIp isA)) = answers.map (hasValue (familyIp isA))
  fixed : ∀ (place : Nat) (record : Record Name), answers[place]? = some record →
    (∀ isA, familyIp isA record = none) → arranged[place]? = some record

/-- The first answers, as many as the limit says; `0` is no limit. -/
def capped (limit : Option Nat) (answers : List (Record Name)) : List (Record Name) :=
  match limit with
  | some max => if max > 0 then answers.take max else answers
  | none => answers

namespace MovesWithin

theorem trans {answers once arranged : List (Record Name)} (first : MovesWithin answers once)
    (second : MovesWithin once arranged) : MovesWithin answers arranged where
  permuted := second.permuted.trans first.permuted
  slots isA := (second.slots isA).trans (first.slots isA)
  fixed place record listed unaddressed :=
    second.fixed place record (first.fixed place record listed unaddressed) unaddressed

end MovesWithin

namespace Balance

/-- Each pass over the family sorts it by the latencies it meets. -/
def SpeedSorted (chance : Chance) (families : Families) (isA : Bool)
    (records arranged : List (Record Name)) : Prop :=
  ∃ once,
    (if families.a = isA then IsStableSort (latencyKey (chance.latency 0) isA) records once
      else once = records) ∧
    (if families.aaaa = isA then IsStableSort (latencyKey (chance.latency 1) isA) once arranged
      else arranged = once)

variable (self : Balance)

theorem truncate_eq_capped (answers : List (Record Name)) :
    self.truncate answers = capped self.maxAnswers answers := by
  unfold truncate capped
  cases self.maxAnswers with
  | none => rfl
  | some max =>
      dsimp only
      by_cases positive : max > 0
      · rw [if_pos positive]
        by_cases more : answers.length > max
        · rw [if_pos ⟨positive, more⟩]
        · rw [if_neg fun both => more both.2, List.take_of_length_le (Nat.le_of_not_lt more)]
      · rw [if_neg fun both => positive both.1, if_neg positive]

theorem balanceFamily_movesWithin (chance : Chance) (pass : Nat) (answers : List (Record Name))
    (isA : Bool) : MovesWithin answers (self.balanceFamily chance pass answers isA) where
  permuted := self.balanceFamily_perm chance pass answers isA
  slots := self.map_hasValue_balanceFamily chance pass answers isA
  fixed place record listed unaddressed := by
    rw [balanceFamily_eq_refill]
    apply getElem?_refill_of_not_here _ listed
    rw [hasValue, unaddressed isA]
    rfl

def balanced (chance : Chance) (families : Families) (answers : List (Record Name)) :
    List (Record Name) :=
  self.balanceFamily chance 1 (self.balanceFamily chance 0 answers families.a) families.aaaa

theorem balanced_movesWithin (chance : Chance) (families : Families)
    (answers : List (Record Name)) :
    MovesWithin answers (self.balanced chance families answers) :=
  (self.balanceFamily_movesWithin chance 0 answers families.a).trans
    (self.balanceFamily_movesWithin chance 1 _ families.aaaa)

/-- A pass that meets a family of equal ranks in the speed mode sorts it. -/
theorem arrange_isStableSort (speed : self.mode = .Speed) {isA : Bool}
    {records : List (Record Name)} (uniform : ¬ self.Mixed isA records) (chance : Chance)
    (pass : Nat) :
    IsStableSort (latencyKey (chance.latency pass) isA) records
      (self.arrange chance pass isA records) := by
  have sorts := sortBy_isStableSort (latencyKey (chance.latency pass) isA) records
  unfold arrange
  by_cases few : records.length < 2
  · have same : sortBy (latencyKey (chance.latency pass) isA) records = records := by
      apply sortBy_eq_self
      rw [List.pairwise_iff_getElem]
      intro i j inI inJ before
      omega
    rw [if_pos few]
    rwa [same] at sorts
  · rw [if_neg few, if_neg uniform, speed]
    exact sorts

theorem balanced_speedSorted (speed : self.mode = .Speed) {isA : Bool}
    {answers : List (Record Name)} (uniform : ¬ self.Mixed isA (recordsOf isA answers))
    (chance : Chance) (families : Families) :
    SpeedSorted chance families isA (recordsOf isA answers)
      (recordsOf isA (self.balanced chance families answers)) := by
  refine ⟨recordsOf isA (self.balanceFamily chance 0 answers families.a), ?_, ?_⟩
  · rw [recordsOf_balanceFamily_ite]
    split
    · exact self.arrange_isStableSort speed uniform chance 0
    · rfl
  · have still : ¬ self.Mixed isA
        (recordsOf isA (self.balanceFamily chance 0 answers families.a)) := by
      apply not_mixed_of_perm _ uniform
      exact (self.balanceFamily_perm chance 0 answers families.a).filter _
    have second := self.recordsOf_balanceFamily_ite chance 1
      (self.balanceFamily chance 0 answers families.a) isA families.aaaa
    rw [balanced, second]
    split
    · exact self.arrange_isStableSort speed still chance 1
    · rfl

/-- A balanced response keeps a front part of its answers, which have only changed places
within their families; in the speed mode each family of equal ranks is sorted by its
latencies.  Everything else stays, and so does a response that is not balanced. -/
theorem handle_moves_within (enabled : self.enabled = true) (chance : Chance)
    (ctx : QueryContext Name) :
    (ctx.skipBalance = true ∨ families ctx.qtype = none → (self.handle chance ctx).2 = ctx) ∧
    ∀ selected, ctx.skipBalance = false → families ctx.qtype = some selected →
      ∃ arranged, MovesWithin (answersOf ctx) arranged ∧
        (self.handle chance ctx).2 =
          { ctx with
            response := ctx.response.map fun response =>
              { response with answers := capped self.maxAnswers arranged } } ∧
        (self.mode = .Speed → ∀ isA, ¬ self.Mixed isA (recordsOf isA (answersOf ctx)) →
          SpeedSorted chance selected isA (recordsOf isA (answersOf ctx))
            (recordsOf isA arranged)) := by
  constructor
  · intro passed
    unfold handle
    rw [enabled]
    rcases passed with skipped | other
    · rw [skipped]
      rfl
    · cases ctx.skipBalance with
      | true => rfl
      | false =>
          rw [other]
          rfl
  · intro selected notSkipped selects
    have nonempty := isEmpty_of_families selects
    refine ⟨self.balanced chance selected (answersOf ctx),
      self.balanced_movesWithin chance selected _, ?_,
      fun speed isA uniform => self.balanced_speedSorted speed uniform chance selected⟩
    unfold handle
    rw [enabled, notSkipped, selects]
    cases answered : ctx.response with
    | none => simp
    | some response =>
        simp only [balanceAnswers, nonempty, truncate_eq_capped, balanced, answersOf, answered]
        rfl

/-- Probes, and keeps two answers. -/
def measuring : Balance where
  enabled := true
  cidrs := []
  mode := .Speed
  maxAnswers := some 2

def tenAnswers : Chance where
  offset := fun _ => 0
  latency := fun _ ip => if ip = .v4 0x0A000001#32 then some 5 else none

def threeAddresses : QueryContext LabelName :=
  answered .A [.A 0xC0000201#32, .AAAA 1#128, .A 0x0A000001#32]

theorem measured_answers_move_within :
    ∃ arranged, MovesWithin (answersOf threeAddresses) arranged ∧
      answersOf (measuring.handle tenAnswers threeAddresses).2 = arranged.take 2 ∧
      SpeedSorted tenAnswers { a := true, aaaa := false } true
        (recordsOf true (answersOf threeAddresses)) (recordsOf true arranged) := by
  obtain ⟨_, balances⟩ := handle_moves_within measuring rfl tenAnswers threeAddresses
  obtain ⟨arranged, moves, handled, sorts⟩ := balances { a := true, aaaa := false } rfl rfl
  refine ⟨arranged, moves, ?_, sorts rfl true (by decide)⟩
  rw [handled]
  rfl

/-- The answers to a query for texts are not cut. -/
theorem text_answers_not_capped :
    ¬ ∃ arranged, MovesWithin
        (answersOf (answered .TXT [.A 1#32, .A 2#32, .A 3#32])) arranged ∧
      answersOf (measuring.handle tenAnswers (answered .TXT [.A 1#32, .A 2#32, .A 3#32])).2 =
        capped measuring.maxAnswers arranged := by
  rintro ⟨arranged, _, handled⟩
  have length := congrArg List.length handled
  have few : (capped measuring.maxAnswers arranged).length ≤ 2 := List.length_take_le 2 arranged
  rw [← length] at few
  revert few
  decide

end Balance

end Rsdns.Plugins
