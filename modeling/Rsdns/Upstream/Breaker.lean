import Mathlib.Data.List.Basic
import Rsdns.Upstream.Group

/-!
# What the breaker counts

A breaker keeps the times of the failures that may still count and drops the others when
the next failure comes.  What it says is compared with the whole history of a client.
-/

namespace Rsdns.Upstream

/-- What a client's breaker is told, and when. -/
inductive BreakerEvent where
  | failure (t : Nat)
  | success (t : Nat)
  deriving DecidableEq

def BreakerEvent.time : BreakerEvent → Nat
  | .failure t => t
  | .success t => t

namespace Breaker

def errorCount (self : Breaker) (cfg : CooldownConfig) (now : Nat) : Nat :=
  (self.errors.dropWhile fun t => now - t > cfg.window).length + 1

def record (last : Nat) (cfg : CooldownConfig) (self : Breaker) : BreakerEvent → Option Breaker
  | .failure now => self.recordFailure last cfg now
  | .success _ => some self.recordSuccess

/-- The breaker after a history, unless it panics. -/
def run (last : Nat) (cfg : CooldownConfig) (history : List BreakerEvent) : Option Breaker :=
  history.foldlM (record last cfg) new

/-- The cooldown that an event starts, if it starts one, ends on the clock. -/
def Fits (last : Nat) (cfg : CooldownConfig) (self : Breaker) : BreakerEvent → Prop
  | .failure now =>
      cfg.threshold.toNat ≤ self.errorCount cfg now % 2 ^ 32 → now + cfg.cooldown ≤ last
  | .success _ => True

/-- What an event makes of the breaker if it does not panic: the clock reaches as far as
the cooldown. -/
def apply (cfg : CooldownConfig) (self : Breaker) : BreakerEvent → Breaker
  | .failure now => (self.recordFailure (now + cfg.cooldown) cfg now).getD self
  | .success _ => self.recordSuccess

theorem record_eq_some_iff {last : Nat} {cfg : CooldownConfig} {self next : Breaker}
    {event : BreakerEvent} :
    self.record last cfg event = some next ↔ self.Fits last cfg event ∧ self.apply cfg event = next := by
  cases event with
  | success t => simp [record, Fits, apply]
  | failure now =>
      have counted : (self.errors.dropWhile (fun t => now - t > cfg.window) ++ [now]).length =
          self.errorCount cfg now := by simp [errorCount]
      simp only [record, Fits, apply, recordFailure, counted]
      by_cases trips : cfg.threshold.toNat ≤ self.errorCount cfg now % 2 ^ 32
      · simp only [ge_iff_le, trips, if_true, Nat.le_refl, Option.getD_some, forall_const]
        rw [Option.ite_none_right_eq_some, Option.some.injEq]
      · simp only [ge_iff_le, trips, if_false, Option.getD_some, false_imp_iff, true_and,
          Option.some.injEq]

theorem run_concat (last : Nat) (cfg : CooldownConfig) (history : List BreakerEvent)
    (event : BreakerEvent) :
    run last cfg (history ++ [event]) =
      (run last cfg history).bind fun breaker => breaker.record last cfg event := by
  rw [run, List.foldlM_append]
  refine congrArg (run last cfg history).bind (funext fun breaker => ?_)
  rw [List.foldlM_cons]
  exact Option.bind_fun_some (breaker.record last cfg event)

theorem errors_apply_failure (cfg : CooldownConfig) (self : Breaker) (now : Nat) :
    (self.apply cfg (.failure now)).errors =
      self.errors.dropWhile (fun t => now - t > cfg.window) ++ [now] := by
  simp only [apply, recordFailure]
  split <;> simp

theorem coolUntil_apply_failure (cfg : CooldownConfig) (self : Breaker) (now : Nat) :
    (self.apply cfg (.failure now)).coolUntil =
      if self.errorCount cfg now % 2 ^ 32 ≥ cfg.threshold.toNat then some (now + cfg.cooldown)
      else self.coolUntil := by
  have counted : (self.errors.dropWhile (fun t => now - t > cfg.window) ++ [now]).length =
      self.errorCount cfg now := by simp [errorCount]
  simp only [apply, recordFailure, counted]
  split <;> simp

end Breaker

/-! ### The history of a client -/

/-- The failures since the last success. -/
def failuresSince (history : List BreakerEvent) : List Nat :=
  history.foldl
    (fun failures event =>
      match event with
      | .failure t => failures ++ [t]
      | .success _ => [])
    []

def windowCount (cfg : CooldownConfig) (earlier : List BreakerEvent) (t : Nat) : Nat :=
  ((failuresSince earlier).filter fun failure => t ≤ failure + cfg.window).length + 1

/-- There was a failure at this time, and enough in its window. -/
def Trips (cfg : CooldownConfig) (history : List BreakerEvent) (t : Nat) : Prop :=
  ∃ earlier later, history = earlier ++ .failure t :: later ∧
    cfg.threshold.toNat ≤ windowCount cfg earlier t

/-- The end of a cooldown can be told and the count in 32 bits decides as the count. -/
def Countable (last : Nat) (cfg : CooldownConfig) (earlier : List BreakerEvent) :
    BreakerEvent → Prop
  | .failure t =>
      cfg.threshold.toNat ≤ windowCount cfg earlier t →
        cfg.threshold.toNat ≤ windowCount cfg earlier t % 2 ^ 32 ∧ t + cfg.cooldown ≤ last
  | .success _ => True

def Chronological (history : List BreakerEvent) : Prop :=
  history.Pairwise fun earlier later => earlier.time ≤ later.time

@[simp]
theorem failuresSince_failure (history : List BreakerEvent) (t : Nat) :
    failuresSince (history ++ [.failure t]) = failuresSince history ++ [t] := by
  simp [failuresSince]

@[simp]
theorem failuresSince_success (history : List BreakerEvent) (t : Nat) :
    failuresSince (history ++ [.success t]) = [] := by
  simp [failuresSince]

/-- What was before a success no longer counts. -/
theorem failuresSince_success_append (earlier later : List BreakerEvent) (t : Nat) :
    failuresSince (earlier ++ .success t :: later) = failuresSince later := by
  simp [failuresSince, List.foldl_append]

theorem concat_eq_append_cons_iff {Item : Type} {front earlier later : List Item}
    {last item : Item} :
    front ++ [last] = earlier ++ item :: later ↔
      (front = earlier ∧ last = item ∧ later = []) ∨
        ∃ between, front = earlier ++ item :: between ∧ later = between ++ [last] := by
  constructor
  · intro cut
    rcases List.eq_nil_or_concat later with rfl | ⟨between, final, rfl⟩
    · obtain ⟨rfl, same⟩ := List.append_inj' cut rfl
      exact .inl ⟨rfl, List.head_eq_of_cons_eq same, rfl⟩
    · rw [List.concat_eq_append, ← List.cons_append, ← List.append_assoc] at cut
      obtain ⟨rfl, same⟩ := List.append_inj' cut rfl
      cases same
      exact .inr ⟨between, rfl, List.concat_eq_append⟩
  · rintro (⟨rfl, rfl, rfl⟩ | ⟨between, rfl, rfl⟩)
    · rfl
    · simp

theorem trips_concat_success {cfg : CooldownConfig} {history : List BreakerEvent} {t now : Nat} :
    Trips cfg (history ++ [.success now]) t ↔ Trips cfg history t := by
  constructor
  · rintro ⟨earlier, later, cut, enough⟩
    rcases concat_eq_append_cons_iff.mp cut with ⟨_, same, _⟩ | ⟨between, rfl, _⟩
    · cases same
    · exact ⟨earlier, between, rfl, enough⟩
  · rintro ⟨earlier, later, rfl, enough⟩
    exact ⟨earlier, later ++ [.success now], by simp, enough⟩

theorem trips_concat_failure {cfg : CooldownConfig} {history : List BreakerEvent} {t now : Nat} :
    Trips cfg (history ++ [.failure now]) t ↔
      Trips cfg history t ∨ t = now ∧ cfg.threshold.toNat ≤ windowCount cfg history now := by
  constructor
  · rintro ⟨earlier, later, cut, enough⟩
    rcases concat_eq_append_cons_iff.mp cut with ⟨rfl, same, _⟩ | ⟨between, rfl, _⟩
    · cases same
      exact .inr ⟨rfl, enough⟩
    · exact .inl ⟨earlier, between, rfl, enough⟩
  · rintro (⟨earlier, later, rfl, enough⟩ | ⟨rfl, enough⟩)
    · exact ⟨earlier, later ++ [.failure now], by simp, enough⟩
    · exact ⟨history, [], rfl, enough⟩

/-! ### The breaker follows the history -/

/-- On ascending times that are dropped from the front nothing is dropped too early. -/
theorem dropWhile_eq_filter {times : List Nat} (ascending : times.Pairwise (· ≤ ·))
    (now window : Nat) :
    (times.dropWhile fun t => now - t > window) = times.filter fun t => now ≤ t + window := by
  induction times with
  | nil => rfl
  | cons first times inductionHypothesis =>
      obtain ⟨least, rest⟩ := List.pairwise_cons.mp ascending
      by_cases outside : now - first > window
      · have dropped : ¬ now ≤ first + window := by omega
        rw [List.dropWhile_cons_of_pos (by simpa using outside), inductionHypothesis rest,
          List.filter_cons_of_neg (by simpa using dropped)]
      · rw [List.dropWhile_cons_of_neg (by simpa using outside)]
        symm
        rw [List.filter_eq_self]
        intro t member
        have later : first ≤ t := by
          rcases List.mem_cons.mp member with rfl | after
          · exact Nat.le_refl _
          · exact least t after
        simp only [decide_eq_true_eq]
        omega

/-- The error list holds all failures that any later window can reach, and the end of the
cooldown is that of the last failure that had enough of them. -/
structure Follows (cfg : CooldownConfig) (history : List BreakerEvent) (breaker : Breaker) :
    Prop where
  ascending : breaker.errors.Pairwise (· ≤ ·)
  recorded : ∀ t ∈ breaker.errors, .failure t ∈ history
  counted : ∀ now, (∀ event ∈ history, event.time ≤ now) →
    (breaker.errors.filter fun t => now ≤ t + cfg.window) =
      (failuresSince history).filter fun t => now ≤ t + cfg.window
  cooling : ∀ now, breaker.inCooldown now = true ↔ ∃ t, Trips cfg history t ∧ now < t + cfg.cooldown

theorem follows_new (cfg : CooldownConfig) : Follows cfg [] .new where
  ascending := .nil
  recorded _ member := nomatch member
  counted _ _ := rfl
  cooling now := by
    constructor
    · intro cools
      cases cools
    · rintro ⟨t, ⟨earlier, later, cut, _⟩, _⟩
      cases earlier <;> cases cut

theorem Follows.recordSuccess {cfg : CooldownConfig} {history : List BreakerEvent} {self : Breaker}
    (follows : Follows cfg history self) (t : Nat) :
    Follows cfg (history ++ [.success t]) self.recordSuccess where
  ascending := .nil
  recorded _ member := nomatch member
  counted now _ := by rw [failuresSince_success, Breaker.recordSuccess]
  cooling now := by
    have kept : self.recordSuccess.inCooldown now = self.inCooldown now := rfl
    rw [kept, follows.cooling]
    simp only [trips_concat_success]

section Failure

variable {cfg : CooldownConfig} {history : List BreakerEvent} {self : Breaker}
  (follows : Follows cfg history self) {t : Nat} (latest : ∀ event ∈ history, event.time ≤ t)

include follows

theorem Follows.kept_eq :
    (self.errors.dropWhile fun failure => t - failure > cfg.window) =
      self.errors.filter fun failure => t ≤ failure + cfg.window :=
  dropWhile_eq_filter follows.ascending t cfg.window

include latest

theorem Follows.errorCount_eq : self.errorCount cfg t = windowCount cfg history t := by
  rw [Breaker.errorCount, follows.kept_eq, follows.counted t latest, windowCount]

theorem Follows.recordFailure
    (decides : cfg.threshold.toNat ≤ windowCount cfg history t →
      cfg.threshold.toNat ≤ windowCount cfg history t % 2 ^ 32) :
    Follows cfg (history ++ [.failure t]) (self.apply cfg (.failure t)) := by
  have errors : (self.apply cfg (.failure t)).errors =
      (self.errors.filter fun failure => t ≤ failure + cfg.window) ++ [t] := by
    rw [← follows.kept_eq]
    exact self.errors_apply_failure cfg t
  have before : ∀ failure ∈ self.errors, failure ≤ t := fun failure member =>
    latest _ (follows.recorded failure member)
  constructor
  · rw [errors, List.pairwise_append]
    refine ⟨follows.ascending.filter _, List.pairwise_singleton _ _, ?_⟩
    intro failure member now isNow
    rw [List.mem_singleton.mp isNow]
    exact before failure (List.mem_of_mem_filter member)
  · intro failure member
    rw [errors, List.mem_append, List.mem_singleton] at member
    rcases member with kept | rfl
    · exact List.mem_append_left _ (follows.recorded failure (List.mem_of_mem_filter kept))
    · exact List.mem_append_right _ List.mem_cons_self
  · intro now after
    have reached : t ≤ now := after _ (List.mem_append_right _ List.mem_cons_self)
    have earlier : ∀ event ∈ history, event.time ≤ now := fun event member =>
      after event (List.mem_append_left _ member)
    rw [errors, failuresSince_failure, List.filter_append, List.filter_append,
      List.filter_filter, ← follows.counted now earlier]
    congr 1
    apply List.filter_congr
    intro failure _
    simp only [← Bool.decide_and, decide_eq_decide]
    omega
  · intro now
    rw [Breaker.inCooldown, self.coolUntil_apply_failure, follows.errorCount_eq latest]
    simp only [trips_concat_failure]
    by_cases enough : cfg.threshold.toNat ≤ windowCount cfg history t
    · rw [if_pos (decides enough)]
      simp only [Option.any_some, gt_iff_lt, decide_eq_true_eq]
      constructor
      · exact fun cools => ⟨t, .inr ⟨rfl, enough⟩, cools⟩
      · rintro ⟨other, ⟨earlier, later, rfl, _⟩ | ⟨rfl, _⟩, cools⟩
        · have notLater : other ≤ t :=
            latest (.failure other) (List.mem_append_right _ List.mem_cons_self)
          omega
        · exact cools
    · have wrapped : ¬ windowCount cfg history t % 2 ^ 32 ≥ cfg.threshold.toNat := fun reached =>
        enough (reached.le.trans (Nat.mod_le _ _))
      rw [if_neg wrapped]
      have cooling := follows.cooling now
      rw [Breaker.inCooldown] at cooling
      rw [cooling]
      simp only [enough, and_false, or_false]

end Failure

/-- One event that can be counted: no panic, and the breaker still follows. -/
theorem Follows.record {last : Nat} {cfg : CooldownConfig} {history : List BreakerEvent}
    {self : Breaker} (follows : Follows cfg history self) {event : BreakerEvent}
    (latest : ∀ earlier ∈ history, earlier.time ≤ event.time)
    (countable : Countable last cfg history event) :
    ∃ next, self.record last cfg event = some next ∧ Follows cfg (history ++ [event]) next := by
  cases event with
  | success t => exact ⟨_, rfl, follows.recordSuccess t⟩
  | failure t =>
      have counted : self.errorCount cfg t = windowCount cfg history t :=
        follows.errorCount_eq latest
      refine ⟨_, Breaker.record_eq_some_iff.mpr ⟨fun wrapped => ?_, rfl⟩,
        follows.recordFailure latest fun enough => (countable enough).1⟩
      rw [counted] at wrapped
      exact (countable (wrapped.trans (Nat.mod_le _ _))).2

theorem Follows.foldlM {last : Nat} {cfg : CooldownConfig} {earlier later : List BreakerEvent}
    {self : Breaker} (follows : Follows cfg earlier self)
    (chronological : Chronological (earlier ++ later))
    (countable : ∀ before event after, earlier ++ later = before ++ event :: after →
      Countable last cfg before event) :
    ∃ final, later.foldlM (Breaker.record last cfg) self = some final ∧
      Follows cfg (earlier ++ later) final := by
  induction later generalizing earlier self with
  | nil => exact ⟨self, rfl, by rwa [List.append_nil]⟩
  | cons event later inductionHypothesis =>
      have latest : ∀ before ∈ earlier, before.time ≤ event.time := fun before member =>
        (List.pairwise_append.mp chronological).2.2 before member event List.mem_cons_self
      obtain ⟨next, recorded, followsNext⟩ :=
        follows.record latest (countable earlier event later rfl)
      have regrouped : earlier ++ event :: later = (earlier ++ [event]) ++ later := by simp
      rw [regrouped] at chronological countable ⊢
      obtain ⟨final, ran, followsFinal⟩ := inductionHypothesis followsNext chronological countable
      refine ⟨final, ?_, followsFinal⟩
      rw [List.foldlM_cons, recorded]
      exact ran

theorem length_failuresSince_le (history : List BreakerEvent) :
    (failuresSince history).length ≤ history.length := by
  induction history using List.reverseRecOn with
  | nil => exact Nat.le_refl _
  | append_singleton history event inductionHypothesis =>
      cases event with
      | success t => simp
      | failure t => simpa using inductionHypothesis

theorem countable_of_short {last : Nat} {cfg : CooldownConfig} {history : List BreakerEvent}
    (short : history.length < 2 ^ 32) (fits : ∀ event ∈ history, event.time + cfg.cooldown ≤ last)
    (earlier : List BreakerEvent) (event : BreakerEvent) (later : List BreakerEvent)
    (cut : history = earlier ++ event :: later) : Countable last cfg earlier event := by
  subst cut
  cases event with
  | success t => trivial
  | failure t =>
      intro enough
      have few : windowCount cfg earlier t ≤ earlier.length + 1 :=
        Nat.succ_le_succ ((List.length_filter_le _ _).trans (length_failuresSince_le earlier))
      rw [List.length_append, List.length_cons] at short
      refine ⟨?_, fits (.failure t) (List.mem_append_right _ List.mem_cons_self)⟩
      rw [Nat.mod_eq_of_lt (by omega)]
      exact enough

/-- If every failure of a history can be counted the breaker does not panic and cools down
exactly while the cooldown of some failure lasts that had enough failures in its window.
A success ends no cooldown, and counts from then on start anew. -/
theorem breaker_sliding_window (last : Nat) (cfg : CooldownConfig) (history : List BreakerEvent)
    (chronological : Chronological history)
    (countable : ∀ earlier event later, history = earlier ++ event :: later →
      Countable last cfg earlier event) :
    ∃ breaker, Breaker.run last cfg history = some breaker ∧
      (∀ now, breaker.inCooldown now = true ↔
        ∃ t, Trips cfg history t ∧ now < t + cfg.cooldown) ∧
      (∀ t, ∃ later, Breaker.run last cfg (history ++ [.success t]) = some later ∧
        ∀ now, later.inCooldown now = breaker.inCooldown now) ∧
      ∀ earlier success later t,
        windowCount cfg (earlier ++ .success success :: later) t = windowCount cfg later t := by
  obtain ⟨breaker, ran, follows⟩ := (follows_new cfg).foldlM chronological countable
  refine ⟨breaker, ran, follows.cooling, fun t => ⟨breaker.recordSuccess, ?_, fun now => rfl⟩, ?_⟩
  · exact (Breaker.run_concat last cfg history _).trans (congrArg (Option.bind · _) ran)
  · intro earlier success later t
    rw [windowCount, failuresSince_success_append, windowCount]

/-- Two failures, a success and another failure. -/
theorem breaker_sliding_window_of_four :
    let cfg : CooldownConfig := { window := 5, threshold := 2, cooldown := 10 }
    let history : List BreakerEvent := [.failure 0, .failure 5, .success 6, .failure 7]
    ∃ breaker, Breaker.run 20 cfg history = some breaker ∧
      (∀ now, breaker.inCooldown now = true ↔
        ∃ t, Trips cfg history t ∧ now < t + cfg.cooldown) ∧
      (∀ t, ∃ later, Breaker.run 20 cfg (history ++ [.success t]) = some later ∧
        ∀ now, later.inCooldown now = breaker.inCooldown now) ∧
      ∀ earlier success later t,
        windowCount cfg (earlier ++ .success success :: later) t = windowCount cfg later t := by
  intro cfg history
  have chronological : Chronological history := by
    simp [Chronological, history, BreakerEvent.time]
  exact breaker_sliding_window 20 cfg history chronological
    (countable_of_short (by decide) (by decide))

/-! ### Counts in 32 bits -/

theorem failuresSince_replicate (count : Nat) :
    failuresSince (List.replicate count (.failure 0)) = List.replicate count 0 := by
  induction count with
  | zero => rfl
  | succ count inductionHypothesis =>
      rw [List.replicate_succ', failuresSince_failure, inductionHypothesis,
        ← List.replicate_succ']

theorem dropWhile_replicate_now (cfg : CooldownConfig) (now count : Nat) :
    ((List.replicate count now).dropWhile fun t => now - t > cfg.window) =
      List.replicate count now := by
  cases count with
  | zero => rfl
  | succ count => exact List.dropWhile_cons_of_neg (by simp)

theorem exists_run_replicate (cfg : CooldownConfig) (cooldown : cfg.cooldown = 1) (count : Nat) :
    ∃ breaker, Breaker.run 2 cfg (List.replicate count (.failure 0)) = some breaker ∧
      breaker.errors = List.replicate count 0 ∧ breaker.inCooldown 1 = false := by
  induction count with
  | zero => exact ⟨.new, rfl, rfl, rfl⟩
  | succ count inductionHypothesis =>
      obtain ⟨breaker, ran, errors, cools⟩ := inductionHypothesis
      have fits : breaker.Fits 2 cfg (.failure 0) := fun _ => by omega
      have kept : (breaker.errors.dropWhile fun t => 0 - t > cfg.window) = breaker.errors := by
        rw [errors, dropWhile_replicate_now]
      refine ⟨breaker.apply cfg (.failure 0), ?_, ?_, ?_⟩
      · rw [List.replicate_succ', Breaker.run_concat, ran]
        exact Breaker.record_eq_some_iff.mpr ⟨fits, rfl⟩
      · rw [List.replicate_succ', ← errors, breaker.errors_apply_failure, kept]
      · rw [Breaker.inCooldown, breaker.coolUntil_apply_failure]
        split
        · simp [cooldown]
        · exact cools

/-- The failure that makes the count 2 to the 32nd starts no cooldown, and a cooldown that
would end past the last instant panics. -/
theorem breaker_count_wraps :
    (∃ (cfg : CooldownConfig) (history : List BreakerEvent) (breaker : Breaker),
      history = List.replicate (2 ^ 32 - 1) (.failure 0) ++ [.failure 1] ∧
      Chronological history ∧ Breaker.run 2 cfg history = some breaker ∧
      breaker.inCooldown 1 = false ∧ ∃ t, Trips cfg history t ∧ 1 < t + cfg.cooldown) ∧
    ∀ last, ∃ cfg : CooldownConfig, Breaker.run last cfg [.failure 0] = none ∧
      ∃ t, Trips cfg [.failure 0] t ∧ 0 < t + cfg.cooldown := by
  constructor
  · let cfg : CooldownConfig := { window := 1, threshold := 1, cooldown := 1 }
    let earlier : List BreakerEvent := List.replicate (2 ^ 32 - 1) (.failure 0)
    have since : failuresSince earlier = List.replicate (2 ^ 32 - 1) 0 :=
      failuresSince_replicate (2 ^ 32 - 1)
    obtain ⟨breaker, ran, errors, cools⟩ := exists_run_replicate cfg rfl (2 ^ 32 - 1)
    have count : breaker.errorCount cfg 1 = 2 ^ 32 := by
      have kept : (breaker.errors.dropWhile fun t => 1 - t > cfg.window) = breaker.errors := by
        rw [errors]
        exact List.dropWhile_cons_of_neg (by decide)
      rw [Breaker.errorCount, kept, errors, List.length_replicate,
        Nat.sub_add_cancel (by decide)]
    have wrapped : ¬ breaker.errorCount cfg 1 % 2 ^ 32 ≥ cfg.threshold.toNat := by
      rw [count]
      decide
    refine ⟨cfg, _, breaker.apply cfg (.failure 1), rfl, ?_, ?_, ?_, 1, ?_, by decide⟩
    · refine List.pairwise_append.mpr ⟨?_, List.pairwise_singleton _ _, ?_⟩
      · exact List.pairwise_replicate.mpr (.inr (Nat.le_refl _))
      · intro before member after isLast
        rw [List.eq_of_mem_replicate member, List.mem_singleton.mp isLast]
        exact Nat.zero_le 1
    · rw [Breaker.run_concat, ran]
      have fits : breaker.Fits 2 cfg (.failure 1) := fun enough => absurd enough wrapped
      exact Breaker.record_eq_some_iff.mpr ⟨fits, rfl⟩
    · rw [Breaker.inCooldown, breaker.coolUntil_apply_failure, if_neg wrapped]
      exact cools
    · refine ⟨earlier, [], rfl, ?_⟩
      have all : (failuresSince earlier).filter (fun t => 1 ≤ t + cfg.window) =
          failuresSince earlier :=
        List.filter_eq_self.mpr fun t _ => decide_eq_true (Nat.le_add_left 1 t)
      rw [windowCount, all, since, List.length_replicate]
      decide
  · intro last
    let cfg : CooldownConfig := { window := 1, threshold := 1, cooldown := last + 1 }
    have overflows : last < 0 + cfg.cooldown := by
      rw [Nat.zero_add]
      exact Nat.lt_succ_self last
    refine ⟨cfg, ?_, 0, ⟨[], [], rfl, Nat.le_refl 1⟩, Nat.zero_lt_of_lt overflows⟩
    have reaches : cfg.threshold.toNat ≤ Breaker.new.errorCount cfg 0 % 2 ^ 32 := Nat.le_refl 1
    have panics : ¬ Breaker.new.Fits last cfg (.failure 0) := fun fits =>
      absurd (fits reaches) (Nat.not_le_of_lt overflows)
    rw [Option.eq_none_iff_forall_ne_some]
    intro breaker ran
    rw [Breaker.run, List.foldlM_cons] at ran
    obtain ⟨_, recorded, _⟩ := Option.bind_eq_some_iff.mp ran
    exact panics (Breaker.record_eq_some_iff.mp recorded).1

end Rsdns.Upstream
