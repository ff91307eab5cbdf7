import Rsdns.Upstream.Breaker
import Rsdns.Upstream.Config

/-!
# Cooldowns and the end of the clock

A cooldown ends at an instant, and the sum panics if the clock has no such instant.  A
history is recorded in full exactly if every cooldown that it starts ends on the clock.
-/

namespace Rsdns.Upstream

open Plugins

/-- The last instant of a clock with signed 64-bit seconds, counted from its zero. -/
def lastInstant : Nat := 2 ^ 63 * Duration.second - 1

namespace Breaker

/-! ### Histories that are recorded in full -/

def after (cfg : CooldownConfig) (history : List BreakerEvent) : Breaker :=
  history.foldl (apply cfg) new

theorem after_concat (cfg : CooldownConfig) (history : List BreakerEvent) (event : BreakerEvent) :
    after cfg (history ++ [event]) = (after cfg history).apply cfg event := by
  rw [after, List.foldl_append]
  rfl

theorem run_eq_some_iff {last : Nat} {cfg : CooldownConfig} {history : List BreakerEvent}
    {final : Breaker} :
    run last cfg history = some final ↔
      (∀ earlier event later, history = earlier ++ event :: later →
        (after cfg earlier).Fits last cfg event) ∧
      after cfg history = final := by
  induction history using List.reverseRecOn generalizing final with
  | nil => simp [run, after]
  | append_singleton history event inductionHypothesis =>
      rw [run_concat, Option.bind_eq_some_iff, after_concat]
      constructor
      · rintro ⟨breaker, ran, recorded⟩
        obtain ⟨fits, rfl⟩ := inductionHypothesis.mp ran
        obtain ⟨fitsLast, applied⟩ := record_eq_some_iff.mp recorded
        refine ⟨fun earlier other later cut => ?_, applied⟩
        rcases concat_eq_append_cons_iff.mp cut with ⟨rfl, rfl, _⟩ | ⟨between, earlierCut, _⟩
        · exact fitsLast
        · exact fits earlier other between earlierCut
      · rintro ⟨fits, applied⟩
        have fitsLast := fits history event [] rfl
        refine ⟨_, inductionHypothesis.mpr ⟨fun earlier other later cut => ?_, rfl⟩,
          record_eq_some_iff.mpr ⟨fitsLast, applied⟩⟩
        exact fits earlier other (later ++ [event]) (by rw [cut]; simp)

/-! ### Many failures at one instant -/

theorem errors_after_replicate (cfg : CooldownConfig) (t count : Nat) :
    (after cfg (List.replicate count (.failure t))).errors = List.replicate count t := by
  induction count with
  | zero => rfl
  | succ count inductionHypothesis =>
      rw [List.replicate_succ', after_concat, errors_apply_failure, inductionHypothesis,
        dropWhile_replicate_now, List.replicate_succ']

theorem cooldown_fits_of_run {last : Nat} {cfg : CooldownConfig} (counts : 0 < cfg.threshold.toNat)
    {t : Nat} {final : Breaker}
    (ran : run last cfg (List.replicate cfg.threshold.toNat (.failure t)) = some final) :
    t + cfg.cooldown ≤ last := by
  obtain ⟨count, threshold⟩ := Nat.exists_eq_succ_of_ne_zero counts.ne'
  have fits := (run_eq_some_iff.mp ran).1 (List.replicate count (.failure t)) (.failure t) []
    (by rw [threshold, List.replicate_succ'])
  apply fits
  have kept := errors_after_replicate cfg t (count + 1)
  rw [List.replicate_succ', after_concat] at kept
  have reached : (after cfg (List.replicate count (.failure t))).errorCount cfg t = count + 1 := by
    have length := congrArg List.length kept
    simpa [errors_apply_failure, errorCount] using length
  have bounded := cfg.threshold.toNat_lt
  rw [reached, Nat.mod_eq_of_lt (by omega), threshold]

end Breaker

/-! ### Accepted cooldowns -/

/-- The number of a duration and what it counts, in seconds. -/
def durationParts (text : Text) : Text × Nat :=
  match Text.stripSuffix "h".toList text with
  | some num => (num, 3600)
  | none =>
      match Text.stripSuffix "m".toList text with
      | some num => (num, 60)
      | none =>
          match Text.stripSuffix "s".toList text with
          | some num => (num, 1)
          | none => (text, 1)

theorem durationParts_unit (text : Text) :
    (durationParts text).2 = 1 ∨ (durationParts text).2 = 60 ∨ (durationParts text).2 = 3600 := by
  unfold durationParts
  split
  · exact .inr (.inr rfl)
  · split
    · exact .inr (.inl rfl)
    · split
      · exact .inl rfl
      · exact .inl rfl

theorem parseDuration_eq_some_iff {text : Text} {duration : Nat} :
    parseDuration text = some duration ↔
      ∃ num, Text.parseUnsigned (2 ^ 64) (durationParts text).1 = some num ∧ num ≠ 0 ∧
        duration = Duration.fromSecs (min (num * (durationParts text).2) (2 ^ 64 - 1)) := by
  have parts : parseDuration text =
      (Text.parseUnsigned (2 ^ 64) (durationParts text).1).bind fun n =>
        if n = 0 then none
        else some (Duration.fromSecs (min (n * (durationParts text).2) (2 ^ 64 - 1))) := by
    unfold parseDuration
    dsimp only
    split
    · next unread =>
        have numbered : Text.parseUnsigned (2 ^ 64) (durationParts text).1 = none := unread
        rw [numbered, Option.bind_none]
    · next n read =>
        have numbered : Text.parseUnsigned (2 ^ 64) (durationParts text).1 = some n := read
        rw [numbered, Option.bind_some]
        rfl
  rw [parts, Option.bind_eq_some_iff]
  refine exists_congr fun n => and_congr_right fun _ => ?_
  rw [Option.ite_none_left_eq_some, Option.some.injEq]
  exact and_congr_right fun _ => eq_comm

theorem parseDuration_pos {text : Text} {duration : Nat}
    (parsed : parseDuration text = some duration) : 0 < duration := by
  obtain ⟨num, _, nonzero, rfl⟩ := parseDuration_eq_some_iff.mp parsed
  have unit : 0 < (durationParts text).2 := by
    have units := durationParts_unit text
    omega
  have seconds : 0 < num * (durationParts text).2 := Nat.mul_pos (Nat.pos_of_ne_zero nonzero) unit
  exact Nat.mul_pos (lt_min seconds (by decide)) (by decide)

theorem of_parseCooldown {spec : Text} {cfg : CooldownConfig}
    (accepted : parseCooldown spec = .ok (some cfg)) :
    (∃ window, parseDuration window = some cfg.window) ∧ 0 < cfg.threshold.toNat ∧
      ∃ cooldown, parseDuration cooldown = some cfg.cooldown := by
  unfold parseCooldown at accepted
  split at accepted
  · cases accepted
  · split at accepted
    · next window errors cooldown _ =>
        split at accepted
        · cases accepted
        · next windowLength windowParsed =>
            split at accepted
            · cases accepted
            · next threshold numbered =>
                split at accepted
                · cases accepted
                · next nonzero =>
                    split at accepted
                    · cases accepted
                    · next cooldownLength cooldownParsed =>
                        cases accepted
                        refine ⟨⟨window, windowParsed⟩, ?_, ⟨cooldown, cooldownParsed⟩⟩
                        rw [UInt32.toNat_ofNat_of_lt' (Text.parseUnsigned_lt numbered)]
                        exact Nat.pos_of_ne_zero nonzero
    · cases accepted

/-- With an accepted cooldown a history is recorded in full exactly if every failure that
starts a cooldown comes early enough for its end to be on the clock.  All histories up to an
instant are exactly if that instant is early enough, and some history on the clock never is. -/
theorem accepted_cooldown_completes_iff (last : Nat) (spec : Text) (cfg : CooldownConfig)
    (accepted : parseCooldown spec = .ok (some cfg)) :
    (∀ history, (∃ breaker, Breaker.run last cfg history = some breaker) ↔
      ∀ earlier event later, history = earlier ++ event :: later →
        (Breaker.after cfg earlier).Fits last cfg event) ∧
    (∀ latest, (∀ history : List BreakerEvent, (∀ event ∈ history, event.time ≤ latest) →
        ∃ breaker, Breaker.run last cfg history = some breaker) ↔
      latest + cfg.cooldown ≤ last) ∧
    ∃ history : List BreakerEvent, (∀ event ∈ history, event.time ≤ last) ∧
      Breaker.run last cfg history = none := by
  obtain ⟨_, counts, text, parsed⟩ := of_parseCooldown accepted
  have positive := parseDuration_pos parsed
  have early : ∀ latest, (∀ history : List BreakerEvent, (∀ event ∈ history, event.time ≤ latest) →
      ∃ breaker, Breaker.run last cfg history = some breaker) ↔ latest + cfg.cooldown ≤ last := by
    intro latest
    constructor
    · intro completes
      obtain ⟨final, ran⟩ := completes (List.replicate cfg.threshold.toNat (.failure latest))
        (fun event member => by rw [List.eq_of_mem_replicate member]; rfl)
      exact Breaker.cooldown_fits_of_run counts ran
    · intro fits history inTime
      refine ⟨_, Breaker.run_eq_some_iff.mpr ⟨fun earlier event later cut => ?_, rfl⟩⟩
      cases event with
      | success t => trivial
      | failure now =>
          intro _
          have notLater : now ≤ latest := inTime (.failure now) (by simp [cut])
          exact (Nat.add_le_add_right notLater _).trans fits
  refine ⟨fun history => ?_, early, ?_⟩
  · simp only [Breaker.run_eq_some_iff, exists_and_left, exists_eq', and_true]
  · by_contra panics
    push Not at panics
    have fits := (early last).mp fun history inTime =>
      Option.ne_none_iff_exists'.mp (panics history inTime)
    omega

theorem accepted_cooldown_of_ten_seconds :
    let cfg : CooldownConfig :=
      { window := Duration.fromSecs 60, threshold := 10, cooldown := Duration.fromSecs 10 }
    (∀ history, (∃ breaker, Breaker.run lastInstant cfg history = some breaker) ↔
      ∀ earlier event later, history = earlier ++ event :: later →
        (Breaker.after cfg earlier).Fits lastInstant cfg event) ∧
    (∀ latest, (∀ history : List BreakerEvent, (∀ event ∈ history, event.time ≤ latest) →
        ∃ breaker, Breaker.run lastInstant cfg history = some breaker) ↔
      latest + cfg.cooldown ≤ lastInstant) ∧
    ∃ history : List BreakerEvent, (∀ event ∈ history, event.time ≤ lastInstant) ∧
      Breaker.run lastInstant cfg history = none :=
  accepted_cooldown_completes_iff lastInstant "1m:10:10s".toList _ (by decide)

/-- The longest cooldown is accepted, and the first failure panics. -/
theorem longest_cooldown_panics :
    ¬ ∀ (spec : Text) (cfg : CooldownConfig), parseCooldown spec = .ok (some cfg) →
      ∀ history : List BreakerEvent, (∀ event ∈ history, event.time ≤ lastInstant) →
        ∃ breaker, Breaker.run lastInstant cfg history = some breaker := by
  intro completes
  let cfg : CooldownConfig :=
    { window := Duration.fromSecs 60
      threshold := 1
      cooldown := Duration.fromSecs (2 ^ 64 - 1) }
  obtain ⟨breaker, ran⟩ := completes "1m:1:18446744073709551615s".toList cfg (by decide)
    [.failure 0] (by simp [BreakerEvent.time])
  have panics : Breaker.run lastInstant cfg [.failure 0] = none := by decide
  rw [panics] at ran
  cases ran

end Rsdns.Upstream
