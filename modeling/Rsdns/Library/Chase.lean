import Mathlib.Data.List.Perm.Subperm
import Mathlib.Logic.Relation

/-!
# Chasing pointers

A place may point to another one.  A chase follows the pointers to the first place that
has none or that it has been to.  It ends if the pointers lead to finitely many places,
however many there are to start from.
-/

universe u

namespace Chase

variable {Place : Type u} [DecidableEq Place] (follow : Place → Option Place)

/-- The place where a chase stops, unless its fuel is used up before. -/
def chase : Nat → List Place → Place → Option Place
  | 0, _, _ => none
  | fuel + 1, seen, place =>
      if place ∈ seen then some place
      else
        match follow place with
        | some next => chase fuel (place :: seen) next
        | none => some place

def Points (place next : Place) : Prop := follow place = some next

/-- A way to a place and the places before it, the last one first, all of them
different. -/
inductive Trail (start : Place) : List Place → Place → Prop where
  | start : Trail start [] start
  | move {seen : List Place} {place next : Place} :
      Trail start seen place → place ∉ seen → follow place = some next →
      Trail start (place :: seen) next

def Stops (seen : List Place) (place : Place) : Prop := place ∈ seen ∨ follow place = none

variable {follow} {start place : Place} {seen : List Place}

namespace Trail

omit [DecidableEq Place]

theorem nodup (trail : Trail follow start seen place) : seen.Nodup := by
  induction trail with
  | start => exact .nil
  | move _ fresh _ inductionHypothesis => exact List.nodup_cons.mpr ⟨fresh, inductionHypothesis⟩

theorem points_of_mem (trail : Trail follow start seen place) {earlier : Place}
    (member : earlier ∈ seen) : ∃ next, follow earlier = some next ∧ next ∈ place :: seen := by
  induction trail with
  | start => cases member
  | @move seen place next _ _ points inductionHypothesis =>
      rcases List.mem_cons.mp member with rfl | before
      · exact ⟨next, points, List.mem_cons_self⟩
      · obtain ⟨other, pointsOther, inside⟩ := inductionHypothesis before
        exact ⟨other, pointsOther, List.mem_cons_of_mem next inside⟩

theorem start_mem (trail : Trail follow start seen place) : start ∈ place :: seen := by
  induction trail with
  | start => exact List.mem_cons_self
  | move _ _ _ inductionHypothesis => exact List.mem_cons_of_mem _ inductionHypothesis

theorem reaches (trail : Trail follow start seen place) :
    Relation.ReflTransGen (Points follow) start place := by
  induction trail with
  | start => exact .refl
  | move _ _ points inductionHypothesis => exact inductionHypothesis.tail points

theorem subset {targets : List Place}
    (listed : ∀ place next, follow place = some next → next ∈ targets)
    (trail : Trail follow start seen place) : place :: seen ⊆ start :: targets := by
  induction trail with
  | start => exact List.cons_subset_cons start (List.nil_subset targets)
  | move _ _ points inductionHypothesis =>
      exact List.cons_subset.mpr
        ⟨List.mem_cons_of_mem start (listed _ _ points), inductionHypothesis⟩

theorem mem_of_reaches (trail : Trail follow start seen place) (stops : Stops follow seen place)
    {other : Place} (reach : Relation.ReflTransGen (Points follow) start other) :
    other ∈ place :: seen := by
  induction reach with
  | refl => exact trail.start_mem
  | @tail before after _ points inductionHypothesis =>
      have inside : before ∈ seen := by
        rcases List.mem_cons.mp inductionHypothesis with rfl | earlier
        · rcases stops with again | last
          · exact again
          · cases last.symm.trans points
        · exact earlier
      obtain ⟨next, pointsNext, member⟩ := trail.points_of_mem inside
      rw [Points, pointsNext, Option.some.injEq] at points
      exact points ▸ member

theorem eq_of_reaches (trail : Trail follow start seen place) (stops : Stops follow seen place)
    {other : Place} (reach : Relation.ReflTransGen (Points follow) start other)
    (last : follow other = none) : other = place := by
  rcases List.mem_cons.mp (trail.mem_of_reaches stops reach) with same | earlier
  · exact same
  · obtain ⟨next, points, _⟩ := trail.points_of_mem earlier
    cases last.symm.trans points

end Trail

/-! ### The chase walks the trail -/

theorem chase_of_trail (trail : Trail follow start seen place) (fuel : Nat) :
    chase follow (fuel + seen.length) [] start = chase follow fuel seen place := by
  induction trail generalizing fuel with
  | start => rfl
  | @move seen place next _ fresh points inductionHypothesis =>
      have longer : fuel + (place :: seen).length = (fuel + 1) + seen.length := by
        rw [List.length_cons]
        omega
      rw [longer, inductionHypothesis, chase, if_neg fresh, points]

theorem chase_of_stops (stops : Stops follow seen place) (fuel : Nat) :
    chase follow (fuel + 1) seen place = some place := by
  rw [chase]
  split
  · rfl
  · next fresh =>
      have last : follow place = none := stops.resolve_left fresh
      rw [last]

theorem trail_of_chase {fuel : Nat} {last : Place} (trail : Trail follow start seen place)
    (chased : chase follow fuel seen place = some last) :
    ∃ seen, Trail follow start seen last ∧ Stops follow seen last := by
  induction fuel generalizing seen place with
  | zero => cases chased
  | succ fuel inductionHypothesis =>
      rw [chase] at chased
      split at chased
      · next again =>
          cases chased
          exact ⟨seen, trail, .inl again⟩
      · next fresh =>
          cases points : follow place with
          | none =>
              rw [points, Option.some.injEq] at chased
              subst chased
              exact ⟨seen, trail, .inr points⟩
          | some next =>
              rw [points] at chased
              exact inductionHypothesis (trail.move fresh points) chased

/-- The seen places are different targets, the start apart. -/
theorem chase_isSome {targets : List Place}
    (listed : ∀ place next, follow place = some next → next ∈ targets) {fuel : Nat}
    (trail : Trail follow start seen place) (enough : targets.length + 2 ≤ fuel + seen.length) :
    (chase follow fuel seen place).isSome := by
  induction fuel generalizing seen place with
  | zero =>
      have inside : seen ⊆ start :: targets :=
        List.Subset.trans (List.subset_cons_self place seen) (trail.subset listed)
      have few := (trail.nodup.subperm inside).length_le
      rw [List.length_cons] at few
      omega
  | succ fuel inductionHypothesis =>
      rw [chase]
      split
      · rfl
      · next fresh =>
          cases points : follow place with
          | none => rfl
          | some next =>
              apply inductionHypothesis (trail.move fresh points)
              rw [List.length_cons]
              omega

/-- With enough fuel the chase stops, and more fuel changes nothing. -/
theorem exists_chase {targets : List Place}
    (listed : ∀ place next, follow place = some next → next ∈ targets) (start : Place) :
    ∃ seen last, Trail follow start seen last ∧ Stops follow seen last ∧
      ∀ fuel, targets.length + 2 ≤ fuel → chase follow fuel [] start = some last := by
  have ends := chase_isSome listed (Trail.start : Trail follow start [] start)
    (Nat.le_refl (targets.length + 2))
  obtain ⟨last, chased⟩ := Option.isSome_iff_exists.mp ends
  obtain ⟨seen, trail, stops⟩ := trail_of_chase .start chased
  refine ⟨seen, last, trail, stops, fun fuel enough => ?_⟩
  have inside : seen ⊆ start :: targets :=
    List.Subset.trans (List.subset_cons_self last seen) (trail.subset listed)
  have few := (trail.nodup.subperm inside).length_le
  rw [List.length_cons] at few
  obtain ⟨spare, rfl⟩ : ∃ spare, fuel = spare + 1 + seen.length :=
    ⟨fuel - 1 - seen.length, by omega⟩
  rw [chase_of_trail trail, chase_of_stops stops]

theorem eq_of_stops {otherSeen : List Place} {other : Place}
    (trail : Trail follow start seen place) (stops : Stops follow seen place)
    (otherTrail : Trail follow start otherSeen other) (otherStops : Stops follow otherSeen other) :
    other = place := by
  have first := chase_of_trail trail (otherSeen.length + 1)
  have second := chase_of_trail otherTrail (seen.length + 1)
  have sameFuel : seen.length + 1 + otherSeen.length = otherSeen.length + 1 + seen.length := by
    omega
  rw [chase_of_stops stops] at first
  rw [chase_of_stops otherStops, sameFuel, first, Option.some.injEq] at second
  exact second.symm

end Chase
