import Mathlib.Data.List.FinRange
import Mathlib.Order.Fin.Basic

/-!
# Scanning indices in order

A scan over `List.finRange` meets the smaller indices first.  What the first
success and the last success of such a scan are is said in terms of the order
of the indices.
-/

universe u v

namespace IndexScan

variable {Item : Type u} {precedes : Item → Item → Prop}

theorem mem_front_iff (asymmetric : ∀ left right, precedes left right → ¬ precedes right left)
    {front back : List Item} {item other : Item}
    (sorted : (front ++ item :: back).Pairwise precedes)
    (member : other ∈ front ++ item :: back) :
    other ∈ front ↔ precedes other item := by
  rw [List.pairwise_append, List.pairwise_cons] at sorted
  obtain ⟨_, ⟨itemFirst, _⟩, frontFirst⟩ := sorted
  constructor
  · intro inFront
    exact frontFirst other inFront item (List.mem_cons_self)
  · intro before
    rcases List.mem_append.mp member with inFront | inRest
    · exact inFront
    · rcases List.mem_cons.mp inRest with same | inBack
      · subst same
        exact absurd before (asymmetric _ _ before)
      · exact absurd before (asymmetric _ _ (itemFirst other inBack))

variable {count : Nat} {Value : Type v}

theorem findSome?_finRange_eq_some_iff {attempt : Fin count → Option Value} {index : Fin count}
    {value : Value} :
    (List.finRange count).findSome? (fun index => (attempt index).map fun value => (index, value)) =
        some (index, value) ↔
      attempt index = some value ∧ ∀ earlier < index, attempt earlier = none := by
  have sorted := List.pairwise_lt_finRange count
  have asymmetric : ∀ left right : Fin count, left < right → ¬ right < left :=
    fun _ _ below => lt_asymm below
  rw [List.findSome?_eq_some_iff]
  constructor
  · rintro ⟨front, found, back, whole, success, failures⟩
    obtain ⟨_, success, same⟩ := Option.map_eq_some_iff.mp success
    cases same
    rw [whole] at sorted
    refine ⟨success, fun earlier below => ?_⟩
    have member : earlier ∈ front ++ index :: back := whole ▸ List.mem_finRange earlier
    have failed := failures earlier ((mem_front_iff asymmetric sorted member).mpr below)
    simpa using failed
  · rintro ⟨success, failures⟩
    obtain ⟨front, back, whole⟩ := List.append_of_mem (List.mem_finRange index)
    rw [whole] at sorted
    refine ⟨front, index, back, whole, by simp [success], fun earlier inFront => ?_⟩
    have member : earlier ∈ front ++ index :: back := List.mem_append_left _ inFront
    have below := (mem_front_iff asymmetric sorted member).mp inFront
    simp [failures earlier below]

theorem findSome?_finRange_eq_none_iff {attempt : Fin count → Option Value} :
    (List.finRange count).findSome? (fun index => (attempt index).map fun value => (index, value)) =
        none ↔ ∀ index, attempt index = none := by
  simp

theorem find?_reverse_finRange_eq_some_iff {accepts : Fin count → Bool} {index : Fin count} :
    (List.finRange count).reverse.find? accepts = some index ↔
      accepts index = true ∧ ∀ later, index < later → accepts later = false := by
  have sorted : (List.finRange count).reverse.Pairwise (fun left right => right < left) :=
    List.pairwise_reverse.mpr (List.pairwise_lt_finRange count)
  have asymmetric : ∀ left right : Fin count, right < left → ¬ left < right :=
    fun _ _ below => lt_asymm below
  rw [List.find?_eq_some_iff_append]
  constructor
  · rintro ⟨accepted, front, back, whole, rejected⟩
    rw [whole] at sorted
    refine ⟨accepted, fun later above => ?_⟩
    have member : later ∈ front ++ index :: back :=
      whole ▸ List.mem_reverse.mpr (List.mem_finRange later)
    have refused := rejected later ((mem_front_iff asymmetric sorted member).mpr above)
    simpa using refused
  · rintro ⟨accepted, rejected⟩
    obtain ⟨front, back, whole⟩ :=
      List.append_of_mem (List.mem_reverse.mpr (List.mem_finRange index))
    rw [whole] at sorted
    refine ⟨accepted, front, back, whole, fun later inFront => ?_⟩
    have member : later ∈ front ++ index :: back := List.mem_append_left _ inFront
    have above := (mem_front_iff asymmetric sorted member).mp inFront
    simp [rejected later above]

end IndexScan
