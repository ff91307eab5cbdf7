import Mathlib.Data.Int.CardIntervalMod

/-!
# Turns under a cursor that wraps

A cursor counts the turns and starts anew at its bound; each turn goes to the place under it,
modulo the number of places.  Two places differ by at most one turn, and by one more for each
time the cursor has started anew.
-/

namespace RoundRobin

def turns (wrap size count : Nat) : List Nat :=
  (List.range count).map fun turn => turn % wrap % size

@[simp]
theorem turns_zero (wrap size : Nat) : turns wrap size 0 = [] := rfl

theorem turns_succ (wrap size count : Nat) :
    turns wrap size (count + 1) = turns wrap size count ++ [count % wrap % size] := by
  simp [turns, List.range_succ]

@[simp]
theorem length_turns (wrap size count : Nat) : (turns wrap size count).length = count := by
  simp [turns]

theorem mem_turns_lt {wrap size count place : Nat} (positive : 0 < size)
    (member : place ∈ turns wrap size count) : place < size := by
  obtain ⟨turn, _, rfl⟩ := List.mem_map.mp member
  exact Nat.mod_lt _ positive

def share (wrap size place count : Nat) : Nat :=
  Nat.count (fun turn => turn % wrap % size = place) count

theorem count_turns (wrap size place count : Nat) :
    (turns wrap size count).count place = share wrap size place count := by
  induction count with
  | zero => rfl
  | succ count inductionHypothesis =>
      rw [turns_succ, List.count_append, inductionHypothesis, share, share, Nat.count_succ,
        List.count_singleton]
      simp only [beq_iff_eq]

theorem share_wrap_add (wrap size place count : Nat) :
    share wrap size place (wrap + count) =
      share wrap size place wrap + share wrap size place count := by
  unfold share
  rw [Nat.count_add]
  simp only [Nat.add_mod_left]

/-- As long as the cursor has not started anew the places take turns. -/
theorem share_of_le {wrap size place count : Nat} (positive : 0 < size) (inside : place < size)
    (once : count ≤ wrap) :
    share wrap size place count = count / size + if place < count % size then 1 else 0 := by
  have same : share wrap size place count = Nat.count (· ≡ place [MOD size]) count := by
    unfold share
    rw [Nat.count_eq_card_filter_range, Nat.count_eq_card_filter_range]
    congr 1
    apply Finset.filter_congr
    intro turn member
    have before : turn < wrap := (Finset.mem_range.mp member).trans_le once
    rw [Nat.mod_eq_of_lt before, Nat.ModEq, Nat.mod_eq_of_lt inside]
  rw [same, Nat.count_modEq_card count positive, Nat.mod_eq_of_lt inside]

theorem share_le {wrap size one other : Nat} (count : Nat) (wraps : 0 < wrap)
    (oneInside : one < size) (otherInside : other < size) :
    share wrap size one count ≤ share wrap size other count + count / wrap + 1 := by
  have positive : 0 < size := Nat.zero_lt_of_lt oneInside
  have once : ∀ {few}, few ≤ wrap →
      share wrap size one few ≤ share wrap size other few + 1 := by
    intro few inside
    rw [share_of_le positive oneInside inside, share_of_le positive otherInside inside]
    split <;> split <;> omega
  induction count using Nat.strong_induction_on with
  | _ count inductionHypothesis =>
      by_cases inside : count ≤ wrap
      · exact (once inside).trans (Nat.succ_le_succ (Nat.le_add_right _ _))
      · obtain ⟨rest, rfl⟩ := Nat.exists_eq_add_of_le (Nat.le_of_not_le inside)
        have later := inductionHypothesis rest (by omega)
        have first := once (Nat.le_refl wrap)
        rw [share_wrap_add, share_wrap_add, Nat.add_div_left rest wraps]
        omega

theorem count_turns_le {wrap size one other : Nat} (count : Nat) (wraps : 0 < wrap)
    (oneInside : one < size) (otherInside : other < size) :
    (turns wrap size count).count one ≤
      (turns wrap size count).count other + count / wrap + 1 := by
  rw [count_turns, count_turns]
  exact share_le count wraps oneInside otherInside

end RoundRobin
