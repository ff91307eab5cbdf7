import Rsdns.Balance.Agreement

/-!
# Balancing a second time

Without a mode the stage sorts the families it passes over by rank, and cuts the
answers.  A front part of a sorted family is sorted, whatever the cut has taken from
it, and so nothing remains to be done a second time.
-/

namespace Rsdns.Plugins

open Dns Slots StableCut

variable {Name : Type}

namespace Balance

variable {self : Balance} {isA : Bool}

def Ranked (self : Balance) (ips : List IpAddr) : Prop :=
  ips.Pairwise fun first second => self.firstRange first ≤ self.firstRange second

/-! ### Settled families -/

theorem settled_iff_pairwise (unordered : self.mode = .None) (records : List (Record Name)) :
    self.Settled isA records ↔
      records.Pairwise fun first second => self.place isA first ≤ self.place isA second := by
  unfold Settled
  split
  · exact Iff.rfl
  · next uniform =>
      rw [unordered]
      refine iff_of_true trivial ?_
      apply List.pairwise_of_forall_mem_list
      intro first firstMember second secondMember
      by_contra greater
      exact uniform ⟨first, firstMember, second, secondMember, fun same => greater same.le⟩

theorem settled_iff_ranked (unordered : self.mode = .None) (answers : List (Record Name)) :
    self.Settled isA (recordsOf isA answers) ↔ self.Ranked (familyIps isA answers) := by
  have ranked : ∀ record ∈ recordsOf isA answers,
      self.place isA record = (self.rank (ipOf isA record)).getD self.cidrs.length :=
    fun record member => place_eq_getD (List.mem_filter.mp member).2
  rw [settled_iff_pairwise unordered, Ranked, familyIps_eq_map, List.pairwise_map]
  apply List.Pairwise.iff_of_mem
  intro first second firstMember secondMember
  rw [ranked first firstMember, ranked second secondMember]
  exact getD_rank_le_iff (Nat.le_refl _) _ _

/-! ### The cut -/

theorem limit_eq_self_iff (self : Balance) (size : Nat) :
    self.limit size = size ↔ ∀ max ∈ self.maxAnswers, max > 0 → size ≤ max := by
  unfold limit
  cases self.maxAnswers with
  | none => simp
  | some max =>
      simp only [Option.mem_some_iff, forall_eq']
      split
      · next cut =>
          constructor
          · intro same _
            exact same.ge
          · intro bounded
            exact absurd (bounded cut.1) (Nat.not_le.mpr cut.2)
      · next uncut =>
          refine iff_of_true rfl fun positive => ?_
          exact Nat.le_of_not_lt fun more => uncut ⟨positive, more⟩

theorem limit_limit (self : Balance) (size : Nat) :
    self.limit (self.limit size) = self.limit size := by
  rw [limit_eq_self_iff]
  intro max limited positive
  unfold limit
  rw [Option.mem_def.mp limited]
  dsimp only
  split
  · exact Nat.le_refl max
  · next uncut => exact Nat.le_of_not_lt fun more => uncut ⟨positive, more⟩

/-! ### Answers that are left alone -/

theorem leavesAlone_iff (unordered : self.mode = .None) {families : Families}
    {answers : List (Record Name)} :
    self.LeavesAlone families answers ↔
      self.limit answers.length = answers.length ∧
        ∀ isA, families.a = isA ∨ families.aaaa = isA →
          self.Ranked (familyIps isA answers) := by
  constructor
  · intro alone
    exact ⟨alone.uncut, fun isA reached =>
      (settled_iff_ranked unordered answers).mp (alone.settled isA reached)⟩
  · intro ⟨uncut, ranked⟩
    exact ⟨uncut, fun isA reached =>
      (settled_iff_ranked unordered answers).mpr (ranked isA reached)⟩

theorem LeavesAlone.of_sublist (unordered : self.mode = .None) {families : Families}
    {answers fewer : List (Record Name)} (alone : self.LeavesAlone families answers)
    (shorter : fewer.length ≤ answers.length)
    (ips : ∀ isA, (familyIps isA fewer).Sublist (familyIps isA answers)) :
    self.LeavesAlone families fewer := by
  obtain ⟨uncut, ranked⟩ := (leavesAlone_iff unordered).mp alone
  rw [leavesAlone_iff unordered]
  constructor
  · rw [limit_eq_self_iff] at uncut ⊢
    exact fun max limited positive => shorter.trans (uncut max limited positive)
  · intro isA reached
    exact (ranked isA reached).sublist (ips isA)

theorem length_balanceAnswers (self : Balance) (chance : Chance) {selected : Families}
    (nonempty : selected.isEmpty = false) (answers : List (Record Name)) :
    (self.balanceAnswers chance selected answers).length = self.limit answers.length := by
  unfold balanceAnswers
  dsimp only
  rw [nonempty, if_neg Bool.false_ne_true, truncate_eq_take, List.length_take,
    (self.balanceFamily_perm chance 1 _ _).length_eq,
    (self.balanceFamily_perm chance 0 _ _).length_eq]
  exact min_eq_left (self.limit_le _)

theorem leavesAlone_balanceAnswers (unordered : self.mode = .None) (chance : Chance)
    {selected : Families} (nonempty : selected.isEmpty = false) (answers : List (Record Name)) :
    self.LeavesAlone selected (self.balanceAnswers chance selected answers) := by
  constructor
  · rw [length_balanceAnswers self chance nonempty, limit_limit]
  · intro isA reached
    obtain ⟨once, _, _, last⟩ :=
      self.passes_eq_arrange reached (recordsOf isA answers) chance
    rw [settled_iff_pairwise unordered, self.recordsOf_balanceAnswers chance answers isA
      selected nonempty, last, arrange_eq_sortBy unordered]
    exact (sortBy_sorted (self.place isA) once).sublist (List.take_sublist _ _)

/-- Whatever is drawn or measured, a second passage through the stage changes nothing. -/
theorem handle_handle (unordered : self.mode = .None) (chance later : Chance)
    (ctx : QueryContext Name) :
    self.handle later (self.handle chance ctx).2 = self.handle chance ctx := by
  unfold handle
  cases skips : !self.enabled || ctx.skipBalance with
  | true => simp only [skips, if_true]
  | false =>
      simp only [Bool.false_eq_true, if_false]
      cases selects : families ctx.qtype with
      | none => simp only [skips, Bool.false_eq_true, if_false, selects]
      | some selected =>
          have nonempty := isEmpty_of_families selects
          have unchanged : ∀ answers : List (Record Name),
              self.balanceAnswers later selected (self.balanceAnswers chance selected answers) =
                self.balanceAnswers chance selected answers := by
            intro answers
            have alone := leavesAlone_balanceAnswers unordered chance nonempty answers
            exact (balanceAnswers_eq_self_iff nonempty).mpr alone later
          have sameType : ({ ctx with response := ctx.response.map fun response =>
              { response with answers := self.balanceAnswers chance selected response.answers } }
                : QueryContext Name).qtype = ctx.qtype := rfl
          simp only [skips, Bool.false_eq_true, if_false, sameType, selects, Option.map_map,
            Function.comp_def, unchanged]

end Balance

end Rsdns.Plugins
