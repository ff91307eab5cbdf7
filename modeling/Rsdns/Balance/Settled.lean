import Rsdns.Balance.Order

/-!
# Answers the stage leaves alone

A family whose records stand as every pass would put them is settled.  The
answers survive the stage by any chance if the families it passes over are
settled and the cut spares them.
-/

namespace Rsdns.Plugins

open Dns Slots

variable {Name : Type}

namespace Balance

/-- No pass over the records changes their order, whatever it draws or measures. -/
def Settled (self : Balance) (isA : Bool) (records : List (Record Name)) : Prop :=
  if self.Mixed isA records then
    records.Pairwise fun first second => self.place isA first ≤ self.place isA second
  else
    match self.mode with
    | .None => True
    | .RoundRobin => ∀ first ∈ records, ∀ second ∈ records, first = second
    | .Speed => ∀ first ∈ records, ∀ second ∈ records, familyIp isA first = familyIp isA second

variable {self : Balance} {isA : Bool} {records : List (Record Name)}

theorem rotate_eq_self {Item : Type} {items : List Item}
    (alike : ∀ first ∈ items, ∀ second ∈ items, first = second) (start : Nat) :
    items.rotate start = items := by
  cases items with
  | nil => exact List.rotate_nil start
  | cons first items =>
      have same : first :: items = List.replicate (first :: items).length first :=
        List.eq_replicate_iff.mpr ⟨rfl, fun other member => alike other member first (by simp)⟩
      rw [same, List.rotate_replicate]

theorem arrange_of_settled (settled : self.Settled isA records) (chance : Chance) (pass : Nat) :
    self.arrange chance pass isA records = records := by
  unfold Settled at settled
  unfold arrange
  split
  · rfl
  · split
    · next mixed =>
        rw [if_pos mixed] at settled
        exact StableCut.sortBy_eq_self settled
    · next uniform =>
        rw [if_neg uniform] at settled
        cases mode : self.mode with
        | None => rfl
        | RoundRobin =>
            rw [mode] at settled
            exact rotate_eq_self settled _
        | Speed =>
            rw [mode] at settled
            apply StableCut.sortBy_eq_self
            apply List.pairwise_of_forall_mem_list
            intro first firstMember second secondMember
            have same : familyIp isA first = familyIp isA second :=
              settled first firstMember second secondMember
            unfold latencyKey
            rw [same]

/-! ### And only those -/

/-- The number of the last pass over the family. -/
def lastPass (families : Families) (isA : Bool) : Nat := if families.aaaa = isA then 1 else 0

theorem passes_eq_arrange (self : Balance) {isA : Bool} {families : Families}
    (reached : families.a = isA ∨ families.aaaa = isA) (records : List (Record Name))
    (chance : Chance) :
    ∃ once, once.Perm records ∧
      (once = records ∨ once = self.arrange chance 0 isA records ∧ lastPass families isA = 1) ∧
      self.passes chance isA families records =
        self.arrange chance (lastPass families isA) isA once := by
  unfold passes lastPass
  dsimp only
  by_cases second : families.aaaa = isA
  · rw [if_pos second, if_pos second]
    by_cases first : families.a = isA
    · rw [if_pos first]
      exact ⟨_, self.arrange_perm chance 0 isA records, .inr ⟨rfl, rfl⟩, rfl⟩
    · rw [if_neg first]
      exact ⟨records, .refl _, .inl rfl, rfl⟩
  · rw [if_neg second, if_neg second, if_pos (reached.resolve_right second)]
    exact ⟨records, .refl _, .inl rfl, rfl⟩

theorem not_mixed_of_perm {others : List (Record Name)} (permuted : others.Perm records)
    (uniform : ¬ self.Mixed isA records) : ¬ self.Mixed isA others :=
  fun mixed => uniform (mixed.of_perm permuted.symm)

theorem eq_of_rotate_one {Item : Type} {items : List Item} (still : items.rotate 1 = items) :
    ∀ first ∈ items, ∀ second ∈ items, first = second := by
  obtain ⟨value, same⟩ | empty : (∃ value, items = List.replicate items.length value) ∨
      items = [] := by
    cases items with
    | nil => exact .inr rfl
    | cons first items =>
        have : Nonempty Item := ⟨first⟩
        exact .inl (List.rotate_one_eq_self_iff_eq_replicate.mp still)
  · intro first firstMember second secondMember
    rw [same] at firstMember secondMember
    exact (List.eq_of_mem_replicate firstMember).trans (List.eq_of_mem_replicate secondMember).symm
  · rw [empty]
    intro first member
    cases member

/-- If every record's probe may be the only one to answer, records with different
addresses cannot both keep their places. -/
theorem familyIp_eq_of_sorted
    (family : ∀ record ∈ records, hasValue (familyIp isA) record = true)
    (sorted : ∀ answering ∈ records, records.Pairwise fun first second =>
      latencyKey (onlyAnswer (familyIp isA answering)) isA first ≤
        latencyKey (onlyAnswer (familyIp isA answering)) isA second) :
    ∀ first ∈ records, ∀ second ∈ records, familyIp isA first = familyIp isA second := by
  let alike : Record Name → Record Name → Prop :=
    fun first second => familyIp isA first = familyIp isA second
  have ordered : records.Pairwise alike := by
    rw [List.pairwise_iff_getElem]
    intro i j inI inJ before
    have inFamily := family _ (List.getElem_mem inJ)
    have keys := List.pairwise_iff_getElem.mp (sorted _ (List.getElem_mem inJ)) i j inI inJ before
    apply (latencyKey_onlyAnswer_lt_iff inFamily).mp
    exact lt_of_le_of_lt keys ((latencyKey_onlyAnswer_lt_iff inFamily).mpr rfl)
  have flipped : records.Pairwise (flip alike) := ordered.imp fun same => same.symm
  intro first firstMember second secondMember
  refine List.Pairwise.forall_of_forall_of_flip ?_ ordered flipped firstMember secondMember
  exact fun _ _ => rfl

theorem passes_perm (self : Balance) {isA : Bool} {families : Families}
    (reached : families.a = isA ∨ families.aaaa = isA) (records : List (Record Name))
    (chance : Chance) : (self.passes chance isA families records).Perm records := by
  obtain ⟨once, permuted, _, last⟩ := self.passes_eq_arrange reached records chance
  rw [last]
  exact (self.arrange_perm _ _ _ _).trans permuted

theorem settled_of_few (few : records.length < 2) : self.Settled isA records := by
  have alike : ∀ first ∈ records, ∀ second ∈ records, first = second := by
    intro first firstMember second secondMember
    match records, few with
    | [only], _ =>
        rw [List.mem_singleton] at firstMember secondMember
        exact firstMember.trans secondMember.symm
  unfold Settled
  split
  · next mixed =>
      obtain ⟨first, firstMember, second, secondMember, different⟩ := mixed
      rw [alike first firstMember second secondMember] at different
      exact absurd rfl different
  · cases self.mode with
    | None => trivial
    | RoundRobin => exact alike
    | Speed =>
        intro first firstMember second secondMember
        rw [alike first firstMember second secondMember]

/-- A rotation by one in the last pass, the only one to draw an offset. -/
theorem eq_of_passes_roundRobin {families : Families} (many : ¬ records.length < 2)
    (uniform : ¬ self.Mixed isA records) (mode : self.mode = .RoundRobin)
    (reached : families.a = isA ∨ families.aaaa = isA)
    (still : ∀ chance, self.passes chance isA families records = records) :
    ∀ first ∈ records, ∀ second ∈ records, first = second := by
  let chance : Chance :=
    ⟨fun pass => if pass = lastPass families isA then 1 else 0, fun _ _ => none⟩
  obtain ⟨once, _, origin, last⟩ := self.passes_eq_arrange reached records chance
  have unmoved : once = records := by
    rcases origin with same | ⟨same, second⟩
    · exact same
    · rw [same, arrange, if_neg many, if_neg uniform, mode]
      simp [chance, second]
  have same := still chance
  rw [last, unmoved, arrange, if_neg many, if_neg uniform, mode] at same
  have offset : chance.offset (lastPass families isA) % records.length = 1 := by
    simp only [chance, if_true]
    exact Nat.mod_eq_of_lt (Nat.not_lt.mp many)
  dsimp only at same
  rw [offset] at same
  exact eq_of_rotate_one same

/-- The last pass sorts by latency, and any record's probe may be the only one to answer. -/
theorem familyIp_eq_of_passes_speed {families : Families} (many : ¬ records.length < 2)
    (uniform : ¬ self.Mixed isA records) (mode : self.mode = .Speed)
    (family : ∀ record ∈ records, hasValue (familyIp isA) record = true)
    (reached : families.a = isA ∨ families.aaaa = isA)
    (still : ∀ chance, self.passes chance isA families records = records) :
    ∀ first ∈ records, ∀ second ∈ records, familyIp isA first = familyIp isA second := by
  apply familyIp_eq_of_sorted family
  intro answering _
  let chance : Chance := ⟨fun _ => 0, fun _ => onlyAnswer (familyIp isA answering)⟩
  obtain ⟨once, permuted, _, last⟩ := self.passes_eq_arrange reached records chance
  have manyOnce : ¬ once.length < 2 := by rwa [permuted.length_eq]
  have same := still chance
  rw [last, arrange, if_neg manyOnce, if_neg (not_mixed_of_perm permuted uniform), mode] at same
  dsimp only at same
  have sorted := StableCut.sortBy_sorted (latencyKey (onlyAnswer (familyIp isA answering)) isA) once
  rwa [same] at sorted

theorem settled_of_passes {families : Families}
    (family : ∀ record ∈ records, hasValue (familyIp isA) record = true)
    (reached : families.a = isA ∨ families.aaaa = isA)
    (still : ∀ chance, self.passes chance isA families records = records) :
    self.Settled isA records := by
  by_cases few : records.length < 2
  · exact settled_of_few few
  · unfold Settled
    split
    · next mixed =>
        have sorted := StableCut.sortBy_sorted (self.place isA) records
        have same := still ⟨fun _ => 0, fun _ _ => none⟩
        rw [passes_of_mixed mixed _ reached] at same
        rwa [same] at sorted
    · next uniform =>
        cases mode : self.mode with
        | None => trivial
        | RoundRobin => exact eq_of_passes_roundRobin few uniform mode reached still
        | Speed => exact familyIp_eq_of_passes_speed few uniform mode family reached still

/-! ### The whole stage -/

/-- The cut spares the answers, and the families passed over are settled. -/
structure LeavesAlone (balance : Balance) (families : Families)
    (answers : List (Record Name)) : Prop where
  uncut : balance.limit answers.length = answers.length
  settled : ∀ isA, families.a = isA ∨ families.aaaa = isA →
    balance.Settled isA (recordsOf isA answers)

theorem limit_le (self : Balance) (size : Nat) : self.limit size ≤ size := by
  unfold limit
  split
  · split
    · next cut => exact Nat.le_of_lt cut.2
    · exact le_refl size
  · exact le_refl size

theorem balanceFamily_of_settled {answers : List (Record Name)}
    (settled : self.Settled isA (recordsOf isA answers)) (chance : Chance) (pass : Nat) :
    self.balanceFamily chance pass answers isA = answers := by
  rw [balanceFamily_eq_refill, arrange_of_settled settled]
  exact refill_filter_self answers

theorem balanceAnswers_eq_self_iff {families : Families} {answers : List (Record Name)}
    (nonempty : families.isEmpty = false) :
    (∀ chance, self.balanceAnswers chance families answers = answers) ↔
      self.LeavesAlone families answers := by
  constructor
  · intro still
    have lengths : ∀ chance, (self.balanceFamily chance 1
        (self.balanceFamily chance 0 answers families.a) families.aaaa).length =
        answers.length := fun chance =>
      ((self.balanceFamily_perm chance 1 _ _).trans
        (self.balanceFamily_perm chance 0 _ _)).length_eq
    constructor
    · have size := congrArg List.length (still ⟨fun _ => 0, fun _ _ => none⟩)
      unfold balanceAnswers at size
      dsimp only at size
      rw [nonempty, if_neg (by simp), truncate_eq_take, List.length_take, lengths] at size
      exact le_antisymm (self.limit_le _) (min_eq_right_iff.mp size)
    · intro isA reached
      apply settled_of_passes (fun record member => (List.mem_filter.mp member).2) reached
      intro chance
      have kept := self.recordsOf_balanceAnswers chance answers isA families nonempty
      rw [still chance] at kept
      have permuted := self.passes_perm reached (recordsOf isA answers) chance
      have all := congrArg List.length kept
      rw [List.length_take, permuted.length_eq] at all
      rw [List.take_of_length_le (by rw [permuted.length_eq]; omega)] at kept
      exact kept.symm
  · intro alone chance
    unfold balanceAnswers
    dsimp only
    rw [nonempty, if_neg (by simp), balanceFamily_of_settled (alone.settled _ (.inl rfl)),
      balanceFamily_of_settled (alone.settled _ (.inr rfl)), truncate_eq_take, alone.uncut,
      List.take_length]

end Balance

end Rsdns.Plugins
