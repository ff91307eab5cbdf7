import Rsdns.Balance.Arrange
import Rsdns.Dns.LabelName

/-!
# Which families are ordered

The two passes take the two flags of the query type for the two families.  A
query for one family therefore has both families ordered, and a query for any
type has the first family ordered twice and the second one never.
-/

namespace Rsdns.Plugins

open Dns Slots

variable {Name : Type}

def Families.selects (self : Families) (isA : Bool) : Bool := if isA then self.a else self.aaaa

namespace Balance

/-! ### What the stage leaves of a family -/

def limit (self : Balance) (size : Nat) : Nat :=
  match self.maxAnswers with
  | some max => if max > 0 ∧ size > max then max else size
  | none => size

theorem truncate_eq_take (self : Balance) (answers : List (Record Name)) :
    self.truncate answers = answers.take (self.limit answers.length) := by
  unfold truncate limit
  cases self.maxAnswers with
  | none => exact List.take_length.symm
  | some max =>
      dsimp only
      split
      · rfl
      · exact List.take_length.symm

def room (self : Balance) (isA : Bool) (answers : List (Record Name)) : Nat :=
  (self.truncate answers).countP (hasValue (familyIp isA))

theorem recordsOf_truncate (self : Balance) (isA : Bool) (answers : List (Record Name)) :
    recordsOf isA (self.truncate answers) =
      (recordsOf isA answers).take (self.room isA answers) := by
  unfold room recordsOf
  rw [truncate_eq_take]
  exact filter_take _ _ _

theorem room_le (self : Balance) (isA : Bool) (answers : List (Record Name)) :
    self.room isA answers ≤ (recordsOf isA answers).length := by
  unfold room recordsOf
  rw [truncate_eq_take, ← List.countP_eq_length_filter]
  exact (List.take_sublist _ _).countP_le

variable (self : Balance) (chance : Chance) (pass : Nat) (answers : List (Record Name))
  (isA : Bool)

theorem recordsOf_balanceFamily :
    recordsOf isA (self.balanceFamily chance pass answers isA) =
      self.arrange chance pass isA (recordsOf isA answers) := by
  rw [balanceFamily_eq_refill]
  exact filter_refill (Fits.of_perm (self.arrange_perm chance pass isA _))

theorem recordsOf_balanceFamily_not :
    recordsOf (!isA) (self.balanceFamily chance pass answers isA) = recordsOf (!isA) answers := by
  rw [balanceFamily_eq_refill]
  exact filter_refill_of_apart (Fits.of_perm (self.arrange_perm chance pass isA _))
    fun _ => hasValue_familyIp_not

theorem recordsOf_balanceFamily_ite (family : Bool) :
    recordsOf isA (self.balanceFamily chance pass answers family) =
      if family = isA then self.arrange chance pass isA (recordsOf isA answers)
      else recordsOf isA answers := by
  split
  · next same =>
      subst same
      exact self.recordsOf_balanceFamily chance pass answers family
  · next different =>
      have other : isA = !family := Bool.eq_not_of_ne (Ne.symm different)
      rw [other]
      exact self.recordsOf_balanceFamily_not chance pass answers family

theorem map_hasValue_balanceFamily (family : Bool) :
    (self.balanceFamily chance pass answers isA).map (hasValue (familyIp family)) =
      answers.map (hasValue (familyIp family)) := by
  rw [balanceFamily_eq_refill]
  apply map_refill (Fits.of_perm (self.arrange_perm chance pass isA _))
  intro left right inLeft inRight
  by_cases same : family = isA
  · rw [same, inLeft, inRight]
  · have other : family = !isA := Bool.eq_not_of_ne same
    rw [other, hasValue_familyIp_not inLeft, hasValue_familyIp_not inRight]

theorem room_balanceFamily (family : Bool) :
    self.room family (self.balanceFamily chance pass answers isA) = self.room family answers := by
  have kinds := self.map_hasValue_balanceFamily chance pass answers isA family
  have lengths := congrArg List.length kinds
  rw [List.length_map, List.length_map] at lengths
  unfold room
  rw [truncate_eq_take, truncate_eq_take, lengths]
  exact countP_take_eq kinds _

def passes (chance : Chance) (isA : Bool) (families : Families) (records : List (Record Name)) :
    List (Record Name) :=
  let once := if families.a = isA then self.arrange chance 0 isA records else records
  if families.aaaa = isA then self.arrange chance 1 isA once else once

theorem recordsOf_balanceAnswers (families : Families) (some : families.isEmpty = false) :
    recordsOf isA (self.balanceAnswers chance families answers) =
      (self.passes chance isA families (recordsOf isA answers)).take (self.room isA answers) := by
  unfold balanceAnswers passes
  dsimp only
  rw [some, if_neg (by simp), recordsOf_truncate, room_balanceFamily, room_balanceFamily,
    recordsOf_balanceFamily_ite, recordsOf_balanceFamily_ite]

theorem balanceFamily_perm : (self.balanceFamily chance pass answers isA).Perm answers := by
  rw [balanceFamily_eq_refill]
  exact refill_perm (self.arrange_perm chance pass isA _)

theorem truncate_sublist : (self.truncate answers).Sublist answers := by
  rw [truncate_eq_take]
  exact List.take_sublist _ _

theorem truncate_eq_nil_iff : self.truncate answers = [] ↔ answers = [] := by
  rw [truncate_eq_take, List.take_eq_nil_iff]
  constructor
  · rintro (nothing | empty)
    · unfold limit at nothing
      split at nothing
      · split at nothing
        · next cut => exact absurd nothing (Nat.ne_of_gt cut.1)
        · exact List.length_eq_zero_iff.mp nothing
      · exact List.length_eq_zero_iff.mp nothing
    · exact empty
  · exact .inr

theorem balanceAnswers_subperm (families : Families) :
    (self.balanceAnswers chance families answers).Subperm answers := by
  unfold balanceAnswers
  dsimp only
  split
  · exact (self.truncate_sublist answers).subperm
  · exact (self.truncate_sublist _).subperm.trans
      ((self.balanceFamily_perm chance 1 _ _).trans
        (self.balanceFamily_perm chance 0 answers families.a)).subperm

theorem balanceAnswers_spec (families : Families) :
    self.balanceAnswers chance families answers ⊆ answers ∧
      (self.balanceAnswers chance families answers = [] ↔ answers = []) := by
  refine ⟨(self.balanceAnswers_subperm chance answers families).subset, ?_⟩
  unfold balanceAnswers
  dsimp only
  split
  · exact self.truncate_eq_nil_iff answers
  · have permuted := (self.balanceFamily_perm chance 1
      (self.balanceFamily chance 0 answers families.a) families.aaaa).trans
        (self.balanceFamily_perm chance 0 answers families.a)
    rw [truncate_eq_nil_iff, ← List.length_eq_zero_iff, permuted.length_eq,
      List.length_eq_zero_iff]

/-! ### The order of the answers -/

/-- What is kept of a family is in stable order of rank, and nothing better is dropped. -/
structure RankOrdered (balance : Balance) (isA : Bool) (records kept : List (Record Name)) :
    Prop where
  sorted : kept.Pairwise fun first second =>
    balance.place isA first ≤ balance.place isA second
  stable : ∀ rank,
    (kept.filter fun record => balance.place isA record = rank).Sublist records
  best : ∃ dropped, (kept ++ dropped).Perm records ∧
    ∀ record ∈ kept, ∀ other ∈ dropped, balance.place isA record ≤ balance.place isA other

def answersOf (ctx : QueryContext Name) : List (Record Name) :=
  match ctx.response with
  | some response => response.answers
  | none => []

/-- The stage orders the families the query selects, and no other. -/
structure OrdersSelected (balance : Balance) (families : Families) (ctx : QueryContext Name) :
    Prop where
  ordered : ∀ chance isA, families.selects isA = true →
    balance.Mixed isA (recordsOf isA (answersOf ctx)) →
    balance.RankOrdered isA (recordsOf isA (answersOf ctx))
      (recordsOf isA (answersOf (balance.handle chance ctx).2))
  untouched : ∀ chance isA, families.selects isA = false →
    (recordsOf isA (answersOf (balance.handle chance ctx).2)).Sublist
      (recordsOf isA (answersOf ctx))

/-- A pass over the records would not change the order of those the cut leaves: of two
that it exchanges the first is cut off. -/
def KeepsOrder (balance : Balance) (isA : Bool) (records : List (Record Name)) (room : Nat) :
    Prop :=
  if balance.Mixed isA records then
    ∀ first second, [first, second].Sublist records →
      balance.place isA second < balance.place isA first →
      room ≤ records.countP fun other => balance.place isA other < balance.place isA first
  else
    match balance.mode with
    | .None => True
    | .RoundRobin => room ≤ 1
    | .Speed =>
        ∀ first second, [first, second].Sublist records →
          familyIp isA first ≠ familyIp isA second →
          room ≤ records.countP fun other => familyIp isA other = familyIp isA second

/-- The records the cut leaves are sorted by rank, and none that it drops is better. -/
structure AlreadyOrdered (balance : Balance) (isA : Bool) (records : List (Record Name))
    (room : Nat) : Prop where
  sorted : (records.take room).Pairwise fun first second =>
    balance.place isA first ≤ balance.place isA second
  best : ∀ record ∈ records.take room, ∀ other ∈ records.drop room,
    balance.place isA record ≤ balance.place isA other

variable {self} {isA}

theorem rankOrdered_take_sortBy (records : List (Record Name)) (room : Nat) :
    self.RankOrdered isA records
      ((StableCut.sortBy (self.place isA) records).take room) where
  sorted := (StableCut.sortBy_sorted (self.place isA) records).sublist (List.take_sublist _ _)
  stable rank := by
    have front := (List.take_sublist room (StableCut.sortBy (self.place isA) records)).filter
      fun record => self.place isA record = rank
    rw [StableCut.filter_sortBy] at front
    exact front.trans List.filter_sublist
  best := by
    refine ⟨(StableCut.sortBy (self.place isA) records).drop room, ?_,
      StableCut.take_le_drop (self.place isA) records room⟩
    rw [List.take_append_drop]
    exact StableCut.sortBy_perm _ _

theorem rankOrdered_take_iff (records : List (Record Name)) (room : Nat) :
    self.RankOrdered isA records (records.take room) ↔ self.AlreadyOrdered isA records room := by
  constructor
  · intro ordered
    obtain ⟨dropped, permuted, best⟩ := ordered.best
    have rest : dropped.Perm (records.drop room) := by
      rw [← List.perm_append_left_iff (records.take room), List.take_append_drop]
      exact permuted
    exact ⟨ordered.sorted, fun record kept other cut =>
      best record kept other (rest.mem_iff.mpr cut)⟩
  · intro ordered
    refine ⟨ordered.sorted, fun rank => ?_, records.drop room, ?_, ordered.best⟩
    · exact List.filter_sublist.trans (List.take_sublist _ _)
    · rw [List.take_append_drop]

/-! ### A pass over a family that is not selected -/

theorem take_one_sublist {records arranged : List (Record Name)}
    (permuted : arranged.Perm records) {room : Nat} (single : room ≤ 1) :
    (arranged.take room).Sublist records := by
  cases arranged with
  | nil => simp
  | cons record arranged =>
      have member : record ∈ records := permuted.mem_iff.mp List.mem_cons_self
      refine List.Sublist.trans ?_ (List.singleton_sublist.mpr member)
      exact List.take_sublist_take_left single

theorem arrange_take_sublist {records : List (Record Name)} {room : Nat}
    (keeps : self.KeepsOrder isA records room) (chance : Chance) (pass : Nat) :
    ((self.arrange chance pass isA records).take room).Sublist records := by
  unfold arrange
  split
  · exact List.take_sublist _ _
  · split
    · next mixed =>
        rw [KeepsOrder, if_pos mixed] at keeps
        exact StableCut.take_sortBy_sublist keeps
    · next uniform =>
        rw [KeepsOrder, if_neg uniform] at keeps
        cases mode : self.mode with
        | None => exact List.take_sublist _ _
        | RoundRobin =>
            rw [mode] at keeps
            exact take_one_sublist (List.rotate_perm _ _) keeps
        | Speed =>
            rw [mode] at keeps
            apply StableCut.take_sortBy_sublist
            intro first second pair exchanged
            have different : familyIp isA first ≠ familyIp isA second := by
              intro same
              unfold latencyKey at exchanged
              rw [same] at exchanged
              exact lt_irrefl _ exchanged
            refine (keeps first second pair different).trans ?_
            apply List.countP_mono_left
            intro other _ same
            have same : familyIp isA other = familyIp isA second := of_decide_eq_true same
            apply decide_eq_true
            unfold latencyKey at exchanged ⊢
            rw [same]
            exact exchanged

theorem room_le_one_of_rotations {records : List (Record Name)} {room : Nat}
    (distinct : records.Nodup) (fits : room ≤ records.length)
    (keeps : ∀ start < records.length,
      ((records.rotate start).take room).Sublist records) : room ≤ 1 := by
  by_contra several
  obtain ⟨first, rest, rfl⟩ : ∃ first rest, records = first :: rest := by
    cases records with
    | nil => simp at fits; omega
    | cons first rest => exact ⟨first, rest, rfl⟩
  rcases List.eq_nil_or_concat rest with rfl | ⟨middle, last, rfl⟩
  · simp at fits; omega
  · rw [List.concat_eq_append, ← List.cons_append] at *
    have rotated := keeps (first :: middle).length (by simp)
    rw [List.rotate_append_length_eq] at rotated
    obtain ⟨extra, rfl⟩ : ∃ extra, room = extra + 2 := ⟨room - 2, by omega⟩
    have swapped : [last, first].Sublist (first :: middle ++ [last]) := by
      refine List.Sublist.trans ?_ rotated
      simp
    have apart := (List.nodup_append.mp distinct).2.2
    obtain ⟨front, back, whole, inFront, inBack⟩ := List.sublist_append_iff.mp swapped
    cases front with
    | nil =>
        rw [List.nil_append] at whole
        rw [← whole] at inBack
        exact absurd inBack.length_le (by simp)
    | cons head front =>
        rw [List.cons_append, List.cons.injEq] at whole
        obtain ⟨same, _⟩ := whole
        subst same
        exact apart last (inFront.subset List.mem_cons_self) last (by simp) rfl

/-- The probe of one address answers at once and no other probe answers. -/
def onlyAnswer (answering : Option IpAddr) (ip : IpAddr) : Option Nat :=
  if some ip = answering then some 0 else none

theorem latencyKey_onlyAnswer_lt_iff {second other : Record Name}
    (valued : hasValue (familyIp isA) second = true) :
    latencyKey (onlyAnswer (familyIp isA second)) isA other < ⊤ ↔
      familyIp isA other = familyIp isA second := by
  obtain ⟨ip, secondIp⟩ := Option.isSome_iff_exists.mp valued
  unfold latencyKey onlyAnswer
  rw [secondIp]
  cases otherIp : familyIp isA other with
  | none => simp
  | some otherIp' =>
      by_cases same : otherIp' = ip
      · simp [same]
      · simp [same]

/-- A pass that keeps the order by any chance has nothing to exchange before the cut. -/
theorem keepsOrder_of_sublist {records : List (Record Name)} {room : Nat} {pass : Nat}
    (family : ∀ record ∈ records, hasValue (familyIp isA) record = true)
    (distinct : records.Nodup) (fits : room ≤ records.length)
    (keeps : ∀ chance : Chance,
      ((self.arrange chance pass isA records).take room).Sublist records) :
    self.KeepsOrder isA records room := by
  unfold KeepsOrder
  have several : ∀ first second, [first, second].Sublist records → ¬ records.length < 2 :=
    fun first second pair few => absurd pair.length_le (by simpa using few)
  split
  · next mixed =>
      intro first second pair exchanged
      have kept := keeps ⟨fun _ => 0, fun _ _ => none⟩
      rw [arrange, if_neg (several first second pair), if_pos mixed] at kept
      exact StableCut.cutOff_of_take_sortBy_sublist distinct kept pair exchanged
  · next uniform =>
      cases mode : self.mode with
      | None => trivial
      | RoundRobin =>
          by_cases few : records.length < 2
          · exact fits.trans (Nat.le_of_lt_succ few)
          · refine room_le_one_of_rotations distinct fits fun start inside => ?_
            have kept := keeps ⟨fun _ => start, fun _ _ => none⟩
            rw [arrange, if_neg few, if_neg uniform, mode] at kept
            dsimp only at kept
            rwa [Nat.mod_eq_of_lt inside] at kept
      | Speed =>
          intro first second pair different
          have inFamily := family second (pair.subset (by simp))
          have kept := keeps ⟨fun _ => 0, fun _ => onlyAnswer (familyIp isA second)⟩
          rw [arrange, if_neg (several first second pair), if_neg uniform, mode] at kept
          have firstKey : latencyKey (onlyAnswer (familyIp isA second)) isA first = ⊤ := by
            by_contra finite
            exact different ((latencyKey_onlyAnswer_lt_iff inFamily).mp (lt_top_iff_ne_top.mpr finite))
          have exchanged : latencyKey (onlyAnswer (familyIp isA second)) isA second <
              latencyKey (onlyAnswer (familyIp isA second)) isA first := by
            rw [firstKey]
            exact (latencyKey_onlyAnswer_lt_iff inFamily).mpr rfl
          refine (StableCut.cutOff_of_take_sortBy_sublist distinct kept pair exchanged).trans ?_
          apply List.countP_mono_left
          intro other _ below
          have below := of_decide_eq_true below
          rw [firstKey] at below
          exact decide_eq_true ((latencyKey_onlyAnswer_lt_iff inFamily).mp below)

/-! ### Both passes -/

/-- The passes do no harm: what they do to a family the query does not select would keep
its order, and a family they both leave out is in order already. -/
structure PassesHarmless (balance : Balance) (families : Families)
    (answers : List (Record Name)) : Prop where
  unselected : ∀ isA, families.selects isA = false →
    balance.KeepsOrder isA (recordsOf isA answers) (balance.room isA answers)
  leftOut : families = { a := true, aaaa := true } →
    balance.Mixed false (recordsOf false answers) →
    balance.AlreadyOrdered false (recordsOf false answers) (balance.room false answers)

theorem families_cases {qtype : RecordType} {selected : Families}
    (selects : families qtype = some selected) :
    selected = { a := true, aaaa := false } ∨ selected = { a := false, aaaa := true } ∨
      selected = { a := true, aaaa := true } := by
  unfold families at selects
  split at selects
  · exact .inl (Option.some.inj selects).symm
  · exact .inr (.inl (Option.some.inj selects).symm)
  · exact .inr (.inr (Option.some.inj selects).symm)
  · cases selects

theorem isEmpty_of_families {qtype : RecordType} {selected : Families}
    (selects : families qtype = some selected) : selected.isEmpty = false := by
  rcases families_cases selects with rfl | rfl | rfl <;> rfl

theorem recordsOf_handle {ctx : QueryContext Name} {selected : Families}
    (enabled : self.enabled = true) (balanced : ctx.skipBalance = false)
    (selects : families ctx.qtype = some selected) (chance : Chance) (isA : Bool) :
    recordsOf isA (answersOf (self.handle chance ctx).2) =
      (self.passes chance isA selected (recordsOf isA (answersOf ctx))).take
        (self.room isA (answersOf ctx)) := by
  have nonempty := isEmpty_of_families selects
  unfold handle answersOf
  rw [enabled, balanced, selects]
  cases ctx.response with
  | some response =>
      exact self.recordsOf_balanceAnswers chance response.answers isA selected nonempty
  | none => simp [recordsOf, passes, arrange]

theorem arrange_of_mixed {records : List (Record Name)} (mixed : self.Mixed isA records)
    (chance : Chance) (pass : Nat) :
    self.arrange chance pass isA records = StableCut.sortBy (self.place isA) records := by
  have several : ¬ records.length < 2 := by
    intro few
    obtain ⟨first, firstMember, second, secondMember, different⟩ := mixed
    match records, few with
    | [only], _ =>
        rw [List.mem_singleton] at firstMember secondMember
        rw [firstMember, secondMember] at different
        exact different rfl
  rw [arrange, if_neg several, if_pos mixed]

theorem Mixed.of_perm {records others : List (Record Name)} (mixed : self.Mixed isA records)
    (permuted : others.Perm records) : self.Mixed isA others := by
  obtain ⟨first, firstMember, second, secondMember, different⟩ := mixed
  exact ⟨first, permuted.mem_iff.mpr firstMember, second, permuted.mem_iff.mpr secondMember,
    different⟩

theorem passes_of_mixed {records : List (Record Name)} {selected : Families}
    (mixed : self.Mixed isA records) (chance : Chance)
    (reached : selected.a = isA ∨ selected.aaaa = isA) :
    self.passes chance isA selected records = StableCut.sortBy (self.place isA) records := by
  have sortedMixed := mixed.of_perm (StableCut.sortBy_perm (self.place isA) records)
  have twice : self.arrange chance 1 isA (StableCut.sortBy (self.place isA) records) =
      StableCut.sortBy (self.place isA) records := by
    rw [arrange_of_mixed sortedMixed]
    exact StableCut.sortBy_eq_self (StableCut.sortBy_sorted _ _)
  unfold passes
  dsimp only
  rw [arrange_of_mixed mixed]
  by_cases second : selected.aaaa = isA
  · rw [if_pos second]
    split
    · exact twice
    · exact arrange_of_mixed mixed chance 1
  · rw [if_neg second, if_pos (reached.resolve_right second)]

theorem passes_of_unselected {records : List (Record Name)} {qtype : RecordType}
    {selected : Families} (selects : families qtype = some selected) (chance : Chance)
    (unselected : selected.selects isA = false) :
    self.passes chance isA selected records = self.arrange chance 1 isA records := by
  rcases families_cases selects with rfl | rfl | rfl
  · cases isA with
    | true => cases unselected
    | false => rfl
  · cases isA with
    | true => rfl
    | false => cases unselected
  · cases isA with
    | true => cases unselected
    | false => cases unselected

theorem passes_of_leftOut (records : List (Record Name)) (chance : Chance) :
    self.passes chance false { a := true, aaaa := true } records = records := rfl

theorem reached_of_selects {qtype : RecordType} {selected : Families}
    (selects : families qtype = some selected) (isSelected : selected.selects isA = true) :
    (selected.a = isA ∨ selected.aaaa = isA) ∨
      (selected = { a := true, aaaa := true } ∧ isA = false) := by
  rcases families_cases selects with rfl | rfl | rfl
  · cases isA with
    | true => exact .inl (.inl rfl)
    | false => cases isSelected
  · cases isA with
    | true => cases isSelected
    | false => exact .inl (.inl rfl)
  · cases isA with
    | true => exact .inl (.inl rfl)
    | false => exact .inr ⟨rfl, rfl⟩

/-- The stage orders the families the query selects, and no other, if its passes do no
harm, and only then, as far as the answers can be told apart. -/
theorem orders_selected_iff {ctx : QueryContext Name} {selected : Families}
    (enabled : self.enabled = true) (balanced : ctx.skipBalance = false)
    (selects : families ctx.qtype = some selected) :
    (self.PassesHarmless selected (answersOf ctx) → self.OrdersSelected selected ctx) ∧
      ((answersOf ctx).Nodup → self.OrdersSelected selected ctx →
        self.PassesHarmless selected (answersOf ctx)) := by
  have after := self.recordsOf_handle enabled balanced selects
  constructor
  · intro harmless
    constructor
    · intro chance isA isSelected mixed
      rw [after]
      rcases reached_of_selects selects isSelected with reached | ⟨rfl, rfl⟩
      · rw [passes_of_mixed mixed chance reached]
        exact rankOrdered_take_sortBy _ _
      · rw [passes_of_leftOut, rankOrdered_take_iff]
        exact harmless.leftOut rfl mixed
    · intro chance isA unselected
      rw [after, passes_of_unselected selects chance unselected]
      exact arrange_take_sublist (harmless.unselected isA unselected) chance 1
  · intro distinct orders
    constructor
    · intro isA unselected
      apply keepsOrder_of_sublist
      · intro record member
        exact (List.mem_filter.mp member).2
      · exact distinct.filter _
      · exact self.room_le isA _
      · intro chance
        have kept := orders.untouched chance isA unselected
        rwa [after, passes_of_unselected selects chance unselected] at kept
    · intro both mixed
      subst both
      have kept := orders.ordered ⟨fun _ => 0, fun _ _ => none⟩ false rfl mixed
      rwa [after, passes_of_leftOut, rankOrdered_take_iff] at kept

def answered (qtype : RecordType) (data : List (RData LabelName)) : QueryContext LabelName :=
  { QueryContext.new (LabelName.ask ⟨["a".toList], true⟩ qtype) (List.cons_ne_nil _ _)
      { name := "a".toList, qtype := qtype } with
    response := some
      { LabelName.ask ⟨["a".toList], true⟩ qtype with
        answers := data.map (Record.fromRdata ⟨["a".toList], true⟩ 60) } }

def preferring : Balance where
  enabled := true
  cidrs := [.V4 0x0A000000#32 8, .V6 0x20010DB8000000000000000000000000#128 32]
  mode := .None
  maxAnswers := none

/-- Two addresses out of order and one of the other family. -/
theorem single_other_family_untouched :
    preferring.OrdersSelected { a := true, aaaa := false }
      (answered .A [.A 0xC0000201#32, .AAAA 1#128, .A 0x0A000001#32]) := by
  apply (orders_selected_iff rfl rfl rfl).1
  constructor
  · intro isA unselected
    cases isA with
    | true => cases unselected
    | false =>
        unfold KeepsOrder
        rw [if_neg (by decide)]
        trivial
  · intro both
    exact absurd both (by decide)

/-- A query for any type leaves the preferred address of the second family behind. -/
theorem any_query_skips_second_family :
    ¬ preferring.OrdersSelected { a := true, aaaa := true }
      (answered .ANY [.AAAA 1#128, .AAAA 0x20010DB8000000000000000000000001#128]) := by
  intro orders
  have ordered := orders.ordered ⟨fun _ => 0, fun _ _ => none⟩ false rfl (by decide)
  have sorted := ordered.sorted
  revert sorted
  decide

end Balance

end Rsdns.Plugins
