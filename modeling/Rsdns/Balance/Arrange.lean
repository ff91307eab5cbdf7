import Mathlib.Data.List.ReduceOption
import Mathlib.Data.List.Rotate
import Mathlib.Order.WithBot
import Rsdns.Library.Slots
import Rsdns.Library.StableCut
import Rsdns.Plugins.Balance

/-!
# What a pass does to its family

A pass works on slots and indices.  To the records of its family it is a stable
sort, a rotation or nothing, and to all other records it is nothing.
-/

namespace Rsdns.Plugins

open Dns Slots

variable {Name : Type}

def recordsOf (isA : Bool) (answers : List (Record Name)) : List (Record Name) :=
  answers.filter (hasValue (familyIp isA))

theorem hasValue_familyIp_not {isA : Bool} {record : Record Name}
    (inFamily : hasValue (familyIp isA) record = true) :
    hasValue (familyIp (!isA)) record = false := by
  unfold hasValue familyIp at *
  cases isA with
  | true => split at inFamily <;> simp_all
  | false => split at inFamily <;> simp_all

/-! ### Permuting a family -/

theorem filterMap_eq_of_map_eq {Item Found : Type} {items : List Item} {found : List Found}
    {get : Item → Option Found} (gets : items.map get = found.map some) :
    items.filterMap get = found := by
  have reduced := congrArg List.reduceOption gets
  simpa [List.reduceOption, List.filterMap_map] using reduced

theorem map_getElem?_range {Item : Type} (items : List Item) :
    (List.range items.length).map (fun k => items[k]?) = items.map some := by
  apply List.ext_getElem
  · simp
  · intro k left right
    simp

theorem permuteFamily_eq_refill (answers : List (Record Name)) (isA : Bool) {order : List Nat}
    {arranged : List (Record Name)}
    (gets : order.map (fun k => (recordsOf isA answers)[k]?) = arranged.map some)
    (permuted : arranged.Perm (recordsOf isA answers)) :
    permuteFamily answers (collectFamily answers isA) order =
      refill (hasValue (familyIp isA)) answers arranged := by
  have slots : collectFamily answers isA = valued (familyIp isA) 0 answers := rfl
  have looked : ∀ k : Nat, ((collectFamily answers isA)[k]?.bind fun target : Nat × IpAddr =>
      answers[target.1]?) =
      (recordsOf isA answers)[k]? := by
    intro k
    have whole := map_getElem?_valued (familyIp isA) [] answers
    have atK := congrArg (fun records => records[k]?) whole
    simp only [List.length_nil, List.nil_append, List.getElem?_map] at atK
    rw [slots, recordsOf]
    cases target : (valued (familyIp isA) 0 answers)[k]? with
    | none => simpa [target] using atK.symm
    | some target' =>
        rw [target, Option.map_some, eq_comm, Option.map_eq_some_iff] at atK
        obtain ⟨record, found, same⟩ := atK
        rw [Option.bind_some, ← same, found]
  unfold permuteFamily
  split
  · next unchanged =>
      have lengths : order.length = (recordsOf isA answers).length := by
        have mapped := congrArg List.length gets
        rw [List.length_map, List.length_map] at mapped
        exact mapped.trans permuted.length_eq
      rw [unchanged, lengths, map_getElem?_range] at gets
      have same := List.map_injective_iff.mpr (Option.some_injective _) gets
      rw [← same, recordsOf, refill_filter_self]
  · simp only [looked]
    rw [filterMap_eq_of_map_eq gets, slots]
    exact foldl_set_valued (familyIp isA) [] (Fits.of_perm permuted)

theorem map_getElem?_rotation (records : List (Record Name)) (start : Nat) :
    ((List.range records.length).map fun k => (k + start) % records.length).map
        (fun k => records[k]?) = (records.rotate start).map some := by
  apply List.ext_getElem
  · simp
  · intro k left right
    simp only [List.length_map, List.length_range] at left
    have inside : (k + start) % records.length < records.length :=
      Nat.mod_lt _ (Nat.zero_lt_of_lt left)
    simp [List.getElem_rotate, inside]

/-- The key of a record that may be missing. -/
def optionKey {Key : Type} (key : Record Name → Key) (record : Option (Record Name)) :
    WithBot Key :=
  record.map key

theorem map_getElem?_insertionSort {Key : Type} [LinearOrder Key] (key : Record Name → Key)
    (records : List (Record Name)) {le : Nat → Nat → Prop} [DecidableRel le]
    (agrees : ∀ a, (inA : a < records.length) → ∀ b, (inB : b < records.length) →
      (le a b ↔ key (records.get ⟨a, inA⟩) ≤ key (records.get ⟨b, inB⟩))) :
    ((List.range records.length).insertionSort le).map (fun k => records[k]?) =
      (StableCut.sortBy key records).map some := by
  have indices : ((List.range records.length).insertionSort le).map (fun k => records[k]?) =
      ((List.range records.length).map fun k => records[k]?).insertionSort
        fun left right => optionKey key left ≤ optionKey key right := by
    apply List.map_insertionSort
    intro a inA b inB
    rw [List.mem_range] at inA inB
    rw [agrees a inA b inB, List.getElem?_eq_getElem inA, List.getElem?_eq_getElem inB]
    exact WithBot.coe_le_coe.symm
  have wrapped : (StableCut.sortBy key records).map some =
      StableCut.sortBy (optionKey key) (records.map some) := by
    apply StableCut.map_sortBy
    intro a _ b _
    exact WithBot.coe_le_coe.symm
  rw [indices, map_getElem?_range, wrapped, StableCut.sortBy]

namespace Balance

/-! ### One pass -/

/-- Where the ranges put a record: behind those of all ranges if in none. -/
def place (self : Balance) (isA : Bool) (record : Record Name) : Nat :=
  ((familyIp isA record).bind self.rank).getD self.cidrs.length

def Mixed (self : Balance) (isA : Bool) (records : List (Record Name)) : Prop :=
  ∃ first ∈ records, ∃ second ∈ records, self.place isA first ≠ self.place isA second

instance (self : Balance) (isA : Bool) (records : List (Record Name)) :
    Decidable (self.Mixed isA records) :=
  inferInstanceAs (Decidable (∃ first ∈ records, ∃ second ∈ records, _))

/-- The latency of a record's address; a failed probe comes last. -/
def latencyKey (latency : IpAddr → Option Nat) (isA : Bool) (record : Record Name) :
    WithTop Nat :=
  match (familyIp isA record).bind latency with
  | some rtt => WithTop.some rtt
  | none => ⊤

def arrange (self : Balance) (chance : Chance) (pass : Nat) (isA : Bool)
    (records : List (Record Name)) : List (Record Name) :=
  if records.length < 2 then records
  else if self.Mixed isA records then StableCut.sortBy (self.place isA) records
  else
    match self.mode with
    | .None => records
    | .RoundRobin => records.rotate (chance.offset pass % records.length)
    | .Speed => StableCut.sortBy (latencyKey (chance.latency pass) isA) records

theorem arrange_perm (self : Balance) (chance : Chance) (pass : Nat) (isA : Bool)
    (records : List (Record Name)) :
    (self.arrange chance pass isA records).Perm records := by
  unfold arrange
  split
  · exact .refl _
  · split
    · exact StableCut.sortBy_perm _ _
    · split
      · exact .refl _
      · exact List.rotate_perm _ _
      · exact StableCut.sortBy_perm _ _

theorem latencyLe_iff (first second : Option Nat) :
    latencyLe first second = true ↔
      (match first with | some rtt => WithTop.some rtt | none => ⊤) ≤
        (match second with | some rtt => WithTop.some rtt | none => ⊤) := by
  cases first with
  | none => cases second <;> simp [latencyLe]
  | some firstRtt => cases second <;> simp [latencyLe]

theorem rank_lt {self : Balance} {ip : IpAddr} {index : Nat} (ranked : self.rank ip = some index) :
    index < self.cidrs.length :=
  (List.findIdx?_eq_some_iff_getElem.mp ranked).1

theorem getD_rank_inj {self : Balance} {first second : Option IpAddr} :
    (first.bind self.rank).getD self.cidrs.length =
        (second.bind self.rank).getD self.cidrs.length ↔
      first.bind self.rank = second.bind self.rank := by
  constructor
  · intro same
    cases firstRank : first.bind self.rank with
    | none =>
        cases secondRank : second.bind self.rank with
        | none => rfl
        | some index =>
            obtain ⟨ip, _, ranked⟩ := Option.bind_eq_some_iff.mp secondRank
            have bound := rank_lt ranked
            rw [firstRank, secondRank] at same
            exact absurd same (Nat.ne_of_gt bound)
    | some index =>
        obtain ⟨ip, _, ranked⟩ := Option.bind_eq_some_iff.mp firstRank
        have bound := rank_lt ranked
        cases secondRank : second.bind self.rank with
        | none =>
            rw [firstRank, secondRank] at same
            exact absurd same (Nat.ne_of_lt bound)
        | some other =>
            rw [firstRank, secondRank] at same
            exact congrArg some same
  · intro same
    rw [same]

/-- What a pass finds out about the addresses of its slots it finds out about its
records. -/
theorem map_collectFamily {Found : Type} (find : IpAddr → Option Found)
    (answers : List (Record Name)) (isA : Bool) :
    (collectFamily answers isA).map (fun target => find target.2) =
      (recordsOf isA answers).map fun record => (familyIp isA record).bind find := by
  have addresses := map_snd_valued (familyIp isA) 0 answers
  have whole : (collectFamily answers isA).map (fun target => find target.2) =
      (answers.filterMap (familyIp isA)).map find := by
    rw [← addresses, List.map_map]
    rfl
  rw [whole, recordsOf, map_filterMap_eq]

theorem collectFamily_getElem?_bind {Found : Type} (find : IpAddr → Option Found)
    (answers : List (Record Name)) (isA : Bool) (k : Nat) :
    ((collectFamily answers isA)[k]?.bind fun target => find target.2) =
      (recordsOf isA answers)[k]?.bind fun record => (familyIp isA record).bind find := by
  have atK := congrArg (fun found => (found[k]?).join) (map_collectFamily find answers isA)
  simp only [List.getElem?_map, ← Option.bind_id_eq_join, Option.bind_map] at atK
  exact atK

theorem all_rank_iff (self : Balance) (isA : Bool) (records : List (Record Name)) :
    ((records.map fun record => (familyIp isA record).bind self.rank).all fun rank =>
        rank == (records.map fun record => (familyIp isA record).bind self.rank).head?.join) =
        true ↔
      ¬ self.Mixed isA records := by
  cases records with
  | nil => simp [Mixed]
  | cons first records =>
      have head : ((first :: records).map fun record =>
          (familyIp isA record).bind self.rank).head?.join =
            (familyIp isA first).bind self.rank := rfl
      rw [head]
      simp only [List.all_eq_true, beq_iff_eq, Mixed, not_exists, not_and, not_not]
      constructor
      · intro uniform left leftMember right rightMember
        have leftRank := uniform _ (List.mem_map_of_mem leftMember)
        have rightRank := uniform _ (List.mem_map_of_mem rightMember)
        exact getD_rank_inj.mpr (leftRank.trans rightRank.symm)
      · intro alike rank member
        obtain ⟨record, inRecords, same⟩ := List.mem_map.mp member
        rw [← same]
        exact getD_rank_inj.mp (alike record inRecords first List.mem_cons_self)

theorem mixed_iff (self : Balance) (answers : List (Record Name)) (isA : Bool) :
    (self.cidrs ≠ [] ∧
      ¬ ((collectFamily answers isA).map fun target => self.rank target.2).all (fun rank =>
        rank == ((collectFamily answers isA).map fun target => self.rank target.2).head?.join) =
          true) ↔
      self.Mixed isA (recordsOf isA answers) := by
  rw [map_collectFamily, all_rank_iff, not_not, and_iff_right_iff_imp]
  rintro ⟨first, _, second, _, different⟩ noRanges
  have unranked : ∀ ip, self.rank ip = none := fun ip => by simp [rank, noRanges]
  apply different
  simp [place, unranked]

theorem balanceFamily_of_mixed {self : Balance} {answers : List (Record Name)} {isA : Bool}
    (chance : Chance) (pass : Nat) (several : ¬ (recordsOf isA answers).length < 2)
    (mixed : self.Mixed isA (recordsOf isA answers)) :
    self.balanceFamily chance pass answers isA =
      refill (hasValue (familyIp isA)) answers
        (StableCut.sortBy (self.place isA) (recordsOf isA answers)) := by
  have lengths : (collectFamily answers isA).length = (recordsOf isA answers).length :=
    length_valued (familyIp isA) 0 answers
  unfold balanceFamily
  dsimp only
  rw [lengths, if_neg several, if_pos ((self.mixed_iff answers isA).mpr mixed)]
  apply permuteFamily_eq_refill
  · apply map_getElem?_insertionSort
    intro a inA b inB
    rw [List.getElem?_map, List.getElem?_map]
    have placed : ∀ k, (within : k < (recordsOf isA answers).length) →
        ((((collectFamily answers isA)[k]?.map fun target => self.rank target.2).join).getD
          self.cidrs.length) = self.place isA ((recordsOf isA answers).get ⟨k, within⟩) := by
      intro k within
      rw [← Option.bind_id_eq_join, Option.bind_map]
      have found := collectFamily_getElem?_bind self.rank answers isA k
      rw [List.getElem?_eq_getElem within, Option.bind_some] at found
      exact congrArg (fun rank => rank.getD self.cidrs.length) found
    rw [placed a inA, placed b inB]
  · exact StableCut.sortBy_perm _ _

theorem balanceFamily_of_uniform {self : Balance} {answers : List (Record Name)} {isA : Bool}
    (chance : Chance) (pass : Nat) (several : ¬ (recordsOf isA answers).length < 2)
    (uniform : ¬ self.Mixed isA (recordsOf isA answers)) :
    self.balanceFamily chance pass answers isA =
      refill (hasValue (familyIp isA)) answers
        (self.arrange chance pass isA (recordsOf isA answers)) := by
  have lengths : (collectFamily answers isA).length = (recordsOf isA answers).length :=
    length_valued (familyIp isA) 0 answers
  unfold balanceFamily arrange
  dsimp only
  rw [lengths, if_neg several, if_neg (mt (self.mixed_iff answers isA).mp uniform),
    if_neg several, if_neg uniform]
  cases self.mode with
  | None => exact (refill_filter_self answers).symm
  | RoundRobin =>
      dsimp only [rotateFamily]
      rw [lengths]
      split
      · next still =>
          rw [still, List.rotate_zero]
          exact (refill_filter_self answers).symm
      · apply permuteFamily_eq_refill
        · exact map_getElem?_rotation _ _
        · exact List.rotate_perm _ _
  | Speed =>
      dsimp only [sortFamilyByLatency]
      rw [lengths, if_neg several]
      apply permuteFamily_eq_refill
      · apply map_getElem?_insertionSort
        intro a inA b inB
        rw [latencyLe_iff]
        have keyed : ∀ k, (within : k < (recordsOf isA answers).length) →
            (((collectFamily answers isA)[k]?.bind fun target =>
              chance.latency pass target.2)) =
            (familyIp isA ((recordsOf isA answers).get ⟨k, within⟩)).bind
              (chance.latency pass) := by
          intro k within
          have found := collectFamily_getElem?_bind (chance.latency pass) answers isA k
          rwa [List.getElem?_eq_getElem within, Option.bind_some] at found
        rw [keyed a inA, keyed b inB]
        rfl
      · exact StableCut.sortBy_perm _ _

theorem balanceFamily_eq_refill (self : Balance) (chance : Chance) (pass : Nat)
    (answers : List (Record Name)) (isA : Bool) :
    self.balanceFamily chance pass answers isA =
      refill (hasValue (familyIp isA)) answers
        (self.arrange chance pass isA (recordsOf isA answers)) := by
  by_cases few : (recordsOf isA answers).length < 2
  · have lengths : (collectFamily answers isA).length = (recordsOf isA answers).length :=
      length_valued (familyIp isA) 0 answers
    unfold balanceFamily arrange
    dsimp only
    rw [lengths, if_pos few, if_pos few]
    exact (refill_filter_self answers).symm
  · by_cases mixed : self.Mixed isA (recordsOf isA answers)
    · rw [balanceFamily_of_mixed chance pass few mixed, arrange, if_neg few, if_pos mixed]
    · exact balanceFamily_of_uniform chance pass few mixed

end Balance

end Rsdns.Plugins
