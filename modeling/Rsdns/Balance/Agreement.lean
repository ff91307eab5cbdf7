import Rsdns.Balance.Frame
import Rsdns.Upstream.Ranked

/-!
# One order for answers and for upstream addresses

The stage ranks the records of an answer, and the startup ranks bare addresses.  Both
sort by the first range that holds the address, although each puts the addresses in no
range at an end of its own.
-/

namespace Rsdns.Plugins

open Dns Slots StableCut Upstream

variable {Name : Type}

def familyIps (isA : Bool) (answers : List (Record Name)) : List IpAddr :=
  answers.filterMap (familyIp isA)

theorem familyIps_cons (isA : Bool) (record : Record Name) (answers : List (Record Name)) :
    familyIps isA (record :: answers) =
      (familyIp isA record).toList ++ familyIps isA answers := by
  unfold familyIps
  rw [List.filterMap_cons]
  cases familyIp isA record with
  | none => rfl
  | some ip => rfl

theorem familyIps_append (isA : Bool) (front back : List (Record Name)) :
    familyIps isA (front ++ back) = familyIps isA front ++ familyIps isA back :=
  List.filterMap_append

def ipOf (isA : Bool) (record : Record Name) : IpAddr := (familyIp isA record).getD (.v4 0#32)

theorem familyIps_eq_map (isA : Bool) (answers : List (Record Name)) :
    familyIps isA answers = (recordsOf isA answers).map (ipOf isA) := by
  induction answers with
  | nil => rfl
  | cons record answers inductionHypothesis =>
      unfold familyIps recordsOf at *
      cases found : familyIp isA record with
      | none =>
          rw [List.filterMap_cons_none found, List.filter_cons_of_neg (by simp [hasValue, found])]
          exact inductionHypothesis
      | some ip =>
          rw [List.filterMap_cons_some found, List.filter_cons_of_pos (by simp [hasValue, found]),
            List.map_cons, inductionHypothesis, ipOf, found, Option.getD_some]

namespace Balance

variable (self : Balance)

/-- The index of the first range that holds the address; an address in none comes last. -/
def firstRange (ip : IpAddr) : WithTop Nat :=
  match self.rank ip with
  | some index => WithTop.some index
  | none => ⊤

variable {self}

theorem getD_rank_le_iff {last : Nat} (bounded : self.cidrs.length ≤ last) (first second : IpAddr) :
    (self.rank first).getD last ≤ (self.rank second).getD last ↔
      self.firstRange first ≤ self.firstRange second := by
  unfold firstRange
  cases ranked : self.rank first with
  | none =>
      cases rankedSecond : self.rank second with
      | none => simp
      | some index =>
          have within := (rank_lt rankedSecond).trans_le bounded
          simp [Nat.not_le.mpr within]
  | some index =>
      have within := (rank_lt ranked).trans_le bounded
      cases self.rank second with
      | none => simp [Nat.le_of_lt within]
      | some _ => simp

theorem place_eq_getD {isA : Bool} {record : Record Name}
    (inFamily : hasValue (familyIp isA) record = true) :
    self.place isA record = (self.rank (ipOf isA record)).getD self.cidrs.length := by
  obtain ⟨ip, found⟩ := Option.isSome_iff_exists.mp inFamily
  rw [place, ipOf, found]
  rfl

theorem map_ipOf_sortBy_place {isA : Bool} (answers : List (Record Name)) :
    (sortBy (self.place isA) (recordsOf isA answers)).map (ipOf isA) =
      sortBy self.firstRange (familyIps isA answers) := by
  have ranked : ∀ record ∈ recordsOf isA answers,
      self.place isA record = (self.rank (ipOf isA record)).getD self.cidrs.length :=
    fun record member => place_eq_getD (List.mem_filter.mp member).2
  rw [familyIps_eq_map]
  apply map_sortBy
  intro first firstMember second secondMember
  rw [ranked first firstMember, ranked second secondMember]
  exact getD_rank_le_iff (Nat.le_refl _) _ _

theorem rankIps_eq_sortBy_firstRange (enabled : self.enabled = true)
    (bounded : self.cidrs.length < usizeBound) (ips : List IpAddr) :
    self.rankIps ips = sortBy self.firstRange ips := by
  rw [rankIps_eq_sortBy enabled]
  have agrees : (sortBy (rankPlace self) ips).map id = sortBy self.firstRange (ips.map id) := by
    apply map_sortBy
    intro first _ second _
    exact getD_rank_le_iff (Nat.le_sub_one_of_lt bounded) first second
  rwa [List.map_id, List.map_id] at agrees

/-- Without a mode a pass sorts by rank, mixed or not. -/
theorem arrange_eq_sortBy (unordered : self.mode = .None) (chance : Chance) (pass : Nat)
    (isA : Bool) (records : List (Record Name)) :
    self.arrange chance pass isA records = sortBy (self.place isA) records := by
  by_cases mixed : self.Mixed isA records
  · exact arrange_of_mixed mixed chance pass
  · have unchanged : sortBy (self.place isA) records = records := by
      apply sortBy_eq_self
      apply List.pairwise_of_forall_mem_list
      intro first firstMember second secondMember
      by_contra greater
      exact mixed ⟨first, firstMember, second, secondMember, fun same => greater same.le⟩
    rw [unchanged, arrange, if_neg mixed, unordered]
    exact ite_self _

theorem passes_eq_sortBy (unordered : self.mode = .None) (chance : Chance) {isA : Bool}
    {selected : Families} (one : families (if isA then .A else .AAAA) = some selected)
    (records : List (Record Name)) :
    self.passes chance isA selected records = sortBy (self.place isA) records := by
  cases isA with
  | true =>
      cases one
      exact arrange_eq_sortBy unordered chance 0 true records
  | false =>
      cases one
      exact arrange_eq_sortBy unordered chance 0 false records

theorem recordsOf_handle_of_uncapped (enabled : self.enabled = true)
    (uncapped : self.maxAnswers = none ∨ self.maxAnswers = some 0) {ctx : QueryContext Name}
    (notSkipped : ctx.skipBalance = false) {selected : Families}
    (selects : families ctx.qtype = some selected) (chance : Chance) {isA : Bool}
    (reached : selected.a = isA ∨ selected.aaaa = isA) :
    recordsOf isA (answersOf (self.handle chance ctx).2) =
      self.passes chance isA selected (recordsOf isA (answersOf ctx)) := by
  have whole : self.truncate (answersOf ctx) = answersOf ctx := by
    rw [truncate_eq_capped]
    rcases uncapped with unlimited | zero
    · rw [unlimited]
      rfl
    · rw [zero]
      rfl
  rw [recordsOf_handle enabled notSkipped selects, room, whole,
    List.countP_eq_length_filter]
  apply List.take_of_length_le
  rw [(self.passes_perm reached _ chance).length_eq]
  exact Nat.le_refl _

/-- Without a mode and a limit the addresses of the family asked for are those that
ranking them as bare addresses gives: sorted stably by their first range, those in no
range last. -/
theorem answers_agree_with_rankIps (self : Balance) (enabled : self.enabled = true)
    (unordered : self.mode = .None)
    (uncapped : self.maxAnswers = none ∨ self.maxAnswers = some 0)
    (bounded : self.cidrs.length < usizeBound) (chance : Chance) {ctx : QueryContext Name}
    (notSkipped : ctx.skipBalance = false) (isA : Bool)
    (asked : ctx.qtype = if isA then .A else .AAAA) :
    familyIps isA (answersOf (self.handle chance ctx).2) =
        self.rankIps (familyIps isA (answersOf ctx)) ∧
      IsStableSort self.firstRange (familyIps isA (answersOf ctx))
        (self.rankIps (familyIps isA (answersOf ctx))) := by
  rw [rankIps_eq_sortBy_firstRange enabled bounded]
  refine ⟨?_, sortBy_isStableSort _ _⟩
  obtain ⟨selected, one⟩ : ∃ selected, families (if isA then .A else .AAAA) = some selected := by
    cases isA with
    | true => exact ⟨_, rfl⟩
    | false => exact ⟨_, rfl⟩
  have reached : selected.a = isA ∨ selected.aaaa = isA := by
    cases isA with
    | true => cases one; exact .inl rfl
    | false => cases one; exact .inl rfl
  have selects : families ctx.qtype = some selected := by rw [asked, one]
  rw [familyIps_eq_map, recordsOf_handle_of_uncapped enabled uncapped notSkipped selects chance
    reached, passes_eq_sortBy unordered chance one, map_ipOf_sortBy_place]

/-- The preferred address moves to the front, past a record of the other family. -/
theorem preferred_address_first :
    familyIps true (answersOf (preferring.handle ⟨fun _ => 0, fun _ _ => none⟩
      (answered .A [.A 0xC0000201#32, .AAAA 1#128, .A 0x0A000001#32])).2) =
        [.v4 0x0A000001#32, .v4 0xC0000201#32] := by
  obtain ⟨same, _⟩ := answers_agree_with_rankIps preferring rfl rfl (.inl rfl) (by decide)
    ⟨fun _ => 0, fun _ _ => none⟩ (rfl : (answered .A [.A 0xC0000201#32, .AAAA 1#128,
      .A 0x0A000001#32]).skipBalance = false) true rfl
  rw [same]
  decide

/-- A response that is not to be balanced keeps its order. -/
theorem skipped_answers_keep_order :
    familyIps true (answersOf (preferring.handle ⟨fun _ => 0, fun _ _ => none⟩
      { answered .A [.A 0xC0000201#32, .A 0x0A000001#32] with skipBalance := true }).2) ≠
      preferring.rankIps (familyIps true
        (answersOf (answered .A [.A 0xC0000201#32, .A 0x0A000001#32]))) := by
  decide

end Balance

end Rsdns.Plugins
