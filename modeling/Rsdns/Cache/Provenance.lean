import Rsdns.Cache.Lifetime

/-!
# Where an entry comes from

A response served from the cache may be stored again.  What is stored then says
nothing that the entry did not say, and so goes back to the response that was
fetched.
-/

namespace Rsdns.Plugins

open Dns

variable {Name : Type}

/-- How long an entry with this TTL lives, if the bounds are in order. -/
def TtlExpiry.lifetime (self : TtlExpiry) (ttl : UInt32) : Nat :=
  if self.keepTtl then Duration.fromSecs ttl.toNat
  else max self.minTtl (min (Duration.fromSecs ttl.toNat) self.maxTtl)

theorem TtlExpiry.durationFor_eq_lifetime {self : TtlExpiry}
    (ordered : self.minTtl ≤ self.maxTtl) (entry : CacheEntry Name) :
    self.durationFor entry = some (self.lifetime entry.ttl) := by
  unfold durationFor lifetime
  split
  · rfl
  · exact if_pos ordered

/-! ### The same response in other words -/

/-- The response has the code of another and says nothing that the other does not; it
has answers if the other has. -/
structure Presents (final built : Message Name) : Prop where
  code : final.metadata.responseCode = built.metadata.responseCode
  answered : final.answers = [] ↔ built.answers = []
  told : ∀ answer ∈ final.answers, ∃ source ∈ built.answers,
    answer.data = source.data ∧ answer.ttl = source.ttl

theorem Presents.refl (built : Message Name) : Presents built built :=
  ⟨rfl, Iff.rfl, fun answer member => ⟨answer, member, rfl, rfl⟩⟩

theorem Presents.trans {first second third : Message Name} (front : Presents first second)
    (back : Presents second third) : Presents first third := by
  refine ⟨front.code.trans back.code, front.answered.trans back.answered, ?_⟩
  intro answer member
  obtain ⟨source, sourceMember, data, ttl⟩ := front.told answer member
  obtain ⟨origin, originMember, originData, originTtl⟩ := back.told source sourceMember
  exact ⟨origin, originMember, data.trans originData, ttl.trans originTtl⟩

theorem extractMinTtl_of_uniform {msg : Message Name} {ttl : UInt32}
    (nonempty : msg.answers ≠ []) (uniform : ∀ answer ∈ msg.answers, answer.ttl = ttl) :
    extractMinTtl msg = ttl := by
  have same : msg.answers.map Record.ttl = List.replicate msg.answers.length ttl := by
    apply List.eq_replicate_iff.mpr
    refine ⟨List.length_map .., fun other member => ?_⟩
    obtain ⟨answer, inAnswers, rfl⟩ := List.mem_map.mp member
    exact uniform answer inAnswers
  have positive : msg.answers.length ≠ 0 := mt List.length_eq_zero_iff.mp nonempty
  unfold extractMinTtl
  rw [same, List.min?_replicate, if_neg positive]
  rfl

theorem extractMinTtl_of_nil {msg : Message Name} (empty : msg.answers = []) :
    extractMinTtl msg = 300 := by
  unfold extractMinTtl
  rw [empty]
  rfl

variable [NameApi Name]

/-! ### Stored again -/

/-- What a cached record becomes when it is served and stored again. -/
inductive CacheRecord.ReadsAs : CacheRecord Name → CacheRecord Name → Prop where
  | shown {record stored : CacheRecord Name} {data : RData Name} :
      record.rdata = .ok (some data) → cacheRecord data = some stored → ReadsAs record stored
  | marker {record : CacheRecord Name} : record.IsNegative → ReadsAs record record

/-- The records go back to a response: they were stored for it, or for what was served
from such records. -/
inductive ComesFrom (response : Message Name) : List (CacheRecord Name) → Prop where
  | fetched {records ttl} :
      cacheable response none = some (records, ttl) → ComesFrom response records
  | reread {records stored : List (CacheRecord Name)} :
      ComesFrom response records → stored ≠ [] →
      (∀ record ∈ stored, ∃ source ∈ records, source.ReadsAs record) →
      ComesFrom response stored

theorem ne_nil_of_cacheable {response : Message Name} {rewriteTtl : Option UInt32}
    {records : List (CacheRecord Name)} {ttl : UInt32}
    (storable : cacheable response rewriteTtl = some (records, ttl)) : records ≠ [] := by
  obtain ⟨_, extracted | ⟨_, ⟨_, rfl⟩ | ⟨_, rfl⟩⟩⟩ := cacheable_cases storable
  · exact extractCacheRecords_ne_nil extracted
  · exact List.cons_ne_nil _ _
  · exact List.cons_ne_nil _ _

theorem ComesFrom.ne_nil {response : Message Name} {records : List (CacheRecord Name)}
    (lineage : ComesFrom response records) : records ≠ [] := by
  cases lineage with
  | fetched storable => exact ne_nil_of_cacheable storable
  | reread _ nonempty _ => exact nonempty

theorem mem_rebuildAnswers {owner : Name} {ttl : UInt32} {records : List (CacheRecord Name)}
    {answers : List (Record Name)} (rebuilt : rebuildAnswers owner ttl records = .ok answers)
    {answer : Record Name} (member : answer ∈ answers) :
    ∃ record ∈ records, record.rdata = .ok (some answer.data) := by
  induction records generalizing answers with
  | nil =>
      cases rebuilt
      cases member
  | cons record records inductionHypothesis =>
      obtain ⟨data, rest, shown, restBuilt, rfl⟩ := rebuildAnswers_cons_eq_ok_iff.mp rebuilt
      cases List.mem_append.mp member with
      | inl first =>
          obtain ⟨data', isData, rfl⟩ := Option.map_eq_some_iff.mp (Option.mem_toList.mp first)
          refine ⟨record, List.mem_cons_self, ?_⟩
          rw [shown, isData]
          rfl
      | inr later =>
          obtain ⟨source, inRecords, shown⟩ := inductionHypothesis restBuilt later
          exact ⟨source, List.mem_cons_of_mem _ inRecords, shown⟩

theorem exists_cacheRecord_of_rdata {record : CacheRecord Name} {data : RData Name}
    (shown : record.rdata = .ok (some data)) : ∃ stored, cacheRecord data = some stored := by
  cases record with
  | A ip | Aaaa ip | Txt strings | Https svcb =>
      cases shown
      exact ⟨_, rfl⟩
  | NxDomain | NoData => cases shown
  | Cname target =>
      obtain ⟨name, _, isData⟩ := ioResult_map_eq_ok_iff.mp shown
      cases isData
      exact ⟨_, rfl⟩
  | Mx preference exchange =>
      obtain ⟨name, _, isData⟩ := ioResult_map_eq_ok_iff.mp shown
      cases isData
      exact ⟨_, rfl⟩

variable {entry : CacheEntry Name} {keepTtl : Bool} {now : Nat}
  {msg built final response : Message Name}

/-- What a response that presents a served one can be stored as was served. -/
theorem readsAs_of_presents
    (served : buildResponseFromCache msg entry keepTtl now = .ok built)
    (presents : Presents final built) {answer : Record Name} (member : answer ∈ final.answers) :
    ∃ source ∈ entry.records, ∃ stored, cacheRecord answer.data = some stored ∧
      source.ReadsAs stored := by
  obtain ⟨query, answers, _, rebuilt, rfl⟩ := buildResponseFromCache_eq_ok_iff.mp served
  obtain ⟨origin, originMember, data, _⟩ := presents.told answer member
  obtain ⟨source, inRecords, shown⟩ := mem_rebuildAnswers rebuilt originMember
  obtain ⟨stored, cached⟩ := exists_cacheRecord_of_rdata shown
  rw [← data] at shown cached
  exact ⟨source, inRecords, stored, cached, .shown shown cached⟩

theorem extractMinTtl_of_presents
    (served : buildResponseFromCache msg entry keepTtl now = .ok built)
    (presents : Presents final built) : extractMinTtl final = extractMinTtl built := by
  obtain ⟨query, answers, _, rebuilt, rfl⟩ := buildResponseFromCache_eq_ok_iff.mp served
  have shared := rebuildAnswers_eq_fromRdata rebuilt
  have builtTtl : ∀ answer ∈ answers, answer.ttl = entry.remainingTtl keepTtl now := by
    intro answer member
    rw [shared answer member]
    rfl
  by_cases empty : answers = []
  · rw [extractMinTtl_of_nil (presents.answered.mpr empty)]
    exact (extractMinTtl_of_nil empty).symm
  · have finalNonempty : final.answers ≠ [] := mt presents.answered.mp empty
    refine Eq.trans ?_ (extractMinTtl_of_uniform empty builtTtl).symm
    apply extractMinTtl_of_uniform finalNonempty
    intro answer member
    obtain ⟨origin, originMember, _, ttl⟩ := presents.told answer member
    exact ttl.trans (builtTtl origin originMember)

theorem isNegative_of_presents
    (served : buildResponseFromCache msg entry keepTtl now = .ok built)
    (presents : Presents final built) (unstorable : extractCacheRecords final = none) :
    (∀ record ∈ entry.records, record.IsNegative) ∧
      final.metadata.responseCode = cachedResponseCode entry.records .NoError := by
  have empty : final.answers = [] := by
    apply List.eq_nil_iff_forall_not_mem.mpr
    intro answer member
    obtain ⟨_, _, stored, cached, _⟩ := readsAs_of_presents served presents member
    rw [extractCacheRecords_eq_none_iff.mp unstorable answer member] at cached
    cases cached
  obtain ⟨query, answers, _, rebuilt, rfl⟩ := buildResponseFromCache_eq_ok_iff.mp served
  exact ⟨(rebuildAnswers_eq_nil_iff rebuilt).mp (presents.answered.mp empty), presents.code⟩

theorem comesFrom_of_presents
    (served : buildResponseFromCache msg entry keepTtl now = .ok built)
    (presents : Presents final built) (lineage : ComesFrom response entry.records)
    {records : List (CacheRecord Name)} {ttl : UInt32}
    (storable : cacheable final none = some (records, ttl)) : ComesFrom response records := by
  apply ComesFrom.reread lineage (ne_nil_of_cacheable storable)
  intro record member
  obtain ⟨_, extracted | ⟨nothing, marked⟩⟩ := cacheable_cases storable
  · rw [extractCacheRecords_eq_some extracted] at member
    obtain ⟨answer, inAnswers, cached⟩ := List.mem_filterMap.mp member
    obtain ⟨source, inRecords, stored, sameCached, reads⟩ :=
      readsAs_of_presents served presents inAnswers
    cases cached.symm.trans sameCached
    exact ⟨source, inRecords, reads⟩
  · obtain ⟨markers, code⟩ := isNegative_of_presents served presents nothing
    obtain ⟨first, rest, whole⟩ := List.exists_cons_of_ne_nil lineage.ne_nil
    rw [whole] at markers code ⊢
    have marker := markers first List.mem_cons_self
    -- The first marker decides the code, and the code decides what is stored.
    have stored : record = first := by
      rcases marker with rfl | rfl
      · rcases marked with ⟨_, rfl⟩ | ⟨other, _⟩
        · exact List.mem_singleton.mp member
        · cases code.symm.trans other
      · rcases marked with ⟨other, _⟩ | ⟨_, rfl⟩
        · cases code.symm.trans other
        · exact List.mem_singleton.mp member
    rw [stored]
    exact ⟨first, List.mem_cons_self, .marker marker⟩

theorem cacheable_isSome_of_presents (presents : Presents final built)
    (storable : (cacheable final none).isSome = true) :
    (cacheable built none).isSome = true := by
  unfold cacheable at storable ⊢
  dsimp only at storable ⊢
  cases extracted : extractCacheRecords built with
  | some records => rfl
  | none =>
      have finalNothing : extractCacheRecords final = none := by
        rw [extractCacheRecords_eq_none_iff] at extracted ⊢
        intro answer member
        obtain ⟨origin, originMember, data, _⟩ := presents.told answer member
        rw [data]
        exact extracted origin originMember
      rw [finalNothing, presents.code] at storable
      dsimp only at storable ⊢
      split at storable
      · rfl
      · rfl
      · cases storable

theorem cacheable_of_presents_servfail (presents : Presents final (buildServfail msg)) :
    cacheable final none = none := by
  have empty : final.answers = [] := presents.answered.mpr rfl
  have code : final.metadata.responseCode = .ServFail := presents.code
  have nothing : extractCacheRecords final = none := by
    rw [extractCacheRecords_eq_none_iff, empty]
    exact fun answer member => absurd member List.not_mem_nil
  unfold cacheable
  rw [nothing, code]

end Rsdns.Plugins
