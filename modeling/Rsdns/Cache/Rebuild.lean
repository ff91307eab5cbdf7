import Rsdns.Plugins.Cache

/-!
# What is stored and what is rebuilt

One lemma for each step of an answer's way through the cache: what is stored for
a response, what a later lookup finds, and which response is built from it.
-/

namespace Rsdns.Plugins

open Dns

variable {Name : Type}

/-! ### Storing and finding -/

/-- Until it expires, a lookup finds the entry that was put last. -/
theorem DnsCache.entry_of_put {cache cache' : DnsCache Name} {stored now : Nat}
    {key : CacheKey} {records : List (CacheRecord Name)} {ttl : UInt32}
    {entry : CacheEntry Name}
    (put : cache.put stored key records ttl = some cache')
    (found : cache'.getCached now key = .fresh entry) :
    entry = { records := records, createdAt := stored, ttl := ttl } ∧
      ∃ lifetime, cache.expiry.durationFor entry = some lifetime ∧ now < stored + lifetime := by
  simp only [DnsCache.put, Option.map_eq_some_iff] at put
  obtain ⟨lifetime, defined, rfl⟩ := put
  obtain ⟨deadline, slot, live⟩ := DnsCache.getCached_eq_fresh_iff.mp found
  rw [ExpiringStore.insert_slot_self, Option.some.injEq, Slot.mk.injEq] at slot
  obtain ⟨rfl, rfl⟩ := slot
  exact ⟨rfl, lifetime, defined, live⟩

theorem DnsCache.getCached_put {cache : DnsCache Name} {stored now lifetime : Nat}
    {key : CacheKey} {records : List (CacheRecord Name)} {ttl : UInt32}
    (defined : cache.expiry.durationFor
      ({ records := records, createdAt := stored, ttl := ttl } : CacheEntry Name) = some lifetime)
    (live : now < stored + lifetime) :
    ∃ cache', cache.put stored key records ttl = some cache' ∧
      cache'.getCached now key =
        .fresh { records := records, createdAt := stored, ttl := ttl } := by
  refine ⟨_, by rw [DnsCache.put, defined, Option.map_some], ?_⟩
  rw [DnsCache.getCached_eq_fresh_iff]
  exact ⟨stored + lifetime, ExpiringStore.insert_slot_self .., live⟩

theorem DnsCache.expiry_of_put {cache cache' : DnsCache Name} {now : Nat} {key : CacheKey}
    {records : List (CacheRecord Name)} {ttl : UInt32}
    (put : cache.put now key records ttl = some cache') : cache'.expiry = cache.expiry := by
  simp only [DnsCache.put, Option.map_eq_some_iff] at put
  obtain ⟨lifetime, defined, rfl⟩ := put
  rfl

variable [NameApi Name]

theorem cacheUpstreamResponse_eq_put {cache : DnsCache Name} {now : Nat} {key : CacheKey}
    {response : Message Name} {rewriteTtl : Option UInt32} {records : List (CacheRecord Name)}
    {ttl : UInt32} (storable : cacheable response rewriteTtl = some (records, ttl)) :
    cacheUpstreamResponse cache now key response rewriteTtl = cache.put now key records ttl := by
  rw [cacheUpstreamResponse, storable]

theorem extractCacheRecords_eq_none_iff {response : Message Name} :
    extractCacheRecords response = none ↔
      ∀ answer ∈ response.answers, cacheRecord answer.data = none := by
  rw [extractCacheRecords, ← List.filterMap_eq_nil_iff]
  split
  · next empty => simp [empty]
  · next nonempty => simpa using nonempty

theorem extractCacheRecords_eq_some {response : Message Name}
    {records : List (CacheRecord Name)} (extracted : extractCacheRecords response = some records) :
    records = response.answers.filterMap fun answer => cacheRecord answer.data := by
  unfold extractCacheRecords at extracted
  split at extracted
  · exact absurd extracted nofun
  · exact (Option.some.inj extracted).symm

/-- A stored response leaves the records of its answers, or a marker for its code. -/
theorem cacheable_cases {response : Message Name} {rewriteTtl : Option UInt32}
    {records : List (CacheRecord Name)} {ttl : UInt32}
    (storable : cacheable response rewriteTtl = some (records, ttl)) :
    ttl = rewriteTtl.getD (extractMinTtl response) ∧
      (extractCacheRecords response = some records ∨
        (extractCacheRecords response = none ∧
          ((response.metadata.responseCode = .NXDomain ∧ records = [.NxDomain]) ∨
            (response.metadata.responseCode = .NoError ∧ records = [.NoData])))) := by
  unfold cacheable at storable
  dsimp only at storable
  split at storable
  · next extracted =>
      cases storable
      exact ⟨rfl, .inl extracted⟩
  · next nothing =>
      split at storable
      · next code =>
          cases storable
          exact ⟨rfl, .inr ⟨nothing, .inl ⟨code, rfl⟩⟩⟩
      · next code =>
          cases storable
          exact ⟨rfl, .inr ⟨nothing, .inr ⟨code, rfl⟩⟩⟩
      · cases storable

theorem extractCacheRecords_ne_nil {response : Message Name}
    {records : List (CacheRecord Name)} (extracted : extractCacheRecords response = some records) :
    records ≠ [] := by
  unfold extractCacheRecords at extracted
  split at extracted
  · cases extracted
  · next nonempty =>
      cases extracted
      exact nonempty

/-! ### Negative markers -/

/-- The markers that stand for an answer without records. -/
def CacheRecord.IsNegative (record : CacheRecord Name) : Prop :=
  record = .NxDomain ∨ record = .NoData

theorem cacheRecord_not_isNegative {data : RData Name} {record : CacheRecord Name}
    (cached : cacheRecord data = some record) : ¬ record.IsNegative := by
  intro negative
  cases data with
  | other code bytes => exact absurd cached nofun
  | A ip | AAAA ip | CNAME target | HTTPS svcb | MX preference exchange | TXT txtData =>
      cases cached
      cases negative with
      | inl isNxDomain => exact absurd isNxDomain nofun
      | inr isNoData => exact absurd isNoData nofun

theorem rdata_eq_ok_none_iff {record : CacheRecord Name} :
    record.rdata = .ok none ↔ record.IsNegative := by
  cases record with
  | NxDomain => simp [CacheRecord.rdata, CacheRecord.IsNegative]
  | NoData => simp [CacheRecord.rdata, CacheRecord.IsNegative]
  | A ip => simp [CacheRecord.rdata, CacheRecord.IsNegative]
  | Aaaa ip => simp [CacheRecord.rdata, CacheRecord.IsNegative]
  | Txt strings => simp [CacheRecord.rdata, CacheRecord.IsNegative]
  | Https svcb => simp [CacheRecord.rdata, CacheRecord.IsNegative]
  | Cname target =>
      cases parsed : (parseName target : IoResult Name) <;>
        simp [CacheRecord.rdata, CacheRecord.IsNegative, parsed, Except.map]
  | Mx preference exchange =>
      cases parsed : (parseName exchange : IoResult Name) <;>
        simp [CacheRecord.rdata, CacheRecord.IsNegative, parsed, Except.map]

/-! ### Rebuilding -/

variable {owner : Name} {ttl : UInt32} {records : List (CacheRecord Name)}
  {answers : List (Record Name)}

theorem rebuildAnswers_cons_eq_ok_iff {record : CacheRecord Name} :
    rebuildAnswers owner ttl (record :: records) = .ok answers ↔
      ∃ data rest, record.rdata = .ok data ∧ rebuildAnswers owner ttl records = .ok rest ∧
        answers = (data.map (Record.fromRdata owner ttl)).toList ++ rest := by
  rw [rebuildAnswers]
  cases record.rdata with
  | error e =>
      constructor
      · exact nofun
      · rintro ⟨data, rest, failed, _⟩
        exact absurd failed nofun
  | ok data =>
      cases rebuildAnswers owner ttl records with
      | error e =>
          constructor
          · exact nofun
          · rintro ⟨data, rest, _, failed, _⟩
            exact absurd failed nofun
      | ok rest =>
          constructor
          · intro built
            cases built
            exact ⟨data, rest, rfl, rfl, rfl⟩
          · rintro ⟨_, _, sameData, sameRest, rfl⟩
            cases sameData
            cases sameRest
            rfl

theorem rebuildAnswers_eq_fromRdata
    (rebuilt : rebuildAnswers owner ttl records = .ok answers) :
    ∀ answer ∈ answers, answer = Record.fromRdata owner ttl answer.data := by
  induction records generalizing answers with
  | nil =>
      cases rebuilt
      exact fun answer member => absurd member List.not_mem_nil
  | cons record records inductionHypothesis =>
      obtain ⟨data, rest, _, restBuilt, rfl⟩ := rebuildAnswers_cons_eq_ok_iff.mp rebuilt
      intro answer member
      cases List.mem_append.mp member with
      | inl first =>
          obtain ⟨shown, _, rfl⟩ := Option.map_eq_some_iff.mp (Option.mem_toList.mp first)
          rfl
      | inr later => exact inductionHypothesis restBuilt answer later

theorem exists_rebuildAnswers_eq_ok_iff :
    (∃ answers, rebuildAnswers owner ttl records = .ok answers) ↔
      ∀ record ∈ records, ∃ data, record.rdata = .ok data := by
  induction records with
  | nil => simp [rebuildAnswers]
  | cons record records inductionHypothesis =>
      simp only [rebuildAnswers_cons_eq_ok_iff, List.forall_mem_cons, ← inductionHypothesis]
      constructor
      · rintro ⟨_, data, rest, first, later, rfl⟩
        exact ⟨⟨data, first⟩, rest, later⟩
      · rintro ⟨⟨data, first⟩, rest, later⟩
        exact ⟨_, data, rest, first, later, rfl⟩

theorem rebuildAnswers_eq_nil_iff (rebuilt : rebuildAnswers owner ttl records = .ok answers) :
    answers = [] ↔ ∀ record ∈ records, record.IsNegative := by
  induction records generalizing answers with
  | nil =>
      cases rebuilt
      simp
  | cons record records inductionHypothesis =>
      obtain ⟨data, rest, first, restBuilt, rfl⟩ := rebuildAnswers_cons_eq_ok_iff.mp rebuilt
      rw [List.append_eq_nil_iff, inductionHypothesis restBuilt, List.forall_mem_cons,
        ← rdata_eq_ok_none_iff, first]
      cases data with
      | none => simp
      | some shown => simp

theorem buildResponseFromCache_eq_ok_iff {msg rebuilt : Message Name}
    {entry : CacheEntry Name} {keepTtl : Bool} {now : Nat} :
    buildResponseFromCache msg entry keepTtl now = .ok rebuilt ↔
      ∃ query answers, msg.queries.head? = some query ∧
        rebuildAnswers query.name (entry.remainingTtl keepTtl now) entry.records = .ok answers ∧
        rebuilt =
          { makeResponseBase msg with
            answers := answers
            metadata := { (makeResponseBase msg).metadata with
              responseCode := cachedResponseCode entry.records .NoError } } := by
  unfold buildResponseFromCache
  cases msg.queries.head? with
  | none => simp
  | some query =>
      cases built : rebuildAnswers query.name (entry.remainingTtl keepTtl now) entry.records with
      | error e => simp [built, bind, Except.bind]
      | ok answers =>
          simp only [built, bind, Except.bind, pure, Except.pure, Except.ok.injEq,
            Option.some.injEq]
          constructor
          · rintro rfl
            exact ⟨query, answers, rfl, built, rfl⟩
          · rintro ⟨_, _, rfl, sameBuilt, rfl⟩
            cases built.symm.trans sameBuilt
            rfl

/-- What holds of the answers of a built response is what holds of the rebuilt answers. -/
theorem exists_built_answers_iff {msg : Message Name} {query : Query Name}
    (question : msg.queries.head? = some query) {entry : CacheEntry Name} {keepTtl : Bool}
    {now : Nat} {property : List (Record Name) → Prop} :
    (∃ rebuilt, buildResponseFromCache msg entry keepTtl now = .ok rebuilt ∧
        property rebuilt.answers) ↔
      ∃ answers, rebuildAnswers query.name (entry.remainingTtl keepTtl now) entry.records =
          .ok answers ∧
        property answers := by
  constructor
  · rintro ⟨rebuilt, built, holds⟩
    obtain ⟨_, answers, sameQuestion, answersBuilt, rfl⟩ :=
      buildResponseFromCache_eq_ok_iff.mp built
    cases question.symm.trans sameQuestion
    exact ⟨answers, answersBuilt, holds⟩
  · rintro ⟨answers, answersBuilt, holds⟩
    exact ⟨_, buildResponseFromCache_eq_ok_iff.mpr
      ⟨query, answers, question, answersBuilt, rfl⟩, holds⟩

theorem exists_buildResponseFromCache_eq_ok_iff {msg : Message Name} (asked : msg.queries ≠ [])
    {entry : CacheEntry Name} {keepTtl : Bool} {now : Nat} :
    (∃ rebuilt, buildResponseFromCache msg entry keepTtl now = .ok rebuilt) ↔
      ∀ record ∈ entry.records, ∃ data, record.rdata = .ok data := by
  have question := List.head?_eq_some_head asked
  have builtIff := @exists_built_answers_iff Name _ msg _ question entry keepTtl now fun _ => True
  simp only [and_true] at builtIff
  exact builtIff.trans exists_rebuildAnswers_eq_ok_iff

end Rsdns.Plugins
