import Rsdns.Cache.Rebuild
import Rsdns.Dns.LabelName

/-!
# From a response to the cache and back

What a hit serves is compared with the upstream response it was stored for: that
it has answers, which response code it has and which answers.
-/

namespace Rsdns.Plugins

open Dns

variable {Name : Type} [NameApi Name]

/-! ### Names in record data -/

def namesOf : RData Name → List Name
  | .CNAME target => [target]
  | .MX _ exchange => [exchange]
  | _ => []

def Reparses (name : Name) : Prop :=
  ∃ parsed : Name, parseName (NameApi.toAscii name) = .ok parsed

/-- The text of a name is parsed as the same name, up to letter case and the root. -/
def ReadsBack (name : Name) : Prop :=
  ∃ parsed : Name, parseName (NameApi.toAscii name) = .ok parsed ∧
    NameApi.eqIgnoreRoot parsed name = true

theorem exists_rdata_eq_ok_iff {data : RData Name} {record : CacheRecord Name}
    (cached : cacheRecord data = some record) :
    (∃ shown, record.rdata = .ok shown) ↔ ∀ name ∈ namesOf data, Reparses name := by
  cases data with
  | other code bytes => exact absurd cached nofun
  | A ip | AAAA ip | HTTPS svcb | TXT txtData =>
      cases cached
      simp [CacheRecord.rdata, namesOf]
  | CNAME target =>
      cases cached
      simp only [CacheRecord.rdata, namesOf, List.forall_mem_singleton, Reparses]
      cases (parseName (NameApi.toAscii target) : IoResult Name) <;> simp [Except.map]
  | MX preference exchange =>
      cases cached
      simp only [CacheRecord.rdata, namesOf, List.forall_mem_singleton, Reparses]
      cases (parseName (NameApi.toAscii exchange) : IoResult Name) <;> simp [Except.map]

theorem namesOf_eq_nil_of_cacheRecord_eq_none {data : RData Name}
    (notCached : cacheRecord data = none) : namesOf data = [] := by
  cases data with
  | other code bytes => rfl
  | A ip | AAAA ip | HTTPS svcb | TXT txtData | CNAME target | MX preference exchange =>
      exact absurd notCached nofun

/-! ### A hit -/

theorem Cache.entry_of_lookup {cache : Cache Name} {now : Nat} {ctx : QueryContext Name}
    (hit : (cache.lookup now ctx).1 = .respond) :
    ∃ entry, cache.cache.getCached now ctx.key = .fresh entry ∧
      (cache.lookup now ctx).2.response = some (cache.respond now ctx.msg entry) := by
  have looked := cache.outcome_lookup now ctx
  generalize cache.lookup now ctx = outcome at looked hit ⊢
  cases looked with
  | skips _ => cases hit
  | misses _ _ => cases hit
  | hits _ entry found => exact ⟨entry, found, rfl⟩

theorem Cache.lookup_of_fresh {cache : Cache Name} {now : Nat} {ctx : QueryContext Name}
    {entry : CacheEntry Name} (asks : ctx.skipCache = false)
    (found : cache.cache.getCached now ctx.key = .fresh entry) :
    (cache.lookup now ctx).1 = .respond ∧
      (cache.lookup now ctx).2.response = some (cache.respond now ctx.msg entry) := by
  simp [Cache.lookup, asks, found]

theorem Cache.respond_answers_ne_nil_iff {cache : Cache Name} {now : Nat} {msg : Message Name}
    {entry : CacheEntry Name} (asked : msg.queries ≠ []) :
    (cache.respond now msg entry).answers ≠ [] ↔
      (∀ record ∈ entry.records, ∃ shown, record.rdata = .ok shown) ∧
        ∃ record ∈ entry.records, ¬ record.IsNegative := by
  have buildable := @exists_buildResponseFromCache_eq_ok_iff Name _ msg asked entry
    cache.cache.keepTtl now
  unfold Cache.respond
  cases built : buildResponseFromCache msg entry cache.cache.keepTtl now with
  | ok rebuilt =>
      obtain ⟨_, answers, _, answersBuilt, rfl⟩ := buildResponseFromCache_eq_ok_iff.mp built
      have rebuildable := buildable.mp ⟨_, built⟩
      simp only [ne_eq, rebuildAnswers_eq_nil_iff answersBuilt, not_forall, exists_prop]
      exact (and_iff_right rebuildable).symm
  | error e =>
      refine iff_of_false (by simp) ?_
      rintro ⟨rebuildable, _⟩
      obtain ⟨rebuilt, succeeded⟩ := buildable.mpr rebuildable
      exact absurd (built.symm.trans succeeded) nofun

theorem cacheable_of_noError {response : Message Name} {rewriteTtl : Option UInt32}
    (noError : response.metadata.responseCode = .NoError) :
    cacheable response rewriteTtl =
      some ((extractCacheRecords response).getD [.NoData],
        rewriteTtl.getD (extractMinTtl response)) := by
  rw [cacheable, noError]
  cases extractCacheRecords response <;> rfl

/-- A hit on what was stored for a NOERROR response has answers exactly if one of
the answers is of a cached type and every name among them is parsed again. -/
theorem hit_answers_ne_nil_iff {cache : Cache Name} {core : DnsCache Name}
    {response served : Message Name} {rewriteTtl : Option UInt32} {stored now : Nat}
    {ctx : QueryContext Name}
    (noError : response.metadata.responseCode = .NoError)
    (cached : cacheUpstreamResponse cache.cache stored ctx.key response rewriteTtl = some core)
    (hit : ({ cache with cache := core }.lookup now ctx).1 = .respond)
    (serves : ({ cache with cache := core }.lookup now ctx).2.response = some served) :
    served.answers ≠ [] ↔
      (∃ answer ∈ response.answers, (cacheRecord answer.data).isSome) ∧
        ∀ answer ∈ response.answers, ∀ name ∈ namesOf answer.data, Reparses name := by
  rw [cacheUpstreamResponse_eq_put (cacheable_of_noError noError)] at cached
  obtain ⟨entry, found, responded⟩ := Cache.entry_of_lookup hit
  obtain ⟨rfl, _⟩ := DnsCache.entry_of_put cached found
  cases responded.symm.trans serves
  rw [Cache.respond_answers_ne_nil_iff ctx.asked]
  cases extracted : extractCacheRecords response with
  | none =>
      have nothing := extractCacheRecords_eq_none_iff.mp extracted
      refine iff_of_false ?_ ?_
      · rintro ⟨_, record, member, positive⟩
        exact positive (.inr (List.mem_singleton.mp member))
      · rintro ⟨⟨answer, member, isSome⟩, _⟩
        simp [nothing answer member] at isSome
  | some records =>
      cases extractCacheRecords_eq_some extracted
      obtain ⟨first, member, someFirst⟩ :
          ∃ answer ∈ response.answers, cacheRecord answer.data ≠ none := by
        by_contra none
        push Not at none
        exact absurd ((extractCacheRecords_eq_none_iff.mpr none).symm.trans extracted) nofun
      obtain ⟨kept, keptFirst⟩ := Option.ne_none_iff_exists'.mp someFirst
      have listed : kept ∈ response.answers.filterMap fun answer => cacheRecord answer.data :=
        List.mem_filterMap.mpr ⟨first, member, keptFirst⟩
      rw [and_iff_left ⟨kept, listed, cacheRecord_not_isNegative keptFirst⟩,
        and_iff_right ⟨first, member, Option.isSome_iff_ne_none.mpr someFirst⟩]
      constructor
      · intro rebuildable answer answerMember
        cases stands : cacheRecord answer.data with
        | none => simp [namesOf_eq_nil_of_cacheRecord_eq_none stands]
        | some record =>
            exact (exists_rdata_eq_ok_iff stands).mp
              (rebuildable record (List.mem_filterMap.mpr ⟨answer, answerMember, stands⟩))
      · intro reparse record recordMember
        obtain ⟨answer, answerMember, stands⟩ := List.mem_filterMap.mp recordMember
        exact (exists_rdata_eq_ok_iff stands).mpr (reparse answer answerMember)

/-- A PTR answer is stored as an empty one. -/
theorem pointer_answer_becomes_noData :
    ∃ (response served : Message LabelName) (cache : Cache LabelName)
        (core : DnsCache LabelName) (ctx : QueryContext LabelName),
      response.metadata.responseCode = .NoError ∧ response.answers ≠ [] ∧
      cacheUpstreamResponse cache.cache 0 ctx.key response none = some core ∧
      ({ cache with cache := core }.lookup 0 ctx).1 = .respond ∧
      ({ cache with cache := core }.lookup 0 ctx).2.response = some served ∧
      served.answers = [] := by
  let query := LabelName.ask ⟨["a".toList], true⟩ (.other 12)
  let response : Message LabelName :=
    { buildNodata query with
      answers := [.fromRdata ⟨["a".toList], true⟩ 300 (.other 12 [1, 98, 0])] }
  let cache : Cache LabelName := Cache.init ⟨none, none, none, none, none⟩
  let ctx : QueryContext LabelName :=
    .new query (List.cons_ne_nil _ _) { name := "a".toList, qtype := .other 12 }
  obtain ⟨core, cached, found⟩ := @DnsCache.getCached_put LabelName cache.cache 0 0
    (300 * Duration.second) ctx.key [.NoData] 300 (by decide) (by decide)
  obtain ⟨hit, serves⟩ := @Cache.lookup_of_fresh _ _ { cache with cache := core } 0 ctx _ rfl found
  exact ⟨response, _, cache, core, ctx, rfl, List.cons_ne_nil _ _, cached, hit, serves, rfl⟩

/-- An alias is served again. -/
theorem hit_answers_ne_nil_of_cname :
    ∃ (served : Message LabelName) (cache : Cache LabelName) (ctx : QueryContext LabelName),
      (cache.lookup 0 ctx).2.response = some served ∧ served.answers ≠ [] := by
  let target : LabelName := ⟨["b".toList], true⟩
  let cname : Record LabelName := .fromRdata ⟨["a".toList], true⟩ 300 (.CNAME target)
  let query := LabelName.ask ⟨["a".toList], true⟩ .A
  let response : Message LabelName := { buildNodata query with answers := [cname] }
  let cache : Cache LabelName := Cache.init ⟨none, none, none, none, none⟩
  let ctx : QueryContext LabelName :=
    .new query (List.cons_ne_nil _ _) { name := "a".toList, qtype := .A }
  obtain ⟨core, put, found⟩ := @DnsCache.getCached_put LabelName cache.cache 0 0
    (300 * Duration.second) ctx.key [.Cname "b.".toList] 300 (by decide) (by decide)
  have cached : cacheUpstreamResponse cache.cache 0 ctx.key response none = some core := put
  obtain ⟨hit, serves⟩ := @Cache.lookup_of_fresh _ _ { cache with cache := core } 0 ctx _ rfl found
  have oneCached : ∃ answer ∈ response.answers, (cacheRecord answer.data).isSome :=
    ⟨cname, List.mem_cons_self, rfl⟩
  have reparse : ∀ answer ∈ response.answers, ∀ name ∈ namesOf answer.data, Reparses name := by
    intro answer answerMember name nameMember
    cases List.mem_singleton.mp answerMember
    cases List.mem_singleton.mp nameMember
    exact ⟨target, by decide⟩
  exact ⟨_, { cache with cache := core }, ctx, serves,
    (hit_answers_ne_nil_iff rfl cached hit serves).mpr ⟨oneCached, reparse⟩⟩

/-! ### The response code -/

/-- Extracted records leave the code as it is: they begin with no marker. -/
theorem cachedResponseCode_of_extracted {response : Message Name}
    {records : List (CacheRecord Name)} {code : ResponseCode}
    (extracted : extractCacheRecords response = some records) :
    cachedResponseCode records code = code := by
  cases extractCacheRecords_eq_some extracted
  unfold cachedResponseCode
  split
  · next first =>
      obtain ⟨answer, _, stands⟩ := List.mem_filterMap.mp (List.mem_of_mem_head? first)
      exact absurd (.inl rfl) (cacheRecord_not_isNegative stands)
  · next first =>
      obtain ⟨answer, _, stands⟩ := List.mem_filterMap.mp (List.mem_of_mem_head? first)
      exact absurd (.inr rfl) (cacheRecord_not_isNegative stands)
  · rfl

/-- A rebuilt response has the code of the one stored exactly if that had no cached
answer or its code was NOERROR. -/
theorem rebuilt_responseCode_eq_iff {cache cache' : DnsCache Name}
    {msg response rebuilt : Message Name} {rewriteTtl : Option UInt32} {stored now : Nat}
    {key : CacheKey} {entry : CacheEntry Name} {keepTtl : Bool}
    (storable : (cacheable response rewriteTtl).isSome)
    (cached : cacheUpstreamResponse cache stored key response rewriteTtl = some cache')
    (found : cache'.getCached now key = .fresh entry)
    (built : buildResponseFromCache msg entry keepTtl now = .ok rebuilt) :
    rebuilt.metadata.responseCode = response.metadata.responseCode ↔
      (∀ answer ∈ response.answers, cacheRecord answer.data = none) ∨
        response.metadata.responseCode = .NoError := by
  obtain ⟨⟨records, ttl⟩, stands⟩ := Option.isSome_iff_exists.mp storable
  rw [cacheUpstreamResponse_eq_put stands] at cached
  obtain ⟨rfl, _⟩ := DnsCache.entry_of_put cached found
  obtain ⟨query, answers, _, _, rfl⟩ := buildResponseFromCache_eq_ok_iff.mp built
  rw [← extractCacheRecords_eq_none_iff]
  change cachedResponseCode records .NoError = _ ↔ _
  unfold cacheable at stands
  cases extracted : extractCacheRecords response with
  | some kept =>
      simp only [extracted, Option.some.injEq, Prod.mk.injEq] at stands
      obtain ⟨rfl, _⟩ := stands
      rw [cachedResponseCode_of_extracted extracted]
      simp [eq_comm]
  | none =>
      simp only [extracted] at stands
      simp only [true_or, iff_true]
      split at stands
      · next isNxDomain =>
          simp only [Option.some.injEq, Prod.mk.injEq] at stands
          rw [isNxDomain, ← stands.1]
          rfl
      · next isNoError =>
          simp only [Option.some.injEq, Prod.mk.injEq] at stands
          rw [isNoError, ← stands.1]
          rfl
      · exact absurd stands nofun

/-- An NXDOMAIN response that carries an alias is served with NOERROR. -/
theorem nxDomain_behind_cname_becomes_noError :
    ∃ (response rebuilt : Message LabelName) (cache cache' : DnsCache LabelName)
        (key : CacheKey) (entry : CacheEntry LabelName) (msg : Message LabelName),
      cacheUpstreamResponse cache 0 key response none = some cache' ∧
      cache'.getCached 0 key = .fresh entry ∧
      buildResponseFromCache msg entry cache'.keepTtl 0 = .ok rebuilt ∧
      response.metadata.responseCode = .NXDomain ∧
      rebuilt.metadata.responseCode = .NoError := by
  let query := LabelName.ask ⟨["a".toList], true⟩ .A
  let response : Message LabelName :=
    { buildNxdomain query with
      answers := [.fromRdata ⟨["a".toList], true⟩ 300 (.CNAME ⟨["b".toList], true⟩)] }
  let empty : DnsCache LabelName := (Cache.init ⟨none, none, none, none, none⟩).cache
  obtain ⟨cache', put, found⟩ := @DnsCache.getCached_put LabelName empty 0 0
    (300 * Duration.second) { name := "a".toList, qtype := .A } [.Cname "b.".toList] 300
    (by decide) (by decide)
  have asked : query.queries ≠ [] := List.cons_ne_nil _ _
  obtain ⟨rebuilt, built⟩ := (@exists_buildResponseFromCache_eq_ok_iff LabelName _ query asked
    { records := [.Cname "b.".toList], createdAt := 0, ttl := 300 } cache'.keepTtl 0).mpr
      (by
        intro record member
        cases List.mem_singleton.mp member
        exact ⟨some (.CNAME ⟨["b".toList], true⟩), by decide⟩)
  have cached : cacheUpstreamResponse empty 0 _ response none = some cache' := put
  refine ⟨response, rebuilt, _, cache', _, _, query, cached, found, built, rfl, ?_⟩
  obtain ⟨_, _, _, _, rfl⟩ := buildResponseFromCache_eq_ok_iff.mp built
  rfl

/-- An NXDOMAIN response without answers keeps its code. -/
theorem rebuilt_responseCode_eq_of_nxDomain :
    ∃ (cache : DnsCache LabelName) (rebuilt : Message LabelName) (entry : CacheEntry LabelName),
      cache.getCached 0 { name := "a".toList, qtype := .A } = .fresh entry ∧
      buildResponseFromCache (LabelName.ask ⟨["a".toList], true⟩ .A) entry false 0 =
        .ok rebuilt ∧
      rebuilt.metadata.responseCode = .NXDomain := by
  let query := LabelName.ask ⟨["a".toList], true⟩ .A
  let empty : DnsCache LabelName := (Cache.init ⟨none, none, none, none, none⟩).cache
  obtain ⟨cache, put, found⟩ := @DnsCache.getCached_put LabelName empty 0 0
    (300 * Duration.second) { name := "a".toList, qtype := .A } [.NxDomain] 300
    (by decide) (by decide)
  have cached : cacheUpstreamResponse empty 0 _ (buildNxdomain query) none = some cache := put
  obtain ⟨rebuilt, built⟩ : ∃ rebuilt, buildResponseFromCache query
      { records := [.NxDomain], createdAt := 0, ttl := 300 } false 0 = .ok rebuilt := ⟨_, rfl⟩
  have kept := (rebuilt_responseCode_eq_iff rfl cached found built).mpr (.inl nofun)
  exact ⟨cache, rebuilt, _, found, built, kept⟩

/-! ### The answers -/

/-- The same data, where names may differ in letter case and the root. -/
def SameData : RData Name → RData Name → Prop
  | .CNAME served, .CNAME original => NameApi.eqIgnoreRoot served original = true
  | .MX servedPreference served, .MX originalPreference original =>
      servedPreference = originalPreference ∧ NameApi.eqIgnoreRoot served original = true
  | served, original => served = original

structure SameRecord (served original : Record Name) : Prop where
  name : NameApi.eqIgnoreRoot served.name original.name = true
  dnsClass : served.dnsClass = original.dnsClass
  data : SameData served.data original.data

def ValidStrings : RData Name → Prop
  | .TXT strings => ∀ string ∈ strings, Utf8.Valid string
  | _ => True

theorem exists_sameData_iff {data : RData Name} {record : CacheRecord Name}
    (cached : cacheRecord data = some record) (readsBack : ∀ name ∈ namesOf data, ReadsBack name) :
    ∃ served, record.rdata = .ok (some served) ∧ (SameData served data ↔ ValidStrings data) := by
  cases data with
  | other code bytes => exact absurd cached nofun
  | A ip | AAAA ip | HTTPS svcb =>
      cases cached
      exact ⟨_, rfl, iff_of_true rfl trivial⟩
  | CNAME target =>
      cases cached
      obtain ⟨parsed, parses, same⟩ := readsBack target (List.mem_singleton_self target)
      exact ⟨.CNAME parsed, by simp [CacheRecord.rdata, parses, Except.map],
        iff_of_true same trivial⟩
  | MX preference exchange =>
      cases cached
      obtain ⟨parsed, parses, same⟩ := readsBack exchange (List.mem_singleton_self exchange)
      exact ⟨.MX preference parsed, by simp [CacheRecord.rdata, parses, Except.map],
        iff_of_true ⟨rfl, same⟩ trivial⟩
  | TXT strings =>
      cases cached
      refine ⟨_, rfl, ?_⟩
      simp only [SameData, RData.TXT.injEq]
      exact Utf8.map_encode_decodeLossy_eq_iff strings

/-- What a record must be for its way through the cache: owned by the queried name,
of class `IN` and made of text. -/
def KeepsRecord (owner : Name) (answer : Record Name) : Prop :=
  NameApi.eqIgnoreRoot owner answer.name = true ∧ answer.dnsClass = .IN ∧
    ValidStrings answer.data

theorem sameRecord_fromRdata_iff {owner : Name} {ttl : UInt32} {served : RData Name}
    {answer : Record Name} (data : SameData served answer.data ↔ ValidStrings answer.data) :
    SameRecord (Record.fromRdata owner ttl served) answer ↔ KeepsRecord owner answer := by
  constructor
  · intro same
    exact ⟨same.name, same.dnsClass.symm, data.mp same.data⟩
  · intro keeps
    obtain ⟨name, dnsClass, valid⟩ := keeps
    exact ⟨name, dnsClass.symm, data.mpr valid⟩

/-- The induction over the answer section: no answer is skipped or repeated. -/
theorem exists_rebuildAnswers_same_iff {owner : Name} {ttl : UInt32}
    {answers : List (Record Name)}
    (covered : ∀ answer ∈ answers, (cacheRecord answer.data).isSome)
    (readsBack : ∀ answer ∈ answers, ∀ name ∈ namesOf answer.data, ReadsBack name) :
    (∃ rebuilt,
        rebuildAnswers owner ttl (answers.filterMap fun answer => cacheRecord answer.data) =
          .ok rebuilt ∧
        List.Forall₂ SameRecord rebuilt answers) ↔
      ∀ answer ∈ answers, KeepsRecord owner answer := by
  induction answers with
  | nil => simp [rebuildAnswers]
  | cons answer answers inductionHypothesis =>
      obtain ⟨record, cached⟩ := Option.isSome_iff_exists.mp
        (covered answer List.mem_cons_self)
      obtain ⟨served, shown, same⟩ := exists_sameData_iff cached
        (readsBack answer List.mem_cons_self)
      have later := inductionHypothesis
        (fun other member => covered other (List.mem_cons_of_mem _ member))
        (fun other member => readsBack other (List.mem_cons_of_mem _ member))
      have first := @sameRecord_fromRdata_iff _ _ owner ttl _ _ same
      rw [List.forall_mem_cons, ← later, ← first]
      simp only [List.filterMap_cons, cached, rebuildAnswers_cons_eq_ok_iff, shown]
      constructor
      · rintro ⟨_, ⟨data, rest, sameData, restBuilt, rfl⟩, pairs⟩
        cases sameData
        cases pairs with
        | cons first others => exact ⟨first, rest, restBuilt, others⟩
      · rintro ⟨first, rest, restBuilt, others⟩
        exact ⟨_, ⟨some served, rest, rfl, restBuilt, rfl⟩, .cons first others⟩

/-- The rebuilt answers are those of the response exactly if each of these is owned
by the queried name, of class `IN`, and made of text where it is a TXT record. -/
theorem rebuilt_answers_same_iff {cache cache' : DnsCache Name} {msg response : Message Name}
    {query : Query Name} {rewriteTtl : Option UInt32} {stored now : Nat} {key : CacheKey}
    {entry : CacheEntry Name} {keepTtl : Bool}
    (noError : response.metadata.responseCode = .NoError)
    (covered : ∀ answer ∈ response.answers, (cacheRecord answer.data).isSome)
    (readsBack : ∀ answer ∈ response.answers, ∀ name ∈ namesOf answer.data, ReadsBack name)
    (cached : cacheUpstreamResponse cache stored key response rewriteTtl = some cache')
    (found : cache'.getCached now key = .fresh entry)
    (question : msg.queries.head? = some query) :
    (∃ rebuilt, buildResponseFromCache msg entry keepTtl now = .ok rebuilt ∧
        List.Forall₂ SameRecord rebuilt.answers response.answers) ↔
      ∀ answer ∈ response.answers, KeepsRecord query.name answer := by
  rw [cacheUpstreamResponse_eq_put (cacheable_of_noError noError)] at cached
  obtain ⟨rfl, _⟩ := DnsCache.entry_of_put cached found
  refine (@exists_built_answers_iff _ _ _ _ question _ _ _
    fun answers => List.Forall₂ SameRecord answers response.answers).trans ?_
  cases extracted : extractCacheRecords response with
  | none =>
      have nothing := extractCacheRecords_eq_none_iff.mp extracted
      have empty : response.answers = [] := by
        apply List.eq_nil_iff_forall_not_mem.mpr
        intro answer member
        exact absurd (nothing answer member) (Option.isSome_iff_ne_none.mp (covered answer member))
      rw [empty]
      exact iff_of_true ⟨[], rfl, .nil⟩ (fun answer member => absurd member List.not_mem_nil)
  | some records =>
      cases extractCacheRecords_eq_some extracted
      exact exists_rebuildAnswers_same_iff covered readsBack

/-- The alias `a CNAME b` comes back with its address under `a`. -/
theorem chain_loses_its_owners :
    ∃ (response rebuilt : Message LabelName) (cache cache' : DnsCache LabelName)
        (key : CacheKey) (entry : CacheEntry LabelName),
      response.metadata.responseCode = .NoError ∧
      (∀ answer ∈ response.answers, (cacheRecord answer.data).isSome) ∧
      cacheUpstreamResponse cache 0 key response none = some cache' ∧
      cache'.getCached 0 key = .fresh entry ∧
      buildResponseFromCache (LabelName.ask ⟨["a".toList], true⟩ .A) entry cache'.keepTtl 0 =
        .ok rebuilt ∧
      ¬ List.Forall₂ SameRecord rebuilt.answers response.answers := by
  let query := LabelName.ask ⟨["a".toList], true⟩ .A
  let target : LabelName := ⟨["b".toList], true⟩
  let response : Message LabelName :=
    { buildNodata query with
      answers :=
        [.fromRdata ⟨["a".toList], true⟩ 300 (.CNAME target), .fromRdata target 300 (.A 1)] }
  let entry : CacheEntry LabelName :=
    { records := [.Cname "b.".toList, .A 1], createdAt := 0, ttl := 300 }
  let empty : DnsCache LabelName := (Cache.init ⟨none, none, none, none, none⟩).cache
  obtain ⟨cache', put, found⟩ := @DnsCache.getCached_put LabelName empty 0 0
    (300 * Duration.second) { name := "a".toList, qtype := .A } [.Cname "b.".toList, .A 1] 300
    (by decide) (by decide)
  have cached : cacheUpstreamResponse empty 0 _ response none = some cache' := put
  obtain ⟨rebuilt, built⟩ := (@exists_buildResponseFromCache_eq_ok_iff LabelName _ query
    (List.cons_ne_nil _ _) entry cache'.keepTtl 0).mpr (by
      intro record member
      cases List.mem_pair.mp member with
      | inl first =>
          cases first
          exact ⟨some (.CNAME target), by decide⟩
      | inr second =>
          cases second
          exact ⟨some (.A 1), rfl⟩)
  refine ⟨response, rebuilt, empty, cache', _, entry, rfl, by decide, cached, found, built, ?_⟩
  intro pairs
  obtain ⟨_, answers, question, answersBuilt, rfl⟩ := buildResponseFromCache_eq_ok_iff.mp built
  cases question
  have owners := rebuildAnswers_eq_fromRdata answersBuilt
  cases pairs with
  | cons first others =>
      cases others with
      | cons second rest =>
          have owner := owners _ (List.mem_cons_of_mem _ List.mem_cons_self)
          have sameName := second.name
          rw [owner] at sameName
          have different : NameApi.eqIgnoreRoot (⟨["a".toList], true⟩ : LabelName) target = false :=
            by decide
          exact absurd (different.symm.trans sameName) Bool.false_ne_true

/-- An alias of the queried name comes back as it was. -/
theorem rebuilt_answers_same_of_cname :
    ∃ (cache : DnsCache LabelName) (entry : CacheEntry LabelName) (rebuilt : Message LabelName),
      cache.getCached 0 { name := "a".toList, qtype := .A } = .fresh entry ∧
      buildResponseFromCache (LabelName.ask ⟨["a".toList], true⟩ .A) entry false 0 =
        .ok rebuilt ∧
      List.Forall₂ SameRecord rebuilt.answers
        [.fromRdata ⟨["A".toList], true⟩ 300 (.CNAME ⟨["B".toList], true⟩)] := by
  let query := LabelName.ask ⟨["a".toList], true⟩ .A
  let target : LabelName := ⟨["B".toList], true⟩
  let cname : Record LabelName := .fromRdata ⟨["A".toList], true⟩ 300 (.CNAME target)
  let response : Message LabelName := { buildNodata query with answers := [cname] }
  let empty : DnsCache LabelName := (Cache.init ⟨none, none, none, none, none⟩).cache
  obtain ⟨cache, put, found⟩ := @DnsCache.getCached_put LabelName empty 0 0
    (300 * Duration.second) { name := "a".toList, qtype := .A } [.Cname "B.".toList] 300
    (by decide) (by decide)
  have cached : cacheUpstreamResponse empty 0 _ response none = some cache := put
  have readsBack : ∀ answer ∈ response.answers, ∀ name ∈ namesOf answer.data,
      ReadsBack name := by
    intro answer answerMember name nameMember
    cases List.mem_singleton.mp answerMember
    cases List.mem_singleton.mp nameMember
    exact ⟨⟨["b".toList], true⟩, by decide, by decide⟩
  have keeps : ∀ answer ∈ response.answers, KeepsRecord ⟨["a".toList], true⟩ answer := by
    intro answer member
    cases List.mem_singleton.mp member
    exact ⟨by decide, rfl, trivial⟩
  obtain ⟨rebuilt, built, same⟩ := (@rebuilt_answers_same_iff LabelName _ empty cache query
    response _ none 0 0 _ _ false rfl (by decide) readsBack cached found rfl).mpr keeps
  exact ⟨cache, _, rebuilt, found, built, same⟩

end Rsdns.Plugins
