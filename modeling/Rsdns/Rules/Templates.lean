import Rsdns.Cache.Provenance
import Rsdns.Rules.RulesRun

/-!
# Where ECH templates come from

Whatever lies in the cache of templates, some query stored it, and a query stores only what
an upstream answered to it when it asked for the domain of its rule's template.
-/

namespace Rsdns.Plugins

open Common Dns

variable {Name : Type} [NameApi Name]

namespace RulesState

/-- Some query stored a response under the key from which the entry was made. -/
def Origin (state : RulesState Name) (key : CacheKey) (entry : CacheEntry Name) : Prop :=
  ∃ call ∈ state.calls, ∃ resp, call.Stored key resp ∧
    cacheable resp none = some (entry.records, entry.ttl)

/-- Nothing that was exchanged is forgotten. -/
def Remembers (state next : RulesState Name) : Prop :=
  ∀ call ∈ state.calls, ∃ after ∈ next.calls, call.transcript ⊆ after.transcript

theorem Origin.mono {state next : RulesState Name} {key : CacheKey} {entry : CacheEntry Name}
    (origin : state.Origin key entry) (remembers : state.Remembers next) :
    next.Origin key entry := by
  obtain ⟨call, member, resp, stored, made⟩ := origin
  obtain ⟨after, later, kept⟩ := remembers call member
  exact ⟨after, later, resp, kept stored, made⟩

omit [NameApi Name] in
theorem remembers_set {state : RulesState Name} {index : Nat} {call next : RuleCall Name}
    {exchange : RuleExchange Name} (found : state.calls[index]? = some call)
    (follows : call.Follows next exchange) (now : Nat) (cache : DnsCache Name) :
    state.Remembers { now := now, echCache := cache, calls := state.calls.set index next } := by
  obtain ⟨within, isCall⟩ := List.getElem?_eq_some_iff.mp found
  intro other member
  obtain ⟨place, inside, isOther⟩ := List.mem_iff_getElem.mp member
  by_cases same : place = index
  · subst same
    refine ⟨next, List.mem_set within next, ?_⟩
    rw [follows.transcript, ← isOther, isCall]
    exact List.subset_append_left _ _
  · refine ⟨other, ?_, List.Subset.refl _⟩
    rw [← isOther, ← List.getElem_set_of_ne (Ne.symm same) next (by simpa using inside)]
    exact List.getElem_mem _

/-- The bounds of the cache of templates. -/
def templateExpiry : TtlExpiry where
  minTtl := Duration.fromSecs 60
  maxTtl := Duration.fromSecs 3600
  keepTtl := false

theorem templateExpiry_ordered : templateExpiry.minTtl ≤ templateExpiry.maxTtl :=
  Nat.mul_le_mul_right Duration.second (by decide)

theorem lifetime_templateExpiry_le (ttl : UInt32) :
    templateExpiry.lifetime ttl ≤ Duration.fromSecs 3600 := by
  unfold TtlExpiry.lifetime
  rw [if_neg (by decide)]
  exact max_le templateExpiry_ordered (min_le_right _ _)

/-- Everything in the cache, and everything that was read from it, was stored by a query;
an entry lasts an hour at most. -/
structure Traced (state : RulesState Name) : Prop where
  expiry : state.echCache.expiry = templateExpiry
  kept : ∀ key entry deadline, state.echCache.inner.slot key = some ⟨entry, deadline⟩ →
    deadline ≤ entry.createdAt + Duration.fromSecs 3600 ∧ state.Origin key entry
  read : ∀ call ∈ state.calls, ∀ key entry,
    RuleExchange.getCached key (.fresh entry) ∈ call.transcript → state.Origin key entry

theorem traced_start : (RulesState.start Name).Traced where
  expiry := rfl
  kept _ _ _ none := nomatch none
  read _ none := nomatch none

/-- Storing a response writes its records under the key, for an hour at most. -/
theorem slot_cacheUpstreamResponse {cache later : DnsCache Name} {now : Nat} {key : CacheKey}
    {resp : Message Name} (bounds : cache.expiry = templateExpiry)
    (stored : cacheUpstreamResponse cache now key resp none = some later) :
    later.expiry = cache.expiry ∧
      ∀ other entry deadline, later.inner.slot other = some ⟨entry, deadline⟩ →
        cache.inner.slot other = some ⟨entry, deadline⟩ ∨
          other = key ∧ deadline ≤ entry.createdAt + Duration.fromSecs 3600 ∧
            cacheable resp none = some (entry.records, entry.ttl) := by
  unfold cacheUpstreamResponse at stored
  split at stored
  · next records ttl made =>
      obtain ⟨lifetime, lasts, same⟩ := Option.map_eq_some_iff.mp stored
      cases same
      refine ⟨rfl, fun other entry deadline found => ?_⟩
      rcases ExpiringStore.slot_insert_cases found with ⟨isKey, written⟩ | before
      · cases written
        refine .inr ⟨isKey, ?_, made⟩
        rw [bounds, TtlExpiry.durationFor_eq_lifetime templateExpiry_ordered] at lasts
        rw [← Option.some.inj lasts]
        exact Nat.add_le_add_left (lifetime_templateExpiry_le ttl) now
      · exact .inl before
  · cases stored
    exact ⟨rfl, fun _ _ _ found => .inl found⟩

theorem Traced.step {self : Rules} {state next : RulesState Name} {event : RulesEvent Name}
    (traced : state.Traced) (stepped : state.step self event = some next) : next.Traced := by
  obtain ⟨expiry, kept, read⟩ := traced
  have readBefore : ∀ {after : RulesState Name}, state.Remembers after →
      ∀ call ∈ state.calls, ∀ key entry,
        RuleExchange.getCached key (.fresh entry) ∈ call.transcript → after.Origin key entry :=
    fun remembers call member key entry reads => (read call member key entry reads).mono remembers
  have keptBefore : ∀ {after : RulesState Name}, state.Remembers after →
      ∀ key entry deadline, state.echCache.inner.slot key = some ⟨entry, deadline⟩ →
        deadline ≤ entry.createdAt + Duration.fromSecs 3600 ∧ after.Origin key entry :=
    fun remembers key entry deadline found =>
      (kept key entry deadline found).imp_right fun origin => origin.mono remembers
  have same : ∀ {now : Nat} {cache : DnsCache Name},
      state.Remembers { now := now, echCache := cache, calls := state.calls } :=
    fun call member => ⟨call, member, List.Subset.refl _⟩
  cases moves_of_step stepped with
  | waits elapsed => exact ⟨expiry, keptBefore same, readBefore same⟩
  | begins ctx =>
      have remembers : state.Remembers { state with
          calls := state.calls ++ [{ ctx := ctx, transcript := [], rest := self.askHandle ctx }] } :=
        fun call member => ⟨call, List.mem_append_left _ member, List.Subset.refl _⟩
      refine ⟨expiry, keptBefore remembers, fun call member key entry reads => ?_⟩
      rcases List.mem_append.mp member with before | new
      · exact readBefore remembers call before key entry reads
      · rw [List.mem_singleton.mp new] at reads
        exact nomatch reads
  | hears index call after upstream msg told found follows =>
      have remembers := remembers_set found follows state.now state.echCache
      refine ⟨expiry, keptBefore remembers, fun other member key entry reads => ?_⟩
      rcases List.mem_or_eq_of_mem_set member with before | rfl
      · exact readBefore remembers other before key entry reads
      · rw [follows.transcript] at reads
        rcases List.mem_append.mp reads with before | last
        · exact readBefore remembers call (List.mem_of_getElem? found) key entry before
        · cases List.mem_singleton.mp last
  | reads index call after key found follows =>
      have remembers := remembers_set found follows state.now state.echCache
      refine ⟨expiry, keptBefore remembers, fun other member otherKey entry reads => ?_⟩
      rcases List.mem_or_eq_of_mem_set member with before | rfl
      · exact readBefore remembers other before otherKey entry reads
      · rw [follows.transcript] at reads
        rcases List.mem_append.mp reads with before | last
        · exact readBefore remembers call (List.mem_of_getElem? found) otherKey entry before
        · obtain ⟨rfl, fresh⟩ := RuleExchange.getCached_inj (List.mem_singleton.mp last)
          obtain ⟨deadline, slot, _⟩ := DnsCache.getCached_eq_fresh_iff.mp fresh.symm
          exact (keptBefore remembers otherKey entry deadline slot).2
  | stores index call after key resp cache found follows stored =>
      have remembers := remembers_set found follows state.now cache
      have stores : after ∈ state.calls.set index after :=
        List.mem_set (List.getElem?_eq_some_iff.mp found).1 after
      have writes : after.Stored key resp := by
        unfold RuleCall.Stored
        rw [follows.transcript]
        exact List.mem_append_right _ List.mem_cons_self
      obtain ⟨sameExpiry, slots⟩ := slot_cacheUpstreamResponse expiry stored
      refine ⟨sameExpiry.trans expiry, fun otherKey entry deadline slot => ?_,
        fun other member otherKey entry reads => ?_⟩
      · rcases slots otherKey entry deadline slot with before | ⟨rfl, lasts, made⟩
        · exact keptBefore remembers otherKey entry deadline before
        · exact ⟨lasts, after, stores, resp, writes, made⟩
      · rcases List.mem_or_eq_of_mem_set member with before | rfl
        · exact readBefore remembers other before otherKey entry reads
        · rw [follows.transcript] at reads
          rcases List.mem_append.mp reads with before | last
          · exact readBefore remembers call (List.mem_of_getElem? found) otherKey entry before
          · cases List.mem_singleton.mp last
  | evicts key =>
      refine ⟨expiry, fun other entry deadline slot => ?_, readBefore same⟩
      exact keptBefore same other entry deadline (ExpiringStore.slot_of_slot_evict slot)

theorem Traced.of_run {self : Rules} {state : RulesState Name}
    (run : (rulesMachine Name self).Run (.start Name) state) : state.Traced :=
  run.invariant traced_start fun traced _ stepped => traced.step stepped

end RulesState

/-! ### Provenance -/

omit [NameApi Name] in
theorem templateKey_inj {domain other : Text} (same : templateKey domain = templateKey other) :
    domain = other :=
  congrArg CacheKey.name same

/-- What a query stores was answered to it right before, when it asked for the domain. -/
theorem RuleCall.OnCourse.stored {self : Rules} {call : RuleCall Name}
    (onCourse : call.OnCourse self) {domain : Text} {resp : Message Name}
    (stored : call.Stored (templateKey domain) resp) :
    ∃ upstream msg, makeQueryMsg domain .HTTPS = .ok msg ∧
      RuleExchange.query upstream msg (some resp) ∈ call.transcript := by
  obtain ⟨earlier, later, cut⟩ := List.append_of_mem stored
  obtain ⟨idx, matched, _, permitted, _⟩ := onCourse.asked cut
  dsimp only at permitted
  generalize (self.rules.get idx).action = action at permitted
  generalize isKey : templateKey domain = key at permitted
  generalize isBefore : earlier = before at permitted
  cases permitted with
  | @store upstream _ _ _ _ cf before msg _ made =>
      cases templateKey_inj isKey
      refine ⟨upstream, msg, made, ?_⟩
      rw [cut, isBefore]
      simp

theorem exists_answer_of_firstEchSvcb {resp : Message Name} {records : List (CacheRecord Name)}
    {ttl : UInt32} {svcb : Svcb Name} (made : cacheable resp none = some (records, ttl))
    (first : firstEchSvcbFromCache records = some svcb) :
    svcbHasEch svcb = true ∧ ∃ answer ∈ resp.answers, answer.data = .HTTPS svcb := by
  obtain ⟨record, member, taken⟩ := List.exists_of_findSome?_eq_some first
  cases record with
  | Https stored =>
      obtain ⟨hasEch, same⟩ := Option.ite_none_right_eq_some.mp taken
      cases same
      refine ⟨hasEch, ?_⟩
      obtain ⟨_, extracted | ⟨_, ⟨_, rfl⟩ | ⟨_, rfl⟩⟩⟩ := cacheable_cases made
      · rw [extractCacheRecords_eq_some extracted] at member
        obtain ⟨answer, among, isStored⟩ := List.mem_filterMap.mp member
        refine ⟨answer, among, ?_⟩
        cases data : answer.data <;> rw [data] at isStored <;> cases isStored
        rfl
      · cases List.mem_singleton.mp member
      · cases List.mem_singleton.mp member
  | A | Aaaa | Cname | Mx | Txt | NxDomain | NoData => cases taken

/-- However queries interleave: what can be read from the cache of templates is less than an
hour old, and every template that any query has read for a domain is the data of an answer
that an upstream gave to a query which asked for the HTTPS records of that domain.  Which
rule's upstream it was the cache does not tell. -/
theorem template_provenance (self : Rules) (state : RulesState Name)
    (run : (rulesMachine Name self).Run (.start Name) state) :
    (∀ key entry, state.echCache.getCached state.now key = .fresh entry →
      state.now < entry.createdAt + Duration.fromSecs 3600) ∧
    ∀ call ∈ state.calls, ∀ domain svcb, FromCache domain call.transcript svcb →
      svcbHasEch svcb = true ∧
      ∃ asker ∈ state.calls, ∃ upstream msg resp, makeQueryMsg domain .HTTPS = .ok msg ∧
        RuleExchange.query upstream msg (some resp) ∈ asker.transcript ∧
        ∃ answer ∈ resp.answers, answer.data = .HTTPS svcb := by
  have traced := RulesState.Traced.of_run run
  constructor
  · intro key entry fresh
    obtain ⟨deadline, slot, alive⟩ := DnsCache.getCached_eq_fresh_iff.mp fresh
    exact alive.trans_le (traced.kept key entry deadline slot).1
  · rintro call member domain svcb ⟨entry, reads, first⟩
    obtain ⟨asker, asks, resp, stored, made⟩ := traced.read call member _ entry reads
    obtain ⟨upstream, msg, asked, answered⟩ := (allOnCourse_of_run run asker asks).stored stored
    obtain ⟨hasEch, holds⟩ := exists_answer_of_firstEchSvcb made first
    exact ⟨hasEch, asker, asks, upstream, msg, resp, asked, answered, holds⟩

theorem completing_template_provenance :
    ∃ state : RulesState LabelName, state.calls ≠ [] ∧
      (∀ key entry, state.echCache.getCached state.now key = .fresh entry →
        state.now < entry.createdAt + Duration.fromSecs 3600) ∧
      ∀ call ∈ state.calls, ∀ domain svcb, FromCache domain call.transcript svcb →
        svcbHasEch svcb = true ∧
        ∃ asker ∈ state.calls, ∃ upstream msg resp, makeQueryMsg domain .HTTPS = .ok msg ∧
          RuleExchange.query upstream msg (some resp) ∈ asker.transcript ∧
          ∃ answer ∈ resp.answers, answer.data = .HTTPS svcb := by
  obtain ⟨state, run, call, member, _⟩ := exists_completing_run
  exact ⟨state, List.ne_nil_of_mem member, template_provenance completingRules state run⟩

end Rsdns.Plugins
