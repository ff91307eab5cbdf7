import Rsdns.Dns.LabelName
import Rsdns.Server.Run
import Rsdns.Server.Stages

/-!
# Freshness over runs

Every response whose action starts with `forward` is written back.  That takes
in the ones that were served from the cache, and the empty ones that a forward
rule gives for a type it denies.  As long as neither happens to any effect, an
entry goes back to a response that was fetched and does not outlive it.
-/

namespace Rsdns.Server

open Dns Plugins

variable {Name : Type} [NameApi Name]

/-- A forward rule answers the query itself because it denies the type. -/
def deniedByRule (self : Pipeline) (ctx : QueryContext Name) : Bool :=
  match self.rules.route ctx with
  | none => false
  | some (idx, routed) =>
      match (self.rules.rules.get idx).action with
      | .Forward _ _ denyQtypes _ _ _ => denyQtypes.contains routed.qtype
      | _ => false

/-- Completing the query writes back a fetched response, or renews the entry it was
answered from by nothing. -/
def CompletesFetched (self : Pipeline) (state : State Name) (query : Pending Name) : Prop :=
  match query.hit with
  | some entry =>
      ∀ served ∈ query.ctx.response, (cacheable served none).isSome = true →
        state.now + state.cache.cache.expiry.lifetime (extractMinTtl served) ≤
          entry.createdAt + state.cache.cache.expiry.lifetime entry.ttl
  | none =>
      query.step = .continue → query.ctx.skipCache = false → deniedByRule self query.ctx = false

def WritesFetched (self : Pipeline) (state : State Name) : Event Name → Prop
  | .complete index _ => ∀ query ∈ state.pending[index]?, CompletesFetched self state query
  | _ => True

instance (self : Pipeline) (state : State Name) (query : Pending Name) :
    Decidable (CompletesFetched self state query) :=
  match hit : query.hit with
  | some entry => decidable_of_iff
      (∀ served ∈ query.ctx.response, (cacheable served none).isSome = true →
        state.now + state.cache.cache.expiry.lifetime (extractMinTtl served) ≤
          entry.createdAt + state.cache.cache.expiry.lifetime entry.ttl)
      (by rw [CompletesFetched, hit])
  | none => decidable_of_iff
      (query.step = .continue → query.ctx.skipCache = false →
        deniedByRule self query.ctx = false)
      (by rw [CompletesFetched, hit])

instance (self : Pipeline) (state : State Name) (event : Event Name) :
    Decidable (WritesFetched self state event) :=
  match event with
  | .complete index _ =>
      inferInstanceAs (Decidable (∀ query ∈ state.pending[index]?, CompletesFetched self state query))
  | .tick _ | .receive _ | .reloadHosts _ | .reloadGroups _ | .evict _ => .isTrue trivial

/-! ### What is written back -/

def isForward (action : Text) : Bool := "forward".toList.isPrefixOf action

omit [NameApi Name] in
theorem respondWith_action (ctx : QueryContext Name) (built : IoResult (Message Name))
    (action failed : Text) :
    (respondWith ctx built action failed).2.action = action ∨
      (respondWith ctx built action failed).2.action = failed := by
  cases built with
  | ok resp => exact .inl rfl
  | error e => exact .inr rfl

omit [NameApi Name] in
theorem not_forward_respondWith {ctx : QueryContext Name} {built : IoResult (Message Name)}
    {action failed : Text} (first : isForward action = false) (second : isForward failed = false) :
    isForward (respondWith ctx built action failed).2.action = false := by
  rcases respondWith_action ctx built action failed with isAction | isFailed
  · rw [isAction, first]
  · rw [isFailed, second]

theorem applyRule_forward {world : World Name} {ctx : QueryContext Name} {rule : Rule}
    (forward : isForward (applyRule world ctx rule).2.action = true) :
    ∃ upstream ttl denyQtypes resolveCname subnet cfEch,
      rule.action = .Forward upstream ttl denyQtypes resolveCname subnet cfEch ∧
        (denyQtypes.contains ctx.qtype = true ∨
          (denyQtypes.contains ctx.qtype = false ∧
            ((world.upstream 0 upstream (withSubnet ctx.msg subnet)).isSome = true ∨
              (applyRule world ctx rule).2.response = some (buildServfail ctx.msg)))) := by
  unfold applyRule at forward ⊢
  split at forward
  · rw [not_forward_respondWith (by decide) (by decide)] at forward
    cases forward
  · rw [not_forward_respondWith (by decide) (by decide)] at forward
    cases forward
  · rw [not_forward_respondWith (by decide) (by decide)] at forward
    cases forward
  · next upstream ttl denyQtypes resolveCname subnet cfEch isForwardRule =>
      refine ⟨upstream, ttl, denyQtypes, resolveCname, subnet, cfEch, isForwardRule, ?_⟩
      cases denied : denyQtypes.contains ctx.qtype with
      | true => exact .inl rfl
      | false =>
          refine .inr ⟨rfl, ?_⟩
          rw [if_neg Bool.false_ne_true]
          cases answer : world.upstream 0 upstream (withSubnet ctx.msg subnet) with
          | some resp => exact .inl rfl
          | none =>
              right
              unfold forwardQuery
              rw [answer]
              rfl
  · rw [not_forward_respondWith (by decide) (by decide)] at forward
    cases forward

theorem rulesStage_forward {self : Pipeline} {world : World Name} {ctx : QueryContext Name}
    (forward : isForward (rulesStage self world .continue ctx).action = true) :
    deniedByRule self ctx = true ∨ answeredByUpstream self world ctx = true ∨
      ∃ msg, (rulesStage self world .continue ctx).response = some (buildServfail msg) := by
  have action : (rulesStage self world .continue ctx).action =
      (self.rules.handle world ctx).2.action := rfl
  rw [action] at forward
  unfold deniedByRule answeredByUpstream
  unfold Rules.handle at forward
  cases routed : self.rules.route ctx with
  | none =>
      rw [routed] at forward
      dsimp only at forward
      rw [not_forward_respondWith (by decide) (by decide)] at forward
      cases forward
  | some found =>
      obtain ⟨idx, matched⟩ := found
      rw [routed] at forward
      obtain ⟨upstream, ttl, denyQtypes, resolveCname, subnet, cfEch, isForwardRule, outcome⟩ :=
        applyRule_forward forward
      have handled : (self.rules.handle world ctx).2 =
          (applyRule world matched (self.rules.rules.get idx)).2 := by
        unfold Rules.handle
        rw [routed]
      dsimp only
      rw [isForwardRule]
      dsimp only
      rcases outcome with denied | ⟨notDenied, answered | failed⟩
      · exact .inl denied
      · right; left
        rw [notDenied, answered]
        rfl
      · right; right
        refine ⟨matched.msg, ?_⟩
        unfold rulesStage
        dsimp only
        rw [handled, failed]
        rfl

/-! ### The invariant -/

/-- The entry goes back to a response that was written back under its key, and does not
outlive it. -/
structure Sourced (expiry : TtlExpiry) (key : CacheKey) (entry : CacheEntry Name)
    (source : WriteBack Name) : Prop where
  key : source.key = key
  within : entry.createdAt + expiry.lifetime entry.ttl ≤
    source.time + expiry.lifetime (extractMinTtl source.response)
  lineage : ComesFrom source.response entry.records

/-- The response was built from the entry, unless that failed. -/
def ServedFrom (keepTtl : Bool) (entry : CacheEntry Name) (served : Message Name) : Prop :=
  (∃ msg now, buildResponseFromCache msg entry keepTtl now = .ok served) ∨
    ∃ msg, served = buildServfail msg

/-- A query that was answered from an entry holds what was served from it. -/
structure HoldsHit (expiry : TtlExpiry) (fetched : List (WriteBack Name))
    (query : Pending Name) (entry : CacheEntry Name) : Prop where
  responds : query.step = .respond
  sourced : ∃ source ∈ fetched, Sourced expiry query.ctx.key entry source
  holds : ∃ served, query.ctx.response = some served ∧ ServedFrom expiry.keepTtl entry served

/-- Every entry is sourced, and so is every hit that is still to be completed. -/
structure Sound (expiry : TtlExpiry) (state : State Name) : Prop where
  policy : state.cache.cache.expiry = expiry
  past : ∀ source ∈ state.fetched, source.time ≤ state.now
  stored : ∀ key entry deadline, state.cache.cache.inner.slot key = some ⟨entry, deadline⟩ →
    deadline = entry.createdAt + expiry.lifetime entry.ttl ∧
      ∃ source ∈ state.fetched, Sourced expiry key entry source
  hits : ∀ query ∈ state.pending, ∀ entry, query.hit = some entry →
    HoldsHit expiry state.fetched query entry
  others : ∀ query ∈ state.pending, query.hit = none →
    query.step = .continue ∨ isForward query.ctx.action = false

theorem HoldsHit.mono {expiry : TtlExpiry} {fetched more : List (WriteBack Name)}
    {query : Pending Name} {entry : CacheEntry Name}
    (holdsHit : HoldsHit expiry fetched query entry) (grows : fetched ⊆ more) :
    HoldsHit expiry more query entry := by
  obtain ⟨source, member, sourced⟩ := holdsHit.sourced
  exact ⟨holdsHit.responds, ⟨source, grows member, sourced⟩, holdsHit.holds⟩

/-! ### The lookup -/

theorem lookupStages_spec {state : State Name} {ctx : QueryContext Name} {step : Step}
    {looked : QueryContext Name}
    (stages : lookupStages state.hosts state.groups state.cache state.now ctx = (step, looked)) :
    (∀ entry, hitEntry state ctx = some entry →
      step = .respond ∧ state.cache.cache.getCached state.now looked.key = .fresh entry ∧
        ∃ msg, looked.response = some (state.cache.respond state.now msg entry)) ∧
      (hitEntry state ctx = none → step = .continue ∨ isForward looked.action = false) := by
  unfold lookupStages at stages
  unfold hitEntry
  cases handled : Hosts.handle state.hosts ctx with
  | mk hostsStep hostsCtx =>
      rw [handled] at stages
      cases hostsStep with
      | respond =>
          cases stages
          constructor
          · intro entry hit
            cases hit
          · intro _
            right
            rw [action_of_hosts_respond handled]
            rfl
      | «continue» =>
          dsimp only at stages ⊢
          have atCache := state.cache.outcome_lookup state.now (Groups.handle state.groups hostsCtx).2
          rw [stages] at atCache
          cases atCache with
          | skips skipped =>
              rw [if_pos skipped]
              exact ⟨nofun, fun _ => .inl rfl⟩
          | misses asks missed =>
              rw [if_neg (by simp [asks]), missed]
              exact ⟨nofun, fun _ => .inl rfl⟩
          | hits asks entry found =>
              rw [if_neg (by simp [asks]), found]
              refine ⟨?_, nofun⟩
              intro other same
              cases same
              exact ⟨rfl, rfl, _, rfl⟩

/-! ### The write-back -/

theorem writeBack_cases {cache cache' : Cache Name} {now : Nat} {ctx : QueryContext Name}
    (wrote : cache.writeBack now ctx = some cache') :
    cache' = cache ∨
      ∃ response records ttl stored, ctx.skipCache = false ∧ ctx.response = some response ∧
        isForward ctx.action = true ∧ cacheable response none = some (records, ttl) ∧
        cache.cache.put now ctx.key records ttl = some stored ∧
        cache' = { cache with cache := stored } := by
  unfold Cache.writeBack at wrote
  split at wrote
  · exact .inl (Option.some.inj wrote).symm
  · next asks =>
      split at wrote
      · next response responded =>
          split at wrote
          · next forward =>
              obtain ⟨stored, put, rfl⟩ := Option.map_eq_some_iff.mp wrote
              unfold cacheUpstreamResponse at put
              split at put
              · next records ttl storable =>
                  right
                  exact ⟨response, records, ttl, stored, by simpa using asks, responded, forward,
                    storable, put, rfl⟩
              · cases put
                exact .inl rfl
          · exact .inl (Option.some.inj wrote).symm
      · exact .inl (Option.some.inj wrote).symm

/-- What is written back of a response that was served from an entry goes back to what
the entry goes back to. -/
theorem exists_source_of_servedFrom {expiry : TtlExpiry} {fetched : List (WriteBack Name)}
    {query : Pending Name} {entry : CacheEntry Name} {served final : Message Name}
    (held : HoldsHit expiry fetched query entry)
    (origin : ServedFrom expiry.keepTtl entry served) (presents : Presents final served)
    {now : Nat} {records : List (CacheRecord Name)} {ttl : UInt32}
    (storable : cacheable final none = some (records, ttl))
    (renewed : now + expiry.lifetime (extractMinTtl served) ≤
      entry.createdAt + expiry.lifetime entry.ttl) :
    ∃ source ∈ fetched, Sourced expiry query.ctx.key
      { records := records, createdAt := now, ttl := ttl } source := by
  rcases origin with ⟨msg, servedAt, built⟩ | ⟨msg, rfl⟩
  · obtain ⟨source, member, sourced⟩ := held.sourced
    rw [← extractMinTtl_of_presents built presents] at renewed
    refine ⟨source, member, sourced.key, ?_, ?_⟩
    · rw [(cacheable_cases storable).1]
      exact renewed.trans sourced.within
    · exact comesFrom_of_presents built presents sourced.lineage storable
  · rw [cacheable_of_presents_servfail presents] at storable
    cases storable

theorem answeredByUpstream_of_storable {self : Pipeline} {world : World Name}
    {ctx : QueryContext Name} (notDenied : deniedByRule self ctx = false)
    (forward : isForward (rulesStage self world .continue ctx).action = true)
    {response : Message Name}
    (responded : (answerStages self world .continue ctx).response = some response)
    {records : List (CacheRecord Name)} {ttl : UInt32}
    (storable : cacheable response none = some (records, ttl)) :
    answeredByUpstream self world ctx = true := by
  rcases rulesStage_forward forward with denied | answered | ⟨msg, failed⟩
  · exact absurd (notDenied.symm.trans denied) Bool.false_ne_true
  · exact answered
  · obtain ⟨final, isFinal, presents⟩ := presents_answerStages failed
    cases isFinal.symm.trans responded
    rw [cacheable_of_presents_servfail presents] at storable
    cases storable

theorem presents_of_respond {self : Pipeline} {world : World Name} {step : Step}
    {ctx : QueryContext Name} {served : Message Name} (responds : step = .respond)
    (isServed : ctx.response = some served) :
    ∃ final, (answerStages self world step ctx).response = some final ∧
      Presents final served := by
  apply presents_answerStages
  rw [responds]
  unfold rulesStage
  dsimp only
  rw [isServed]
  rfl

theorem proceeds_of_forward {self : Pipeline} {world : World Name}
    {query : Pending Name}
    (others : query.step = .continue ∨ isForward query.ctx.action = false)
    (forward : isForward (answerStages self world query.step query.ctx).action = true) :
    query.step = .continue := by
  rcases others with proceeds | notForward
  · exact proceeds
  · cases responds : query.step with
    | «continue» => rfl
    | respond =>
        rw [action_answerStages, responds] at forward
        exact absurd (notForward.symm.trans forward) Bool.false_ne_true

/-- What a harmless completion writes back is sourced. -/
theorem exists_source {self : Pipeline} {expiry : TtlExpiry} {state : State Name}
    (sound : Sound expiry state) {index : Nat} {world : World Name}
    (harmless : WritesFetched self state (.complete index world)) {query : Pending Name}
    (waiting : state.pending[index]? = some query) {response : Message Name}
    {records : List (CacheRecord Name)} {ttl : UInt32}
    (asks : (answerStages self world query.step query.ctx).skipCache = false)
    (responded : (answerStages self world query.step query.ctx).response = some response)
    (forward : isForward (answerStages self world query.step query.ctx).action = true)
    (storable : cacheable response none = some (records, ttl)) :
    ∃ source ∈ state.fetched ++
        written self world state.now query (answerStages self world query.step query.ctx),
      Sourced expiry (answerStages self world query.step query.ctx).key
        { records := records, createdAt := state.now, ttl := ttl } source := by
  have member : query ∈ state.pending := List.mem_of_getElem? waiting
  have allowed := harmless query waiting
  have same := sameQuery_answerStages self world query.step query.ctx
  have stillAsks : query.ctx.skipCache = false := same.skipCache.symm.trans asks
  cases hit : query.hit with
  | some entry =>
      rw [CompletesFetched, hit] at allowed
      have held := sound.hits query member entry hit
      obtain ⟨served, isServed, origin⟩ := held.holds
      obtain ⟨final, isFinal, presents⟩ := presents_of_respond held.responds isServed
      cases isFinal.symm.trans responded
      have renewed := allowed served isServed
        (cacheable_isSome_of_presents presents (by rw [storable]; rfl))
      rw [sound.policy] at renewed
      obtain ⟨source, fetched, sourced⟩ :=
        exists_source_of_servedFrom held origin presents storable renewed
      rw [same.key]
      exact ⟨source, List.mem_append_left _ fetched, sourced⟩
  | none =>
      rw [CompletesFetched, hit] at allowed
      have proceeds := proceeds_of_forward (sound.others query member hit) forward
      rw [action_answerStages] at forward
      have fetchedNow : answeredByUpstream self world query.ctx = true := by
        rw [proceeds] at forward responded
        exact answeredByUpstream_of_storable (allowed proceeds stillAsks) forward responded storable
      refine ⟨⟨state.now, (answerStages self world query.step query.ctx).key, response⟩,
        List.mem_append_right _ ?_, rfl, ?_, .fetched storable⟩
      · unfold written
        rw [responded]
        dsimp only
        rw [if_pos ⟨proceeds, fetchedNow, asks, by rw [storable]; rfl⟩]
        exact List.mem_singleton_self _
      · rw [(cacheable_cases storable).1]
        exact Nat.le_refl _

theorem written_time {self : Pipeline} {world : World Name} {now : Nat} {query : Pending Name}
    {final : QueryContext Name} {source : WriteBack Name}
    (member : source ∈ written self world now query final) : source.time = now := by
  unfold written at member
  split at member
  · cases member
  · split at member
    · cases List.mem_singleton.mp member
      rfl
    · cases member

theorem servedFrom_respond (cache : Cache Name) (now : Nat) (msg : Message Name)
    (entry : CacheEntry Name) :
    ServedFrom cache.cache.expiry.keepTtl entry (cache.respond now msg entry) := by
  unfold Cache.respond
  split
  · next built => exact .inl ⟨msg, now, built⟩
  · exact .inr ⟨msg, rfl⟩

theorem sound_receive {expiry : TtlExpiry} {state : State Name} {ctx looked : QueryContext Name}
    {step : Step} (sound : Sound expiry state)
    (stages : lookupStages state.hosts state.groups state.cache state.now ctx = (step, looked)) :
    Sound expiry { state with
      pending := state.pending ++
        [{ ctx := looked, step := step, hit := hitEntry state ctx }] } := by
  obtain ⟨onHit, onMiss⟩ := lookupStages_spec stages
  refine ⟨sound.policy, sound.past, sound.stored, fun query member entry hit => ?_,
    fun query member missed => ?_⟩
  · rcases List.mem_append.mp member with old | new
    · exact sound.hits query old entry hit
    · cases List.mem_singleton.mp new
      obtain ⟨responds, fresh, msg, served⟩ := onHit entry hit
      obtain ⟨deadline, slot, _⟩ := DnsCache.getCached_eq_fresh_iff.mp fresh
      have origin := servedFrom_respond state.cache state.now msg entry
      rw [sound.policy] at origin
      exact ⟨responds, (sound.stored _ entry deadline slot).2, _, served, origin⟩
  · rcases List.mem_append.mp member with old | new
    · exact sound.others query old missed
    · cases List.mem_singleton.mp new
      exact onMiss missed

theorem Sound.grow {expiry : TtlExpiry} {state : State Name} (sound : Sound expiry state)
    {pending : List (Pending Name)} {fetched : List (WriteBack Name)}
    (fewer : pending ⊆ state.pending) (more : state.fetched ⊆ fetched)
    (past : ∀ source ∈ fetched, source.time ≤ state.now) :
    Sound expiry { state with pending := pending, fetched := fetched } where
  policy := sound.policy
  past := past
  stored key entry deadline slot := by
    obtain ⟨due, source, member, sourced⟩ := sound.stored key entry deadline slot
    exact ⟨due, source, more member, sourced⟩
  hits query member entry hit := (sound.hits query (fewer member) entry hit).mono more
  others query member missed := sound.others query (fewer member) missed

theorem Sound.store {expiry : TtlExpiry} {state : State Name} (sound : Sound expiry state)
    (ordered : expiry.minTtl ≤ expiry.maxTtl) {key : CacheKey}
    {records : List (CacheRecord Name)} {ttl : UInt32} {stored : DnsCache Name}
    (put : state.cache.cache.put state.now key records ttl = some stored)
    {source : WriteBack Name} (member : source ∈ state.fetched)
    (sourced : Sourced expiry key { records := records, createdAt := state.now, ttl := ttl }
      source) :
    Sound expiry { state with cache := { state.cache with cache := stored } } := by
  refine ⟨(DnsCache.expiry_of_put put).trans sound.policy, sound.past, ?_, sound.hits,
    sound.others⟩
  intro other entry deadline slot
  unfold DnsCache.put at put
  rw [sound.policy] at put
  dsimp only at put
  rw [TtlExpiry.durationFor_eq_lifetime ordered, Option.map_some] at put
  cases put
  rcases ExpiringStore.slot_insert_cases slot with ⟨same, new⟩ | old
  · cases new
    rw [same]
    exact ⟨rfl, source, member, sourced⟩
  · exact sound.stored other entry deadline old

/-- A completion leaves the cache alone, or adds one sourced entry to it. -/
theorem sound_complete {self : Pipeline} {expiry : TtlExpiry} {state : State Name}
    (sound : Sound expiry state) (ordered : expiry.minTtl ≤ expiry.maxTtl) {index : Nat}
    {world : World Name} (harmless : WritesFetched self state (.complete index world))
    {query : Pending Name} (waiting : state.pending[index]? = some query) {cache : Cache Name}
    (wrote : state.cache.writeBack state.now (answerStages self world query.step query.ctx) =
      some cache) :
    Sound expiry { state with
      cache := cache
      pending := state.pending.eraseIdx index
      fetched := state.fetched ++
        written self world state.now query (answerStages self world query.step query.ctx) } := by
  have grown := sound.grow (List.eraseIdx_sublist state.pending index).subset
    (List.subset_append_left state.fetched
      (written self world state.now query (answerStages self world query.step query.ctx)))
    (by
      intro source member
      rcases List.mem_append.mp member with old | new
      · exact sound.past source old
      · exact le_of_eq (written_time new))
  rcases writeBack_cases wrote with rfl |
    ⟨response, records, ttl, stored, asks, responded, forward, storable, put, rfl⟩
  · exact grown
  · obtain ⟨source, member, sourced⟩ :=
      exists_source sound harmless waiting asks responded forward storable
    exact grown.store ordered put member sourced

/-- A step that writes back what was fetched keeps every entry sourced. -/
theorem sound_step {self : Pipeline} {expiry : TtlExpiry} {state next : State Name}
    {event : Event Name} (ordered : expiry.minTtl ≤ expiry.maxTtl) (sound : Sound expiry state)
    (harmless : WritesFetched self state event) (stepped : step self state event = some next) :
    Sound expiry next := by
  cases event with
  | tick elapsed =>
      cases stepped
      exact ⟨sound.policy, fun source member =>
        (sound.past source member).trans (Nat.le_add_right _ _), sound.stored, sound.hits,
        sound.others⟩
  | receive msg =>
      unfold step at stepped
      dsimp only at stepped
      split at stepped
      · cases stepped
      · next ctx _ =>
          cases stepped
          exact sound_receive sound rfl
  | complete index world =>
      simp only [step, Option.bind_eq_bind, Option.bind_eq_some_iff] at stepped
      obtain ⟨query, waiting, cache, wrote, same⟩ := stepped
      cases same
      exact sound_complete sound ordered harmless waiting wrote
  | reloadHosts hosts =>
      cases stepped
      exact ⟨sound.policy, sound.past, sound.stored, sound.hits, sound.others⟩
  | reloadGroups groups =>
      cases stepped
      exact ⟨sound.policy, sound.past, sound.stored, sound.hits, sound.others⟩
  | evict key =>
      cases stepped
      refine ⟨sound.policy, sound.past, fun other entry deadline slot => ?_, sound.hits,
        sound.others⟩
      exact sound.stored other entry deadline (ExpiringStore.slot_of_slot_evict slot)

/-! ### Runs -/

theorem sound_start (now : Nat) (hosts : HostsTrie) (groups : List GroupState)
    (cfg : CacheConfig) :
    Sound (Cache.init cfg : Cache Name).cache.expiry (start now hosts groups cfg : State Name) where
  policy := rfl
  past _ member := absurd member List.not_mem_nil
  stored _ _ _ slot := absurd slot nofun
  hits _ member := absurd member List.not_mem_nil
  others _ member := absurd member List.not_mem_nil

/-- The entry goes back to a response that was written back under the key and whose own
lifetime is not over. -/
structure Fresh (expiry : TtlExpiry) (now : Nat) (key : CacheKey) (entry : CacheEntry Name)
    (source : WriteBack Name) : Prop where
  key : source.key = key
  fetched : source.time ≤ now
  live : ∃ lifetime, expiry.durationFor
      { entry with createdAt := source.time, ttl := extractMinTtl source.response } =
        some lifetime ∧ now < source.time + lifetime
  lineage : ComesFrom source.response entry.records

/-- Every hit of a run that writes back only what was fetched is fresh. -/
theorem hits_are_fresh {self : Pipeline} {cfg : CacheConfig}
    (ordered : cfg.minTtl.getD 60 ≤ cfg.maxTtl.getD 3600) {startTime : Nat} {hosts : HostsTrie}
    {groups : List GroupState} {state : State Name}
    (run : (machine self).GuardedRun (WritesFetched self)
      (start startTime hosts groups cfg) state)
    {ctx answered : QueryContext Name}
    (hit : state.cache.lookup state.now ctx = (.respond, answered)) :
    ∃ entry, state.cache.cache.getCached state.now ctx.key = .fresh entry ∧
      answered.response = some (state.cache.respond state.now ctx.msg entry) ∧
      ∃ source ∈ state.fetched,
        Fresh state.cache.cache.expiry state.now ctx.key entry source := by
  have orderedNs : (Cache.init cfg : Cache Name).cache.expiry.minTtl ≤
      (Cache.init cfg : Cache Name).cache.expiry.maxTtl :=
    Nat.mul_le_mul_right _ (UInt32.le_iff_toNat_le.mp ordered)
  have sound : Sound (Cache.init cfg : Cache Name).cache.expiry state :=
    run.invariant (sound_start startTime hosts groups cfg)
      fun before allowed stepped => sound_step orderedNs before allowed stepped
  have looked := state.cache.outcome_lookup state.now ctx
  rw [hit] at looked
  cases looked with
  | hits _ entry found =>
      refine ⟨entry, found, rfl, ?_⟩
      obtain ⟨deadline, slot, live⟩ := DnsCache.getCached_eq_fresh_iff.mp found
      obtain ⟨due, source, member, sourced⟩ := sound.stored _ entry deadline slot
      rw [due] at live
      refine ⟨source, member, sourced.key, sound.past source member, ?_, sourced.lineage⟩
      rw [sound.policy, TtlExpiry.durationFor_eq_lifetime orderedNs]
      exact ⟨_, rfl, live.trans_le sourced.within⟩

/-! ### A hit that is renewed -/

def forwardAll : Pipeline where
  rules := Rules.init
    [{ target := .MatchAll, qtype := none,
       action := .Forward "u".toList none [] false none none }] (by decide)
  balance := Balance.init none

def question : QueryContext LabelName :=
  .new (LabelName.ask ⟨["a".toList], true⟩ .A) (List.cons_ne_nil _ _)
    { name := "a".toList, qtype := .A }

def addressFor (ttl : UInt32) : World LabelName where
  upstream _ _ msg := some { msg with
    answers := [Record.fromRdata ⟨["a".toList], true⟩ ttl (.A 0x0A000001#32)] }
  echTemplate _ _ := none
  chance := ⟨fun _ => 0, fun _ _ => none⟩

def defaults : CacheConfig where
  size := none
  minTtl := none
  maxTtl := none
  keepTtl := none
  skipBalance := none

def askTwice (ttl : UInt32) (first second : Nat) : List (Event LabelName) :=
  [.receive question.msg, .complete 0 (addressFor ttl), .tick (Duration.fromSecs first),
    .receive question.msg, .complete 0 (addressFor ttl), .tick (Duration.fromSecs second)]

def isOver (state : State LabelName) (source : WriteBack LabelName) : Bool :=
  source.time + state.cache.cache.expiry.lifetime (extractMinTtl source.response) ≤ state.now

def isServed (state : State LabelName) : Bool :=
  (state.cache.lookup state.now question).1.isRespond

theorem exists_lookup_of_isServed {state : State LabelName} (served : isServed state = true) :
    ∃ answered, state.cache.lookup state.now question = (.respond, answered) := by
  unfold isServed at served
  cases found : state.cache.lookup state.now question with
  | mk step answered =>
      rw [found] at served
      cases step with
      | respond => exact ⟨answered, rfl⟩
      | «continue» => cases served

/-- An address is given for ten minutes, asked for again after fifty seconds and a third
time after nine minutes. -/
theorem long_answer_is_fresh :
    ∃ state : State LabelName,
      (machine forwardAll).GuardedRun (WritesFetched forwardAll)
        (start 0 (buildHostsTrie (fun _ => none) []) [] defaults) state ∧
      ∃ entry, state.cache.cache.getCached state.now question.key = .fresh entry ∧
        ∃ source ∈ state.fetched,
          Fresh state.cache.cache.expiry state.now question.key entry source := by
  have checked : ((machine forwardAll).execWhile (WritesFetched forwardAll)
      (start 0 (buildHostsTrie (fun _ => none) []) [] defaults) (askTwice 600 50 490)).any
        isServed = true := by decide +kernel
  obtain ⟨state, executed, served⟩ := (Option.any_eq_true _ _).mp checked
  obtain ⟨answered, hit⟩ := exists_lookup_of_isServed served
  have run := Machine.GuardedRun.of_execWhile .refl executed
  obtain ⟨entry, found, _, source, member, isFresh⟩ := hits_are_fresh (by decide) run hit
  exact ⟨state, run, entry, found, source, member, isFresh⟩

/-- An address is given for a minute and asked for again after fifty seconds: the hit is
written back as if it were an answer, and served again after ninety seconds. -/
theorem renewed_hit_is_stale :
    ∃ (state : State LabelName) (answered : QueryContext LabelName),
      (defaults.minTtl.getD 60 ≤ defaults.maxTtl.getD 3600) ∧
      (machine forwardAll).Run (start 0 (buildHostsTrie (fun _ => none) []) [] defaults) state ∧
      state.cache.lookup state.now question = (.respond, answered) ∧
      ∀ entry, ∀ source ∈ state.fetched,
        ¬ Fresh state.cache.cache.expiry state.now question.key entry source := by
  have checked : ((machine forwardAll).execWhile (fun _ _ => True)
      (start 0 (buildHostsTrie (fun _ => none) []) [] defaults) (askTwice 60 50 40)).any
        (fun state => isServed state && state.fetched.all (isOver state) &&
          decide (state.cache.cache.expiry.minTtl ≤ state.cache.cache.expiry.maxTtl)) =
        true := by decide +kernel
  obtain ⟨state, executed, checks⟩ := (Option.any_eq_true _ _).mp checked
  rw [Bool.and_eq_true, Bool.and_eq_true] at checks
  obtain ⟨⟨served, ended⟩, ordered⟩ := checks
  obtain ⟨answered, hit⟩ := exists_lookup_of_isServed served
  refine ⟨state, answered, by decide, Machine.GuardedRun.of_execWhile .refl executed, hit, ?_⟩
  intro entry source member isFresh
  obtain ⟨lifetime, defined, live⟩ := isFresh.live
  rw [TtlExpiry.durationFor_eq_lifetime (of_decide_eq_true ordered), Option.some.injEq] at defined
  subst defined
  have isOver := of_decide_eq_true (List.all_eq_true.mp ended source member)
  exact absurd live (Nat.not_lt.mpr isOver)

end Rsdns.Server
