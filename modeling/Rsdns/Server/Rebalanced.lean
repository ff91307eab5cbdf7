import Rsdns.Balance.Idempotent
import Rsdns.Server.Owners
import Rsdns.Server.Switches

/-!
# Balancing what the cache serves

What is written back has been balanced, unless the group of the query takes it past
the balance.  Without a mode the stored answers therefore rest: a hit is served in one
order, whether the balance sees it again or not.
-/

namespace Rsdns.Server

open Dns Plugins

variable {Name : Type}

/-- The stage has nothing to do with the answers to a query for the type. -/
def Rests (balance : Balance) (qtype : RecordType) (answers : List (Record Name)) : Prop :=
  balance.enabled = false ∨
    ∀ selected, families qtype = some selected → balance.LeavesAlone selected answers

variable {balance : Balance} {qtype : RecordType}

theorem Rests.of_sublist (unordered : balance.mode = .None) {answers fewer : List (Record Name)}
    (rests : Rests balance qtype answers) (shorter : fewer.length ≤ answers.length)
    (ips : ∀ isA, (familyIps isA fewer).Sublist (familyIps isA answers)) :
    Rests balance qtype fewer := by
  rcases rests with disabled | alone
  · exact .inl disabled
  · right
    intro selected selects
    exact (alone selected selects).of_sublist unordered shorter ips

theorem rests_nil (unordered : balance.mode = .None) :
    Rests balance qtype ([] : List (Record Name)) := by
  right
  intro selected _
  rw [Balance.leavesAlone_iff unordered]
  exact ⟨Nat.le_zero.mp (balance.limit_le 0), fun isA _ => .nil⟩

theorem rests_handle (unordered : balance.mode = .None) (chance : Chance)
    {ctx : QueryContext Name}
    (before : ctx.skipBalance = true → Rests balance ctx.qtype (Balance.answersOf ctx)) :
    Rests balance ctx.qtype (Balance.answersOf (balance.handle chance ctx).2) := by
  cases enabled : balance.enabled with
  | false => exact .inl enabled
  | true =>
      cases marked : ctx.skipBalance with
      | true =>
          rw [balance_handle_of_skipBalance marked]
          exact before marked
      | false =>
          right
          intro selected selects
          unfold Balance.handle
          rw [enabled, marked, selects]
          cases responded : ctx.response with
          | none =>
              simp only [Balance.answersOf, Option.map_none]
              have resting : Rests balance ctx.qtype ([] : List (Record Name)) :=
                rests_nil unordered
              exact (resting.resolve_left (by simp [enabled])) selected selects
          | some response =>
              simp only [Balance.answersOf, Option.map_some]
              exact Balance.leavesAlone_balanceAnswers unordered chance
                (Balance.isEmpty_of_families selects) response.answers

/-! ### Through the cache -/

variable [NameApi Name]

omit [NameApi Name] in
theorem familyIp_congr {first second : Record Name} (same : first.data = second.data)
    (isA : Bool) : familyIp isA first = familyIp isA second := by
  unfold familyIp
  rw [same]

theorem familyIps_of_cached {answer : Record Name} {record : CacheRecord Name}
    {data : Option (RData Name)} (cached : cacheRecord answer.data = some record)
    (shown : record.rdata = .ok data) (owner : Name) (ttl : UInt32) (isA : Bool) :
    familyIps isA (data.map (Record.fromRdata owner ttl)).toList =
      (familyIp isA answer).toList := by
  have unaddressed : ∀ {other : RData Name}, answer.data = other →
      (∀ ip, other ≠ .A ip) → (∀ ip, other ≠ .AAAA ip) → familyIp isA answer = none := by
    intro other same notA notAaaa
    subst same
    unfold familyIp
    split
    · next isAddress => exact absurd isAddress (notA _)
    · next isAddress => exact absurd isAddress (notAaaa _)
    · rfl
  cases kind : answer.data with
  | A ip | AAAA ip | HTTPS svcb =>
      rw [kind] at cached
      cases cached
      cases shown
      rw [Option.map_some, Option.toList_some, familyIps_cons, familyIps, List.filterMap_nil,
        List.append_nil]
      have sameData : (Record.fromRdata owner ttl _).data = answer.data := kind.symm
      rw [familyIp_congr sameData isA]
  | CNAME target =>
      rw [kind] at cached
      cases cached
      obtain ⟨name, _, rfl⟩ := ioResult_map_eq_ok_iff.mp shown
      rw [unaddressed kind nofun nofun]
      cases isA <;> rfl
  | MX preference exchange =>
      rw [kind] at cached
      cases cached
      obtain ⟨name, _, rfl⟩ := ioResult_map_eq_ok_iff.mp shown
      rw [unaddressed kind nofun nofun]
      cases isA <;> rfl
  | TXT txtData =>
      rw [kind] at cached
      cases cached
      cases shown
      rw [unaddressed kind nofun nofun]
      cases isA <;> rfl
  | other code bytes =>
      rw [kind] at cached
      cases cached

theorem familyIps_rebuildAnswers {answers rebuilt : List (Record Name)} {owner : Name}
    {ttl : UInt32}
    (built : rebuildAnswers owner ttl (answers.filterMap fun answer => cacheRecord answer.data) =
      .ok rebuilt) :
    rebuilt.length ≤ answers.length ∧
      ∀ isA, familyIps isA rebuilt = familyIps isA answers := by
  induction answers generalizing rebuilt with
  | nil =>
      cases built
      exact ⟨Nat.le_refl 0, fun _ => rfl⟩
  | cons answer answers inductionHypothesis =>
      cases cached : cacheRecord answer.data with
      | none =>
          simp only [List.filterMap_cons, cached] at built
          obtain ⟨shorter, same⟩ := inductionHypothesis built
          refine ⟨Nat.le_succ_of_le shorter, fun isA => ?_⟩
          have unaddressed : familyIp isA answer = none := by
            unfold familyIp
            split
            · next data => rw [data] at cached; cases cached
            · next data => rw [data] at cached; cases cached
            · rfl
          rw [same, familyIps_cons, unaddressed]
          rfl
      | some record =>
          simp only [List.filterMap_cons, cached, rebuildAnswers_cons_eq_ok_iff] at built
          obtain ⟨data, rest, shown, restBuilt, rfl⟩ := built
          obtain ⟨shorter, same⟩ := inductionHypothesis restBuilt
          constructor
          · cases data with
            | none => exact Nat.le_succ_of_le shorter
            | some data => exact Nat.succ_le_succ shorter
          · intro isA
            have first := familyIps_of_cached cached shown owner ttl isA
            rw [familyIps_append, first, same, familyIps_cons]

/-- Whatever a hit serves of these records rests. -/
def RestsRebuilt (balance : Balance) (qtype : RecordType) (records : List (CacheRecord Name)) :
    Prop :=
  ∀ (owner : Name) (ttl : UInt32) (answers : List (Record Name)),
    rebuildAnswers owner ttl records = .ok answers → Rests balance qtype answers

theorem restsRebuilt_of_cacheable (unordered : balance.mode = .None) {response : Message Name}
    (rests : Rests balance qtype response.answers) {records : List (CacheRecord Name)}
    {ttl : UInt32} (storable : cacheable response none = some (records, ttl)) :
    RestsRebuilt balance qtype records := by
  intro owner ttl answers rebuilt
  obtain ⟨_, extracted | ⟨_, marker⟩⟩ := cacheable_cases storable
  · rw [extractCacheRecords_eq_some extracted] at rebuilt
    obtain ⟨shorter, same⟩ := familyIps_rebuildAnswers rebuilt
    exact rests.of_sublist unordered shorter fun isA => (same isA) ▸ List.Sublist.refl _
  · have empty : answers = [] := by
      rcases marker with ⟨_, rfl⟩ | ⟨_, rfl⟩
      · exact (Except.ok.inj rebuilt).symm
      · exact (Except.ok.inj rebuilt).symm
    rw [empty]
    exact rests_nil unordered

theorem rests_respond (unordered : balance.mode = .None) {cache : Cache Name}
    {entry : CacheEntry Name} (stored : RestsRebuilt balance qtype entry.records) (now : Nat)
    (msg : Message Name) : Rests balance qtype (cache.respond now msg entry).answers := by
  unfold Cache.respond
  split
  · next built =>
      obtain ⟨query, answers, _, rebuilt, rfl⟩ := buildResponseFromCache_eq_ok_iff.mp built
      exact stored query.name _ answers rebuilt
  · exact rests_nil unordered

theorem rests_restoreName (unordered : balance.mode = .None) {ctx : QueryContext Name}
    (rests : Rests balance qtype (Balance.answersOf ctx)) :
    Rests balance qtype (Balance.answersOf (restoreName ctx)) := by
  have renamed : ∀ (answers : List (Record Name)) (n : Name) (isA : Bool),
      familyIps isA (answers.map fun answer => { answer with name := n }) =
        familyIps isA answers := by
    intro answers n isA
    unfold familyIps
    rw [List.filterMap_map]
    rfl
  unfold restoreName
  split
  · exact rests
  · next n _ =>
      cases responded : ctx.response with
      | none => exact rests_nil unordered
      | some response =>
          have answers : Balance.answersOf ctx = response.answers := by
            unfold Balance.answersOf
            rw [responded]
          rw [answers] at rests
          refine rests.of_sublist unordered (List.length_map _).le fun isA => ?_
          exact (renamed response.answers n isA) ▸ List.Sublist.refl _

/-! ### Over runs -/

/-- The rules answer a query that its group takes past the balance, but not past the
cache, with something to balance. -/
def StoresUnbalanced (self : Pipeline) (world : World Name) (query : Pending Name) : Prop :=
  query.step = .continue ∧ query.ctx.skipBalance = true ∧ query.ctx.skipCache = false ∧
    isForward (rulesStage self world .continue query.ctx).action = true ∧
    ¬ NothingToBalance self.balance (rulesStage self world .continue query.ctx)

def StoresBalanced (self : Pipeline) (state : State Name) : Event Name → Prop
  | .complete index world => ∀ query ∈ state.pending[index]?, ¬ StoresUnbalanced self world query
  | _ => True

/-- Whatever is stored rests, and whatever was served from it. -/
structure Rested (balance : Balance) (state : State Name) : Prop where
  stored : ∀ key entry deadline, state.cache.cache.inner.slot key = some ⟨entry, deadline⟩ →
    RestsRebuilt balance key.qtype entry.records
  served : ∀ query ∈ state.pending, query.step = .respond → isForward query.ctx.action = true →
    Rests balance query.ctx.qtype (Balance.answersOf query.ctx)

theorem rested_lookup (unordered : balance.mode = .None) {state : State Name}
    (rested : Rested balance state) {ctx looked : QueryContext Name}
    (hit : state.cache.lookup state.now ctx = (.respond, looked)) :
    (∃ response, looked.response = some response) ∧
      Rests balance looked.qtype (Balance.answersOf looked) := by
  have outcome := state.cache.outcome_lookup state.now ctx
  rw [hit] at outcome
  cases outcome with
  | hits asks entry found =>
      obtain ⟨deadline, slot, _⟩ := DnsCache.getCached_eq_fresh_iff.mp found
      exact ⟨⟨_, rfl⟩, rests_respond unordered (rested.stored _ entry deadline slot) _ _⟩

theorem rested_lookupStages (unordered : balance.mode = .None) {state : State Name}
    (rested : Rested balance state) {ctx looked : QueryContext Name}
    (stages : lookupStages state.hosts state.groups state.cache state.now ctx = (.respond, looked))
    (forward : isForward looked.action = true) :
    Rests balance looked.qtype (Balance.answersOf looked) := by
  unfold lookupStages at stages
  cases handled : Hosts.handle state.hosts ctx with
  | mk hostsStep hostsCtx =>
      rw [handled] at stages
      cases hostsStep with
      | respond =>
          cases stages
          rw [action_of_hosts_respond handled] at forward
          cases forward
      | «continue» => exact (rested_lookup unordered rested stages).2

theorem rests_answerStages {self : Pipeline} (unordered : self.balance.mode = .None)
    {world : World Name} {query : Pending Name} (harmless : ¬ StoresUnbalanced self world query)
    (served : query.step = .respond → isForward query.ctx.action = true →
      Rests self.balance query.ctx.qtype (Balance.answersOf query.ctx))
    (asks : query.ctx.skipCache = false)
    (forward : isForward (answerStages self world query.step query.ctx).action = true) :
    Rests self.balance query.ctx.qtype
      (Balance.answersOf (answerStages self world query.step query.ctx)) := by
  have sameIds : ∀ (later : QueryContext Name) (id : UInt16),
      Balance.answersOf (setId later id) = Balance.answersOf later := by
    intro later id
    unfold setId Balance.answersOf
    cases later.response <;> rfl
  rw [action_answerStages] at forward
  have ruledKey := (sameQuery_rulesStage self world query.step query.ctx).key
  have sameType : (rulesStage self world query.step query.ctx).qtype = query.ctx.qtype :=
    congrArg CacheKey.qtype ruledKey
  unfold answerStages
  dsimp only
  rw [sameIds]
  apply rests_restoreName unordered
  rw [← sameType]
  apply rests_handle unordered
  intro marked
  cases ran : query.step with
  | respond =>
      rw [ran] at forward
      have servedAnswers : Balance.answersOf (rulesStage self world .respond query.ctx) =
          Balance.answersOf query.ctx := by
        unfold rulesStage Balance.answersOf
        dsimp only
        cases query.ctx.response <;> rfl
      rw [servedAnswers]
      exact served ran forward
  | «continue» =>
      rw [ran] at forward marked
      obtain ⟨captures, response, label, ruled⟩ := rulesStage_writes self world .continue query.ctx
      have markedBefore : query.ctx.skipBalance = true := by
        rw [ruled] at marked
        exact marked
      by_contra unsettled
      exact harmless ⟨ran, markedBefore, asks, forward, unsettled⟩

theorem rested_step {self : Pipeline} (unordered : self.balance.mode = .None)
    {state next : State Name} {event : Event Name} (rested : Rested self.balance state)
    (harmless : StoresBalanced self state event) (stepped : step self state event = some next) :
    Rested self.balance next := by
  cases event with
  | tick elapsed | reloadHosts hosts | reloadGroups groups =>
      cases stepped
      exact ⟨rested.stored, rested.served⟩
  | evict key =>
      cases stepped
      exact ⟨fun other entry deadline slot =>
        rested.stored other entry deadline (ExpiringStore.slot_of_slot_evict slot), rested.served⟩
  | receive msg =>
      unfold step at stepped
      dsimp only at stepped
      split at stepped
      · cases stepped
      · next ctx _ =>
          cases stepped
          refine ⟨rested.stored, fun query member responds forward => ?_⟩
          rcases List.mem_append.mp member with old | new
          · exact rested.served query old responds forward
          · cases List.mem_singleton.mp new
            exact rested_lookupStages unordered rested (Prod.ext responds rfl) forward
  | complete index world =>
      simp only [step, Option.bind_eq_bind, Option.bind_eq_some_iff] at stepped
      obtain ⟨query, waiting, cache, wrote, same⟩ := stepped
      cases same
      have served := rested.served query (List.mem_of_getElem? waiting)
      refine ⟨?_, fun other member => rested.served other (List.mem_of_mem_eraseIdx member)⟩
      have sameQuery := sameQuery_answerStages self world query.step query.ctx
      rcases writeBack_cases wrote with rfl |
        ⟨response, records, ttl, stored, asks, responded, forward, storable, put, rfl⟩
      · exact rested.stored
      · intro key entry deadline slot
        unfold DnsCache.put at put
        obtain ⟨lifetime, _, rfl⟩ := Option.map_eq_some_iff.mp put
        rcases ExpiringStore.slot_insert_cases slot with ⟨sameKey, new⟩ | old
        · cases new
          rw [sameKey, sameQuery.key]
          have rests := rests_answerStages unordered (harmless query waiting) served
            (sameQuery.skipCache.symm.trans asks) forward
          have answers : Balance.answersOf (answerStages self world query.step query.ctx) =
              response.answers := by
            unfold Balance.answersOf
            rw [responded]
          rw [answers] at rests
          exact restsRebuilt_of_cacheable unordered rests storable
        · exact rested.stored key entry deadline old

theorem rested_start (balance : Balance) (now : Nat) (hosts : HostsTrie)
    (groups : List GroupState) (cfg : CacheConfig) :
    Rested balance (start now hosts groups cfg : State Name) where
  stored _ _ _ slot := absurd slot nofun
  served _ member := absurd member List.not_mem_nil

/-! ### With the switch on or off -/

/-- The same cache under the other setting of `cache.skip_balance`. -/
def withSkipBalance (skip : Bool) (cache : Cache Name) : Cache Name :=
  { cache with skipBalanceOnHit := skip }

omit [NameApi Name] in
theorem handle_of_rests {ctx : QueryContext Name} {response : Message Name}
    (responded : ctx.response = some response)
    (rests : Rests balance ctx.qtype (Balance.answersOf ctx)) (chance : Chance) :
    (balance.handle chance ctx).2 = ctx := by
  obtain ⟨written, handled⟩ := balance_writes balance chance ctx
  have same := (balance_leaves_iff responded).mpr (.inr rests) chance
  rw [handled] at same ⊢
  dsimp only at same
  rw [same]

theorem answerStages_of_rests {self : Pipeline} {world : World Name} {ctx : QueryContext Name}
    {response : Message Name} (responded : ctx.response = some response)
    (rests : Rests self.balance ctx.qtype (Balance.answersOf ctx)) :
    answerStages self world .respond ctx = setId (restoreName ctx) ctx.msg.metadata.id := by
  have ruled : rulesStage self world .respond ctx = ctx := by
    unfold rulesStage
    dsimp only
    rw [responded, Option.getD_some, ← responded]
  unfold answerStages
  dsimp only
  rw [ruled, handle_of_rests responded rests]

theorem answerStages_skipBalance {self : Pipeline} {world : World Name}
    {ctx : QueryContext Name} {response : Message Name} (responded : ctx.response = some response)
    (rests : Rests self.balance ctx.qtype (Balance.answersOf ctx)) (skip : Bool) :
    answerStages self world .respond { ctx with skipBalance := skip } =
      { answerStages self world .respond ctx with skipBalance := skip } := by
  have marked : answerStages self world .respond { ctx with skipBalance := skip } =
      setId (restoreName { ctx with skipBalance := skip }) ctx.msg.metadata.id :=
    answerStages_of_rests responded rests
  rw [marked, answerStages_of_rests responded rests]
  unfold restoreName
  dsimp only
  split <;> rfl

theorem writeBack_skipBalance (cache : Cache Name) (now : Nat) (ctx : QueryContext Name)
    (onHit skip : Bool) :
    (withSkipBalance onHit cache).writeBack now { ctx with skipBalance := skip } =
      (cache.writeBack now ctx).map (withSkipBalance onHit) := by
  unfold Cache.writeBack withSkipBalance
  dsimp only
  split
  · rfl
  · split
    · split
      · rw [Option.map_map]
        rfl
      · rfl
    · rfl

theorem lookup_withSkipBalance (cache : Cache Name) (skip : Bool) (now : Nat)
    (ctx : QueryContext Name) :
    (withSkipBalance skip cache).lookup now ctx =
      match cache.lookup now ctx with
      | (.respond, looked) => (.respond, { looked with skipBalance := skip })
      | (.continue, looked) => (.continue, looked) := by
  unfold Cache.lookup
  cases skips : ctx.skipCache with
  | true => simp
  | false =>
      have sameEntry : (withSkipBalance skip cache).cache = cache.cache := rfl
      simp only [Bool.false_eq_true, if_false, sameEntry]
      cases cache.cache.getCached now ctx.key with
      | fresh entry => rfl
      | miss => rfl

/-- Where everything rests the reply is the same under both settings. -/
theorem reply_of_rested {self : Pipeline} (unordered : self.balance.mode = .None)
    {state : State Name} (rested : Rested self.balance state) (world : World Name)
    (msg : Message Name) (skip : Bool) :
    (handleQuery self state.hosts state.groups (withSkipBalance skip state.cache) state.now world
        msg).map Prod.fst =
      (handleQuery self state.hosts state.groups state.cache state.now world msg).map
        Prod.fst := by
  unfold handleQuery
  cases openContext msg with
  | error e => rfl
  | ok ctx =>
      have unmarked : ∀ later : QueryContext Name,
          (withSkipBalance skip state.cache).writeBack state.now later =
            (state.cache.writeBack state.now later).map (withSkipBalance skip) :=
        fun later => writeBack_skipBalance state.cache state.now later skip later.skipBalance
      dsimp only
      unfold lookupStages
      cases Hosts.handle state.hosts ctx with
      | mk hostsStep hostsCtx =>
          cases hostsStep with
          | respond => simp only [unmarked, Option.map_map, Function.comp_def]
          | «continue» =>
              dsimp only
              rw [lookup_withSkipBalance]
              cases looked : state.cache.lookup state.now (Groups.handle state.groups hostsCtx).2 with
              | mk step lookedCtx =>
                  cases step with
                  | «continue» => simp only [unmarked, Option.map_map, Function.comp_def]
                  | respond =>
                      obtain ⟨⟨response, responded⟩, rests⟩ :=
                        rested_lookup unordered rested looked
                      dsimp only
                      rw [answerStages_skipBalance responded rests, writeBack_skipBalance,
                        Option.map_map, Option.map_map, Option.map_map]
                      rfl

/-- Balancing twice without a mode is balancing once; and in every run that stores what
was balanced a hit is served alike, whether it is balanced again or not. -/
theorem rebalancing_changes_nothing {self : Pipeline} (unordered : self.balance.mode = .None) :
    (∀ (chance later : Chance) (ctx : QueryContext Name),
      self.balance.handle later (self.balance.handle chance ctx).2 =
        self.balance.handle chance ctx) ∧
    ∀ {startTime : Nat} {hosts : HostsTrie} {groups : List GroupState} {cfg : CacheConfig}
      {state : State Name},
      (machine self).GuardedRun (StoresBalanced self) (start startTime hosts groups cfg) state →
      ∀ (world : World Name) (msg : Message Name),
        (handleQuery self state.hosts state.groups (withSkipBalance false state.cache) state.now
            world msg).map Prod.fst =
          (handleQuery self state.hosts state.groups (withSkipBalance true state.cache) state.now
            world msg).map Prod.fst := by
  constructor
  · intro chance later ctx
    exact Balance.handle_handle unordered chance later ctx
  · intro startTime hosts groups cfg state run world msg
    have rested : Rested self.balance state :=
      run.invariant (rested_start _ _ _ _ _)
        fun before allowed stepped => rested_step unordered before allowed stepped
    rw [reply_of_rested unordered rested, reply_of_rested unordered rested]

def forwardPreferring : Pipeline where
  rules := forwardAll.rules
  balance := Balance.preferring

def unsorted : World LabelName :=
  answering [.fromRdata ⟨["a".toList], true⟩ 60 (.A 0xC0000201#32),
    .fromRdata ⟨["a".toList], true⟩ 60 (.A 0x0A000001#32)]

def unbalanced : GroupState :=
  Groups.initState (fun _ => none)
    { name := "g".toList, domains := ["a".toList], skipCache := false, skipBalance := true }

/-- No group has marked the query that is completed. -/
def CompletesUnmarked (state : State Name) : Event Name → Prop
  | .complete index _ => ∀ query ∈ state.pending[index]?, query.ctx.skipBalance = false
  | _ => True

instance (state : State Name) (event : Event Name) : Decidable (CompletesUnmarked state event) :=
  match event with
  | .complete index _ =>
      inferInstanceAs (Decidable (∀ query ∈ state.pending[index]?, query.ctx.skipBalance = false))
  | .tick _ | .receive _ | .reloadHosts _ | .reloadGroups _ | .evict _ => .isTrue trivial

theorem storesBalanced_of_completesUnmarked {self : Pipeline} {state : State Name}
    {event : Event Name} (unmarked : CompletesUnmarked state event) :
    StoresBalanced self state event := by
  cases event with
  | complete index world =>
      intro query waiting ⟨_, marked, _⟩
      exact absurd (marked.symm.trans (unmarked query waiting)) nofun
  | tick _ | receive _ | reloadHosts _ | reloadGroups _ | evict _ => trivial

def storedOnce (groups : List GroupState) (allowed : State LabelName → Event LabelName → Prop)
    [∀ state event, Decidable (allowed state event)] : Option (State LabelName) :=
  (machine forwardPreferring).execWhile allowed (start 0 noHosts groups defaults)
    [.receive question.msg, .complete 0 unsorted]

def secondReply (state : State LabelName) (skip : Bool) :
    Option (IoResult (Option (Message LabelName))) :=
  (handleQuery forwardPreferring state.hosts state.groups (withSkipBalance skip state.cache)
    state.now unsorted question.msg).map Prod.fst

/-- Without groups everything stored has been balanced. -/
theorem stored_answer_served_alike :
    ∃ state : State LabelName,
      (machine forwardPreferring).Run (start 0 noHosts [] defaults) state ∧
      isServed state = true ∧ secondReply state false = secondReply state true := by
  have checked : (storedOnce [] CompletesUnmarked).any isServed = true := by decide +kernel
  obtain ⟨state, executed, served⟩ := (Option.any_eq_true _ _).mp checked
  have run := Machine.GuardedRun.of_execWhile .refl executed
  exact ⟨state, run.mono fun _ => trivial, served,
    (rebalancing_changes_nothing rfl).2 (run.mono storesBalanced_of_completesUnmarked) unsorted
      question.msg⟩

/-- The name's group skips the balance, so the answers are stored as they came.  With the
switch off the hit is balanced for all that. -/
theorem member_is_served_in_two_orders :
    forwardPreferring.balance.mode = .None ∧
    ∃ state : State LabelName,
      (machine forwardPreferring).Run (start 0 noHosts [unbalanced] defaults) state ∧
        (handleQuery forwardPreferring state.hosts state.groups
            (withSkipBalance false state.cache) state.now unsorted question.msg).map Prod.fst ≠
          (handleQuery forwardPreferring state.hosts state.groups
            (withSkipBalance true state.cache) state.now unsorted question.msg).map Prod.fst := by
  have checked : (storedOnce [unbalanced] fun _ _ => True).any
      (fun state => secondReply state false ≠ secondReply state true) = true := by decide +kernel
  obtain ⟨state, executed, differ⟩ := (Option.any_eq_true _ _).mp checked
  exact ⟨rfl, state, Machine.GuardedRun.of_execWhile .refl executed, of_decide_eq_true differ⟩

end Rsdns.Server
