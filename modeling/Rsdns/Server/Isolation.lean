import Rsdns.Dns.Spelling
import Rsdns.Server.Forwarded

/-!
# Questions that share no entry

The key of an entry is the lowercased name of the question, without the dots at
its end, and the type.  So questions that differ in either share no entry, and
the records of a hit go back to what a forward rule got for the same question.
The class of the question is no part of the key, and a rule that resolves
aliases gets its records for another name.
-/

namespace Rsdns.Server

open Dns Plugins

variable {Name : Type} [NameApi Name]

/-! ### Keys -/

def questionKey (query : Query Name) : CacheKey :=
  { name := keyName query.name, qtype := query.queryType }

/-- The same name up to letter case, and the same type. -/
def SameQuestion (text : NameText Name) (first second : Query Name) : Prop :=
  text.SameName first.name second.name ∧ first.queryType = second.queryType

theorem sameQuestion_of_questionKey_eq {text : NameText Name} (readable : text.Readable)
    {first second : Query Name} (same : questionKey first = questionKey second) :
    SameQuestion text first second := by
  obtain ⟨sameName, sameType⟩ := CacheKey.mk.inj same
  refine ⟨?_, sameType⟩
  have labels := text.labels_eq_of_trimEndMatches_eq readable sameName
  unfold NameText.SameName
  rw [← text.toLowercase, ← text.toLowercase, labels]

theorem key_of_openContext {msg : Message Name} {ctx : QueryContext Name}
    (opened : openContext msg = .ok ctx) : ctx.msg = msg ∧ ctx.key = questionKey ctx.question := by
  unfold openContext at opened
  split at opened
  · cases opened
    exact ⟨rfl, rfl⟩
  · cases opened

/-! ### Hosts that rewrite nothing -/

/-- No name is rewritten: the original of every alias has addresses. -/
def KeepsNames (hosts : HostsTrie) : Prop :=
  ∀ name original, hosts.lookup name = .Alias original → ∃ ips, hosts.lookup original = .Ips ips

theorem lookupStages_keep {hosts : HostsTrie} (keeps : KeepsNames hosts)
    (groups : List GroupState) (cache : Cache Name) (now : Nat) (ctx : QueryContext Name) :
    (lookupStages hosts groups cache now ctx).2.key = ctx.key ∧
      (lookupStages hosts groups cache now ctx).2.msg = ctx.msg := by
  apply lookupStages_preserves (motive := fun later => later.key = ctx.key ∧ later.msg = ctx.msg)
  · have outcome := outcome_handle hosts ctx
    generalize Hosts.handle hosts ctx = handled at outcome ⊢
    cases outcome with
    | answers response asks => exact ⟨rfl, rfl⟩
    | passes unaliased => exact ⟨rfl, rfl⟩
    | rewrites original rewrites =>
        obtain ⟨ips, found⟩ := keeps ctx.name original rewrites.1
        exact absurd found (rewrites.2 ips)
  · intro later kept
    unfold Groups.handle
    split
    · exact kept
    · exact kept
  · intro later kept
    have looked := sameQuery_lookup cache now later
    exact ⟨looked.key.trans kept.1, looked.msg.trans kept.2⟩

/-! ### Where records come from -/

/-- The record was stored for data that the forward rule got, or for what was served from
such a record. -/
inductive Traced (forwarded : Forwarded Name) : CacheRecord Name → Prop where
  | stored {data record} (gave : forwarded.Gave data) (cached : cacheRecord data = some record) :
      Traced forwarded record
  | reread {source record} (traced : Traced forwarded source) (reads : source.ReadsAs record) :
      Traced forwarded record

/-- The record goes back to a forwarded query with this key. -/
def TracedTo (forwards : List (Forwarded Name)) (key : CacheKey) (record : CacheRecord Name) :
    Prop :=
  ∃ forwarded ∈ forwards, questionKey forwarded.question = key ∧ Traced forwarded record

theorem TracedTo.mono {forwards more : List (Forwarded Name)} {key : CacheKey}
    {record : CacheRecord Name} (traced : TracedTo forwards key record)
    (grows : forwards ⊆ more) : TracedTo more key record := by
  obtain ⟨forwarded, member, same, here⟩ := traced
  exact ⟨forwarded, grows member, same, here⟩

/-- The answer says what such a record says. -/
def ShownFrom (forwards : List (Forwarded Name)) (key : CacheKey) (answer : Record Name) : Prop :=
  ∃ record, TracedTo forwards key record ∧ record.rdata = .ok (some answer.data)

theorem tracedTo_of_cacheable {forwards : List (Forwarded Name)} {key : CacheKey}
    {final built : Message Name} (presents : Presents final built)
    {records : List (CacheRecord Name)} {ttl : UInt32}
    (storable : cacheable final none = some (records, ttl))
    (traced : ∀ answer ∈ built.answers, ∀ record, cacheRecord answer.data = some record →
      TracedTo forwards key record) :
    ∀ record ∈ records, record.IsNegative ∨ TracedTo forwards key record := by
  intro record member
  obtain ⟨_, extracted | ⟨_, ⟨_, rfl⟩ | ⟨_, rfl⟩⟩⟩ := cacheable_cases storable
  · rw [extractCacheRecords_eq_some extracted] at member
    obtain ⟨answer, inAnswers, cached⟩ := List.mem_filterMap.mp member
    obtain ⟨source, inBuilt, data, _⟩ := presents.told answer inAnswers
    rw [data] at cached
    exact .inr (traced source inBuilt record cached)
  · exact .inl (.inl (List.mem_singleton.mp member))
  · exact .inl (.inr (List.mem_singleton.mp member))

theorem shownFrom_of_respond {forwards : List (Forwarded Name)} {key : CacheKey}
    {entry : CacheEntry Name}
    (traced : ∀ record ∈ entry.records, record.IsNegative ∨ TracedTo forwards key record)
    (cache : Cache Name) (now : Nat) (msg : Message Name) :
    ∀ answer ∈ (cache.respond now msg entry).answers, ShownFrom forwards key answer := by
  intro answer member
  unfold Cache.respond at member
  split at member
  · next built served =>
      obtain ⟨query, answers, _, rebuilt, rfl⟩ := buildResponseFromCache_eq_ok_iff.mp served
      obtain ⟨record, inRecords, shown⟩ := mem_rebuildAnswers rebuilt member
      refine ⟨record, ?_, shown⟩
      rcases traced record inRecords with negative | traced
      · rw [rdata_eq_ok_none_iff.mpr negative] at shown
        cases shown
      · exact traced
  · cases member

/-! ### The invariant -/

def forwardedOn (self : Pipeline) (world : World Name) (query : Pending Name) :
    List (Forwarded Name) :=
  match query.step with
  | .continue => (forwardedBy self world query.ctx).toList
  | .respond => []

def noteForwarded (self : Pipeline) (state : State Name) (event : Event Name)
    (_ : State Name) (forwards : List (Forwarded Name)) : List (Forwarded Name) :=
  match event with
  | .complete index world =>
      forwards ++ state.pending[index]?.toList.flatMap (forwardedOn self world)
  | _ => forwards

def forwardMachine (self : Pipeline) :
    Machine (State Name × List (Forwarded Name)) (Event Name) :=
  (machine self).recording (noteForwarded self)

/-- No hosts table of the run rewrites a name. -/
def LoadsKeeping (_ : State Name × List (Forwarded Name)) : Event Name → Prop
  | .reloadHosts hosts => KeepsNames hosts
  | _ => True

/-- A pending query asks for its own question, and a hit shows what belongs to it. -/
structure AsksOwn (forwards : List (Forwarded Name)) (query : Pending Name) : Prop where
  keyed : query.ctx.key = questionKey query.ctx.question
  hits : ∀ entry, query.hit = some entry → query.step = .respond ∧
    ∃ served, query.ctx.response = some served ∧
      ∀ answer ∈ served.answers, ShownFrom forwards query.ctx.key answer
  others : query.hit = none → query.step = .continue ∨ isForward query.ctx.action = false

structure Separate (state : State Name) (forwards : List (Forwarded Name)) : Prop where
  hosts : KeepsNames state.hosts
  stored : ∀ key entry deadline, state.cache.cache.inner.slot key = some ⟨entry, deadline⟩ →
    ∀ record ∈ entry.records, record.IsNegative ∨ TracedTo forwards key record
  pending : ∀ query ∈ state.pending, AsksOwn forwards query

theorem AsksOwn.mono {forwards more : List (Forwarded Name)} {query : Pending Name}
    (asksOwn : AsksOwn forwards query) (grows : forwards ⊆ more) : AsksOwn more query := by
  refine ⟨asksOwn.keyed, ?_, asksOwn.others⟩
  intro entry hit
  obtain ⟨responds, served, served_eq, shown⟩ := asksOwn.hits entry hit
  refine ⟨responds, served, served_eq, ?_⟩
  intro answer member
  obtain ⟨record, traced, same⟩ := shown answer member
  exact ⟨record, traced.mono grows, same⟩

theorem separate_receive {state : State Name} {forwards : List (Forwarded Name)}
    (separate : Separate state forwards) {msg : Message Name} {ctx looked : QueryContext Name}
    {step : Step} (opened : openContext msg = .ok ctx)
    (stages : lookupStages state.hosts state.groups state.cache state.now ctx = (step, looked)) :
    AsksOwn forwards { ctx := looked, step := step, hit := hitEntry state ctx } := by
  obtain ⟨onHit, onMiss⟩ := lookupStages_spec stages
  have kept := lookupStages_keep separate.hosts state.groups state.cache state.now ctx
  rw [stages] at kept
  obtain ⟨sameKey, sameMsg⟩ := kept
  dsimp only at sameKey sameMsg
  have sameQuestion : looked.question = ctx.question := by
    unfold QueryContext.question
    simp only [sameMsg]
  refine ⟨?_, ?_, onMiss⟩
  · dsimp only
    rw [sameKey, sameQuestion]
    exact (key_of_openContext opened).2
  · intro entry hit
    obtain ⟨responds, fresh, asked, served⟩ := onHit entry hit
    obtain ⟨deadline, slot, _⟩ := DnsCache.getCached_eq_fresh_iff.mp fresh
    refine ⟨responds, _, served, ?_⟩
    exact shownFrom_of_respond (separate.stored _ entry deadline slot) state.cache state.now asked

/-- What a completion stores is a marker, or goes back to what was forwarded for the key. -/
theorem stored_of_complete {self : Pipeline} {forwards : List (Forwarded Name)}
    {query : Pending Name} (asksOwn : AsksOwn forwards query) {world : World Name}
    {response : Message Name} {records : List (CacheRecord Name)} {ttl : UInt32}
    (responded : (answerStages self world query.step query.ctx).response = some response)
    (forward : isForward (answerStages self world query.step query.ctx).action = true)
    (storable : cacheable response none = some (records, ttl)) :
    ∀ record ∈ records, record.IsNegative ∨
      TracedTo (forwards ++ forwardedOn self world query) query.ctx.key record := by
  cases hit : query.hit with
  | some entry =>
      obtain ⟨responds, served, isServed, shown⟩ := asksOwn.hits entry hit
      obtain ⟨final, isFinal, presents⟩ := presents_of_respond responds isServed
      cases isFinal.symm.trans responded
      apply tracedTo_of_cacheable presents storable
      intro answer member record cached
      obtain ⟨source, ⟨forwarded, inForwards, same, traced⟩, data⟩ := shown answer member
      exact ⟨forwarded, List.mem_append_left _ inForwards, same,
        .reread traced (.shown data cached)⟩
  | none =>
      have proceeds := proceeds_of_forward (asksOwn.others hit) forward
      rw [action_answerStages] at forward
      rw [proceeds] at responded forward
      obtain ⟨built, isBuilt, answered⟩ := forwardAnswer_of_rulesStage forward
      obtain ⟨final, isFinal, presents⟩ := presents_answerStages isBuilt
      cases isFinal.symm.trans responded
      apply tracedTo_of_cacheable presents storable
      intro answer member record cached
      cases answered with
      | denied msg => cases member
      | failed msg => cases member
      | returned forwarded _ takes returns =>
          refine ⟨forwarded, List.mem_append_right _ ?_, ?_, ?_⟩
          · unfold forwardedOn
            rw [proceeds]
            exact Option.mem_toList.mpr takes
          · rw [question_of_forwardedBy takes, asksOwn.keyed]
          · exact .stored (Forwarded.gave_of_response returns answer member) cached

theorem key_answerStages (self : Pipeline) (world : World Name) (query : Pending Name) :
    (answerStages self world query.step query.ctx).key = query.ctx.key :=
  (sameQuery_answerStages self world query.step query.ctx).key

theorem slot_of_writeBack {self : Pipeline} {world : World Name} {query : Pending Name}
    {cache cache' : Cache Name} {now : Nat}
    (wrote : cache.writeBack now (answerStages self world query.step query.ctx) = some cache') :
    cache' = cache ∨ ∃ response records ttl lifetime,
      (answerStages self world query.step query.ctx).response = some response ∧
      isForward (answerStages self world query.step query.ctx).action = true ∧
      cacheable response none = some (records, ttl) ∧
      cache'.cache.inner = cache.cache.inner.insert now query.ctx.key
        { records := records, createdAt := now, ttl := ttl } lifetime := by
  rcases writeBack_cases wrote with same |
    ⟨response, records, ttl, stored, _, responded, forward, storable, put, rfl⟩
  · exact .inl same
  · rw [key_answerStages] at put
    obtain ⟨lifetime, _, rfl⟩ := Option.map_eq_some_iff.mp put
    exact .inr ⟨response, records, ttl, lifetime, responded, forward, storable, rfl⟩

theorem separate_complete {self : Pipeline} {state : State Name}
    {forwards : List (Forwarded Name)} (separate : Separate state forwards) {index : Nat}
    {world : World Name} {query : Pending Name} (waiting : state.pending[index]? = some query)
    {cache : Cache Name}
    (wrote : state.cache.writeBack state.now (answerStages self world query.step query.ctx) =
      some cache) (fetched : List (WriteBack Name)) :
    Separate
      { state with
        cache := cache
        pending := state.pending.eraseIdx index
        fetched := fetched }
      (forwards ++ forwardedOn self world query) := by
  have grows : forwards ⊆ forwards ++ forwardedOn self world query := List.subset_append_left _ _
  have asksOwn := separate.pending query (List.mem_of_getElem? waiting)
  have old : ∀ {key entry deadline},
      state.cache.cache.inner.slot key = some ⟨entry, deadline⟩ → ∀ record ∈ entry.records,
        record.IsNegative ∨ TracedTo (forwards ++ forwardedOn self world query) key record := by
    intro key entry deadline slot record member
    rcases separate.stored key entry deadline slot record member with negative | traced
    · exact .inl negative
    · exact .inr (traced.mono grows)
  refine ⟨separate.hosts, ?_, ?_⟩
  · intro key entry deadline slot
    rcases slot_of_writeBack wrote with rfl |
      ⟨response, records, ttl, lifetime, responded, forward, storable, inserted⟩
    · exact old slot
    · dsimp only at slot
      rw [inserted] at slot
      rcases ExpiringStore.slot_insert_cases slot with ⟨rfl, new⟩ | before
      · cases new
        exact stored_of_complete asksOwn responded forward storable
      · exact old before
  · intro other member
    exact (separate.pending other (List.mem_of_mem_eraseIdx member)).mono grows

theorem separate_step {self : Pipeline} {recorded next : State Name × List (Forwarded Name)}
    {event : Event Name} (separate : Separate recorded.1 recorded.2)
    (keeps : LoadsKeeping recorded event)
    (stepped : (forwardMachine self).step recorded event = some next) :
    Separate next.1 next.2 := by
  obtain ⟨state, forwards⟩ := recorded
  obtain ⟨after, noted⟩ := next
  obtain ⟨moved, same⟩ := Machine.recording_step_eq_some.mp stepped
  dsimp only at moved same separate
  subst same
  cases event with
  | tick elapsed =>
      cases moved
      exact ⟨separate.hosts, separate.stored, separate.pending⟩
  | receive msg =>
      simp only [machine, step] at moved
      split at moved
      · cases moved
      · next ctx opened =>
          cases moved
          refine ⟨separate.hosts, separate.stored, ?_⟩
          intro query member
          rcases List.mem_append.mp member with old | new
          · exact separate.pending query old
          · cases List.mem_singleton.mp new
            exact separate_receive separate opened rfl
  | complete index world =>
      simp only [machine, step, Option.bind_eq_bind, Option.bind_eq_some_iff] at moved
      obtain ⟨query, waiting, cache, wrote, same⟩ := moved
      cases same
      have noted : noteForwarded self state (.complete index world) state forwards =
          forwards ++ forwardedOn self world query := by
        simp only [noteForwarded, waiting, Option.toList_some, List.flatMap_singleton]
      exact noted ▸ separate_complete separate waiting wrote _
  | reloadHosts hosts =>
      cases moved
      exact ⟨keeps, separate.stored, separate.pending⟩
  | reloadGroups groups =>
      cases moved
      exact ⟨separate.hosts, separate.stored, separate.pending⟩
  | evict key =>
      cases moved
      refine ⟨separate.hosts, ?_, separate.pending⟩
      intro other entry deadline slot
      exact separate.stored other entry deadline (ExpiringStore.slot_of_slot_evict slot)

theorem separate_start {hosts : HostsTrie} (keeps : KeepsNames hosts) (now : Nat)
    (groups : List GroupState) (cfg : CacheConfig) :
    Separate (start now hosts groups cfg : State Name) [] where
  hosts := keeps
  stored _ _ _ slot := absurd slot nofun
  pending _ member := absurd member List.not_mem_nil

/-! ### Runs -/

/-- What a hit answers was got for the same question. -/
def HitsOwn (text : NameText Name) (self : Pipeline) (state : State Name)
    (forwards : List (Forwarded Name)) : Prop :=
  ∀ msg ctx entry step looked world final, openContext msg = .ok ctx →
    hitEntry state ctx = some entry →
    lookupStages state.hosts state.groups state.cache state.now ctx = (step, looked) →
    (answerStages self world step looked).response = some final →
    ∀ answer ∈ final.answers, ∃ forwarded ∈ forwards,
      SameQuestion text forwarded.question ctx.question ∧
        ∃ record, Traced forwarded record ∧ record.rdata = .ok (some answer.data)

/-- A hit reads the entry under the key of the question. -/
def ReadsOwn (state : State Name) : Prop :=
  ∀ msg ctx entry, openContext msg = .ok ctx → hitEntry state ctx = some entry →
    ∃ deadline, state.cache.cache.inner.slot (questionKey ctx.question) = some ⟨entry, deadline⟩

/-- A completion changes no entry but the one under the key of the question. -/
def WritesOwn (self : Pipeline) (state : State Name) : Prop :=
  ∀ index world query next, state.pending[index]? = some query →
    step self state (.complete index world) = some next →
    ∀ key ≠ questionKey query.ctx.question,
      next.cache.cache.inner.slot key = state.cache.cache.inner.slot key

theorem hitsOwn_of_separate {text : NameText Name} (readable : text.Readable) (self : Pipeline)
    {state : State Name} {forwards : List (Forwarded Name)} (separate : Separate state forwards) :
    HitsOwn text self state forwards := by
  intro msg ctx entry step looked world final opened hit stages responded answer member
  have asksOwn := separate_receive separate opened stages
  have kept := lookupStages_keep separate.hosts state.groups state.cache state.now ctx
  rw [stages] at kept
  obtain ⟨responds, served, isServed, shown⟩ := asksOwn.hits entry hit
  dsimp only at responds isServed shown kept
  obtain ⟨presented, isFinal, presents⟩ := presents_of_respond responds isServed
  cases isFinal.symm.trans responded
  obtain ⟨source, inServed, data, _⟩ := presents.told answer member
  obtain ⟨record, ⟨forwarded, inForwards, same, traced⟩, rebuilt⟩ := shown source inServed
  rw [kept.1, (key_of_openContext opened).2] at same
  exact ⟨forwarded, inForwards, sameQuestion_of_questionKey_eq readable same, record, traced,
    data ▸ rebuilt⟩

theorem readsOwn_of_separate {state : State Name} {forwards : List (Forwarded Name)}
    (separate : Separate state forwards) : ReadsOwn state := by
  intro msg ctx entry opened hit
  have kept := lookupStages_keep separate.hosts state.groups state.cache state.now ctx
  cases stages : lookupStages state.hosts state.groups state.cache state.now ctx with
  | mk step looked =>
      rw [stages] at kept
      obtain ⟨onHit, _⟩ := lookupStages_spec stages
      obtain ⟨_, fresh, _⟩ := onHit entry hit
      obtain ⟨deadline, slot, _⟩ := DnsCache.getCached_eq_fresh_iff.mp fresh
      rw [kept.1, (key_of_openContext opened).2] at slot
      exact ⟨deadline, slot⟩

theorem writesOwn_of_separate {self : Pipeline} {state : State Name}
    {forwards : List (Forwarded Name)} (separate : Separate state forwards) :
    WritesOwn self state := by
  intro index world query next waiting stepped key different
  simp only [step, Option.bind_eq_bind, Option.bind_eq_some_iff] at stepped
  obtain ⟨completed, found, cache, wrote, same⟩ := stepped
  cases found.symm.trans waiting
  cases same
  rw [← (separate.pending query (List.mem_of_getElem? waiting)).keyed] at different
  rcases slot_of_writeBack wrote with rfl | ⟨_, _, _, lifetime, _, _, _, inserted⟩
  · rfl
  · dsimp only
    rw [inserted]
    exact ExpiringStore.insert_slot_of_ne _ _ _ different _

/-- In every run without rewritten names the answers of a hit were got for a question of
the same name and type, and questions that differ in name or type share no entry. -/
theorem questions_share_no_entry {text : NameText Name} (readable : text.Readable)
    {self : Pipeline} {cfg : CacheConfig} {startTime : Nat} {hosts : HostsTrie}
    {groups : List GroupState} (keeps : KeepsNames hosts) {state : State Name}
    {forwards : List (Forwarded Name)}
    (run : (forwardMachine self).GuardedRun LoadsKeeping
      (start startTime hosts groups cfg, []) (state, forwards)) :
    HitsOwn text self state forwards ∧
      (∀ first second, ¬ SameQuestion text first second →
        questionKey first ≠ questionKey second) ∧
      ReadsOwn state ∧ WritesOwn self state := by
  have separate : Separate state forwards :=
    run.invariant (separate_start keeps startTime groups cfg) separate_step
  exact ⟨hitsOwn_of_separate readable self separate,
    fun first second differ same => differ (sameQuestion_of_questionKey_eq readable same),
    readsOwn_of_separate separate, writesOwn_of_separate separate⟩

theorem keepsNames_empty : KeepsNames (buildHostsTrie (fun _ => none) []) := by
  intro name original aliased
  have missed : (buildHostsTrie (fun _ => none) []).trie.lookup name = none := by
    apply Option.eq_none_iff_forall_ne_some.mpr
    intro tag found
    obtain ⟨domain, _, _, tagged, _⟩ := Common.DomainSuffixTrie.lookup_eq_some_iff.mp found
    cases tagged
  unfold HostsTrie.lookup at aliased
  rw [missed] at aliased
  cases aliased

def leavesHosts : Event Name → Bool
  | .reloadHosts _ => false
  | _ => true

omit [NameApi Name] in
theorem loadsKeeping_of_leavesHosts {recorded : State Name × List (Forwarded Name)}
    {event : Event Name} (leaves : leavesHosts event = true) : LoadsKeeping recorded event := by
  cases event with
  | reloadHosts hosts => cases leaves
  | tick _ | receive _ | complete _ _ | reloadGroups _ | evict _ => trivial

theorem keeping_of_execWhile {self : Pipeline} {first last : State Name × List (Forwarded Name)}
    {events : List (Event Name)}
    (executed : (forwardMachine self).execWhile (fun _ event => leavesHosts event = true) first
      events = some last) :
    (forwardMachine self).GuardedRun LoadsKeeping first last := by
  apply Machine.GuardedRun.mono (.of_execWhile .refl executed)
  exact loadsKeeping_of_leavesHosts

def askLetter (letter : UInt8) : Message ByteName :=
  { Message.new 1 .query .query with
    queries := [{ name := ⟨[⟨[letter], by simp⟩], true⟩, queryType := .A, queryClass := .IN }] }

def givesAddress : World ByteName where
  upstream _ _ msg := some { msg with
    answers := [Record.fromRdata ⟨[], true⟩ 600 (.A 0x0A000001#32)] }
  echTemplate _ _ := none
  chance := ⟨fun _ => 0, fun _ _ => none⟩

/-- The context of a query, and whether it is answered from an entry. -/
def hitsLetter (state : State ByteName) (letter : UInt8) : Bool :=
  match openContext (askLetter letter) with
  | .ok ctx => (hitEntry state ctx).isSome
  | .error _ => false

/-- The answer for a small letter is served for the capital, and belongs to the question. -/
theorem capital_shares_entry :
    ∃ state forwards ctx entry,
      (forwardMachine forwardAll).GuardedRun LoadsKeeping
        (start 0 (buildHostsTrie (fun _ => none) []) [] defaults, []) (state, forwards) ∧
      openContext (askLetter 65) = .ok ctx ∧ hitEntry state ctx = some entry ∧
      HitsOwn ByteName.text forwardAll state forwards ∧
      (∀ first second, ¬ SameQuestion ByteName.text first second →
        questionKey first ≠ questionKey second) ∧
      ReadsOwn state ∧ WritesOwn forwardAll state := by
  have checked : ((forwardMachine forwardAll).execWhile (fun _ event => leavesHosts event = true)
      (start 0 (buildHostsTrie (fun _ => none) []) [] defaults, [])
      [.receive (askLetter 97), .complete 0 givesAddress, .tick (Duration.fromSecs 60)]).any
        (fun recorded => hitsLetter recorded.1 65) = true := by
    decide +kernel
  obtain ⟨⟨state, forwards⟩, executed, hits⟩ := (Option.any_eq_true _ _).mp checked
  have run := keeping_of_execWhile executed
  unfold hitsLetter at hits
  cases opened : openContext (askLetter 65) with
  | error e =>
      rw [opened] at hits
      cases hits
  | ok ctx =>
      rw [opened] at hits
      obtain ⟨entry, hit⟩ := Option.isSome_iff_exists.mp hits
      exact ⟨state, forwards, ctx, entry, run, rfl, hit,
        questions_share_no_entry ByteName.text_readable keepsNames_empty run⟩

/-- In some run without rewritten names a hit answers the question with records that were
received for questions of other classes only. -/
def ServesOtherClass (self : Pipeline) (msg : Message LabelName) : Prop :=
  ∃ state forwards ctx served,
    (forwardMachine self).GuardedRun LoadsKeeping
      (start 0 (buildHostsTrie (fun _ => none) []) [] defaults, []) (state, forwards) ∧
    openContext msg = .ok ctx ∧ (hitEntry state ctx).isSome = true ∧
    (lookupStages state.hosts state.groups state.cache state.now ctx).2.response = some served ∧
    served.answers ≠ [] ∧
    ∀ forwarded ∈ forwards, forwarded.question.queryClass ≠ ctx.question.queryClass

/-- In some run without rewritten names a hit answers the question with a record that was in
no answer to a query of a client. -/
def ServesOtherName (self : Pipeline) (msg : Message LabelName) : Prop :=
  ∃ state forwards ctx served,
    (forwardMachine self).GuardedRun LoadsKeeping
      (start 0 (buildHostsTrie (fun _ => none) []) [] defaults, []) (state, forwards) ∧
    openContext msg = .ok ctx ∧ (hitEntry state ctx).isSome = true ∧
    (lookupStages state.hosts state.groups state.cache state.now ctx).2.response = some served ∧
    ∃ answer ∈ served.answers, ∀ forwarded ∈ forwards, ∀ resp ∈ forwarded.received,
      ∀ other ∈ resp.answers, other.data ≠ answer.data

/-- The question of another class. -/
def chaosQuestion : Message LabelName :=
  { question.msg with
    queries := [{ name := ⟨["a".toList], true⟩, queryType := .A, queryClass := .other 3 }] }

def resolveAll : Pipeline where
  rules := Rules.init
    [{ target := .MatchAll, qtype := none,
       action := .Forward "u".toList none [] true none none }] (by decide)
  balance := Balance.init none

def aliasWorld : World LabelName where
  upstream turn _ msg := some { msg with
    answers :=
      if turn = 0 then [Record.fromRdata ⟨["a".toList], true⟩ 600 (.CNAME ⟨["b".toList], true⟩)]
      else [Record.fromRdata ⟨["b".toList], true⟩ 600 (.A 0x0A000001#32)] }
  echTemplate _ _ := none
  chance := ⟨fun _ => 0, fun _ _ => none⟩

def servedNow (state : State LabelName) : Option (Message LabelName) :=
  (lookupStages state.hosts state.groups state.cache state.now question).2.response

theorem servesOtherClass : ServesOtherClass forwardAll question.msg := by
  have checked : ((forwardMachine forwardAll).execWhile (fun _ event => leavesHosts event = true)
      (start 0 (buildHostsTrie (fun _ => none) []) [] defaults, [])
      [.receive chaosQuestion, .complete 0 (addressFor 600)]).any
        (fun recorded => (hitEntry recorded.1 question).isSome &&
          (servedNow recorded.1).any fun served => served.answers ≠ [] ∧
            ∀ forwarded ∈ recorded.2,
              forwarded.question.queryClass ≠ question.question.queryClass) = true := by
    decide +kernel
  obtain ⟨⟨state, forwards⟩, executed, checks⟩ := (Option.any_eq_true _ _).mp checked
  obtain ⟨hit, answered⟩ := (Bool.and_eq_true _ _).mp checks
  obtain ⟨served, isServed, mixed⟩ := (Option.any_eq_true _ _).mp answered
  obtain ⟨nonempty, others⟩ := of_decide_eq_true mixed
  exact ⟨state, forwards, question, served, keeping_of_execWhile executed, rfl, hit, isServed,
    nonempty, others⟩

theorem servesOtherName : ServesOtherName resolveAll question.msg := by
  have checked : ((forwardMachine resolveAll).execWhile (fun _ event => leavesHosts event = true)
      (start 0 (buildHostsTrie (fun _ => none) []) [] defaults, [])
      [.receive question.msg, .complete 0 aliasWorld]).any
        (fun recorded => (hitEntry recorded.1 question).isSome &&
          (servedNow recorded.1).any fun served =>
            ∃ answer ∈ served.answers, ∀ forwarded ∈ recorded.2,
              ∀ resp ∈ forwarded.received, ∀ other ∈ resp.answers,
                other.data ≠ answer.data) = true := by
    decide +kernel
  obtain ⟨⟨state, forwards⟩, executed, checks⟩ := (Option.any_eq_true _ _).mp checked
  obtain ⟨hit, answered⟩ := (Bool.and_eq_true _ _).mp checks
  obtain ⟨served, isServed, mixed⟩ := (Option.any_eq_true _ _).mp answered
  exact ⟨state, forwards, question, served, keeping_of_execWhile executed, rfl, hit, isServed,
    of_decide_eq_true mixed⟩

/-- The answer to a query of class CHAOS is served for the class IN, and with aliases
resolved the address of one name is served for another. -/
theorem classes_and_aliases_share_entry :
    KeepsNames (buildHostsTrie (fun _ => none) []) ∧ ServesOtherClass forwardAll question.msg ∧
      ServesOtherName resolveAll question.msg :=
  ⟨keepsNames_empty, servesOtherClass, servesOtherName⟩

end Rsdns.Server
