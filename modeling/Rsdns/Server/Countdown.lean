import Rsdns.Server.Forwarded

/-!
# TTLs count down

A hit is written back with the TTL it was served with, in whole seconds, and
from then on that one counts down.  So along any chain of hits the TTLs go down,
and no later than the TTL that the answer was first written back with.  Each
entry and each hit is traced to that answer, and a query takes no time.
-/

namespace Rsdns.Server

open Dns Plugins

variable {Name : Type}

/-! ### Seconds left -/

/-- The TTL is no more than what is left of the answer's own. -/
def WithinSource (source : WriteBack Name) (now : Nat) (ttl : UInt32) : Prop :=
  Duration.fromSecs ttl.toNat ≤
    Duration.fromSecs (extractMinTtl source.response).toNat - (now - source.time)

/-- The entry's TTL runs out no later than the answer's own. -/
def EndsWithin (source : WriteBack Name) (entry : CacheEntry Name) : Prop :=
  entry.ttl = 0 ∨ entry.createdAt + Duration.fromSecs entry.ttl.toNat ≤
    source.time + Duration.fromSecs (extractMinTtl source.response).toNat

theorem fromSecs_remainingTtl_le {entry : CacheEntry Name} {now : Nat}
    (created : entry.createdAt ≤ now) :
    Duration.fromSecs (entry.remainingTtl false now).toNat ≤
      Duration.fromSecs entry.ttl.toNat - (now - entry.createdAt) := by
  rw [remainingTtl_toNat created]
  exact Nat.div_mul_le_self _ _

theorem withinSource_remainingTtl {source : WriteBack Name} {entry : CacheEntry Name} {now : Nat}
    (ends : EndsWithin source entry) (created : entry.createdAt ≤ now)
    (past : source.time ≤ now) : WithinSource source now (entry.remainingTtl false now) := by
  have left := fromSecs_remainingTtl_le created
  unfold WithinSource
  rcases ends with ended | ends
  · have nothing : Duration.fromSecs entry.ttl.toNat = 0 := by
      rw [ended]
      rfl
    omega
  · omega

theorem endsWithin_of_withinSource {source : WriteBack Name} {now : Nat} {ttl : UInt32}
    (within : WithinSource source now ttl) (past : source.time ≤ now)
    (records : List (CacheRecord Name)) :
    EndsWithin source { records := records, createdAt := now, ttl := ttl } := by
  unfold WithinSource at within
  by_cases ended : ttl = 0
  · exact .inl ended
  · right
    have positive : 0 < Duration.fromSecs ttl.toNat := by
      apply Nat.mul_pos _ (by decide)
      exact Nat.pos_of_ne_zero fun zero => ended (UInt32.toNat_inj.mp zero)
    dsimp only
    omega

theorem remainingTtl_self (records : List (CacheRecord Name)) (now : Nat) (ttl : UInt32) :
    ({ records := records, createdAt := now, ttl := ttl } : CacheEntry Name).remainingTtl false
      now = ttl := by
  apply UInt32.toNat_inj.mp
  rw [remainingTtl_toNat (le_refl now), Nat.sub_self, Nat.sub_zero]
  exact Nat.mul_div_cancel _ (by decide)

theorem remainingTtl_antitone {entry : CacheEntry Name} {now later : Nat}
    (created : entry.createdAt ≤ now) (order : now ≤ later) :
    entry.remainingTtl false later ≤ entry.remainingTtl false now := by
  rw [UInt32.le_iff_toNat_le, remainingTtl_toNat created, remainingTtl_toNat (created.trans order)]
  apply Nat.div_le_div_right
  omega

/-! ### The record -/

/-- A query that was answered from an entry, and the answer that the entry goes back to. -/
structure Hit (Name : Type) where
  origin : Option Nat
  time : Nat
  response : Message Name

/-- The answers that the entries and the pending hits go back to, by their places among the
fetched ones, and the hits so far. -/
structure Countdown (Name : Type) where
  origins : CacheKey → Option Nat
  held : List (Option Nat)
  hits : List (Hit Name)

def Countdown.start : Countdown Name where
  origins _ := none
  held := []
  hits := []

variable [NameApi Name]

/-- The write-back stores something. -/
def storable (final : QueryContext Name) : Bool :=
  !final.skipCache && isForward final.action &&
    final.response.any fun response => (cacheable response none).isSome

namespace Countdown

/-- The origin of the hit that a new query is. -/
def origin (self : Countdown Name) (state : State Name) (msg : Message Name) : Option Nat :=
  match openContext msg with
  | .error _ => none
  | .ok ctx =>
      let looked := (lookupStages state.hosts state.groups state.cache state.now ctx).2
      (hitEntry state ctx).bind fun _ => self.origins looked.key

/-- A completed hit keeps its origin, and a fetched answer is an origin of its own. -/
def complete (self : Countdown Name) (state next : State Name) (index : Nat)
    (query : Pending Name) (final : QueryContext Name) : Countdown Name :=
  let kept := self.held[index]?.join
  let fresh :=
    if next.fetched.length = state.fetched.length then none else some state.fetched.length
  let origin := if query.hit.isSome then kept else fresh
  { origins :=
      if storable final then Function.update self.origins query.ctx.key origin else self.origins
    held := self.held.eraseIdx index
    hits := self.hits ++
      (query.hit.bind fun _ => final.response.map fun response =>
        { origin := kept, time := state.now, response := response }).toList }

def note (self : Pipeline) (state : State Name) (event : Event Name) (next : State Name)
    (record : Countdown Name) : Countdown Name :=
  match event with
  | .receive msg => { record with held := record.held ++ [record.origin state msg] }
  | .complete index world =>
      match state.pending[index]? with
      | none => record
      | some query =>
          record.complete state next index query (answerStages self world query.step query.ctx)
  | _ => record

end Countdown

/-- The server, and the record of its hits. -/
def countdownMachine (self : Pipeline) : Machine (State Name × Countdown Name) (Event Name) :=
  (machine self).recording (Countdown.note self)

omit [NameApi Name] in
/-- No time passes while a query is pending. -/
def AtOneInstant (recorded : State Name × Countdown Name) : Event Name → Prop
  | .tick _ => recorded.1.pending.isEmpty = true
  | _ => True

omit [NameApi Name] in
instance (recorded : State Name × Countdown Name) (event : Event Name) :
    Decidable (AtOneInstant recorded event) := by
  unfold AtOneInstant
  split <;> infer_instance

/-! ### What carries a TTL -/

/-- The entry has answers. -/
def IsPositive (entry : CacheEntry Name) : Prop :=
  ∃ record ∈ entry.records, ¬ record.IsNegative

/-- A TTL that a hit on this origin can still show: what is left of an entry, or what a
pending hit has been answered. -/
inductive Carries (state : State Name) (record : Countdown Name) (i : Nat) : UInt32 → Prop where
  | stored (key : CacheKey) (entry : CacheEntry Name) (deadline : Nat)
      (slot : state.cache.cache.inner.slot key = some ⟨entry, deadline⟩)
      (origin : record.origins key = some i) (positive : IsPositive entry) :
      Carries state record i (entry.remainingTtl false state.now)
  | held (index : Nat) (query : Pending Name) (entry : CacheEntry Name) (served : Message Name)
      (answer : Record Name) (waiting : state.pending[index]? = some query)
      (hit : query.hit = some entry) (origin : record.held[index]? = some (some i))
      (isServed : query.ctx.response = some served) (member : answer ∈ served.answers) :
      Carries state record i answer.ttl

/-- An entry with answers goes back to a fetched one and ends no later. -/
structure Originates (state : State Name) (record : Countdown Name) (key : CacheKey)
    (entry : CacheEntry Name) (i : Nat) (source : WriteBack Name) : Prop where
  origin : record.origins key = some i
  fetched : state.fetched[i]? = some source
  key : source.key = key
  ends : EndsWithin source entry

/-- A pending hit holds what its entry served, and what is held goes back to a fetched
answer. -/
structure HoldsServed (state : State Name) (record : Countdown Name) (index : Nat)
    (query : Pending Name) (entry : CacheEntry Name) (served : Message Name) : Prop where
  responds : query.step = .respond
  holds : query.ctx.response = some served
  fromEntry : ServedFrom false entry served
  origin : served.answers ≠ [] → ∃ i source, record.held[index]? = some (some i) ∧
    state.fetched[i]? = some source ∧ source.key = query.ctx.key ∧
    ∀ answer ∈ served.answers, WithinSource source state.now answer.ttl

structure Tracked (state : State Name) (record : Countdown Name) : Prop where
  counts : state.cache.cache.expiry.keepTtl = false
  length : record.held.length = state.pending.length
  fetchedPast : ∀ source ∈ state.fetched, source.time ≤ state.now
  storedPast : ∀ key entry deadline,
    state.cache.cache.inner.slot key = some ⟨entry, deadline⟩ → entry.createdAt ≤ state.now
  stored : ∀ key entry deadline, state.cache.cache.inner.slot key = some ⟨entry, deadline⟩ →
    IsPositive entry → ∃ i source, Originates state record key entry i source
  hits : ∀ index query entry, state.pending[index]? = some query → query.hit = some entry →
    ∃ served, HoldsServed state record index query entry served
  others : ∀ query ∈ state.pending, query.hit = none →
    query.step = .continue ∨ isForward query.ctx.action = false

theorem Tracked.fetched_of_carries {state : State Name} {record : Countdown Name}
    (tracked : Tracked state record) {i : Nat} {ttl : UInt32}
    (carries : Carries state record i ttl) :
    ∃ source, state.fetched[i]? = some source ∧ source.time ≤ state.now ∧
      WithinSource source state.now ttl := by
  cases carries with
  | stored key entry deadline slot origin positive =>
      obtain ⟨j, source, originates⟩ := tracked.stored key entry deadline slot positive
      cases origin.symm.trans originates.origin
      have past := tracked.fetchedPast source (List.mem_of_getElem? originates.fetched)
      exact ⟨source, originates.fetched, past, withinSource_remainingTtl originates.ends
        (tracked.storedPast key entry deadline slot) past⟩
  | held index query entry served answer waiting hit origin isServed member =>
      obtain ⟨message, holds⟩ := tracked.hits index query entry waiting hit
      cases holds.holds.symm.trans isServed
      obtain ⟨j, source, held, fetched, _, within⟩ :=
        holds.origin (List.ne_nil_of_mem member)
      cases held.symm.trans origin
      exact ⟨source, fetched, tracked.fetchedPast source (List.mem_of_getElem? fetched),
        within answer member⟩

theorem Tracked.lt_of_carries {state : State Name} {record : Countdown Name}
    (tracked : Tracked state record) {i : Nat} {ttl : UInt32}
    (carries : Carries state record i ttl) : i < state.fetched.length := by
  obtain ⟨source, fetched, _⟩ := tracked.fetched_of_carries carries
  exact (List.getElem?_eq_some_iff.mp fetched).1

/-! ### The hits so far -/

/-- The hit shows no more than what is left of the answer it goes back to. -/
def Truthful (fetched : List (WriteBack Name)) (hit : Hit Name) : Prop :=
  ∀ answer ∈ hit.response.answers, ∃ i source, hit.origin = some i ∧
    fetched[i]? = some source ∧ source.time ≤ hit.time ∧ WithinSource source hit.time answer.ttl

/-- Of two hits on one answer the later shows no larger TTL. -/
def Falls (earlier later : Hit Name) : Prop :=
  ∀ i, earlier.origin = some i → later.origin = some i →
    ∀ first ∈ earlier.response.answers, ∀ second ∈ later.response.answers, second.ttl ≤ first.ttl

structure Counted (state : State Name) (record : Countdown Name) : Prop where
  agree : ∀ i first second, Carries state record i first → Carries state record i second →
    first = second
  bounded : ∀ hit ∈ record.hits, ∀ i, hit.origin = some i → ∀ ttl, Carries state record i ttl →
    ∀ answer ∈ hit.response.answers, ttl ≤ answer.ttl
  truthful : ∀ hit ∈ record.hits, Truthful state.fetched hit
  falling : record.hits.Pairwise Falls

omit [NameApi Name] in
theorem Truthful.mono {fetched more : List (WriteBack Name)} {hit : Hit Name}
    (truthful : Truthful fetched hit) (grows : fetched <+: more) : Truthful more hit := by
  obtain ⟨rest, rfl⟩ := grows
  intro answer member
  obtain ⟨i, source, origin, found, past, within⟩ := truthful answer member
  have bound := (List.getElem?_eq_some_iff.mp found).1
  exact ⟨i, source, origin, (List.getElem?_append_left bound).trans found, past, within⟩

theorem Counted.carry {state next : State Name} {record noted : Countdown Name}
    (counted : Counted state record) (tracked : Tracked state record)
    (hits : noted.hits = record.hits) (grows : state.fetched <+: next.fetched) (own : UInt32)
    (carried : ∀ i ttl, Carries next noted i ttl →
      Carries state record i ttl ∨ (i = state.fetched.length ∧ ttl = own)) :
    Counted next noted := by
  refine ⟨?_, ?_, ?_, ?_⟩
  · intro i first second firstCarried secondCarried
    rcases carried i first firstCarried with firstOld | ⟨new, rfl⟩
    · rcases carried i second secondCarried with secondOld | ⟨new, _⟩
      · exact counted.agree i first second firstOld secondOld
      · exact absurd new (tracked.lt_of_carries firstOld).ne
    · rcases carried i second secondCarried with secondOld | ⟨_, rfl⟩
      · exact absurd new (tracked.lt_of_carries secondOld).ne
      · rfl
  · intro hit member i origin ttl nextCarries answer inAnswers
    rw [hits] at member
    rcases carried i ttl nextCarries with old | ⟨new, _⟩
    · exact counted.bounded hit member i origin ttl old answer inAnswers
    · obtain ⟨j, source, same, found, _⟩ := counted.truthful hit member answer inAnswers
      cases origin.symm.trans same
      exact absurd new (List.getElem?_eq_some_iff.mp found).1.ne
  · intro hit member
    rw [hits] at member
    exact (counted.truthful hit member).mono grows
  · rw [hits]
    exact counted.falling

theorem Counted.show {state next : State Name} {record noted : Countdown Name}
    (counted : Counted state record) (tracked : Tracked state record) {hit : Hit Name}
    (hits : noted.hits = record.hits ++ [hit]) (time : hit.time = state.now)
    (fetched : next.fetched = state.fetched)
    (shown : ∀ answer ∈ hit.response.answers, ∃ i, hit.origin = some i ∧
      Carries state record i answer.ttl)
    (carried : ∀ i ttl, Carries next noted i ttl → Carries state record i ttl) :
    Counted next noted := by
  refine ⟨?_, ?_, ?_, ?_⟩
  · intro i first second firstCarried secondCarried
    exact counted.agree i first second (carried i first firstCarried)
      (carried i second secondCarried)
  · intro other member i origin ttl nextCarries answer inAnswers
    rw [hits] at member
    rcases List.mem_append.mp member with old | new
    · exact counted.bounded other old i origin ttl (carried i ttl nextCarries) answer inAnswers
    · cases List.mem_singleton.mp new
      obtain ⟨j, same, here⟩ := shown answer inAnswers
      cases origin.symm.trans same
      exact UInt32.le_of_eq (counted.agree i ttl answer.ttl (carried i ttl nextCarries) here)
  · intro other member
    rw [hits] at member
    rw [fetched]
    rcases List.mem_append.mp member with old | new
    · exact counted.truthful other old
    · cases List.mem_singleton.mp new
      intro answer inAnswers
      obtain ⟨i, origin, here⟩ := shown answer inAnswers
      obtain ⟨source, found, past, within⟩ := tracked.fetched_of_carries here
      rw [← time] at past within
      exact ⟨i, source, origin, found, past, within⟩
  · rw [hits, List.pairwise_append]
    refine ⟨counted.falling, List.pairwise_singleton _ _, ?_⟩
    intro earlier member later isHit i earlierOrigin laterOrigin first inFirst second inSecond
    cases List.mem_singleton.mp isHit
    obtain ⟨j, same, here⟩ := shown second inSecond
    cases laterOrigin.symm.trans same
    exact counted.bounded earlier member i earlierOrigin second.ttl here first inFirst

/-! ### A query comes in -/

theorem answers_respond {cache : Cache Name} (counts : cache.cache.expiry.keepTtl = false)
    {now : Nat} {msg : Message Name} {entry : CacheEntry Name} {answer : Record Name}
    (member : answer ∈ (cache.respond now msg entry).answers) :
    answer.ttl = entry.remainingTtl false now ∧ IsPositive entry := by
  unfold Cache.respond at member
  rw [DnsCache.keepTtl, counts] at member
  split at member
  · next built served =>
      obtain ⟨query, answers, _, rebuilt, rfl⟩ := buildResponseFromCache_eq_ok_iff.mp served
      obtain ⟨record, inRecords, shown⟩ := mem_rebuildAnswers rebuilt member
      refine ⟨?_, record, inRecords, ?_⟩
      · rw [rebuildAnswers_eq_fromRdata rebuilt answer member]
        rfl
      · intro negative
        rw [rdata_eq_ok_none_iff.mpr negative] at shown
        cases shown
  · cases member

/-- A new query at the end of the pending ones. -/
structure Received (state next : State Name) (record noted : Countdown Name)
    (query : Pending Name) (origin : Option Nat) : Prop where
  pending : next = { state with pending := state.pending ++ [query] }
  held : noted = { record with held := record.held ++ [origin] }
  hit : ∀ entry, query.hit = some entry → query.step = .respond ∧
    origin = record.origins query.ctx.key ∧
    state.cache.cache.getCached state.now query.ctx.key = .fresh entry ∧
    ∃ msg, query.ctx.response = some (state.cache.respond state.now msg entry)
  others : query.hit = none → query.step = .continue ∨ isForward query.ctx.action = false

omit [NameApi Name] in
theorem getElem?_concat_cases {α β : Type} {items : List α} {others : List β}
    (lengths : others.length = items.length) {item found : α} {other : β} {index : Nat}
    (at' : (items ++ [item])[index]? = some found) :
    (items[index]? = some found ∧ (others ++ [other])[index]? = others[index]?) ∨
      (found = item ∧ (others ++ [other])[index]? = some other) := by
  rcases Nat.lt_or_ge index items.length with before | behind
  · left
    rw [List.getElem?_append_left before] at at'
    exact ⟨at', List.getElem?_append_left (lengths ▸ before)⟩
  · right
    rw [List.getElem?_append_right behind] at at'
    rw [List.getElem?_append_right (lengths ▸ behind), lengths]
    cases place : index - items.length with
    | zero =>
        rw [place] at at'
        exact ⟨(Option.some.inj at').symm, rfl⟩
    | succ more =>
        rw [place] at at'
        cases at'

theorem carries_received {state next : State Name} {record noted : Countdown Name}
    {query : Pending Name} {origin : Option Nat} (tracked : Tracked state record)
    (received : Received state next record noted query origin) {i : Nat} {ttl : UInt32}
    (carries : Carries next noted i ttl) : Carries state record i ttl := by
  obtain ⟨rfl, rfl, onHit, _⟩ := received
  cases carries with
  | stored key entry deadline slot same positive =>
      exact .stored key entry deadline slot same positive
  | held index found entry served answer waiting hit same isServed member =>
      rcases getElem?_concat_cases tracked.length waiting with ⟨before, place⟩ | ⟨rfl, place⟩
      · rw [place] at same
        exact .held index found entry served answer before hit same isServed member
      · obtain ⟨_, isOrigin, fresh, msg, responded⟩ := onHit entry hit
        cases responded.symm.trans isServed
        obtain ⟨deadline, slot, _⟩ := DnsCache.getCached_eq_fresh_iff.mp fresh
        obtain ⟨ttl, positive⟩ := answers_respond tracked.counts member
        rw [place, Option.some.injEq, isOrigin] at same
        rw [ttl]
        exact .stored _ entry deadline slot same positive

theorem tracked_received {state next : State Name} {record noted : Countdown Name}
    {query : Pending Name} {origin : Option Nat} (tracked : Tracked state record)
    (received : Received state next record noted query origin) : Tracked next noted := by
  obtain ⟨rfl, rfl, onHit, onMiss⟩ := received
  refine ⟨tracked.counts, ?_, tracked.fetchedPast, tracked.storedPast, ?_, ?_, ?_⟩
  · simp only [List.length_append, tracked.length]
    rfl
  · intro key entry deadline slot positive
    obtain ⟨i, source, originates⟩ := tracked.stored key entry deadline slot positive
    exact ⟨i, source, originates.origin, originates.fetched, originates.key, originates.ends⟩
  · intro index found entry waiting hit
    rcases getElem?_concat_cases tracked.length waiting with ⟨before, place⟩ | ⟨rfl, place⟩
    · obtain ⟨served, holds⟩ := tracked.hits index found entry before hit
      refine ⟨served, holds.responds, holds.holds, holds.fromEntry, ?_⟩
      dsimp only
      rw [place]
      exact holds.origin
    · obtain ⟨responds, isOrigin, fresh, msg, responded⟩ := onHit entry hit
      have fromEntry := servedFrom_respond state.cache state.now msg entry
      rw [tracked.counts] at fromEntry
      refine ⟨_, responds, responded, fromEntry, ?_⟩
      intro nonempty
      obtain ⟨answer, member⟩ := List.exists_mem_of_ne_nil _ nonempty
      obtain ⟨_, positive⟩ := answers_respond tracked.counts member
      obtain ⟨deadline, slot, _⟩ := DnsCache.getCached_eq_fresh_iff.mp fresh
      obtain ⟨i, source, originates⟩ := tracked.stored _ entry deadline slot positive
      refine ⟨i, source, ?_, originates.fetched, originates.key, ?_⟩
      · rw [place, isOrigin, originates.origin]
      · intro other inServed
        rw [(answers_respond tracked.counts inServed).1]
        exact withinSource_remainingTtl originates.ends (tracked.storedPast _ entry deadline slot)
          (tracked.fetchedPast source (List.mem_of_getElem? originates.fetched))
  · intro other member missed
    rcases List.mem_append.mp member with old | new
    · exact tracked.others other old missed
    · cases List.mem_singleton.mp new
      exact onMiss missed

/-! ### A query is completed -/

theorem writeBack_of_storable {cache cache' : Cache Name} {now : Nat} {final : QueryContext Name}
    (wrote : cache.writeBack now final = some cache') :
    (storable final = false ∧ cache' = cache) ∨
      ∃ response records ttl lifetime, storable final = true ∧ final.skipCache = false ∧
        final.response = some response ∧ isForward final.action = true ∧
        cacheable response none = some (records, ttl) ∧
        cache' = { cache with
          cache := { cache.cache with
            inner := cache.cache.inner.insert now final.key
              { records := records, createdAt := now, ttl := ttl } lifetime } } := by
  cases stores : storable final with
  | false =>
      left
      refine ⟨rfl, ?_⟩
      rcases writeBack_cases wrote with same |
        ⟨response, records, ttl, stored, asks, responded, forward, isStorable, _⟩
      · exact same
      · simp [storable, asks, responded, forward, isStorable] at stores
  | true =>
      right
      simp only [storable, Bool.and_eq_true, Bool.not_eq_true'] at stores
      obtain ⟨⟨asks, forward⟩, some⟩ := stores
      obtain ⟨response, responded, isStorable⟩ := (Option.any_eq_true _ _).mp some
      obtain ⟨⟨records, ttl⟩, stored⟩ := Option.isSome_iff_exists.mp isStorable
      unfold Cache.writeBack at wrote
      rw [asks, responded] at wrote
      unfold isForward at forward
      simp only [Bool.false_eq_true, if_false, forward, if_true, cacheUpstreamResponse,
        stored, DnsCache.put, Option.map_map, Option.map_eq_some_iff] at wrote
      obtain ⟨lifetime, _, rfl⟩ := wrote
      exact ⟨response, records, ttl, lifetime, rfl, asks, responded, forward, stored, rfl⟩

structure Completed (pipeline : Pipeline) (world : World Name) (state next : State Name)
    (record noted : Countdown Name) (index : Nat) (query : Pending Name) : Prop where
  waiting : state.pending[index]? = some query
  wrote : state.cache.writeBack state.now (answerStages pipeline world query.step query.ctx) =
    some next.cache
  now : next.now = state.now
  pending : next.pending = state.pending.eraseIdx index
  fetched : next.fetched = state.fetched ++
    written pipeline world state.now query (answerStages pipeline world query.step query.ctx)
  noted : noted =
    record.complete state next index query (answerStages pipeline world query.step query.ctx)

/-- The place of an item before one was erased. -/
def beforeErase (index place : Nat) : Nat := if place < index then place else place + 1

omit [NameApi Name] in
theorem getElem?_beforeErase {α : Type} (items : List α) (index place : Nat) :
    (items.eraseIdx index)[place]? = items[beforeErase index place]? := by
  rw [List.getElem?_eraseIdx, beforeErase]
  split <;> rfl

/-- The entry was stored by this completion. -/
structure StoredNow (pipeline : Pipeline) (world : World Name) (now : Nat) (query : Pending Name)
    (key : CacheKey) (entry : CacheEntry Name) (response : Message Name) : Prop where
  key : key = query.ctx.key
  asks : (answerStages pipeline world query.step query.ctx).skipCache = false
  responds : (answerStages pipeline world query.step query.ctx).response = some response
  forward : isForward (answerStages pipeline world query.step query.ctx).action = true
  storable : cacheable response none = some (entry.records, entry.ttl)
  created : entry.createdAt = now

section

variable {pipeline : Pipeline} {world : World Name} {state next : State Name}
  {record noted : Countdown Name} {index : Nat} {query : Pending Name}

theorem Completed.slot_cases
    (completed : Completed pipeline world state next record noted index query)
    {key : CacheKey} {entry : CacheEntry Name} {deadline : Nat}
    (slot : next.cache.cache.inner.slot key = some ⟨entry, deadline⟩) :
    (state.cache.cache.inner.slot key = some ⟨entry, deadline⟩ ∧
        noted.origins key = record.origins key) ∨
      ∃ response, StoredNow pipeline world state.now query key entry response ∧
        noted.origins key =
          if query.hit.isSome then record.held[index]?.join
          else if next.fetched.length = state.fetched.length then none
          else some state.fetched.length := by
  have sameKey : (answerStages pipeline world query.step query.ctx).key = query.ctx.key :=
    (sameQuery_answerStages pipeline world query.step query.ctx).key
  rw [completed.noted]
  unfold Countdown.complete
  rcases writeBack_of_storable completed.wrote with ⟨stores, same⟩ |
    ⟨response, records, ttl, lifetime, stores, asks, responds, forward, stored, same⟩
  · left
    rw [same] at slot
    exact ⟨slot, by simp [stores]⟩
  · rw [same, sameKey] at slot
    dsimp only at slot
    by_cases isKey : key = query.ctx.key
    · right
      subst isKey
      rw [ExpiringStore.insert_slot_self] at slot
      cases slot
      refine ⟨response, ⟨rfl, asks, responds, forward, stored, rfl⟩, ?_⟩
      simp [stores]
    · left
      rw [ExpiringStore.insert_slot_of_ne _ _ _ isKey] at slot
      exact ⟨slot, by simp [stores, Function.update_of_ne isKey]⟩

omit [NameApi Name] in
theorem answers_of_positive [NameApi Name] {response : Message Name} {entry : CacheEntry Name}
    (stored : cacheable response none = some (entry.records, entry.ttl))
    (positive : IsPositive entry) :
    response.answers ≠ [] ∧ entry.ttl = extractMinTtl response := by
  obtain ⟨record, member, notNegative⟩ := positive
  obtain ⟨ttl, extracted | ⟨_, ⟨_, isMarker⟩ | ⟨_, isMarker⟩⟩⟩ := cacheable_cases stored
  · refine ⟨?_, ttl⟩
    rw [extractCacheRecords_eq_some extracted] at member
    obtain ⟨answer, inAnswers, _⟩ := List.mem_filterMap.mp member
    exact List.ne_nil_of_mem inAnswers
  · rw [isMarker] at member
    exact absurd (.inl (List.mem_singleton.mp member)) notNegative
  · rw [isMarker] at member
    exact absurd (.inr (List.mem_singleton.mp member)) notNegative

theorem Completed.origin_of_hit
    (completed : Completed pipeline world state next record noted index query)
    (tracked : Tracked state record) {old : CacheEntry Name} (hit : query.hit = some old)
    {key : CacheKey} {entry : CacheEntry Name} {response : Message Name}
    (storedNow : StoredNow pipeline world state.now query key entry response)
    (positive : IsPositive entry) :
    ∃ i source, record.held[index]? = some (some i) ∧ state.fetched[i]? = some source ∧
      source.key = key ∧ WithinSource source state.now entry.ttl ∧
      Carries state record i entry.ttl := by
  obtain ⟨served, holds⟩ := tracked.hits index query old completed.waiting hit
  obtain ⟨nonempty, isMin⟩ := answers_of_positive storedNow.storable positive
  have responded := storedNow.responds
  obtain ⟨final, isFinal, presents⟩ := presents_of_respond holds.responds holds.holds
  cases isFinal.symm.trans responded
  have answered : served.answers ≠ [] := mt presents.answered.mpr nonempty
  obtain ⟨i, source, held, fetched, sameKey, within⟩ := holds.origin answered
  obtain ⟨answer, member⟩ := List.exists_mem_of_ne_nil _ answered
  have sameTtl : entry.ttl = answer.ttl := by
    rcases holds.fromEntry with ⟨msg, now, built⟩ | ⟨msg, rfl⟩
    · rw [isMin, extractMinTtl_of_presents built presents]
      obtain ⟨_, answers, _, rebuilt, rfl⟩ := buildResponseFromCache_eq_ok_iff.mp built
      have shared := rebuildAnswers_eq_fromRdata rebuilt
      apply extractMinTtl_of_uniform answered
      intro other inAnswers
      rw [shared other inAnswers, shared answer member]
      rfl
    · exact absurd rfl answered
  rw [sameTtl]
  exact ⟨i, source, held, fetched, sameKey.trans storedNow.key.symm, within answer member,
    .held index query old served answer completed.waiting hit held holds.holds member⟩

theorem Completed.fetched_of_miss
    (completed : Completed pipeline world state next record noted index query)
    (tracked : Tracked state record) (missed : query.hit = none)
    {key : CacheKey} {entry : CacheEntry Name} {response : Message Name}
    (storedNow : StoredNow pipeline world state.now query key entry response)
    (positive : IsPositive entry) :
    next.fetched = state.fetched ++
      [{ time := state.now, key := key, response := response }] := by
  have forward := storedNow.forward
  have responded := storedNow.responds
  have proceeds := proceeds_of_forward
    (tracked.others query (List.mem_of_getElem? completed.waiting) missed) forward
  rw [action_answerStages] at forward
  rw [proceeds] at forward responded
  obtain ⟨built, isBuilt, answered⟩ := forwardAnswer_of_rulesStage forward
  obtain ⟨final, isFinal, presents⟩ := presents_answerStages isBuilt
  cases isFinal.symm.trans responded
  have nonempty := (answers_of_positive storedNow.storable positive).1
  have fetchedNow : answeredByUpstream pipeline world query.ctx = true := by
    cases answered with
    | denied msg => exact absurd (presents.answered.mpr rfl) nonempty
    | failed msg => exact absurd (presents.answered.mpr rfl) nonempty
    | returned forwarded _ takes returns => exact answeredByUpstream_of_forwardedBy takes returns
  have sameKey : (answerStages pipeline world query.step query.ctx).key = key :=
    (sameQuery_answerStages pipeline world query.step query.ctx).key.trans storedNow.key.symm
  rw [completed.fetched]
  congr 1
  unfold written
  rw [storedNow.responds]
  dsimp only
  rw [if_pos ⟨proceeds, fetchedNow, storedNow.asks, by rw [storedNow.storable]; rfl⟩, sameKey]

/-- What an entry with answers goes back to, if it was stored by the completion. -/
theorem Completed.origin_cases
    (completed : Completed pipeline world state next record noted index query)
    (tracked : Tracked state record) {key : CacheKey} {entry : CacheEntry Name}
    {response : Message Name}
    (storedNow : StoredNow pipeline world state.now query key entry response)
    (origins : noted.origins key =
      if query.hit.isSome then record.held[index]?.join
      else if next.fetched.length = state.fetched.length then none
      else some state.fetched.length)
    (positive : IsPositive entry) :
    (∃ i source, noted.origins key = some i ∧ state.fetched[i]? = some source ∧
        source.key = key ∧ WithinSource source state.now entry.ttl ∧
        Carries state record i entry.ttl) ∨
      (noted.origins key = some state.fetched.length ∧ next.fetched = state.fetched ++
        [{ time := state.now, key := key, response := response }]) := by
  rw [origins]
  cases hit : query.hit with
  | some old =>
      left
      obtain ⟨i, source, held, rest⟩ := completed.origin_of_hit tracked hit storedNow positive
      refine ⟨i, source, ?_, rest⟩
      rw [held]
      rfl
  | none =>
      right
      have fetched := completed.fetched_of_miss tracked hit storedNow positive
      refine ⟨?_, fetched⟩
      rw [fetched, List.length_append, List.length_singleton]
      simp

theorem Completed.carried
    (completed : Completed pipeline world state next record noted index query)
    (tracked : Tracked state record) {i : Nat} {ttl : UInt32}
    (carries : Carries next noted i ttl) :
    Carries state record i ttl ∨ (i = state.fetched.length ∧
      ttl = (((answerStages pipeline world query.step query.ctx).response.map
        extractMinTtl).getD 0)) := by
  cases carries with
  | stored key entry deadline slot origin positive =>
      rw [completed.now]
      rcases completed.slot_cases slot with ⟨old, same⟩ | ⟨response, storedNow, origins⟩
      · rw [same] at origin
        exact .inl (.stored key entry deadline old origin positive)
      · have own : entry.remainingTtl false state.now = entry.ttl := by
          rw [← storedNow.created]
          exact remainingTtl_self entry.records entry.createdAt entry.ttl
        rw [own]
        rcases completed.origin_cases tracked storedNow origins positive with
          ⟨j, source, same, _, _, _, carries⟩ | ⟨same, _⟩
        · cases origin.symm.trans same
          exact .inl carries
        · cases origin.symm.trans same
          refine .inr ⟨rfl, ?_⟩
          rw [storedNow.responds]
          exact (answers_of_positive storedNow.storable positive).2
  | held place found entry served answer waiting hit origin isServed member =>
      left
      rw [completed.pending, getElem?_beforeErase] at waiting
      rw [completed.noted] at origin
      simp only [Countdown.complete, getElem?_beforeErase] at origin
      exact .held _ found entry served answer waiting hit origin isServed member

theorem Completed.tracked
    (completed : Completed pipeline world state next record noted index query)
    (tracked : Tracked state record) : Tracked next noted := by
  have grown : ∀ {i : Nat} {source : WriteBack Name}, state.fetched[i]? = some source →
      next.fetched[i]? = some source := by
    intro i source found
    rw [completed.fetched]
    exact (List.getElem?_append_left (List.getElem?_eq_some_iff.mp found).1).trans found
  refine ⟨?_, ?_, ?_, ?_, ?_, ?_, ?_⟩
  · rcases writeBack_of_storable completed.wrote with ⟨_, same⟩ | ⟨_, _, _, _, _, _, _, _, _, same⟩
    · rw [same]
      exact tracked.counts
    · rw [same]
      exact tracked.counts
  · have within := (List.getElem?_eq_some_iff.mp completed.waiting).1
    rw [completed.pending, completed.noted]
    simp only [Countdown.complete]
    rw [List.length_eraseIdx_of_lt within, List.length_eraseIdx_of_lt (tracked.length ▸ within),
      tracked.length]
  · intro source member
    rw [completed.fetched] at member
    rw [completed.now]
    rcases List.mem_append.mp member with old | new
    · exact tracked.fetchedPast source old
    · exact le_of_eq (written_time new)
  · intro key entry deadline slot
    rw [completed.now]
    rcases completed.slot_cases slot with ⟨old, _⟩ | ⟨response, storedNow, _⟩
    · exact tracked.storedPast key entry deadline old
    · exact le_of_eq storedNow.created
  · intro key entry deadline slot positive
    rcases completed.slot_cases slot with ⟨old, same⟩ | ⟨response, storedNow, origins⟩
    · obtain ⟨i, source, originates⟩ := tracked.stored key entry deadline old positive
      exact ⟨i, source, same.trans originates.origin, grown originates.fetched, originates.key,
        originates.ends⟩
    · have created := storedNow.created
      rcases completed.origin_cases tracked storedNow origins positive with
        ⟨i, source, same, found, sameKey, within, _⟩ | ⟨same, fetched⟩
      · refine ⟨i, source, same, grown found, sameKey, ?_⟩
        have past := tracked.fetchedPast source (List.mem_of_getElem? found)
        have ends := endsWithin_of_withinSource within past entry.records
        rw [← created] at ends
        exact ends
      · refine ⟨state.fetched.length, { time := state.now, key := key, response := response },
          same, ?_, rfl, .inr ?_⟩
        · rw [fetched]
          exact List.getElem?_concat_length
        · rw [created, (answers_of_positive storedNow.storable positive).2]
  · intro place found entry waiting hit
    rw [completed.pending, getElem?_beforeErase] at waiting
    obtain ⟨served, holds⟩ := tracked.hits _ found entry waiting hit
    refine ⟨served, holds.responds, holds.holds, holds.fromEntry, ?_⟩
    intro nonempty
    obtain ⟨i, source, held, fetched, sameKey, within⟩ := holds.origin nonempty
    refine ⟨i, source, ?_, grown fetched, sameKey, ?_⟩
    · rw [completed.noted]
      simp only [Countdown.complete, getElem?_beforeErase]
      exact held
    · rw [completed.now]
      exact within
  · intro other member
    rw [completed.pending] at member
    exact tracked.others other (List.mem_of_mem_eraseIdx member)

theorem written_of_respond {final : QueryContext Name} (responds : query.step = .respond) :
    written pipeline world state.now query final = [] := by
  unfold written
  split
  · rfl
  · exact if_neg (by simp [responds])

theorem Completed.counted
    (completed : Completed pipeline world state next record noted index query)
    (tracked : Tracked state record) (counted : Counted state record) : Counted next noted := by
  have grows : state.fetched <+: next.fetched := by
    rw [completed.fetched]
    exact List.prefix_append _ _
  cases hit : query.hit with
  | none =>
      apply counted.carry tracked _ grows _ fun i ttl => completed.carried tracked
      rw [completed.noted]
      simp [Countdown.complete, hit]
  | some entry =>
      obtain ⟨served, holds⟩ := tracked.hits index query entry completed.waiting hit
      obtain ⟨final, isFinal, presents⟩ : ∃ final,
          (answerStages pipeline world query.step query.ctx).response = some final ∧
            Presents final served := presents_of_respond holds.responds holds.holds
      have unfetched : next.fetched = state.fetched := by
        rw [completed.fetched, written_of_respond holds.responds, List.append_nil]
      let shown : Hit Name :=
        { origin := record.held[index]?.join, time := state.now, response := final }
      have logged : noted.hits = record.hits ++ [shown] := by
        rw [completed.noted]
        simp [Countdown.complete, hit, isFinal, shown]
      apply counted.show tracked logged rfl unfetched
      · intro answer member
        obtain ⟨source, inServed, _, ttl⟩ := presents.told answer member
        obtain ⟨i, _, held, _⟩ := holds.origin (List.ne_nil_of_mem inServed)
        rw [ttl]
        refine ⟨i, ?_,
          .held index query entry served source completed.waiting hit held holds.holds inServed⟩
        simp only [shown, held, Option.join_some]
      · intro i ttl carries
        rcases completed.carried tracked carries with before | ⟨new, _⟩
        · exact before
        · have bound := (completed.tracked tracked).lt_of_carries carries
          rw [unfetched] at bound
          exact absurd new bound.ne

end

/-! ### Time and eviction -/

theorem carries_tick {state : State Name} {record : Countdown Name}
    (tracked : Tracked state record) (idle : state.pending = []) {elapsed i : Nat} {ttl : UInt32}
    (carries : Carries { state with now := state.now + elapsed } record i ttl) :
    ∃ key entry deadline, state.cache.cache.inner.slot key = some ⟨entry, deadline⟩ ∧
      (∃ source, state.fetched[i]? = some source ∧ source.key = key) ∧
      ttl = entry.remainingTtl false (state.now + elapsed) ∧
      Carries state record i (entry.remainingTtl false state.now) := by
  cases carries with
  | stored key entry deadline slot origin positive =>
      obtain ⟨j, source, originates⟩ := tracked.stored key entry deadline slot positive
      cases origin.symm.trans originates.origin
      exact ⟨key, entry, deadline, slot, ⟨source, originates.fetched, originates.key⟩, rfl,
        .stored key entry deadline slot origin positive⟩
  | held index query entry served answer waiting =>
      dsimp only at waiting
      rw [idle] at waiting
      cases waiting

theorem Counted.tick {state : State Name} {record : Countdown Name}
    (counted : Counted state record) (tracked : Tracked state record)
    (idle : state.pending = []) (elapsed : Nat) :
    Counted { state with now := state.now + elapsed } record := by
  refine ⟨?_, ?_, counted.truthful, counted.falling⟩
  · intro i first second firstCarried secondCarried
    obtain ⟨key, entry, _, slot, ⟨source, fetched, sameKey⟩, rfl, _⟩ :=
      carries_tick tracked idle firstCarried
    obtain ⟨other, otherEntry, _, otherSlot, ⟨otherSource, otherFetched, otherKey⟩, rfl, _⟩ :=
      carries_tick tracked idle secondCarried
    cases fetched.symm.trans otherFetched
    cases sameKey.symm.trans otherKey
    cases slot.symm.trans otherSlot
    rfl
  · intro hit member i origin ttl carries answer inAnswers
    obtain ⟨key, entry, deadline, slot, _, rfl, before⟩ := carries_tick tracked idle carries
    have created := tracked.storedPast key entry deadline slot
    exact UInt32.le_trans (remainingTtl_antitone created (Nat.le_add_right _ _))
      (counted.bounded hit member i origin _ before answer inAnswers)

theorem Tracked.tick {state : State Name} {record : Countdown Name}
    (tracked : Tracked state record) (idle : state.pending = []) (elapsed : Nat) :
    Tracked { state with now := state.now + elapsed } record := by
  refine ⟨tracked.counts, tracked.length, ?_, ?_, ?_, ?_, tracked.others⟩
  · intro source member
    exact (tracked.fetchedPast source member).trans (Nat.le_add_right _ _)
  · intro key entry deadline slot
    exact (tracked.storedPast key entry deadline slot).trans (Nat.le_add_right _ _)
  · intro key entry deadline slot positive
    obtain ⟨i, source, originates⟩ := tracked.stored key entry deadline slot positive
    exact ⟨i, source, originates.origin, originates.fetched, originates.key, originates.ends⟩
  · intro index query entry waiting
    dsimp only at waiting
    rw [idle] at waiting
    cases waiting

theorem Tracked.evict {state next : State Name} {record : Countdown Name}
    (tracked : Tracked state record) (expiry : next.cache.cache.expiry = state.cache.cache.expiry)
    (slots : ∀ {key slot}, next.cache.cache.inner.slot key = some slot →
      state.cache.cache.inner.slot key = some slot)
    (now : next.now = state.now) (pending : next.pending = state.pending)
    (fetched : next.fetched = state.fetched) : Tracked next record := by
  refine ⟨?_, ?_, ?_, ?_, ?_, ?_, ?_⟩
  · rw [expiry]
    exact tracked.counts
  · rw [pending]
    exact tracked.length
  · rw [fetched, now]
    exact tracked.fetchedPast
  · intro key entry deadline slot
    rw [now]
    exact tracked.storedPast key entry deadline (slots slot)
  · intro key entry deadline slot positive
    obtain ⟨i, source, originates⟩ := tracked.stored key entry deadline (slots slot) positive
    refine ⟨i, source, originates.origin, ?_, originates.key, originates.ends⟩
    rw [fetched]
    exact originates.fetched
  · intro index query entry waiting hit
    rw [pending] at waiting
    obtain ⟨served, holds⟩ := tracked.hits index query entry waiting hit
    refine ⟨served, holds.responds, holds.holds, holds.fromEntry, ?_⟩
    rw [fetched, now]
    exact holds.origin
  · rw [pending]
    exact tracked.others

omit [NameApi Name] in
theorem carries_evict {state next : State Name} {record : Countdown Name}
    (slots : ∀ {key slot}, next.cache.cache.inner.slot key = some slot →
      state.cache.cache.inner.slot key = some slot)
    (now : next.now = state.now) (pending : next.pending = state.pending) {i : Nat}
    {ttl : UInt32} (carries : Carries next record i ttl) : Carries state record i ttl := by
  cases carries with
  | stored key entry deadline slot origin positive =>
      rw [now]
      exact .stored key entry deadline (slots slot) origin positive
  | held index query entry served answer waiting hit origin isServed member =>
      rw [pending] at waiting
      exact .held index query entry served answer waiting hit origin isServed member

/-! ### Runs -/

def Kept (recorded : State Name × Countdown Name) : Prop :=
  Tracked recorded.1 recorded.2 ∧ Counted recorded.1 recorded.2

theorem kept_evict {state next : State Name} {record : Countdown Name}
    (kept : Kept (state, record)) (expiry : next.cache.cache.expiry = state.cache.cache.expiry)
    (slots : ∀ {key slot}, next.cache.cache.inner.slot key = some slot →
      state.cache.cache.inner.slot key = some slot)
    (now : next.now = state.now) (pending : next.pending = state.pending)
    (fetched : next.fetched = state.fetched) : Kept (next, record) := by
  obtain ⟨tracked, counted⟩ := kept
  refine ⟨tracked.evict expiry slots now pending fetched, ?_⟩
  apply counted.carry tracked rfl _ 0
  · exact fun i ttl carries => .inl (carries_evict slots now pending carries)
  · dsimp only
    rw [fetched]

theorem received_of_receive {state next : State Name} {record noted : Countdown Name}
    {msg : Message Name} {ctx : QueryContext Name} (opened : openContext msg = .ok ctx)
    (isNext : next =
      let (step, looked) := lookupStages state.hosts state.groups state.cache state.now ctx
      { state with
        pending := state.pending ++
          [{ ctx := looked, step := step, hit := hitEntry state ctx }] })
    (isNoted : noted = { record with held := record.held ++ [record.origin state msg] }) :
    Received state next record noted
      { ctx := (lookupStages state.hosts state.groups state.cache state.now ctx).2
        step := (lookupStages state.hosts state.groups state.cache state.now ctx).1
        hit := hitEntry state ctx }
      (record.origin state msg) := by
  cases stages : lookupStages state.hosts state.groups state.cache state.now ctx with
  | mk step looked =>
      rw [stages] at isNext
      obtain ⟨onHit, onMiss⟩ := lookupStages_spec stages
      refine ⟨isNext, isNoted, ?_, onMiss⟩
      intro entry hit
      obtain ⟨responds, fresh, served⟩ := onHit entry hit
      refine ⟨responds, ?_, fresh, served⟩
      dsimp only at hit
      simp only [Countdown.origin, opened, hit, stages, Option.bind_some]

theorem kept_step {self : Pipeline} {recorded next : State Name × Countdown Name}
    {event : Event Name} (kept : Kept recorded) (instant : AtOneInstant recorded event)
    (stepped : (countdownMachine self).step recorded event = some next) : Kept next := by
  obtain ⟨state, record⟩ := recorded
  obtain ⟨after, noted⟩ := next
  obtain ⟨moved, same⟩ := Machine.recording_step_eq_some.mp stepped
  dsimp only at moved same
  obtain ⟨tracked, counted⟩ := kept
  cases event with
  | tick elapsed =>
      have idle : state.pending = [] := List.isEmpty_iff.mp instant
      cases moved
      subst same
      exact ⟨tracked.tick idle elapsed, counted.tick tracked idle elapsed⟩
  | receive msg =>
      simp only [machine, step] at moved
      split at moved
      · cases moved
      · next ctx opened =>
          have received := received_of_receive opened (Option.some.inj moved).symm same
          refine ⟨tracked_received tracked received, ?_⟩
          have unfetched : after.fetched = state.fetched := by rw [received.pending]
          apply counted.carry tracked _ _ 0
          · exact fun i ttl carries => .inl (carries_received tracked received carries)
          · rw [received.held]
          · rw [unfetched]
  | complete index world =>
      simp only [machine, step, Option.bind_eq_bind, Option.bind_eq_some_iff] at moved
      obtain ⟨query, waiting, cache, wrote, isNext⟩ := moved
      simp only [Countdown.note, waiting] at same
      have completed : Completed self world state after record noted index query := by
        cases isNext
        exact ⟨waiting, wrote, rfl, rfl, rfl, same⟩
      exact ⟨completed.tracked tracked, completed.counted tracked counted⟩
  | reloadHosts hosts =>
      cases moved
      subst same
      exact kept_evict ⟨tracked, counted⟩ rfl id rfl rfl rfl
  | reloadGroups groups =>
      cases moved
      subst same
      exact kept_evict ⟨tracked, counted⟩ rfl id rfl rfl rfl
  | evict key =>
      cases moved
      subst same
      exact kept_evict ⟨tracked, counted⟩ rfl ExpiringStore.slot_of_slot_evict rfl rfl rfl

theorem kept_start {cfg : CacheConfig} (counts : cfg.keepTtl.getD false = false) (now : Nat)
    (hosts : HostsTrie) (groups : List GroupState) :
    Kept (start now hosts groups cfg, (Countdown.start : Countdown Name)) := by
  have nothing : ∀ i ttl, ¬ Carries (start now hosts groups cfg : State Name) .start i ttl := by
    intro i ttl carries
    cases carries with
    | stored key entry deadline slot origin positive => cases origin
    | held index query entry served answer waiting => cases waiting
  refine ⟨⟨counts, rfl, ?_, ?_, ?_, ?_, ?_⟩, ⟨?_, ?_, ?_, .nil⟩⟩
  · exact fun _ member => absurd member List.not_mem_nil
  · exact fun _ _ _ slot => absurd slot nofun
  · exact fun _ _ _ slot => absurd slot nofun
  · exact fun _ _ _ waiting => absurd waiting nofun
  · exact fun _ member => absurd member List.not_mem_nil
  · exact fun i first _ carries => absurd carries (nothing i first)
  · exact fun _ member => absurd member List.not_mem_nil
  · exact fun _ member => absurd member List.not_mem_nil

/-- In every run whose queries take no time, a hit shows no more than what is left of the
answer it goes back to, as that was first written back, and hits on one answer never show
a larger TTL than before. -/
theorem ttls_count_down {self : Pipeline} {cfg : CacheConfig}
    (counts : cfg.keepTtl.getD false = false) {startTime : Nat} {hosts : HostsTrie}
    {groups : List GroupState} {state : State Name} {record : Countdown Name}
    (run : (countdownMachine self).GuardedRun AtOneInstant
      (start startTime hosts groups cfg, .start) (state, record)) :
    (∀ hit ∈ record.hits, Truthful state.fetched hit) ∧ record.hits.Pairwise Falls := by
  have kept : Kept (state, record) :=
    run.invariant (kept_start counts startTime hosts groups) kept_step
  exact ⟨kept.2.truthful, kept.2.falling⟩

def shownTtls (record : Countdown LabelName) : List (List UInt32) :=
  record.hits.map fun hit => hit.response.answers.map Record.ttl

/-- An address that is given for ten minutes is served after fifty and again after ninety
seconds. -/
theorem two_hits_count_down :
    ∃ (state : State LabelName) (record : Countdown LabelName),
      (countdownMachine forwardAll).GuardedRun AtOneInstant
        (start 0 (buildHostsTrie (fun _ => none) []) [] defaults, .start) (state, record) ∧
      shownTtls record = [[550], [510]] ∧
      (∀ hit ∈ record.hits, Truthful state.fetched hit) ∧ record.hits.Pairwise Falls := by
  have checked : ((countdownMachine forwardAll).execWhile AtOneInstant
      (start 0 (buildHostsTrie (fun _ => none) []) [] defaults, .start)
      (askTwice 600 50 40 ++ [.receive question.msg, .complete 0 (addressFor 600)])).any
        (fun recorded => shownTtls recorded.2 = [[550], [510]]) = true := by
    decide +kernel
  obtain ⟨⟨state, record⟩, executed, shown⟩ := (Option.any_eq_true _ _).mp checked
  have run := Machine.GuardedRun.of_execWhile .refl executed
  exact ⟨state, record, run, of_decide_eq_true shown, ttls_count_down rfl run⟩

def overrideAll : Pipeline where
  rules := Rules.init
    [{ target := .MatchAll, qtype := none,
       action := .Forward "u".toList (some 300) [] false none none }] (by decide)
  balance := Balance.init none

/-- An address is received for a minute only, and still served with 200 seconds after 100. -/
theorem override_outlives_answer :
    ∃ (state : State LabelName) (record : Countdown LabelName) (hit : Hit LabelName)
        (received : Message LabelName),
      (countdownMachine overrideAll).GuardedRun AtOneInstant
        (start 0 (buildHostsTrie (fun _ => none) []) [] defaults, .start) (state, record) ∧
      (defaults.keepTtl.getD false = false ∧ defaults.minTtl.getD 60 ≤ defaults.maxTtl.getD 3600) ∧
      (countdownMachine overrideAll).execWhile AtOneInstant
        (start 0 (buildHostsTrie (fun _ => none) []) [] defaults, .start)
        (askTwice 60 100 0) = some (state, record) ∧
      (addressFor 60).upstream 0 "u".toList question.msg = some received ∧
      record.hits = [hit] ∧ state.fetched.map WriteBack.time = [0] ∧ hit.origin = some 0 ∧
      ¬ ∀ answer ∈ hit.response.answers, Duration.fromSecs answer.ttl.toNat ≤
        Duration.fromSecs (extractMinTtl received).toNat - (hit.time - 0) := by
  have checked : ((countdownMachine overrideAll).execWhile AtOneInstant
      (start 0 (buildHostsTrie (fun _ => none) []) [] defaults, .start)
      (askTwice 60 100 0)).any
        (fun recorded => recorded.1.fetched.map WriteBack.time = [0] ∧
          recorded.2.hits.length = 1 ∧
            ((addressFor 60).upstream 0 "u".toList question.msg).any fun received =>
              recorded.2.hits.all fun hit => hit.origin = some 0 ∧
                ¬ ∀ answer ∈ hit.response.answers, Duration.fromSecs answer.ttl.toNat ≤
                  Duration.fromSecs (extractMinTtl received).toNat - (hit.time - 0)) = true := by
    decide +kernel
  obtain ⟨⟨state, record⟩, executed, checks⟩ := (Option.any_eq_true _ _).mp checked
  obtain ⟨times, alone, shown⟩ := of_decide_eq_true checks
  obtain ⟨hit, only⟩ := List.length_eq_one_iff.mp alone
  obtain ⟨received, answered, outlive⟩ := (Option.any_eq_true _ _).mp shown
  have outlives := List.all_eq_true.mp outlive hit (only ▸ List.mem_singleton_self hit)
  obtain ⟨origin, longer⟩ := of_decide_eq_true outlives
  exact ⟨state, record, hit, received, .of_execWhile .refl executed, ⟨rfl, by decide⟩, executed,
    answered, only, times, origin, longer⟩

end Rsdns.Server
