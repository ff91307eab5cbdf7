import Rsdns.Balance.Settled
import Rsdns.Hosts.Coherence

/-!
# The switches of a group

A group takes the queries for its names past the cache, past the balance, or
past both.  The marks are set by the groups stage; the stages that read them run
later, and not all of them in every query.
-/

namespace Rsdns.Server

open Dns Plugins

variable {Name : Type} [NameApi Name]

/-- The first group, in the order of the configuration, that holds a name. -/
def firstGroup (groups : List GroupState) (name : Text) : Option GroupState :=
  groups.find? fun state => (state.current.trie.lookup name).isSome

omit [NameApi Name] in
theorem groups_handle_of_firstGroup {groups : List GroupState} {ctx : QueryContext Name}
    {group : GroupState} (grouped : firstGroup groups ctx.name = some group) :
    (Groups.handle groups ctx).2 =
      { ctx with
        group := some group.name
        skipCache := ctx.skipCache || group.skipCache
        skipBalance := ctx.skipBalance || group.skipBalance } := by
  unfold firstGroup at grouped
  unfold Groups.handle
  rw [grouped]

/-! ### Past the cache -/

theorem lookup_of_skipCache {ctx : QueryContext Name} (skips : ctx.skipCache = true)
    (cache : Cache Name) (now : Nat) : cache.lookup now ctx = (.continue, ctx) := by
  unfold Cache.lookup
  rw [if_pos skips]

theorem writeBack_of_skipCache {ctx : QueryContext Name} (skips : ctx.skipCache = true)
    (cache : Cache Name) (now : Nat) : cache.writeBack now ctx = some cache := by
  unfold Cache.writeBack
  rw [if_pos skips]

theorem writeBack_of_hosts {ctx : QueryContext Name} (answered : ctx.action = "hosts".toList)
    (cache : Cache Name) (now : Nat) : cache.writeBack now ctx = some cache := by
  unfold Cache.writeBack
  rw [answered]
  split
  · rfl
  · split
    · rfl
    · rfl

/-- The query's name after the hosts stage belongs to a group that skips the cache: the
reply is the same for every cache, and no cache changes. -/
theorem skipCache_isolates {self : Pipeline} {hosts : HostsTrie} {groups : List GroupState}
    {now : Nat} {world : World Name} {msg : Message Name} {ctx : QueryContext Name}
    {group : GroupState} (opened : openContext msg = .ok ctx)
    (grouped : firstGroup groups (Hosts.handle hosts ctx).2.name = some group)
    (skips : group.skipCache = true) :
    ∃ reply, ∀ cache : Cache Name,
      handleQuery self hosts groups cache now world msg = some (reply, cache) := by
  have handled := outcome_handle hosts ctx
  cases outcome : Hosts.handle hosts ctx with
  | mk step hostsCtx =>
      rw [outcome] at handled grouped
      cases step with
      | respond =>
          have answered : hostsCtx.action = "hosts".toList := by
            cases handled with
            | answers response asks => rfl
          refine ⟨.ok (answerStages self world .respond hostsCtx).response, fun cache => ?_⟩
          have looked : lookupStages hosts groups cache now ctx = (.respond, hostsCtx) := by
            rw [lookupStages, outcome]
          have action : (answerStages self world .respond hostsCtx).action = "hosts".toList :=
            (action_answerStages self world .respond hostsCtx).trans answered
          unfold handleQuery
          simp only [opened, looked, writeBack_of_hosts action, Option.map_some]
      | «continue» =>
          let marked := (Groups.handle groups hostsCtx).2
          have skipped : marked.skipCache = true := by
            simp only [marked, groups_handle_of_firstGroup grouped, skips, Bool.or_true]
          refine ⟨.ok (answerStages self world .continue marked).response, fun cache => ?_⟩
          have looked : lookupStages hosts groups cache now ctx = (.continue, marked) := by
            rw [lookupStages, outcome]
            exact lookup_of_skipCache skipped cache now
          have stillSkipped : (answerStages self world .continue marked).skipCache = true :=
            (sameQuery_answerStages self world .continue marked).skipCache.trans skipped
          unfold handleQuery
          simp only [opened, looked, writeBack_of_skipCache stillSkipped, Option.map_some]

def bypassing : GroupState :=
  Groups.initState (fun _ => none)
    { name := "g".toList, domains := ["a".toList], skipCache := true, skipBalance := true }

def asking (name : LabelName) (qtype : RecordType) : QueryContext LabelName :=
  .new (LabelName.ask name qtype) (List.cons_ne_nil _ _)
    { name := keyName name, qtype := qtype }

def askAddress : QueryContext LabelName := asking ⟨["a".toList], true⟩ .A

theorem firstGroup_bypassing : firstGroup [bypassing] "a".toList = some bypassing := by
  unfold firstGroup
  rw [List.find?_cons_of_pos (by decide)]

def noHosts : HostsTrie := buildHostsTrie (fun _ => none) []

theorem handle_noHosts : Hosts.handle noHosts askAddress = (.continue, askAddress) := by
  decide +kernel

def cutting : Pipeline where
  rules := Rules.init [] (by decide)
  balance := { enabled := true, cidrs := [], mode := .None, maxAnswers := some 1 }

def silent : World LabelName := ⟨fun _ _ _ => none, fun _ _ => none, fun _ => 0, fun _ _ => none⟩

theorem isolated_member :
    ∃ reply, ∀ cache : Cache LabelName,
      handleQuery cutting noHosts [bypassing] cache 0 silent
        (LabelName.ask ⟨["a".toList], true⟩ .A) = some (reply, cache) := by
  have grouped : firstGroup [bypassing] (Hosts.handle noHosts askAddress).2.name =
      some bypassing := by
    rw [handle_noHosts]
    exact firstGroup_bypassing
  have opened : openContext (LabelName.ask ⟨["a".toList], true⟩ .A) = .ok askAddress := rfl
  exact skipCache_isolates opened grouped rfl

/-! ### Past the balance -/

/-- The cache answers what the groups stage leaves. -/
def HitsCache (cache : Cache Name) (now : Nat) (ctx : QueryContext Name) : Prop :=
  ctx.skipCache = false ∧ ∃ entry, cache.cache.getCached now ctx.key = .fresh entry

/-- The mark of the query's group is set, and no cache hit sets it back. -/
def MarkSurvives (hosts : HostsTrie) (groups : List GroupState) (cache : Cache Name) (now : Nat)
    (ctx : QueryContext Name) : Prop :=
  (Hosts.handle hosts ctx).1 = .continue ∧
    (HitsCache cache now (Groups.handle groups (Hosts.handle hosts ctx).2).2 →
      cache.skipBalanceOnHit = true)

theorem skipBalance_lookup (cache : Cache Name) (now : Nat) (ctx : QueryContext Name)
    (marked : ctx.skipBalance = true) :
    (cache.lookup now ctx).2.skipBalance = true ↔
      (HitsCache cache now ctx → cache.skipBalanceOnHit = true) := by
  unfold HitsCache Cache.lookup
  split
  · next skips => exact iff_of_true marked fun hits => absurd hits.1 (by simp [skips])
  · next asks =>
      have asks : ctx.skipCache = false := Bool.eq_false_of_not_eq_true asks
      cases found : cache.cache.getCached now ctx.key with
      | fresh entry =>
          constructor
          · intro kept _
            exact kept
          · intro hit
            exact hit ⟨asks, entry, rfl⟩
      | miss =>
          refine iff_of_true marked fun hits => ?_
          obtain ⟨_, _, fresh⟩ := hits
          cases fresh

theorem skipBalance_lookupStages_iff {hosts : HostsTrie} {groups : List GroupState}
    {cache : Cache Name} {now : Nat} {msg : Message Name} {ctx : QueryContext Name}
    {group : GroupState} (opened : openContext msg = .ok ctx)
    (grouped : firstGroup groups (Hosts.handle hosts ctx).2.name = some group)
    (skips : group.skipBalance = true) :
    (lookupStages hosts groups cache now ctx).2.skipBalance = true ↔
      MarkSurvives hosts groups cache now ctx := by
  have unmarked : ctx.skipBalance = false := by
    unfold openContext at opened
    split at opened
    · cases opened
      rfl
    · cases opened
  have handled := outcome_handle hosts ctx
  unfold MarkSurvives lookupStages
  cases outcome : Hosts.handle hosts ctx with
  | mk step hostsCtx =>
      rw [outcome] at handled grouped
      cases step with
      | respond =>
          cases handled with
          | answers response asks =>
              refine iff_of_false ?_ fun survives => ?_
              · simp [unmarked]
              · cases survives.1
      | «continue» =>
          have marked : (Groups.handle groups hostsCtx).2.skipBalance = true := by
            rw [groups_handle_of_firstGroup grouped, skips, Bool.or_true]
          rw [skipBalance_lookup cache now _ marked]
          simp

/-- The stage has nothing to do with the answers it gets. -/
def NothingToBalance (balance : Balance) (ctx : QueryContext Name) : Prop :=
  balance.enabled = false ∨
    ∀ selected, families ctx.qtype = some selected →
      balance.LeavesAlone selected (Balance.answersOf ctx)

omit [NameApi Name] in
theorem balance_handle_of_skipBalance {ctx : QueryContext Name} (marked : ctx.skipBalance = true)
    (balance : Balance) (chance : Chance) : balance.handle chance ctx = (.continue, ctx) := by
  unfold Balance.handle
  rw [marked, Bool.or_true, if_pos rfl]

omit [NameApi Name] in
theorem balance_leaves_iff {balance : Balance} {ctx : QueryContext Name}
    {response : Message Name} (responded : ctx.response = some response) :
    (∀ chance, (balance.handle chance ctx).2.response = ctx.response) ↔
      ctx.skipBalance = true ∨ NothingToBalance balance ctx := by
  have answers : Balance.answersOf ctx = response.answers := by
    unfold Balance.answersOf
    rw [responded]
  unfold NothingToBalance
  rw [answers]
  unfold Balance.handle
  cases enabled : balance.enabled with
  | false => simp
  | true =>
      cases marked : ctx.skipBalance with
      | true => simp
      | false =>
          cases selects : families ctx.qtype with
          | none => simp
          | some selected =>
              have nonempty := Balance.isEmpty_of_families selects
              have still : (∀ chance,
                  balance.balanceAnswers chance selected response.answers = response.answers) ↔
                    balance.LeavesAlone selected response.answers :=
                Balance.balanceAnswers_eq_self_iff nonempty
              simp only [responded, Option.map_some, Option.some.injEq, Bool.not_true, Bool.or_self,
                Bool.false_eq_true, if_false, Bool.true_eq_false, false_or, forall_eq']
              rw [← still]
              constructor
              · intro same chance
                exact congrArg Message.answers (same chance)
              · intro same chance
                rw [same chance]

/-- The balance leaves the answer to a query of a group that skips it alone, whatever it
draws, exactly if the mark survives to it or there is nothing to balance. -/
theorem skipBalance_respected_iff {self : Pipeline} {hosts : HostsTrie}
    {groups : List GroupState} {cache : Cache Name} {now : Nat} {world : World Name}
    {msg : Message Name} {ctx looked : QueryContext Name} {step : Step} {group : GroupState}
    (opened : openContext msg = .ok ctx)
    (grouped : firstGroup groups (Hosts.handle hosts ctx).2.name = some group)
    (skips : group.skipBalance = true)
    (stages : lookupStages hosts groups cache now ctx = (step, looked)) :
    (∀ chance, (self.balance.handle chance (rulesStage self world step looked)).2.response =
        (rulesStage self world step looked).response) ↔
      MarkSurvives hosts groups cache now ctx ∨
        NothingToBalance self.balance (rulesStage self world step looked) := by
  have mark : (lookupStages hosts groups cache now ctx).2.skipBalance = true ↔
      MarkSurvives hosts groups cache now ctx :=
    skipBalance_lookupStages_iff opened grouped skips
  rw [stages] at mark
  obtain ⟨captures, response, label, ruled⟩ := rulesStage_writes self world step looked
  have responded : (rulesStage self world step looked).response = some response := by rw [ruled]
  rw [balance_leaves_iff responded, ← mark]
  rw [ruled]

def emptyCache : Cache LabelName := Cache.init ⟨none, none, none, none, none⟩

/-- A member that is in no other table and not cached. -/
theorem unanswered_member_keeps_mark :
    MarkSurvives noHosts [bypassing] emptyCache 0 askAddress ∨
      NothingToBalance cutting.balance (rulesStage cutting silent
        (lookupStages noHosts [bypassing] emptyCache 0 askAddress).1
        (lookupStages noHosts [bypassing] emptyCache 0 askAddress).2) := by
  have grouped : firstGroup [bypassing] (Hosts.handle noHosts askAddress).2.name =
      some bypassing := by
    rw [handle_noHosts]
    exact firstGroup_bypassing
  have opened : openContext (LabelName.ask ⟨["a".toList], true⟩ .A) = .ok askAddress := rfl
  apply (skipBalance_respected_iff opened grouped rfl rfl).mp
  intro chance
  rw [balance_handle_of_skipBalance (by decide +kernel)]

/-- Two static addresses of a member of the group: the cut takes one of them. -/
theorem hosts_answer_of_member_is_cut :
    ∃ (hosts : HostsTrie) (step : Step) (looked : QueryContext LabelName),
      hosts = buildHostsTrie (fun _ => none) ["0.0.0.1 a".toList, "0.0.0.2 a".toList] ∧
      openContext (LabelName.ask ⟨["a".toList], true⟩ .A) = .ok askAddress ∧
      firstGroup [bypassing] (Hosts.handle hosts askAddress).2.name = some bypassing ∧
      bypassing.skipBalance = true ∧
      lookupStages hosts [bypassing] emptyCache 0 askAddress = (step, looked) ∧
      (cutting.balance.handle silent.chance (rulesStage cutting silent step looked)).2.response ≠
        (rulesStage cutting silent step looked).response := by
  let hosts := buildHostsTrie (fun _ => none) ["0.0.0.1 a".toList, "0.0.0.2 a".toList]
  have name : (Hosts.handle hosts askAddress).2.name = "a".toList := by decide +kernel
  refine ⟨hosts, (lookupStages hosts [bypassing] emptyCache 0 askAddress).1,
    (lookupStages hosts [bypassing] emptyCache 0 askAddress).2, rfl, rfl, ?_, rfl, rfl, ?_⟩
  · rw [name]
    exact firstGroup_bypassing
  · decide +kernel

end Rsdns.Server
