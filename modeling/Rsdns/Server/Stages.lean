import Rsdns.Balance.Order
import Rsdns.Cache.Provenance
import Rsdns.Server.Pipeline

/-!
# What the stages leave alone

The stages after hosts and groups change neither what is asked nor whether the
cache takes part; those after the rules change neither the response code nor
what the answers say.
-/

namespace Rsdns.Server

open Dns Plugins

variable {Name : Type} [NameApi Name]

/-- The query is the same, and its passage through the cache. -/
structure SameQuery (later ctx : QueryContext Name) : Prop where
  key : later.key = ctx.key
  msg : later.msg = ctx.msg
  skipCache : later.skipCache = ctx.skipCache

omit [NameApi Name] in
theorem SameQuery.refl (ctx : QueryContext Name) : SameQuery ctx ctx := ⟨rfl, rfl, rfl⟩

omit [NameApi Name] in
theorem SameQuery.trans {first second third : QueryContext Name}
    (front : SameQuery first second) (back : SameQuery second third) :
    SameQuery first third :=
  ⟨front.key.trans back.key, front.msg.trans back.msg, front.skipCache.trans back.skipCache⟩

theorem sameQuery_lookup (cache : Cache Name) (now : Nat) (ctx : QueryContext Name) :
    SameQuery (cache.lookup now ctx).2 ctx := by
  have looked := cache.outcome_lookup now ctx
  generalize cache.lookup now ctx = outcome at looked ⊢
  cases looked with
  | skips _ => exact .refl ctx
  | misses _ _ => exact .refl ctx
  | hits _ entry _ => exact ⟨rfl, rfl, rfl⟩

omit [NameApi Name] in
theorem balance_writes (balance : Balance) (chance : Chance) (ctx : QueryContext Name) :
    ∃ response, (balance.handle chance ctx).2 = { ctx with response := response } := by
  unfold Balance.handle
  split
  · exact ⟨ctx.response, rfl⟩
  · split
    · exact ⟨ctx.response, rfl⟩
    · exact ⟨_, rfl⟩

theorem restoreName_writes (ctx : QueryContext Name) :
    ∃ response, restoreName ctx = { ctx with originalName := none, response := response } := by
  unfold restoreName
  split
  · exact ⟨ctx.response, rfl⟩
  · exact ⟨_, rfl⟩

omit [NameApi Name] in
theorem sameQuery_balance (balance : Balance) (chance : Chance) (ctx : QueryContext Name) :
    SameQuery (balance.handle chance ctx).2 ctx := by
  obtain ⟨response, balanced⟩ := balance_writes balance chance ctx
  rw [balanced]
  exact ⟨rfl, rfl, rfl⟩

theorem sameQuery_restoreName (ctx : QueryContext Name) : SameQuery (restoreName ctx) ctx := by
  obtain ⟨response, restored⟩ := restoreName_writes ctx
  rw [restored]
  exact ⟨rfl, rfl, rfl⟩

/-! ### What the hosts stage does -/

/-- The query is rewritten to `original`. -/
def RewritesTo (hosts : HostsTrie) (ctx : QueryContext Name) (original : Text) : Prop :=
  hosts.lookup ctx.name = .Alias original ∧ ∀ ips, hosts.lookup original ≠ .Ips ips

/-- All that the hosts stage can do: answer, leave the query alone, or rewrite it. -/
inductive HostsOutcome (hosts : HostsTrie) (ctx : QueryContext Name) :
    Step × QueryContext Name → Prop where
  | answers (response : Message Name) (asks : response.queries = ctx.msg.queries.head?.toList) :
      HostsOutcome hosts ctx
        (.respond, { ctx with response := some response, action := "hosts".toList })
  | passes (unaliased : ∀ original, ¬ RewritesTo hosts ctx original) :
      HostsOutcome hosts ctx (.continue, ctx)
  | rewrites (original : Text) (rewrites : RewritesTo hosts ctx original) :
      HostsOutcome hosts ctx
        (.continue, { ctx with originalName := some ctx.name }.rewriteName original)

theorem outcome_respondData (hosts : HostsTrie) (ctx : QueryContext Name) (name : Text)
    (ips : List IpAddr) : HostsOutcome hosts ctx (Hosts.respondData ctx name ips) := by
  unfold Hosts.respondData
  apply HostsOutcome.answers
  unfold buildHostsResponse
  cases (parseName name : IoResult Name) with
  | ok rrName => rfl
  | error failed => rfl

theorem outcome_handle (hosts : HostsTrie) (ctx : QueryContext Name) :
    HostsOutcome hosts ctx (Hosts.handle hosts ctx) := by
  unfold Hosts.handle
  cases hit : hosts.lookup ctx.name with
  | Miss =>
      apply HostsOutcome.passes
      rintro original ⟨aliased, _⟩
      cases hit.symm.trans aliased
  | Ips ips => exact outcome_respondData hosts ctx ctx.name ips
  | Alias original =>
      dsimp only
      unfold Hosts.handleAlias
      cases found : hosts.lookup original with
      | Ips ips => exact outcome_respondData hosts ctx ctx.name ips
      | Miss => exact .rewrites original ⟨hit, fun _ => by simp [found]⟩
      | Alias other => exact .rewrites original ⟨hit, fun _ => by simp [found]⟩

theorem handle_of_rewritesTo {hosts : HostsTrie} {ctx : QueryContext Name} {original : Text}
    (rewrites : RewritesTo hosts ctx original) :
    Hosts.handle hosts ctx =
      (.continue, { ctx with originalName := some ctx.name }.rewriteName original) := by
  obtain ⟨aliased, noAddress⟩ := rewrites
  unfold Hosts.handle
  rw [aliased]
  dsimp only
  unfold Hosts.handleAlias
  split
  · next ips found => exact absurd found (noAddress ips)
  · rfl

theorem action_of_hosts_respond {hosts : HostsTrie} {ctx answered : QueryContext Name}
    (handled : Hosts.handle hosts ctx = (.respond, answered)) :
    answered.action = "hosts".toList := by
  have outcome := outcome_handle hosts ctx
  rw [handled] at outcome
  cases outcome with
  | answers response _ => rfl

/-! ### What the rules write -/

omit [NameApi Name] in
theorem matchesQuery_writes {rule : Rule} {ctx matched : QueryContext Name}
    (accepted : rule.matchesQuery ctx = some matched) :
    ∃ captures, matched = { ctx with captures := captures } := by
  unfold Rule.matchesQuery at accepted
  split at accepted
  · cases accepted
  · split at accepted
    · cases accepted
      exact ⟨ctx.captures, rfl⟩
    · obtain ⟨_, same⟩ := Option.ite_none_right_eq_some.mp accepted
      cases same
      exact ⟨ctx.captures, rfl⟩
    · obtain ⟨_, same⟩ := Option.ite_none_right_eq_some.mp accepted
      cases same
      exact ⟨ctx.captures, rfl⟩
    · obtain ⟨captures, _, rfl⟩ := Option.map_eq_some_iff.mp accepted
      exact ⟨captures, rfl⟩

omit [NameApi Name] in
theorem scan_writes {rules : Rules} {ctx routed : QueryContext Name}
    {idx : Fin rules.rules.length} (found : rules.scan ctx = some (idx, routed)) :
    ∃ captures, routed = { ctx with captures := captures } := by
  obtain ⟨_, _, chosen⟩ := List.exists_of_findSome?_eq_some found
  obtain ⟨matched, accepted, same⟩ := Option.map_eq_some_iff.mp chosen
  cases same
  exact matchesQuery_writes accepted

omit [NameApi Name] in
theorem route_writes {rules : Rules} {ctx routed : QueryContext Name}
    {idx : Fin rules.rules.length} (found : rules.route ctx = some (idx, routed)) :
    ∃ captures, routed = { ctx with captures := captures } := by
  unfold Rules.route at found
  split at found
  · split at found
    · cases found
      exact ⟨ctx.captures, rfl⟩
    · exact scan_writes found
  · exact scan_writes found

omit [NameApi Name] in
theorem respondWith_writes (ctx : QueryContext Name) (built : IoResult (Message Name))
    (action failed : Text) :
    ∃ response label, (respondWith ctx built action failed).2 =
      { ctx with response := some response, action := label } := by
  cases built with
  | ok response => exact ⟨response, action, rfl⟩
  | error _ => exact ⟨buildServfail ctx.msg, failed, rfl⟩

theorem applyRule_writes (world : World Name) (ctx : QueryContext Name) (rule : Rule) :
    ∃ response label, (applyRule world ctx rule).2 =
      { ctx with response := some response, action := label } := by
  unfold applyRule
  split
  · exact respondWith_writes ..
  · exact respondWith_writes ..
  · exact respondWith_writes ..
  · split <;> exact respondWith_writes ..
  · exact respondWith_writes ..

theorem rulesStage_writes (self : Pipeline) (world : World Name) (step : Step)
    (ctx : QueryContext Name) :
    ∃ captures response label, rulesStage self world step ctx =
      { ctx with captures := captures, response := some response, action := label } := by
  cases step with
  | respond => exact ⟨ctx.captures, _, ctx.action, rfl⟩
  | «continue» =>
      have ruled : ∃ captures response label, (self.rules.handle world ctx).2 =
          { ctx with captures := captures, response := some response, action := label } := by
        unfold Rules.handle
        split
        · next idx routed found =>
            obtain ⟨captures, rfl⟩ := route_writes found
            obtain ⟨response, label, applied⟩ :=
              applyRule_writes world { ctx with captures := captures } (self.rules.rules.get idx)
            exact ⟨captures, response, label, applied⟩
        · exact ⟨ctx.captures, respondWith_writes ..⟩
      obtain ⟨captures, response, label, ruled⟩ := ruled
      refine ⟨captures, response, label, ?_⟩
      unfold rulesStage
      dsimp only
      rw [ruled]
      rfl

theorem sameQuery_rulesStage (self : Pipeline) (world : World Name) (step : Step)
    (ctx : QueryContext Name) : SameQuery (rulesStage self world step ctx) ctx := by
  obtain ⟨captures, response, label, ruled⟩ := rulesStage_writes self world step ctx
  rw [ruled]
  exact ⟨rfl, rfl, rfl⟩

theorem sameQuery_answerStages (self : Pipeline) (world : World Name) (step : Step)
    (ctx : QueryContext Name) : SameQuery (answerStages self world step ctx) ctx := by
  have ruled := sameQuery_rulesStage self world step ctx
  have balanced := (sameQuery_balance self.balance world.chance _).trans ruled
  have restored := (sameQuery_restoreName _).trans balanced
  exact ⟨restored.key, restored.msg, restored.skipCache⟩

/-! ### What the response says -/

omit [NameApi Name] in
theorem presents_balance {ctx : QueryContext Name} {built : Message Name}
    (responded : ctx.response = some built) (balance : Balance) (chance : Chance) :
    ∃ final, (balance.handle chance ctx).2.response = some final ∧ Presents final built := by
  unfold Balance.handle
  split
  · exact ⟨built, responded, .refl built⟩
  · split
    · exact ⟨built, responded, .refl built⟩
    · next selected _ =>
        rw [responded]
        have kept := balance.balanceAnswers_spec chance built.answers selected
        refine ⟨_, rfl, rfl, kept.2, fun answer member => ?_⟩
        exact ⟨answer, kept.1 member, rfl, rfl⟩

theorem presents_restoreName {ctx : QueryContext Name} {built : Message Name}
    (responded : ctx.response = some built) :
    ∃ final, (restoreName ctx).response = some final ∧ Presents final built := by
  unfold restoreName
  split
  · exact ⟨built, responded, .refl built⟩
  · next n _ =>
    rw [responded]
    have code : (built.setFirstName n).metadata.responseCode = built.metadata.responseCode := by
      unfold Message.setFirstName
      split <;> rfl
    refine ⟨_, rfl, code, List.map_eq_nil_iff, fun answer member => ?_⟩
    obtain ⟨source, sourceMember, rfl⟩ := List.mem_map.mp member
    exact ⟨source, sourceMember, rfl, rfl⟩

/-- The final response says what the rules or the cache said. -/
theorem presents_answerStages {self : Pipeline} {world : World Name} {step : Step}
    {ctx : QueryContext Name} {built : Message Name}
    (ruled : (rulesStage self world step ctx).response = some built) :
    ∃ final, (answerStages self world step ctx).response = some final ∧
      Presents final built := by
  obtain ⟨balanced, balancedIs, first⟩ := presents_balance ruled self.balance world.chance
  obtain ⟨restored, restoredIs, second⟩ := presents_restoreName balancedIs
  have presents := second.trans first
  refine ⟨{ restored with metadata := { restored.metadata with id := ctx.msg.metadata.id } }, ?_,
    presents.code, presents.answered, presents.told⟩
  unfold answerStages setId
  dsimp only
  rw [restoredIs]
  rfl

theorem action_answerStages (self : Pipeline) (world : World Name) (step : Step)
    (ctx : QueryContext Name) :
    (answerStages self world step ctx).action = (rulesStage self world step ctx).action := by
  obtain ⟨balancedResponse, balanced⟩ :=
    balance_writes self.balance world.chance (rulesStage self world step ctx)
  obtain ⟨restoredResponse, restored⟩ :=
    restoreName_writes (self.balance.handle world.chance (rulesStage self world step ctx)).2
  unfold answerStages setId
  dsimp only
  rw [restored, balanced]

theorem reply_of_handleQuery {self : Pipeline} {hosts : HostsTrie} {groups : List GroupState}
    {cache cache' : Cache Name} {now : Nat} {world : World Name} {msg : Message Name}
    {ctx : QueryContext Name} {reply : IoResult (Option (Message Name))}
    (opened : openContext msg = .ok ctx)
    (handled : handleQuery self hosts groups cache now world msg = some (reply, cache')) :
    reply = .ok (answerStages self world (lookupStages hosts groups cache now ctx).1
      (lookupStages hosts groups cache now ctx).2).response := by
  unfold handleQuery at handled
  rw [opened] at handled
  obtain ⟨_, _, same⟩ := Option.map_eq_some_iff.mp handled
  cases same
  rfl

/-- What holds of the context after the hosts stage and is kept by the two stages behind it
holds after the lookup. -/
theorem lookupStages_preserves {motive : QueryContext Name → Prop} {hosts : HostsTrie}
    {groups : List GroupState} {cache : Cache Name} {now : Nat} {ctx : QueryContext Name}
    (atHosts : motive (Hosts.handle hosts ctx).2)
    (groupsKeep : ∀ later, motive later → motive (Groups.handle groups later).2)
    (lookupKeeps : ∀ later, motive later → motive (cache.lookup now later).2) :
    motive (lookupStages hosts groups cache now ctx).2 := by
  unfold lookupStages
  split
  · next responds =>
      rw [responds] at atHosts
      exact atHosts
  · next continues =>
      rw [continues] at atHosts
      exact lookupKeeps _ (groupsKeep _ atHosts)

/-! ### The name kept for the reply -/

theorem originalName_lookupStages (hosts : HostsTrie) (groups : List GroupState)
    (cache : Cache Name) (now : Nat) (ctx : QueryContext Name) :
    (lookupStages hosts groups cache now ctx).2.originalName =
      (Hosts.handle hosts ctx).2.originalName := by
  apply lookupStages_preserves (motive := fun later =>
    later.originalName = (Hosts.handle hosts ctx).2.originalName)
  · rfl
  · intro later kept
    rw [← kept]
    unfold Groups.handle
    split <;> rfl
  · intro later kept
    rw [← kept]
    have looked := cache.outcome_lookup now later
    generalize cache.lookup now later = outcome at looked ⊢
    cases looked with
    | skips _ => rfl
    | misses _ _ => rfl
    | hits _ entry _ => rfl

omit [NameApi Name] in
theorem originalName_balance (balance : Balance) (chance : Chance) (ctx : QueryContext Name) :
    (balance.handle chance ctx).2.originalName = ctx.originalName := by
  obtain ⟨response, balanced⟩ := balance_writes balance chance ctx
  rw [balanced]

/-- The name that the reply is brought back under is the one the hosts stage kept. -/
theorem originalName_beforeRestore (self : Pipeline) (hosts : HostsTrie)
    (groups : List GroupState) (cache : Cache Name) (now : Nat) (world : World Name)
    (chance : Chance) (ctx : QueryContext Name) :
    (self.balance.handle chance (rulesStage self world (lookupStages hosts groups cache now ctx).1
      (lookupStages hosts groups cache now ctx).2)).2.originalName =
      (Hosts.handle hosts ctx).2.originalName := by
  obtain ⟨captures, response, label, ruled⟩ := rulesStage_writes self world
    (lookupStages hosts groups cache now ctx).1 (lookupStages hosts groups cache now ctx).2
  rw [originalName_balance, ruled]
  exact originalName_lookupStages hosts groups cache now ctx

end Rsdns.Server
