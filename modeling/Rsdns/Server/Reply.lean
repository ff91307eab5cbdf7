import Rsdns.Server.Owners

/-!
# The question of the reply

Every stage answers the question of the message it is given.  That is the
client's question until the hosts stage rewrites it, and the end of the query
brings back only a name read from the lowercase key.
-/

namespace Rsdns.Server

open Dns Plugins

variable {Name Label : Type}

/-- The upstreams repeat the question they are sent. -/
def RepeatsQuestions (world : World Name) : Prop :=
  ∀ round upstream sent resp, world.upstream round upstream sent = some resp →
    resp.queries.head? = sent.queries.head?

def Answers (response msg : Message Name) : Prop := response.queries.head? = msg.queries.head?

theorem answers_makeResponseBase (msg : Message Name) : Answers (makeResponseBase msg) msg := by
  unfold Answers
  rw [makeResponseBase_queries]
  cases msg.queries <;> rfl

theorem answers_of_queries_eq {response msg : Message Name}
    (same : response.queries = (makeResponseBase msg).queries) : Answers response msg := by
  unfold Answers
  rw [same]
  exact answers_makeResponseBase msg

theorem answers_buildServfail (msg : Message Name) : Answers (buildServfail msg) msg :=
  answers_of_queries_eq rfl

/-- What the context holds as a response answers its message. -/
def AnswersOwn (ctx : QueryContext Name) : Prop :=
  ∀ response, ctx.response = some response → Answers response ctx.msg

/-! ### The actions -/

theorem answers_respondWith {ctx : QueryContext Name} {built : IoResult (Message Name)}
    (answers : ∀ response, built = .ok response → Answers response ctx.msg)
    (action failed : Text) : AnswersOwn (respondWith ctx built action failed).2 := by
  cases built with
  | ok response =>
      intro _ responded
      cases responded
      exact answers response rfl
  | error _ =>
      intro _ responded
      cases responded
      exact answers_buildServfail ctx.msg

variable [NameApi Name]

theorem answers_buildPoison {msg response : Message Name} {name : Text} {qtype : RecordType}
    (built : buildPoison msg name qtype = .ok response) : Answers response msg := by
  obtain ⟨rrName, _, rfl⟩ := ioResult_map_eq_ok_iff.mp built
  exact answers_of_queries_eq rfl

theorem answers_buildRewriteResponse {msg response : Message Name} {name target : Text}
    {captures : List Text} {ttl : UInt32}
    (built : buildRewriteResponse msg name target captures ttl = .ok response) :
    Answers response msg := by
  unfold buildRewriteResponse at built
  dsimp only at built
  split at built
  · split at built
    · cases built
    · obtain ⟨rrName, _, rfl⟩ := ioResult_map_eq_ok_iff.mp built
      exact answers_of_queries_eq rfl
  · cases built
    exact answers_of_queries_eq rfl

theorem answers_handleCname {world : World Name} {ctx : QueryContext Name} {target : Text}
    {ttl : UInt32} {upstream : Text} {denyQtypes : List RecordType} {response : Message Name}
    (handled : handleCname world ctx target ttl upstream denyQtypes = .ok response) :
    Answers response ctx.msg := by
  cases cnameAnswer_of_handleCname handled with
  | denied _ => exact answers_of_queries_eq rfl
  | silent _ name asked _ _ => exact answers_of_queries_eq rfl
  | answered _ asked resp _ _ => exact Eq.refl _

theorem queries_resolveCnames (world : World Name) (ctx : QueryContext Name) (upstream : Text)
    (resp : Message Name) (subnet : Option ClientSubnet) :
    (resolveCnames world ctx upstream resp subnet).queries = resp.queries := by
  unfold resolveCnames
  split
  · rfl
  · split
    · rfl
    · split
      · rfl
      · split
        · rfl
        · split <;> rfl

omit [NameApi Name] in
theorem queries_completeEch (world : World Name) (ctx : QueryContext Name) (upstream : Text)
    (resp : Message Name) (cfEch : Option CfEch) :
    (completeEch world ctx upstream resp cfEch).queries = resp.queries := by
  unfold completeEch
  split
  · rfl
  · split
    · split <;> rfl
    · rfl

omit [NameApi Name] in
theorem queries_withSubnet (msg : Message Name) (subnet : Option ClientSubnet) :
    (withSubnet msg subnet).queries = msg.queries := by
  unfold withSubnet applyEdns
  split
  · split
    · rfl
    · split <;> rfl
  · rfl

theorem answers_forwardQuery {world : World Name} (repeats : RepeatsQuestions world)
    {ctx : QueryContext Name} {upstream : Text} {opts : ForwardOpts} {response : Message Name}
    (forwarded : forwardQuery world ctx upstream opts = .ok response) :
    Answers response ctx.msg := by
  unfold forwardQuery at forwarded
  split at forwarded
  · cases forwarded
  · next resp answered =>
      have asked : resp.queries.head? = ctx.msg.queries.head? := by
        rw [repeats _ _ _ _ answered, queries_withSubnet]
      have queries : response.queries = resp.queries := by
        dsimp only at forwarded
        split at forwarded <;> cases forwarded
        · exact (queries_completeEch _ _ _ _ _).trans
            (by split <;> simp [queries_resolveCnames])
        · exact (queries_completeEch _ _ _ _ _).trans
            (by split <;> simp [queries_resolveCnames])
      rw [Answers, queries, asked]

theorem answers_applyRule {world : World Name} (repeats : RepeatsQuestions world)
    (ctx : QueryContext Name) (rule : Rule) : AnswersOwn (applyRule world ctx rule).2 := by
  unfold applyRule
  split
  · apply answers_respondWith
    rintro _ ⟨⟩
    exact answers_of_queries_eq rfl
  · exact answers_respondWith (fun _ built => answers_buildPoison built) _ _
  · exact answers_respondWith (fun _ handled => answers_handleCname handled) _ _
  · split
    · apply answers_respondWith
      rintro _ ⟨⟩
      exact answers_of_queries_eq rfl
    · exact answers_respondWith (fun _ forwarded => answers_forwardQuery repeats forwarded) _ _
  · exact answers_respondWith (fun _ built => answers_buildRewriteResponse built) _ _

theorem answers_rules {world : World Name} (repeats : RepeatsQuestions world) (rules : Rules)
    (ctx : QueryContext Name) : AnswersOwn (rules.handle world ctx).2 := by
  unfold Rules.handle
  split
  · exact answers_applyRule repeats _ _
  · apply answers_respondWith
    rintro _ ⟨⟩
    exact answers_of_queries_eq rfl

/-! ### The stages -/

theorem answers_buildResponseFromCache {msg built : Message Name} {entry : CacheEntry Name}
    {keepTtl : Bool} {now : Nat}
    (served : buildResponseFromCache msg entry keepTtl now = .ok built) : Answers built msg := by
  obtain ⟨query, answers, _, _, rfl⟩ := buildResponseFromCache_eq_ok_iff.mp served
  exact answers_of_queries_eq rfl

theorem answers_lookup {cache : Cache Name} {now : Nat} {ctx : QueryContext Name}
    (own : AnswersOwn ctx) : AnswersOwn (cache.lookup now ctx).2 := by
  have looked := cache.outcome_lookup now ctx
  generalize cache.lookup now ctx = outcome at looked ⊢
  cases looked with
  | skips _ => exact own
  | misses _ _ => exact own
  | hits _ entry _ =>
      intro response responded
      cases responded
      change Answers (cache.respond now ctx.msg entry) ctx.msg
      unfold Cache.respond
      split
      · next built => exact answers_buildResponseFromCache built
      · exact answers_buildServfail ctx.msg

theorem answers_hosts {hosts : HostsTrie} {ctx : QueryContext Name}
    (unanswered : ctx.response = none) : AnswersOwn (Hosts.handle hosts ctx).2 := by
  have handled := outcome_handle hosts ctx
  generalize Hosts.handle hosts ctx = outcome at handled
  cases handled with
  | answers response asks =>
      intro _ responded
      cases responded
      exact answers_of_queries_eq asks
  | passes _ =>
      intro _ responded
      cases unanswered.symm.trans responded
  | rewrites original _ =>
      intro response responded
      have still : ({ ctx with originalName := some ctx.name }.rewriteName original).response =
          ctx.response := by
        unfold QueryContext.rewriteName
        split <;> rfl
      cases (unanswered.symm.trans still.symm).trans responded

theorem answers_lookupStages {hosts : HostsTrie} {groups : List GroupState} {cache : Cache Name}
    {now : Nat} {ctx : QueryContext Name} (unanswered : ctx.response = none) :
    AnswersOwn (lookupStages hosts groups cache now ctx).2 := by
  apply lookupStages_preserves (answers_hosts unanswered)
  · intro later own
    unfold Groups.handle
    split
    · exact own
    · exact own
  · exact fun later own => answers_lookup own

theorem answers_rulesStage (self : Pipeline) {world : World Name}
    (repeats : RepeatsQuestions world) (step : Step) {ctx : QueryContext Name}
    (own : AnswersOwn ctx) :
    ∃ response, (rulesStage self world step ctx).response = some response ∧
      Answers response ctx.msg := by
  have filled : ∀ ruled : QueryContext Name, ruled.msg = ctx.msg → AnswersOwn ruled →
      Answers (ruled.response.getD (buildServfail ruled.msg)) ctx.msg := by
    intro ruled same own
    rw [← same]
    cases responded : ruled.response with
    | none => exact answers_buildServfail ruled.msg
    | some response => exact own response responded
  cases step with
  | respond => exact ⟨_, rfl, filled ctx rfl own⟩
  | «continue» =>
      have kept : (self.rules.handle world ctx).2.msg = ctx.msg :=
        (sameQuery_rulesStage self world .continue ctx).msg
      exact ⟨_, rfl, filled _ kept (answers_rules repeats self.rules ctx)⟩

omit [NameApi Name] in
theorem answers_balance {ctx : QueryContext Name} {built msg : Message Name}
    (responded : ctx.response = some built) (answers : Answers built msg) (balance : Balance)
    (chance : Chance) :
    ∃ response, (balance.handle chance ctx).2.response = some response ∧ Answers response msg := by
  unfold Balance.handle
  split
  · exact ⟨built, responded, answers⟩
  · split
    · exact ⟨built, responded, answers⟩
    · rw [responded]
      exact ⟨_, rfl, answers⟩

/-! ### The name of the question -/

omit [NameApi Name] in
theorem head_queries (ctx : QueryContext Name) : ctx.msg.queries.head? = some ctx.question :=
  List.head?_eq_some_head ctx.asked

theorem question_rewriteName (ctx : QueryContext Name) (original : Text) :
    (ctx.rewriteName original).question =
      { ctx.question with name := (NameApi.fromUtf8 original).getD ctx.question.name } := by
  unfold QueryContext.rewriteName QueryContext.question
  cases (NameApi.fromUtf8 original : Option Name) with
  | none => rfl
  | some name => exact ctx.msg.setFirstName_head name ctx.asked

theorem head_restoreName {ctx : QueryContext Name} {built : Message Name} {query : Query Name}
    (responded : ctx.response = some built) (asks : built.queries.head? = some query) :
    ∃ response, (restoreName ctx).response = some response ∧
      response.queries.head? =
        some { query with name := (ctx.originalName.bind NameApi.fromUtf8).getD query.name } := by
  unfold restoreName
  cases (ctx.originalName.bind NameApi.fromUtf8 : Option Name) with
  | none => exact ⟨built, responded, asks⟩
  | some name =>
      dsimp only
      rw [responded]
      refine ⟨_, rfl, ?_⟩
      cases queries : built.queries with
      | nil =>
          rw [queries] at asks
          cases asks
      | cons first rest =>
          rw [queries] at asks
          cases asks
          simp only [Message.setFirstName, queries, List.head?_cons, Option.getD_some]

/-- The name the reply to an alias query carries: the text of the key if it can be read
back, else what the query was rewritten to, else the name the client sent. -/
def restoredName (queried original : Text) (asked : Name) : Name :=
  (NameApi.fromUtf8 queried).getD ((NameApi.fromUtf8 original).getD asked)

/-- The name the reply to a query carries. -/
inductive RepliedName (hosts : HostsTrie) (ctx : QueryContext Name) : Name → Prop where
  | asked (unaliased : ∀ original, ¬ RewritesTo hosts ctx original) :
      RepliedName hosts ctx ctx.question.name
  | restored (original : Text) (rewrites : RewritesTo hosts ctx original) :
      RepliedName hosts ctx (restoredName ctx.name original ctx.question.name)

theorem repliedName_hosts (hosts : HostsTrie) {ctx : QueryContext Name}
    (unnamed : ctx.originalName = none) :
    ∃ query, (Hosts.handle hosts ctx).2.msg.queries.head? = some query ∧
      query.queryType = ctx.question.queryType ∧ query.queryClass = ctx.question.queryClass ∧
      RepliedName hosts ctx
        (((Hosts.handle hosts ctx).2.originalName.bind NameApi.fromUtf8).getD query.name) := by
  have handled := outcome_handle hosts ctx
  have notRewritten : (Hosts.handle hosts ctx).1 = .respond →
      ∀ original, ¬ RewritesTo hosts ctx original := by
    intro responds original rewrites
    rw [handle_of_rewritesTo rewrites] at responds
    cases responds
  generalize Hosts.handle hosts ctx = outcome at handled notRewritten
  cases handled with
  | answers response asks =>
      refine ⟨ctx.question, head_queries ctx, rfl, rfl, ?_⟩
      dsimp only
      rw [unnamed]
      exact .asked (notRewritten rfl)
  | passes unaliased =>
      refine ⟨ctx.question, head_queries ctx, rfl, rfl, ?_⟩
      dsimp only
      rw [unnamed]
      exact .asked unaliased
  | rewrites original rewrites =>
      let renamed : QueryContext Name := { ctx with originalName := some ctx.name }
      have name : (renamed.rewriteName original).originalName = some ctx.name := by
        unfold QueryContext.rewriteName
        split <;> rfl
      refine ⟨(renamed.rewriteName original).question, head_queries _, ?_, ?_, ?_⟩
      · rw [question_rewriteName]
        rfl
      · rw [question_rewriteName]
        rfl
      · change RepliedName hosts ctx (((renamed.rewriteName original).originalName.bind
          NameApi.fromUtf8).getD (renamed.rewriteName original).question.name)
        rw [name, question_rewriteName]
        exact .restored original rewrites

/-- The reply carries the id of the request and repeats its first question; `labels` tells
the names apart. -/
def Repeats (labels : Name → Label) (reply msg : Message Name) : Prop :=
  reply.metadata.id = msg.metadata.id ∧
    ∃ answered asked, reply.queries.head? = some answered ∧ msg.queries.head? = some asked ∧
      labels answered.name = labels asked.name ∧ answered.queryType = asked.queryType ∧
      answered.queryClass = asked.queryClass

omit [NameApi Name] in
theorem openContext_spec [NameApi Name] {msg : Message Name} {ctx : QueryContext Name}
    (opened : openContext msg = .ok ctx) :
    ctx.msg = msg ∧ ctx.response = none ∧ ctx.originalName = none := by
  unfold openContext at opened
  split at opened
  · cases opened
    exact ⟨rfl, rfl, rfl⟩
  · cases opened

theorem id_hosts (hosts : HostsTrie) (ctx : QueryContext Name) :
    (Hosts.handle hosts ctx).2.msg.metadata.id = ctx.msg.metadata.id := by
  have handled := outcome_handle hosts ctx
  generalize Hosts.handle hosts ctx = outcome at handled
  cases handled with
  | answers _ _ | passes _ => rfl
  | rewrites original _ =>
      dsimp only
      unfold QueryContext.rewriteName
      split
      · dsimp only
        unfold Message.setFirstName
        split <;> rfl
      · rfl

theorem reply_spec {self : Pipeline} {hosts : HostsTrie} {groups : List GroupState}
    {cache cache' : Cache Name} {now : Nat} {world : World Name} {msg reply : Message Name}
    {ctx : QueryContext Name} (repeats : RepeatsQuestions world)
    (opened : openContext msg = .ok ctx)
    (handled : handleQuery self hosts groups cache now world msg =
      some (.ok (some reply), cache')) :
    reply.metadata.id = msg.metadata.id ∧
      ∃ name, reply.queries.head? = some { ctx.question with name := name } ∧
        RepliedName hosts ctx name := by
  obtain ⟨message, unanswered, unnamed⟩ := openContext_spec opened
  have replied := Except.ok.inj (reply_of_handleQuery opened handled)
  have kept := originalName_beforeRestore self hosts groups cache now world world.chance ctx
  have target := (stageContext_lookupStages self hosts groups cache now ctx).sameTarget.msg
  have own : AnswersOwn (lookupStages hosts groups cache now ctx).2 :=
    answers_lookupStages unanswered
  obtain ⟨ruled, ruledIs, ruledAnswers⟩ := answers_rulesStage self repeats
    (lookupStages hosts groups cache now ctx).1 own
  obtain ⟨balanced, balancedIs, answers⟩ :=
    answers_balance ruledIs ruledAnswers self.balance world.chance
  obtain ⟨query, asks, sameType, sameClass, name⟩ := repliedName_hosts hosts unnamed
  have balancedAsks : balanced.queries.head? = some query := by
    rw [answers, target, asks]
  obtain ⟨restored, restoredIs, head⟩ := head_restoreName balancedIs balancedAsks
  unfold answerStages setId at replied
  dsimp only at replied
  rw [restoredIs, Option.map_some, Option.some.injEq] at replied
  rw [kept] at head
  subst replied
  have id : (lookupStages hosts groups cache now ctx).2.msg.metadata.id = msg.metadata.id := by
    rw [target, ← message]
    exact id_hosts hosts ctx
  refine ⟨id, _, ?_, name⟩
  rw [head, sameType, sameClass]

/-- The reply repeats the question exactly if the query is not rewritten, or the name that
is brought back is the name asked for. -/
theorem reply_repeats_question_iff (labels : Name → Label) {self : Pipeline} {hosts : HostsTrie}
    {groups : List GroupState} {cache cache' : Cache Name} {now : Nat} {world : World Name}
    {msg reply : Message Name} {ctx : QueryContext Name} (repeats : RepeatsQuestions world)
    (opened : openContext msg = .ok ctx)
    (handled : handleQuery self hosts groups cache now world msg =
      some (.ok (some reply), cache')) :
    Repeats labels reply msg ↔
      ∀ original, RewritesTo hosts ctx original →
        labels (restoredName ctx.name original ctx.question.name) = labels ctx.question.name := by
  obtain ⟨message, _, _⟩ := openContext_spec opened
  obtain ⟨id, name, head, named⟩ := reply_spec repeats opened handled
  have asks : msg.queries.head? = some ctx.question := message ▸ head_queries ctx
  have same : Repeats labels reply msg ↔ labels name = labels ctx.question.name := by
    unfold Repeats
    rw [head, asks]
    constructor
    · rintro ⟨_, _, _, ⟨⟩, ⟨⟩, equal, _⟩
      exact equal
    · intro equal
      exact ⟨id, _, _, rfl, rfl, equal, rfl, rfl⟩
  rw [same]
  cases named with
  | asked unaliased =>
      refine iff_of_true rfl ?_
      intro original rewrites
      exact absurd rewrites (unaliased original)
  | restored original rewrites =>
      constructor
      · intro equal other also
        cases rewrites.1.symm.trans also.1
        exact equal
      · intro all
        exact all original rewrites

theorem repeatsQuestions_answering (answers : List (Record LabelName)) :
    RepeatsQuestions (answering answers) := by
  rintro _ _ sent _ ⟨⟩
  rfl

/-- The queried name is brought back as it was asked for. -/
theorem lowercase_alias_query_is_repeated :
    ∃ reply cache, handleQuery forwardAll plainAlias [] (Cache.init defaults) 0
      (answering [address]) question.msg = some (.ok (some reply), cache) ∧
        Repeats LabelName.labels reply question.msg := by
  have replied : replies (answering [address]) question.msg (fun _ => true) = true := by
    decide +kernel
  obtain ⟨reply, cache, handled, _⟩ := exists_reply_of_replies replied
  have opened : openContext question.msg = .ok question := rfl
  refine ⟨reply, cache, handled, (reply_repeats_question_iff LabelName.labels
    (repeatsQuestions_answering _) opened handled).mpr ?_⟩
  intro original rewrites
  have parsed : (NameApi.fromUtf8 question.name : Option LabelName) =
      some ⟨["a".toList], false⟩ := by decide
  rw [restoredName, parsed]
  rfl

/-- The client asks for `A`, and the reply is about `a`. -/
theorem capital_alias_query_is_not_repeated :
    ∃ reply cache, RepeatsQuestions (answering [address]) ∧
      handleQuery forwardAll plainAlias [] (Cache.init defaults) 0 (answering [address])
        (LabelName.ask ⟨["A".toList], true⟩ .A) = some (.ok (some reply), cache) ∧
      ¬ Repeats LabelName.labels reply (LabelName.ask ⟨["A".toList], true⟩ .A) := by
  have replied : replies (answering [address]) (LabelName.ask ⟨["A".toList], true⟩ .A)
      (fun reply => reply.queries.head?.map (LabelName.labels ∘ Query.name) =
        some ["a".toList]) = true := by decide +kernel
  obtain ⟨reply, cache, handled, asks⟩ := exists_reply_of_replies replied
  refine ⟨reply, cache, repeatsQuestions_answering _, handled, ?_⟩
  rintro ⟨_, answered, asked, head, ⟨⟩, same, _⟩
  have lowered := of_decide_eq_true asks
  rw [head, Option.map_some, Option.some.injEq] at lowered
  have capital : LabelName.labels answered.name = ["A".toList] := same
  rw [Function.comp_apply, capital] at lowered
  cases lowered

end Rsdns.Server
