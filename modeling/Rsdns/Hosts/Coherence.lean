import Rsdns.Dns.LabelName
import Rsdns.Server.Stages

/-!
# The key and the question

A context names its target twice: in the cache key and in the question of its
message.  Only the rewrite of an alias changes either.
-/

namespace Rsdns.Server

open Dns Plugins

variable {Name : Type} [NameApi Name]

/-- The key holds the text of the question. -/
def Coherent (ctx : QueryContext Name) : Prop := ctx.key.name = keyName ctx.question.name

/-- The contexts from the end of the hosts stage on. -/
inductive StageContext (self : Pipeline) (hosts : HostsTrie) (ctx : QueryContext Name) :
    QueryContext Name → Prop where
  | hosts : StageContext self hosts ctx (Hosts.handle hosts ctx).2
  | groups {later} (groups : List GroupState) :
      StageContext self hosts ctx later →
      StageContext self hosts ctx (Groups.handle groups later).2
  | lookup {later} (cache : Cache Name) (now : Nat) :
      StageContext self hosts ctx later →
      StageContext self hosts ctx (cache.lookup now later).2
  | rules {later} (world : World Name) (step : Step) :
      StageContext self hosts ctx later →
      StageContext self hosts ctx (rulesStage self world step later)
  | balance {later} (chance : Chance) :
      StageContext self hosts ctx later →
      StageContext self hosts ctx (self.balance.handle chance later).2
  | restore {later} :
      StageContext self hosts ctx later → StageContext self hosts ctx (restoreName later)
  | setId {later} (id : UInt16) :
      StageContext self hosts ctx later → StageContext self hosts ctx (setId later id)

theorem stageContext_lookupStages (self : Pipeline) (hosts : HostsTrie)
    (groups : List GroupState) (cache : Cache Name) (now : Nat) (ctx : QueryContext Name) :
    StageContext self hosts ctx (lookupStages hosts groups cache now ctx).2 := by
  apply lookupStages_preserves .hosts
  · exact fun later stage => .groups groups stage
  · exact fun later stage => .lookup cache now stage

/-! ### The target is kept -/

structure SameTarget (later ctx : QueryContext Name) : Prop where
  key : later.key = ctx.key
  msg : later.msg = ctx.msg

omit [NameApi Name] in
theorem SameTarget.refl (ctx : QueryContext Name) : SameTarget ctx ctx := ⟨rfl, rfl⟩

omit [NameApi Name] in
theorem SameTarget.trans {first second third : QueryContext Name}
    (front : SameTarget first second) (back : SameTarget second third) :
    SameTarget first third :=
  ⟨front.key.trans back.key, front.msg.trans back.msg⟩

theorem SameTarget.coherent_iff {later ctx : QueryContext Name} (same : SameTarget later ctx) :
    Coherent later ↔ Coherent ctx := by
  have question : later.question = ctx.question := by
    simp only [QueryContext.question, same.msg]
  rw [Coherent, Coherent, same.key, question]

omit [NameApi Name] in
theorem sameTarget_groups (groups : List GroupState) (ctx : QueryContext Name) :
    SameTarget (Groups.handle groups ctx).2 ctx := by
  unfold Groups.handle
  split <;> exact ⟨rfl, rfl⟩

omit [NameApi Name] in
theorem sameTarget_of_sameQuery {later ctx : QueryContext Name} (same : SameQuery later ctx) :
    SameTarget later ctx := ⟨same.key, same.msg⟩

theorem StageContext.sameTarget {self : Pipeline} {hosts : HostsTrie}
    {ctx later : QueryContext Name} (reached : StageContext self hosts ctx later) :
    SameTarget later (Hosts.handle hosts ctx).2 := by
  induction reached with
  | hosts => exact .refl _
  | groups groups _ inductionHypothesis =>
      exact (sameTarget_groups groups _).trans inductionHypothesis
  | lookup cache now _ inductionHypothesis =>
      exact (sameTarget_of_sameQuery (sameQuery_lookup cache now _)).trans inductionHypothesis
  | rules world step _ inductionHypothesis =>
      exact (sameTarget_of_sameQuery (sameQuery_rulesStage self world step _)).trans
        inductionHypothesis
  | balance chance _ inductionHypothesis =>
      exact (sameTarget_of_sameQuery (sameQuery_balance self.balance chance _)).trans
        inductionHypothesis
  | restore _ inductionHypothesis =>
      exact (sameTarget_of_sameQuery (sameQuery_restoreName _)).trans inductionHypothesis
  | setId id _ inductionHypothesis => exact ⟨inductionHypothesis.key, inductionHypothesis.msg⟩

/-! ### The rewrite -/

theorem openContext_coherent {msg : Message Name} {ctx : QueryContext Name}
    (opened : openContext msg = .ok ctx) : Coherent ctx := by
  unfold openContext at opened
  split at opened
  · cases opened
    rfl
  · exact absurd opened nofun

theorem originalName_of_rewritesTo {hosts : HostsTrie} {ctx : QueryContext Name} {original : Text}
    (rewrites : RewritesTo hosts ctx original) :
    (Hosts.handle hosts ctx).2.originalName = some ctx.name := by
  rw [handle_of_rewritesTo rewrites]
  unfold QueryContext.rewriteName
  split <;> rfl

/-- The text of the name that `Name::from_utf8` reads is the text read, and a text it
rejects is the queried name itself. -/
def KeepsText (Name : Type) [NameApi Name] (queried original : Text) : Prop :=
  match (NameApi.fromUtf8 original : Option Name) with
  | some name => keyName name = original
  | none => original = queried

theorem coherent_rewriteName_iff {ctx : QueryContext Name} (coherent : Coherent ctx)
    (original : Text) :
    Coherent (ctx.rewriteName original) ↔ KeepsText Name ctx.name original := by
  unfold KeepsText QueryContext.rewriteName
  cases (NameApi.fromUtf8 original : Option Name) with
  | some name =>
      have question := ctx.msg.setFirstName_head name ctx.asked
      simp only [Coherent, QueryContext.question, question]
      exact eq_comm
  | none =>
      have text : ctx.name = keyName ctx.question.name := coherent
      rw [text]
      rfl

theorem coherent_handle_iff {hosts : HostsTrie} {ctx : QueryContext Name}
    (coherent : Coherent ctx) :
    Coherent (Hosts.handle hosts ctx).2 ↔
      ∀ original, RewritesTo hosts ctx original → KeepsText Name ctx.name original := by
  by_cases rewritten : ∃ original, RewritesTo hosts ctx original
  · obtain ⟨original, rewrites⟩ := rewritten
    have stillCoherent : Coherent { ctx with originalName := some ctx.name } := coherent
    rw [handle_of_rewritesTo rewrites, coherent_rewriteName_iff stillCoherent]
    constructor
    · intro keeps other toOther
      cases rewrites.1.symm.trans toOther.1
      exact keeps
    · exact fun all => all original rewrites
  · have handled := outcome_handle hosts ctx
    generalize Hosts.handle hosts ctx = outcome at handled ⊢
    have unaliased : ∀ original, RewritesTo hosts ctx original → KeepsText Name ctx.name original :=
      fun original rewrites => absurd ⟨original, rewrites⟩ rewritten
    cases handled with
    | answers response _ => exact iff_of_true coherent unaliased
    | passes _ => exact iff_of_true coherent unaliased
    | rewrites original rewrites => exact absurd ⟨original, rewrites⟩ rewritten

/-- The key and the question agree from the hosts stage on exactly if the hosts table
rewrites the query to nothing, or to a text that keeps its name. -/
theorem stages_coherent_iff {self : Pipeline} {hosts : HostsTrie} {msg : Message Name}
    {ctx : QueryContext Name} (opened : openContext msg = .ok ctx) :
    (∀ later, StageContext self hosts ctx later → Coherent later) ↔
      ∀ original, RewritesTo hosts ctx original → KeepsText Name ctx.name original := by
  rw [← coherent_handle_iff (openContext_coherent opened)]
  constructor
  · intro all
    exact all _ .hosts
  · intro coherent later reached
    exact reached.sameTarget.coherent_iff.mpr coherent

/-- An original with an underscore inside a label: the key names it, the question still
names the alias. -/
theorem underscore_original_splits_target :
    ∃ (hosts : HostsTrie) (msg : Message LabelName) (ctx : QueryContext LabelName),
      hosts = buildHostsTrie (fun _ => none) ["x_y.b a".toList] ∧
      openContext msg = .ok ctx ∧ ¬ Coherent (Hosts.handle hosts ctx).2 := by
  let msg := LabelName.ask ⟨["a".toList], true⟩ .A
  refine ⟨_, msg, _, rfl, rfl, ?_⟩
  unfold Coherent
  decide

/-- A plain original. -/
theorem stages_coherent_of_plain_alias :
    ∃ (self : Pipeline) (hosts : HostsTrie) (ctx : QueryContext LabelName),
      RewritesTo hosts ctx "b".toList ∧
      ∀ later, StageContext self hosts ctx later → Coherent later := by
  let hosts := buildHostsTrie (fun _ => none) ["b a".toList]
  let msg := LabelName.ask ⟨["a".toList], true⟩ .A
  let ctx : QueryContext LabelName :=
    .new msg (List.cons_ne_nil _ _) { name := "a".toList, qtype := .A }
  let self : Pipeline := { rules := Rules.init [] (by decide), balance := Balance.init none }
  have opened : openContext msg = .ok ctx := rfl
  have hit : hosts.lookup ctx.name = .Alias "b".toList := by decide
  have noAddress : hosts.lookup "b".toList = .Miss := by decide
  have parsed : (NameApi.fromUtf8 "b".toList : Option LabelName) =
      some ⟨["b".toList], false⟩ := by decide
  refine ⟨self, hosts, ctx, ⟨hit, fun ips => noAddress ▸ nofun⟩,
    (stages_coherent_iff opened).mpr ?_⟩
  intro original rewrites
  cases hit.symm.trans rewrites.1
  rw [KeepsText, parsed]
  decide

end Rsdns.Server
