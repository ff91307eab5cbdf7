import Rsdns.Hosts.Coherence
import Rsdns.Server.Freshness

/-!
# The owners of the answers

Two places give every answer one owner: the CNAME action, and the end of an
alias query.  What is well formed before is well formed afterwards if it has no
CNAME record, or nothing beside it.
-/

namespace Rsdns.Server

open Dns Plugins Slots

variable {Name Owner : Type}

/-- No owner of a CNAME record has another record; `owner` tells the names apart. -/
def WellFormed (owner : Name → Owner) (answers : List (Record Name)) : Prop :=
  answers.Pairwise fun first second =>
    owner first.name = owner second.name →
      first.recordType ≠ .CNAME ∧ second.recordType ≠ .CNAME

instance [DecidableEq Owner] (owner : Name → Owner) (answers : List (Record Name)) :
    Decidable (WellFormed owner answers) := by
  unfold WellFormed
  infer_instance

/-- The records may share an owner. -/
def Shareable (answers : List (Record Name)) : Prop :=
  answers.length ≤ 1 ∨ ∀ answer ∈ answers, answer.recordType ≠ .CNAME

instance (answers : List (Record Name)) : Decidable (Shareable answers) :=
  inferInstanceAs (Decidable (_ ∨ _))

theorem wellFormed_withOwner_iff (owner : Name → Owner) (name : Name)
    (answers : List (Record Name)) :
    WellFormed owner (answers.map fun answer => { answer with name := name }) ↔
      Shareable answers := by
  unfold WellFormed Shareable
  rw [List.pairwise_map]
  constructor
  · intro apart
    cases answers with
    | nil => exact .inl (Nat.zero_le 1)
    | cons first rest =>
        cases rest with
        | nil => exact .inl (Nat.le_refl 1)
        | cons second rest =>
            obtain ⟨fromFirst, _⟩ := List.pairwise_cons.mp apart
            refine .inr fun answer member => ?_
            rcases List.mem_cons.mp member with rfl | later
            · exact (fromFirst second List.mem_cons_self rfl).1
            · exact (fromFirst answer later rfl).2
  · rintro (few | plain)
    · cases answers with
      | nil => exact .nil
      | cons first rest =>
          cases rest with
          | nil => exact List.pairwise_singleton _ _
          | cons second rest => simp at few
    · apply List.pairwise_of_forall_mem_list
      intro first firstMember second secondMember _
      exact ⟨plain first firstMember, plain second secondMember⟩

theorem shareable_congr {answers others : List (Record Name)}
    (types : answers.map Record.recordType = others.map Record.recordType) :
    Shareable answers ↔ Shareable others := by
  have shape : ∀ answers : List (Record Name), Shareable answers ↔
      (answers.map Record.recordType).length ≤ 1 ∨
        ∀ type ∈ answers.map Record.recordType, type ≠ .CNAME := by
    intro answers
    unfold Shareable
    rw [List.length_map, List.forall_mem_map]
  rw [shape, shape, types]

theorem wellFormed_perm {owner : Name → Owner} {answers others : List (Record Name)}
    (permuted : answers.Perm others) : WellFormed owner answers ↔ WellFormed owner others :=
  permuted.pairwise_iff fun apart same => (apart same.symm).symm

def OneOwner (answers : List (Record Name)) : Prop :=
  ∀ first ∈ answers, ∀ second ∈ answers, first.name = second.name

theorem wellFormed_iff_of_oneOwner {owner : Name → Owner} {answers : List (Record Name)}
    (owned : OneOwner answers) : WellFormed owner answers ↔ Shareable answers := by
  cases answers with
  | nil => exact iff_of_true .nil (.inl (Nat.zero_le 1))
  | cons first rest =>
      have renamed : (first :: rest).map (fun answer => { answer with name := first.name }) =
          first :: rest := by
        refine (List.map_congr_left fun answer member => ?_).trans (List.map_id _)
        rw [← owned answer member first List.mem_cons_self]
        rfl
      rw [← wellFormed_withOwner_iff owner first.name, renamed]

/-! ### The balance -/

theorem recordType_of_hasValue {isA : Bool} {first second : Record Name}
    (firstHere : hasValue (familyIp isA) first = true)
    (secondHere : hasValue (familyIp isA) second = true) :
    first.recordType = second.recordType := by
  have type : ∀ record : Record Name, hasValue (familyIp isA) record = true →
      record.recordType = if isA then .A else .AAAA := by
    intro record here
    unfold hasValue familyIp at here
    unfold Record.recordType
    split at here
    · next data => rw [data]; rfl
    · next data => rw [data]; rfl
    · cases here
  rw [type first firstHere, type second secondHere]

theorem map_recordType_balanceFamily (self : Balance) (chance : Chance) (pass : Nat)
    (answers : List (Record Name)) (isA : Bool) :
    (self.balanceFamily chance pass answers isA).map Record.recordType =
      answers.map Record.recordType := by
  rw [Balance.balanceFamily_eq_refill]
  apply map_refill (Fits.of_perm (self.arrange_perm chance pass isA _))
  intro first second firstHere secondHere
  exact recordType_of_hasValue firstHere secondHere

/-- The answers that the balance keeps, where they stood before. -/
def keptAnswers (balance : Balance) (ctx : QueryContext Name) : List (Record Name) :=
  if !balance.enabled || ctx.skipBalance then Balance.answersOf ctx
  else
    match families ctx.qtype with
    | none => Balance.answersOf ctx
    | some _ => balance.truncate (Balance.answersOf ctx)

theorem shareable_balance_iff (balance : Balance) (chance : Chance) (ctx : QueryContext Name) :
    Shareable (Balance.answersOf (balance.handle chance ctx).2) ↔
      Shareable (keptAnswers balance ctx) := by
  apply shareable_congr
  unfold Balance.handle keptAnswers
  split
  · rfl
  · cases families ctx.qtype with
    | none => rfl
    | some selected =>
        dsimp only
        cases responded : ctx.response with
        | none =>
            simp only [Balance.answersOf, responded, Option.map_none]
            rw [(balance.truncate_eq_nil_iff []).mpr rfl]
        | some response =>
            simp only [Balance.answersOf, responded, Option.map_some]
            unfold Balance.balanceAnswers
            dsimp only
            split
            · rfl
            · have types := (map_recordType_balanceFamily balance chance 1
                (balance.balanceFamily chance 0 response.answers selected.a) selected.aaaa).trans
                  (map_recordType_balanceFamily balance chance 0 response.answers selected.a)
              have lengths := congrArg List.length types
              rw [List.length_map, List.length_map] at lengths
              rw [Balance.truncate_eq_take, Balance.truncate_eq_take, lengths, List.map_take,
                List.map_take, types]

/-- The answers after the balance are some of those before it. -/
theorem answersOf_balance_subperm (balance : Balance) (chance : Chance)
    (ctx : QueryContext Name) :
    (Balance.answersOf (balance.handle chance ctx).2).Subperm (Balance.answersOf ctx) := by
  unfold Balance.handle
  split
  · exact List.Subperm.refl _
  · cases families ctx.qtype with
    | none => exact List.Subperm.refl _
    | some selected =>
        cases responded : ctx.response with
        | none =>
            simp only [Balance.answersOf, responded, Option.map_none]
            exact List.Subperm.refl _
        | some response =>
            simp only [Balance.answersOf, responded, Option.map_some]
            exact balance.balanceAnswers_subperm chance response.answers selected

theorem wellFormed_balance {owner : Name → Owner} (balance : Balance) (chance : Chance)
    {ctx : QueryContext Name} (wellFormed : WellFormed owner (Balance.answersOf ctx)) :
    WellFormed owner (Balance.answersOf (balance.handle chance ctx).2) := by
  obtain ⟨kept, permuted, sublist⟩ := answersOf_balance_subperm balance chance ctx
  exact (wellFormed_perm permuted).mp (List.Pairwise.sublist sublist wellFormed)

/-! ### The two places -/

variable [NameApi Name]

/-- The CNAME action answers with the records of an upstream response only if they may
share an owner. -/
def TargetShareable (world : World Name) (ctx : QueryContext Name) (target upstream : Text) :
    Prop :=
  ∀ asked resp,
    makeQueryMsg (substitutePlaceholders target ctx.captures) ctx.qtype = .ok asked →
    world.upstream 0 upstream asked = some resp → Shareable resp.answers

theorem wellFormed_handleCname_iff (owner : Name → Owner) {world : World Name}
    {ctx : QueryContext Name} {target : Text} {ttl : UInt32} {upstream : Text}
    {denyQtypes : List RecordType} {response : Message Name}
    (handled : handleCname world ctx target ttl upstream denyQtypes = .ok response) :
    WellFormed owner response.answers ↔
      denyQtypes.contains ctx.qtype = true ∨ TargetShareable world ctx target upstream := by
  cases cnameAnswer_of_handleCname handled with
  | denied denies => exact iff_of_true .nil (.inl denies)
  | silent permits name asked asks unanswered =>
      refine iff_of_true (List.pairwise_singleton _ _) (.inr ?_)
      intro other resp otherAsks found
      cases asks.symm.trans otherAsks
      cases unanswered.symm.trans found
  | answered permits asked resp asks found =>
      rw [or_iff_right permits]
      refine (wellFormed_withOwner_iff owner _ resp.answers).trans ⟨?_, ?_⟩
      · intro shareable other otherResp otherAsks otherFound
        cases asks.symm.trans otherAsks
        cases found.symm.trans otherFound
        exact shareable
      · intro all
        exact all asked resp asks found

theorem answersOf_restoreName {ctx : QueryContext Name} {original : Text}
    (kept : ctx.originalName = some original) :
    Balance.answersOf (restoreName ctx) =
      match (NameApi.fromUtf8 original : Option Name) with
      | some name => (Balance.answersOf ctx).map fun answer => { answer with name := name }
      | none => Balance.answersOf ctx := by
  unfold restoreName
  rw [kept, Option.bind_some]
  cases (NameApi.fromUtf8 original : Option Name) with
  | none => rfl
  | some name =>
      unfold Balance.answersOf
      cases ctx.response with
      | none => rfl
      | some response => rfl

/-- No cached response is taken, and the queried name cannot be read back. -/
def KeepsOwners (hosts : HostsTrie) (groups : List GroupState) (cache : Cache Name) (now : Nat)
    (ctx : QueryContext Name) : Prop :=
  (lookupStages hosts groups cache now ctx).1 = .continue ∧
    (NameApi.fromUtf8 ctx.name : Option Name) = none

theorem oneOwner_respond (cache : Cache Name) (now : Nat) (msg : Message Name)
    (entry : CacheEntry Name) : OneOwner (cache.respond now msg entry).answers := by
  unfold Cache.respond
  split
  · next built served =>
      obtain ⟨query, answers, _, rebuilt, rfl⟩ := buildResponseFromCache_eq_ok_iff.mp served
      have owned : ∀ answer ∈ answers, answer.name = query.name := by
        intro answer member
        rw [rebuildAnswers_eq_fromRdata rebuilt answer member]
        rfl
      exact fun first firstIn second secondIn =>
        (owned first firstIn).trans (owned second secondIn).symm
  · exact fun first firstIn => nomatch firstIn

/-- What an alias query does not leave to the rules the cache has answered. -/
theorem oneOwner_of_respond (self : Pipeline) (world : World Name) {hosts : HostsTrie}
    {groups : List GroupState} {cache : Cache Name} {now : Nat} {ctx : QueryContext Name}
    {original : Text} (rewrites : RewritesTo hosts ctx original)
    (responds : (lookupStages hosts groups cache now ctx).1 = .respond) :
    OneOwner (Balance.answersOf (rulesStage self world .respond
      (lookupStages hosts groups cache now ctx).2)) := by
  unfold lookupStages at responds ⊢
  rw [handle_of_rewritesTo rewrites] at responds ⊢
  dsimp only at responds ⊢
  generalize (Groups.handle groups _).2 = later at responds ⊢
  have looked := cache.outcome_lookup now later
  generalize cache.lookup now later = outcome at looked responds ⊢
  cases looked with
  | skips _ => cases responds
  | misses _ _ => cases responds
  | hits _ entry _ => exact oneOwner_respond cache now later.msg entry

theorem wellFormed_alias_iff (owner : Name → Owner) {self : Pipeline} {hosts : HostsTrie}
    {groups : List GroupState} {cache cache' : Cache Name} {now : Nat} {world : World Name}
    {msg reply : Message Name} {ctx : QueryContext Name} {original : Text}
    (opened : openContext msg = .ok ctx) (rewrites : RewritesTo hosts ctx original)
    (handled : handleQuery self hosts groups cache now world msg =
      some (.ok (some reply), cache'))
    (keeps : KeepsOwners hosts groups cache now ctx →
      WellFormed owner (Balance.answersOf
        (rulesStage self world (lookupStages hosts groups cache now ctx).1
          (lookupStages hosts groups cache now ctx).2))) :
    WellFormed owner reply.answers ↔ KeepsOwners hosts groups cache now ctx ∨
      Shareable (keptAnswers self.balance
        (rulesStage self world (lookupStages hosts groups cache now ctx).1
          (lookupStages hosts groups cache now ctx).2)) := by
  have kept := originalName_beforeRestore self hosts groups cache now world world.chance ctx
  rw [originalName_of_rewritesTo rewrites] at kept
  have replied := Except.ok.inj (reply_of_handleQuery opened handled)
  unfold answerStages at replied
  dsimp only at replied
  have cached (responds : (lookupStages hosts groups cache now ctx).1 = .respond) :=
    oneOwner_of_respond self world rewrites responds
  unfold KeepsOwners at keeps ⊢
  generalize lookupStages hosts groups cache now ctx = looked at kept replied keeps cached ⊢
  obtain ⟨step, looked⟩ := looked
  dsimp only at kept replied keeps cached ⊢
  have answers : reply.answers = Balance.answersOf
      (restoreName (self.balance.handle world.chance (rulesStage self world step looked)).2) := by
    obtain ⟨restored, responded, same⟩ := Option.map_eq_some_iff.mp replied.symm
    rw [Balance.answersOf, responded, ← same]
  rw [answers, answersOf_restoreName kept]
  cases parsed : (NameApi.fromUtf8 ctx.name : Option Name) with
  | some name =>
      rw [or_iff_right (fun both => nomatch both.2)]
      exact (wellFormed_withOwner_iff owner name _).trans
        (shareable_balance_iff self.balance world.chance _)
  | none =>
      cases step with
      | «continue» =>
          exact iff_of_true (wellFormed_balance self.balance world.chance (keeps ⟨rfl, parsed⟩))
            (.inl ⟨rfl, rfl⟩)
      | respond =>
          rw [or_iff_right (fun both => nomatch both.1)]
          refine (wellFormed_iff_of_oneOwner ?_).trans
            (shareable_balance_iff self.balance world.chance _)
          have within := (answersOf_balance_subperm self.balance world.chance
            (rulesStage self world .respond looked)).subset
          exact fun first firstIn second secondIn =>
            cached rfl first (within firstIn) second (within secondIn)

def answering (answers : List (Record LabelName)) : World LabelName where
  upstream _ _ msg := some { msg with answers := answers }
  echTemplate _ _ := none
  chance := ⟨fun _ => 0, fun _ _ => none⟩

def address : Record LabelName := .fromRdata ⟨["v".toList], true⟩ 60 (.A 0x0A000001#32)

def chain : List (Record LabelName) :=
  [.fromRdata ⟨["b".toList], true⟩ 60 (.CNAME ⟨["v".toList], true⟩), address]

/-- `a` stands for `b`, which has no address. -/
def plainAlias : HostsTrie := buildHostsTrie (fun _ => none) ["b a".toList]

theorem rewritesTo_plainAlias : RewritesTo plainAlias question "b".toList := by
  have aliased : plainAlias.lookup question.name = .Alias "b".toList := by decide +kernel
  have noAddress : plainAlias.lookup "b".toList = .Miss := by decide +kernel
  exact ⟨aliased, fun ips => by rw [noAddress]; exact nofun⟩

def replies (world : World LabelName) (msg : Message LabelName)
    (check : Message LabelName → Bool) : Bool :=
  (handleQuery forwardAll plainAlias [] (Cache.init defaults) 0 world msg).any
    fun (reply, _) =>
      match reply with
      | .ok (some reply) => check reply
      | _ => false

theorem exists_reply_of_replies {world : World LabelName} {msg : Message LabelName}
    {check : Message LabelName → Bool} (replied : replies world msg check = true) :
    ∃ reply cache, handleQuery forwardAll plainAlias [] (Cache.init defaults) 0 world
      msg = some (.ok (some reply), cache) ∧ check reply = true := by
  obtain ⟨⟨answered, cache⟩, handled, checked⟩ := (Option.any_eq_true _ _).mp replied
  dsimp only at checked
  split at checked
  · next reply => exact ⟨reply, cache, handled, checked⟩
  · cases checked

end Rsdns.Server
