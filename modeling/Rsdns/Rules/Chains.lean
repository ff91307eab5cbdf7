import Rsdns.Dns.LabelName
import Rsdns.Rules.Traffic

/-!
# CNAME chains in front of an answer

A chain that its own response completes is taken away; otherwise the last target of the
chain is asked for, once.  Either way nothing but addresses takes the place of a chain.
-/

namespace Rsdns.Plugins

open Dns

variable {Name : Type}

/-! ### What stands behind the chain -/

def addresses (answers : List (Record Name)) : List (Record Name) :=
  answers.filter fun record => record.recordType.isAddress

def behindChain (answers : List (Record Name)) : List (Record Name) :=
  answers.dropWhile fun record => record.recordType == .CNAME

theorem drop_length_takeWhile {Item : Type} (test : Item → Bool) (items : List Item) :
    items.drop (items.takeWhile test).length = items.dropWhile test := by
  have whole := List.takeWhile_append_dropWhile (p := test) (l := items)
  calc items.drop (items.takeWhile test).length
      = (items.takeWhile test ++ items.dropWhile test).drop (items.takeWhile test).length := by
        rw [whole]
    _ = items.dropWhile test := List.drop_left

theorem dropWhile_cname_cons (record : Record Name) (answers : List (Record Name)) :
    behindChain (record :: answers) =
      if record.recordType = .CNAME then behindChain answers else record :: answers := by
  unfold behindChain
  simp only [List.dropWhile_cons, beq_iff_eq]

theorem addresses_behindChain (answers : List (Record Name)) :
    addresses (behindChain answers) = addresses answers := by
  induction answers with
  | nil => rfl
  | cons record answers inductionHypothesis =>
      rw [dropWhile_cname_cons]
      split
      · next isCname =>
          have notAddress : ¬ record.recordType.isAddress = true := by
            rw [isCname]
            decide
          rw [inductionHypothesis]
          unfold addresses
          simp only [List.filter_cons, notAddress, Bool.false_eq_true, if_false]
      · rfl

theorem drop_lastCnameIndex (answers : List (Record Name)) :
    answers.drop (((lastCnameIndex answers).map (· + 1)).getD 0) = behindChain answers := by
  unfold lastCnameIndex
  cases answers with
  | nil => rfl
  | cons record answers =>
      rw [List.head?_cons, Option.map_some]
      by_cases isCname : record.recordType = .CNAME
      · rw [if_pos (congrArg some isCname), behindChain, ← drop_length_takeWhile]
        simp only [List.takeWhile_cons, isCname, beq_self_eq_true, if_true, List.length_cons]
        rfl
      · rw [if_neg fun same => isCname (Option.some.inj same), dropWhile_cname_cons,
          if_neg isCname]
        rfl

/-- The owner an address gets when its chain is collapsed. -/
def relabel (owner : Name) (record : Record Name) : Record Name :=
  if record.recordType.isAddress then { record with name := owner } else record

theorem recordType_relabel (owner : Name) (record : Record Name) :
    (relabel owner record).recordType = record.recordType := by
  unfold relabel
  split <;> rfl

theorem collapseCompletedChain_eq (answers : List (Record Name)) (owner : Name) :
    collapseCompletedChain answers owner = (behindChain answers).map (relabel owner) := by
  unfold collapseCompletedChain
  dsimp only
  rw [drop_lastCnameIndex]
  rfl

theorem addresses_collapseCompletedChain (answers : List (Record Name)) (owner : Name) :
    addresses (collapseCompletedChain answers owner) =
      (addresses answers).map fun record => { record with name := owner } := by
  rw [collapseCompletedChain_eq, ← addresses_behindChain answers]
  unfold addresses
  rw [List.filter_map]
  have sameTypes : ((fun record : Record Name => record.recordType.isAddress) ∘ relabel owner) =
      fun record : Record Name => record.recordType.isAddress :=
    funext fun record => congrArg RecordType.isAddress (recordType_relabel owner record)
  rw [sameTypes]
  apply List.map_congr_left
  intro record member
  exact if_pos (List.mem_filter.mp member).2

/-! ### Completed chains -/

variable [NameApi Name]

/-- The last record of a completed chain names the owner of the last record that is no
alias, and that is an address. -/
theorem chainCompletedWithAddress_iff {answers : List (Record Name)} :
    chainCompletedWithAddress answers = true ↔
      ∃ target last, lastCnameTarget answers = some target ∧
        (answers.reverse.find? fun record => record.recordType != .CNAME) = some last ∧
        last.recordType.isAddress = true ∧ NameApi.eqIgnoreRoot target last.name = true := by
  unfold chainCompletedWithAddress
  split
  · next target last isTarget isLast => simp [isTarget, isLast, Bool.and_eq_true]
  · next undecided =>
      refine iff_of_false Bool.false_ne_true ?_
      rintro ⟨target, last, isTarget, isLast, _⟩
      exact undecided target last isTarget isLast

/-- A completed chain leads to an address of the section. -/
theorem exists_address_of_completed {answers : List (Record Name)}
    (completed : chainCompletedWithAddress answers = true) :
    ∃ target, lastCnameTarget answers = some target ∧
      ∃ last ∈ addresses answers, NameApi.eqIgnoreRoot target last.name = true := by
  obtain ⟨target, last, isTarget, found, isAddress, owned⟩ :=
    chainCompletedWithAddress_iff.mp completed
  have member : last ∈ answers := List.mem_reverse.mp (List.mem_of_find?_eq_some found)
  exact ⟨target, isTarget, last, List.mem_filter.mpr ⟨member, isAddress⟩, owned⟩

/-- What is left of a completed chain: every address of the section under the new owner,
in order, those of the chain's target among them; and no alias, unless one stands behind
a record of another type. -/
theorem collapsed_chain_keeps_addresses {answers : List (Record Name)}
    (completed : chainCompletedWithAddress answers = true) (owner : Name) :
    (addresses (collapseCompletedChain answers owner) =
      (addresses answers).map fun record => { record with name := owner }) ∧
    (∃ target, lastCnameTarget answers = some target ∧
      ∃ last ∈ addresses answers, NameApi.eqIgnoreRoot target last.name = true) ∧
    ((∀ record ∈ behindChain answers, record.recordType ≠ .CNAME) →
      ∀ record ∈ collapseCompletedChain answers owner, record.recordType ≠ .CNAME) := by
  refine ⟨addresses_collapseCompletedChain answers owner, exists_address_of_completed completed, ?_⟩
  intro unaliased record member
  rw [collapseCompletedChain_eq] at member
  obtain ⟨source, behind, rfl⟩ := List.mem_map.mp member
  rw [recordType_relabel]
  exact unaliased source behind

def named (label : String) : LabelName := ⟨[label.toList], true⟩

def tidyChain : List (Record LabelName) :=
  [.fromRdata (named "a") 60 (.CNAME (named "b")), .fromRdata (named "b") 60 (.A 0x0A000002#32)]

theorem tidy_chain_keeps_address :
    chainCompletedWithAddress tidyChain = true ∧
      addresses (collapseCompletedChain tidyChain (named "q")) =
        (addresses tidyChain).map fun record => { record with name := named "q" } := by
  have completed : chainCompletedWithAddress tidyChain = true := by decide
  exact ⟨completed, (collapsed_chain_keeps_addresses completed (named "q")).1⟩

def untidyChain : List (Record LabelName) :=
  [.fromRdata (named "a") 60 (.CNAME (named "b")), .fromRdata (named "x") 60 (.A 0x0A000001#32),
    .fromRdata (named "x") 60 (.CNAME (named "y")), .fromRdata (named "b") 60 (.A 0x0A000002#32)]

/-- The alias remains, and the address of another name is passed off as one of the
queried name. -/
theorem foreign_address_is_relabelled :
    chainCompletedWithAddress untidyChain = true ∧
      lastCnameTarget untidyChain = some (named "b") ∧
      (∃ record ∈ collapseCompletedChain untidyChain (named "a"), record.recordType = .CNAME) ∧
      ∃ record ∈ collapseCompletedChain untidyChain (named "a"),
        record.recordType.isAddress = true ∧ record.name = named "a" ∧
          ∀ original ∈ untidyChain, original.data = record.data →
            NameApi.eqIgnoreRoot (named "b") original.name = false := by
  decide

/-! ### Resolving the target -/

/-- What the outside replies.  Resolving a target asks no cache. -/
def World.told (world : World Name) (number : Nat) : (request : RuleRequest Name) → request.Reply
  | .query upstream msg => world.upstream number upstream msg
  | .getCached _ => .miss
  | .store _ _ => ()

theorem run_askResolveCnames (world : World Name) (ctx : QueryContext Name) (upstream : Text)
    (resp : Message Name) (subnet : Option ClientSubnet) :
    (Interaction.run world.told 1 (askResolveCnames ctx upstream resp subnet)).1 =
      resolveCnames world ctx upstream resp subnet := by
  unfold askResolveCnames resolveCnames
  cases lastCnameTarget resp.answers with
  | none => rfl
  | some cname =>
      dsimp only
      split
      · rfl
      · cases (makeQueryMsg (NameApi.toUtf8 cname) ctx.qtype : IoResult (Message Name)) with
        | error _ => rfl
        | ok targetMsg =>
            simp only [Interaction.run, World.told]
            cases world.upstream 1 upstream (withSubnet targetMsg subnet) with
            | none => rfl
            | some resolved =>
                dsimp only
                cases classifyResolved resolved <;> rfl

theorem askResolveCnames_asksAtMost (ctx : QueryContext Name) (upstream : Text)
    (resp : Message Name) (subnet : Option ClientSubnet) :
    Interaction.AsksAtMost 1 (askResolveCnames ctx upstream resp subnet) := by
  unfold askResolveCnames
  split
  · exact .done
  · split
    · exact .done
    · split
      · exact .done
      · refine .ask fun told => ?_
        split
        · exact .done
        · split <;> exact .done

def StartsWithAddress (resolved : Message Name) : Prop :=
  ∃ first rest, resolved.answers = first :: rest ∧ first.recordType.isAddress = true

omit [NameApi Name] in
theorem classifyResolved_eq_address_iff {resolved : Message Name} :
    classifyResolved resolved = .Address ↔ StartsWithAddress resolved := by
  unfold classifyResolved StartsWithAddress
  cases answers : resolved.answers with
  | nil => simp
  | cons first rest =>
      have isFirst : (∃ other others, first :: rest = other :: others ∧
          other.recordType.isAddress = true) ↔ first.recordType.isAddress = true :=
        ⟨fun ⟨_, _, same, isAddress⟩ => by cases same; exact isAddress,
          fun isAddress => ⟨first, rest, rfl, isAddress⟩⟩
      rw [isFirst, List.head?_cons, Option.map_some]
      cases first.recordType <;> simp [RecordType.isAddress]

omit [NameApi Name] in
theorem addresses_ne_nil_of_starts {resolved : Message Name}
    (starts : StartsWithAddress resolved) : addresses resolved.answers ≠ [] := by
  obtain ⟨first, rest, answers, isAddress⟩ := starts
  apply List.ne_nil_of_mem
  exact List.mem_filter.mpr ⟨answers ▸ List.mem_cons_self, isAddress⟩

/-- All that the resolving can come to, with what it sent and was told. -/
inductive ChainOutcome (ctx : QueryContext Name) (resp : Message Name) :
    Message Name × List (RuleExchange Name) → Prop where
  | keeps : ChainOutcome ctx resp (resp, [])
  | collapses (completed : chainCompletedWithAddress resp.answers = true) :
      ChainOutcome ctx resp
        ({ resp with answers := collapseCompletedChain resp.answers ctx.question.name }, [])
  | disregards (upstream : Text) (msg : Message Name) (told : Option (Message Name))
      (useless : ∀ resolved, told = some resolved → ¬ StartsWithAddress resolved) :
      ChainOutcome ctx resp (resp, [.query upstream msg told])
  | replaces (upstream : Text) (msg resolved : Message Name)
      (starts : StartsWithAddress resolved) :
      ChainOutcome ctx resp
        ({ resp with answers := addressRecordsWithOwner resolved ctx.question.name },
          [.query upstream msg (some resolved)])

theorem outcome_askResolveCnames (world : World Name) (ctx : QueryContext Name)
    (upstream : Text) (resp : Message Name) (subnet : Option ClientSubnet) :
    ChainOutcome ctx resp
      (Interaction.run world.told 1 (askResolveCnames ctx upstream resp subnet)) := by
  unfold askResolveCnames
  split
  · exact .keeps
  · split
    · next completed => exact .collapses completed
    · split
      · exact .keeps
      · next targetMsg _ =>
          simp only [Interaction.run, World.told]
          cases told : world.upstream 1 upstream (withSubnet targetMsg subnet) with
          | none =>
              apply ChainOutcome.disregards
              intro resolved same
              cases same
          | some resolved =>
              dsimp only
              by_cases starts : StartsWithAddress resolved
              · rw [classifyResolved_eq_address_iff.mpr starts]
                exact .replaces upstream _ resolved starts
              · have useless : ∀ found, some resolved = some found → ¬ StartsWithAddress found :=
                  fun found same => Option.some.inj same ▸ starts
                cases kind : classifyResolved resolved with
                | Address => exact absurd (classifyResolved_eq_address_iff.mp kind) starts
                | _ => exact .disregards upstream _ (some resolved) useless

theorem collapseCompletedChain_ne_nil {answers : List (Record Name)}
    (completed : chainCompletedWithAddress answers = true) (owner : Name) :
    collapseCompletedChain answers owner ≠ [] := by
  obtain ⟨_, _, last, member, _⟩ := exists_address_of_completed completed
  intro empty
  have kept := addresses_collapseCompletedChain answers owner
  rw [empty] at kept
  have none : addresses answers = [] := List.map_eq_nil_iff.mp kept.symm
  rw [none] at member
  cases member

/-- At most one query is sent, and the section is kept unless its chain is complete or the
first answer to that query is an address. -/
theorem resolve_cname_all_or_nothing (world : World Name) (ctx : QueryContext Name)
    (upstream : Text) (resp : Message Name) (subnet : Option ClientSubnet) :
    ∃ result sent,
      Interaction.run world.told 1 (askResolveCnames ctx upstream resp subnet) = (result, sent) ∧
      resolveCnames world ctx upstream resp subnet = result ∧
      sent.length ≤ 1 ∧
      (∀ exchange ∈ sent, ∃ group msg told, exchange = RuleExchange.query group msg told) ∧
      result = { resp with answers := result.answers } ∧
      (result.answers = resp.answers ∨ chainCompletedWithAddress resp.answers = true ∨
        ∃ group msg resolved, RuleExchange.query group msg (some resolved) ∈ sent ∧
          StartsWithAddress resolved) ∧
      (∀ group msg resolved, RuleExchange.query group msg (some resolved) ∈ sent →
        StartsWithAddress resolved →
        result.answers =
            ((resolved.answers.filter fun record => record.recordType.isAddress).map fun record =>
              { record with name := ctx.question.name }) ∧
          result.answers ≠ []) ∧
      (resp.answers ≠ [] → result.answers ≠ []) := by
  have resolves := run_askResolveCnames world ctx upstream resp subnet
  have once := (askResolveCnames_asksAtMost ctx upstream resp subnet).length_run_le world.told 1
  have outcome := outcome_askResolveCnames world ctx upstream resp subnet
  refine ⟨_, _, rfl, resolves.symm, once, ?_⟩
  clear resolves once
  generalize Interaction.run world.told 1 (askResolveCnames ctx upstream resp subnet) = ran
    at outcome ⊢
  cases outcome with
  | keeps =>
      exact ⟨(fun _ sent => nomatch sent), rfl, .inl rfl, (fun _ _ _ sent => nomatch sent), id⟩
  | collapses completed =>
      exact ⟨(fun _ sent => nomatch sent), rfl, .inr (.inl completed),
        (fun _ _ _ sent => nomatch sent),
        fun _ => collapseCompletedChain_ne_nil completed ctx.question.name⟩
  | disregards group msg told useless =>
      refine ⟨fun exchange sent => ⟨group, msg, told, List.mem_singleton.mp sent⟩, rfl, .inl rfl,
        fun _ _ resolved sent starts => ?_, id⟩
      cases List.mem_singleton.mp sent
      exact absurd starts (useless resolved rfl)
  | replaces group msg resolved starts =>
      have nonempty : addressRecordsWithOwner resolved ctx.question.name ≠ [] :=
        fun empty => addresses_ne_nil_of_starts starts (List.map_eq_nil_iff.mp empty)
      refine ⟨fun exchange sent => ⟨group, msg, some resolved, List.mem_singleton.mp sent⟩, rfl,
        .inr (.inr ⟨group, msg, resolved, List.mem_singleton_self _, starts⟩),
        fun _ _ found sent _ => ?_, fun _ => nonempty⟩
      cases List.mem_singleton.mp sent
      exact ⟨rfl, nonempty⟩

end Rsdns.Plugins
