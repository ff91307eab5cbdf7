import Rsdns.Library.Chase
import Rsdns.Server.Stages

/-!
# Names of upstream servers in the hosts trie

At startup the names of upstream servers are looked up in the hosts trie too.  Aliases
are then followed to their end, where the hosts stage follows one of them only.
-/

namespace Rsdns.Plugins

open Common Dns Server

/-- Where a name is to be resolved. -/
inductive HostResolution where
  | Static (ips : List IpAddr)
  | Network (name : Text)
  deriving DecidableEq

def HostResolution.isStatic : HostResolution → Bool
  | .Static _ => true
  | .Network _ => false

namespace Hosts

/-- The loop over the names, `none` when it takes more rounds than allowed. -/
def resolveLoop (trie : HostsTrie) : Nat → List Text → Text → Option HostResolution
  | 0, _, _ => none
  | rounds + 1, visited, cur =>
      if visited.contains cur then some (.Network cur)
      else
        match trie.lookup cur with
        | .Ips ips => some (.Static ips)
        | .Alias original => resolveLoop trie rounds (cur :: visited) original
        | .Miss => some (.Network cur)

/-- So many rounds that the loop ends. -/
def resolveRounds (trie : HostsTrie) : Nat := trie.trie.idToTag.length + 2

/-- The original a name is an alias of. -/
def aliasOf (trie : HostsTrie) (name : Text) : Option Text :=
  match trie.lookup name with
  | .Alias original => some original
  | _ => none

/-- What the loop makes of the name it stops at. -/
def settle (trie : HostsTrie) (name : Text) : HostResolution :=
  match trie.lookup name with
  | .Ips ips => .Static ips
  | _ => .Network name

theorem aliasOf_eq_some_iff {trie : HostsTrie} {name original : Text} :
    aliasOf trie name = some original ↔ trie.lookup name = .Alias original := by
  unfold aliasOf
  cases trie.lookup name <;> simp

theorem aliasOf_eq_none_iff {trie : HostsTrie} {name : Text} :
    aliasOf trie name = none ↔ ∀ original, trie.lookup name ≠ .Alias original := by
  simp only [Option.eq_none_iff_forall_ne_some, ne_eq, aliasOf_eq_some_iff]

theorem mem_idToTag_of_aliasOf {trie : HostsTrie} {name original : Text}
    (aliased : aliasOf trie name = some original) : original ∈ trie.trie.idToTag := by
  rw [aliasOf_eq_some_iff] at aliased
  unfold HostsTrie.lookup at aliased
  cases found : trie.trie.lookup name with
  | none => simp [found] at aliased
  | some tag =>
      have member : tag ∈ trie.trie.idToTag := by
        obtain ⟨domain, _, _, stored, _⟩ := DomainSuffixTrie.lookup_eq_some_iff.mp found
        obtain ⟨id, _, listed⟩ := Option.bind_eq_some_iff.mp stored
        exact List.mem_of_getElem? listed
      simp only [found] at aliased
      split at aliased
      · split at aliased <;> cases aliased
      · cases aliased
        exact member

/-- The loop is a chase of aliases. -/
theorem resolveLoop_eq_chase (trie : HostsTrie) (rounds : Nat) {visited : List Text} {cur : Text}
    (aliased : ∀ name ∈ visited, aliasOf trie name ≠ none) :
    resolveLoop trie rounds visited cur =
      (Chase.chase (aliasOf trie) rounds visited cur).map (settle trie) := by
  induction rounds generalizing visited cur with
  | zero => rfl
  | succ rounds inductionHypothesis =>
      rw [resolveLoop, Chase.chase]
      by_cases again : cur ∈ visited
      · have original := aliased cur again
        rw [if_pos (List.contains_iff_mem.mpr again), if_pos again, Option.map_some, settle]
        cases found : trie.lookup cur with
        | Ips ips => simp [aliasOf, found] at original
        | Alias original => rfl
        | Miss => rfl
      · rw [if_neg (mt List.contains_iff_mem.mp again), if_neg again]
        cases found : trie.lookup cur with
        | Ips ips => simp [aliasOf, settle, found]
        | Miss => simp [aliasOf, settle, found]
        | Alias original =>
            have follows : aliasOf trie cur = some original := aliasOf_eq_some_iff.mpr found
            rw [follows]
            apply inductionHypothesis
            intro name member
            rcases List.mem_cons.mp member with rfl | before
            · rw [follows]
              exact Option.some_ne_none original
            · exact aliased name before

theorem resolveLoop_start (trie : HostsTrie) (rounds : Nat) (name : Text) :
    resolveLoop trie rounds [] name =
      (Chase.chase (aliasOf trie) rounds [] name).map (settle trie) :=
  resolveLoop_eq_chase trie rounds (by simp)

/-- Where the aliases of a name lead; every alias ends at a tag. -/
theorem exists_resolveLoop (trie : HostsTrie) (name : Text) :
    ∃ visited last, Chase.Trail (aliasOf trie) name visited last ∧
      Chase.Stops (aliasOf trie) visited last ∧
      ∀ rounds, resolveRounds trie ≤ rounds →
        resolveLoop trie rounds [] name = some (settle trie last) := by
  obtain ⟨visited, last, trail, stops, chased⟩ :=
    Chase.exists_chase (fun _ _ => mem_idToTag_of_aliasOf) name
  refine ⟨visited, last, trail, stops, fun rounds enough => ?_⟩
  rw [resolveLoop_start, chased rounds enough]
  rfl

theorem resolveLoop_isSome (trie : HostsTrie) (name : Text) :
    (resolveLoop trie (resolveRounds trie) [] name).isSome := by
  obtain ⟨visited, last, _, _, settled⟩ := exists_resolveLoop trie name
  rw [settled _ (Nat.le_refl _)]
  rfl

/-- The final place of a name: its addresses, or the name to ask the network for. -/
def resolveHostName (trie : HostsTrie) (name : Text) : HostResolution :=
  (resolveLoop trie (resolveRounds trie) [] name).get (resolveLoop_isSome trie name)

/-- One alias further. -/
def AliasStep (trie : HostsTrie) (name original : Text) : Prop :=
  trie.lookup name = .Alias original

theorem reflTransGen_aliasStep_iff {trie : HostsTrie} {name place : Text} :
    Relation.ReflTransGen (AliasStep trie) name place ↔
      Relation.ReflTransGen (Chase.Points (aliasOf trie)) name place := by
  have same : AliasStep trie = Chase.Points (aliasOf trie) := by
    funext earlier later
    exact propext aliasOf_eq_some_iff.symm
  rw [same]

theorem resolveHostName_of_trail {trie : HostsTrie} {name last : Text} {visited : List Text}
    (trail : Chase.Trail (aliasOf trie) name visited last)
    (stops : Chase.Stops (aliasOf trie) visited last) :
    resolveHostName trie name = settle trie last := by
  obtain ⟨otherVisited, other, otherTrail, otherStops, settled⟩ := exists_resolveLoop trie name
  have same : last = other := Chase.eq_of_stops otherTrail otherStops trail stops
  have resolved := settled _ (Nat.le_refl _)
  unfold resolveHostName
  simp only [resolved, Option.get_some, same]

theorem settle_eq_static_iff {trie : HostsTrie} {name : Text} {ips : List IpAddr} :
    settle trie name = .Static ips ↔ trie.lookup name = .Ips ips := by
  unfold settle
  cases trie.lookup name <;> simp

theorem settle_eq_network_iff {trie : HostsTrie} {name last : Text} :
    settle trie name = .Network last ↔ name = last ∧ ∀ ips, trie.lookup name ≠ .Ips ips := by
  unfold settle
  cases trie.lookup name <;> simp

theorem lookup_ne_ips_of_mem {trie : HostsTrie} {name place earlier : Text} {visited : List Text}
    (trail : Chase.Trail (aliasOf trie) name visited place) (member : earlier ∈ visited)
    (ips : List IpAddr) : trie.lookup earlier ≠ .Ips ips := by
  intro found
  obtain ⟨next, points, _⟩ := trail.points_of_mem member
  cases found.symm.trans (aliasOf_eq_some_iff.mp points)

theorem resolveHostName_eq_static_iff (trie : HostsTrie) (name : Text) (ips : List IpAddr) :
    resolveHostName trie name = .Static ips ↔
      ∃ place, Relation.ReflTransGen (AliasStep trie) name place ∧
        trie.lookup place = .Ips ips := by
  obtain ⟨visited, last, trail, stops, _⟩ := exists_resolveLoop trie name
  rw [resolveHostName_of_trail trail stops, settle_eq_static_iff]
  constructor
  · exact fun found => ⟨last, reflTransGen_aliasStep_iff.mpr trail.reaches, found⟩
  · rintro ⟨place, reach, found⟩
    have noAlias : aliasOf trie place = none :=
      aliasOf_eq_none_iff.mpr fun original aliased => nomatch found.symm.trans aliased
    have same := trail.eq_of_reaches stops (reflTransGen_aliasStep_iff.mp reach) noAlias
    rw [← same]
    exact found

theorem resolveHostName_eq_network_iff (trie : HostsTrie) (name last : Text) :
    resolveHostName trie name = .Network last ↔
      ∃ visited, Chase.Trail (aliasOf trie) name visited last ∧
        (last ∈ visited ∨ trie.lookup last = .Miss) := by
  constructor
  · obtain ⟨visited, stop, trail, stops, _⟩ := exists_resolveLoop trie name
    rw [resolveHostName_of_trail trail stops, settle_eq_network_iff]
    rintro ⟨rfl, noAddress⟩
    refine ⟨visited, trail, stops.imp_right fun noAlias => ?_⟩
    rw [aliasOf_eq_none_iff] at noAlias
    cases found : trie.lookup stop with
    | Ips ips => exact absurd found (noAddress ips)
    | Alias original => exact absurd found (noAlias original)
    | Miss => rfl
  · rintro ⟨visited, trail, ends⟩
    have stops : Chase.Stops (aliasOf trie) visited last :=
      ends.imp_right fun missed => by rw [aliasOf, missed]
    rw [resolveHostName_of_trail trail stops, settle_eq_network_iff]
    refine ⟨rfl, fun ips found => ?_⟩
    rcases ends with again | missed
    · exact lookup_ne_ips_of_mem trail again ips found
    · cases missed.symm.trans found

section Handle

variable {Name : Type} [NameApi Name]

theorem handle_of_respond {trie : HostsTrie} {ctx : QueryContext Name}
    (responds : (handle trie ctx).1 = .respond) :
    ∃ ips, resolveHostName trie ctx.name = .Static ips ∧
      handle trie ctx = respondData ctx ctx.name ips := by
  unfold handle at responds ⊢
  cases hit : trie.lookup ctx.name with
  | Miss =>
      rw [hit] at responds
      cases responds
  | Ips ips =>
      exact ⟨ips, (resolveHostName_eq_static_iff _ _ _).mpr ⟨ctx.name, .refl, hit⟩, rfl⟩
  | Alias original =>
      rw [hit] at responds
      cases found : trie.lookup original with
      | Ips ips =>
          refine ⟨ips, (resolveHostName_eq_static_iff _ _ _).mpr ⟨original, ?_, found⟩, ?_⟩
          · exact .single hit
          · simp only [handleAlias, found]
      | Miss => simp [handleAlias, found] at responds
      | Alias other => simp [handleAlias, found] at responds

theorem name_rewriteName (ctx : QueryContext Name) (original : Text) :
    (ctx.rewriteName original).name = original := by
  unfold QueryContext.rewriteName
  dsimp only
  split <;> rfl

theorem handle_of_continue {trie : HostsTrie} {ctx : QueryContext Name}
    (continues : (handle trie ctx).1 = .continue) :
    (trie.lookup ctx.name = .Miss ∧ handle trie ctx = (.continue, ctx)) ∨
      ∃ original, AliasStep trie ctx.name original ∧
        handle trie ctx =
          (.continue, { ctx with originalName := some ctx.name }.rewriteName original) ∧
        (handle trie ctx).2.name = original := by
  have outcome := outcome_handle trie ctx
  generalize handled : handle trie ctx = result at outcome
  cases outcome with
  | answers response _ =>
      rw [handled] at continues
      cases continues
  | rewrites original rewrites =>
      exact .inr ⟨original, rewrites.1, rfl, name_rewriteName _ original⟩
  | passes unaliased =>
      refine .inl ⟨?_, rfl⟩
      cases hit : trie.lookup ctx.name with
      | Miss => rfl
      | Ips ips =>
          unfold handle at handled
          rw [hit] at handled
          cases congrArg Prod.fst handled
      | Alias original =>
          cases found : trie.lookup original with
          | Miss => exact absurd ⟨hit, fun _ => by simp [found]⟩ (unaliased original)
          | Alias other => exact absurd ⟨hit, fun _ => by simp [found]⟩ (unaliased original)
          | Ips ips =>
              unfold handle at handled
              simp only [hit, handleAlias, found] at handled
              cases congrArg Prod.fst handled

end Handle

/-- The loop ends, at the addresses the aliases of a name lead to if they lead to any, and
else at the first name that is on no line or comes a second time.  The hosts stage
answers with the same addresses and rewrites a query to the next name of the way. -/
theorem resolve_host_name_spec (trie : HostsTrie) (name : Text) :
    (∀ rounds, resolveRounds trie ≤ rounds →
      resolveLoop trie rounds [] name = some (resolveHostName trie name)) ∧
    (∀ ips, resolveHostName trie name = .Static ips ↔
      ∃ place, Relation.ReflTransGen (AliasStep trie) name place ∧
        trie.lookup place = .Ips ips) ∧
    (∀ last, resolveHostName trie name = .Network last ↔
      ∃ visited, Chase.Trail (aliasOf trie) name visited last ∧
        (last ∈ visited ∨ trie.lookup last = .Miss)) ∧
    ∀ (Name : Type) [NameApi Name] (ctx : QueryContext Name),
      ((handle trie ctx).1 = .respond →
        ∃ ips, resolveHostName trie ctx.name = .Static ips ∧
          handle trie ctx = respondData ctx ctx.name ips) ∧
      ((handle trie ctx).1 = .continue →
        (trie.lookup ctx.name = .Miss ∧ handle trie ctx = (.continue, ctx)) ∨
        ∃ original, AliasStep trie ctx.name original ∧
          handle trie ctx =
            (.continue, { ctx with originalName := some ctx.name }.rewriteName original) ∧
          (handle trie ctx).2.name = original) := by
  refine ⟨fun rounds enough => ?_, resolveHostName_eq_static_iff trie name,
    resolveHostName_eq_network_iff trie name,
    fun Name _ ctx => ⟨handle_of_respond, handle_of_continue⟩⟩
  obtain ⟨visited, last, trail, stops, settled⟩ := exists_resolveLoop trie name
  rw [settled rounds enough, resolveHostName_of_trail trail stops]

end Hosts

end Rsdns.Plugins
