import Mathlib.Algebra.Order.BigOperators.Group.List
import Rsdns.Upstream.Candidates

/-!
# What the startup leaves behind

The groups have one client for each server that can be parsed, in the order of the
configuration.  The clients of domains reach the candidates of their domain and nothing
else, and the startup fails exactly if some domain has none.
-/

namespace Rsdns.Upstream

open Dns Plugins

variable {Conn Name Error : Type} [NameApi Name]

def accepted (Conn : Type) (parseUrl : Text → Option Url) (servers : List ServerConfig) :
    List (UpstreamConfig Conn) :=
  servers.filterMap fun server =>
    parseUpstream parseUrl server.address server.serverName server.pool

def allServers (Conn : Type) (parseUrl : Text → Option Url) (groups : List UpstreamGroupConfig) :
    List (UpstreamConfig Conn) :=
  groups.flatMap fun group => accepted Conn parseUrl group.servers

def bootstrapCount (configs : List (UpstreamConfig Conn)) : Nat := (bootstrapClients configs).length

/-- The client that a server should get. -/
def Served (table : HostsTable) (reply : Nat → Message Name → Except Error (Message Name))
    (clients : Nat) : UpstreamConfig Conn → UpstreamClient Conn → Prop
  | .Pool client, served => served = client
  | .NeedResolve serverName port factory rawPool proto fam, served =>
      served.factory = factory ∧ served.pool.proto = proto ∧
      served.pool.config = (rawPool.getD .default).intoPoolConfig ∧
      served.pool.addresses ≠ [] ∧
      (∀ address ∈ served.pool.addresses, address.port = port ∧ fam.allows address.ip = true) ∧
      ∀ ip, ⟨ip, port⟩ ∈ served.pool.addresses ↔ Candidate table reply clients serverName fam ip

/-! ### Reading the groups -/

theorem allServers_cons (parseUrl : Text → Option Url) (group : UpstreamGroupConfig)
    (groups : List UpstreamGroupConfig) :
    allServers Conn parseUrl (group :: groups) =
      accepted Conn parseUrl group.servers ++ allServers Conn parseUrl groups := by
  rw [allServers, List.flatMap_cons, allServers]

theorem allServers_split (Conn : Type) (parseUrl : Text → Option Url)
    (before after : List UpstreamGroupConfig) (group : UpstreamGroupConfig) :
    allServers Conn parseUrl (before ++ group :: after) = allServers Conn parseUrl before ++
      (accepted Conn parseUrl group.servers ++ allServers Conn parseUrl after) := by
  rw [← allServers_cons, allServers, List.flatMap_append, allServers, allServers]

theorem foldl_addServer (parseUrl : Text → Option Url) (servers : List ServerConfig)
    (configs : List (UpstreamConfig Conn)) (indices : List Nat) :
    servers.foldl (addServer parseUrl) (configs, indices) =
      (configs ++ accepted Conn parseUrl servers, indices ++
        List.range' configs.length (accepted Conn parseUrl servers).length) := by
  induction servers generalizing configs indices with
  | nil => simp [accepted]
  | cons server servers inductionHypothesis =>
      rw [List.foldl_cons, addServer]
      cases parsed : (parseUpstream parseUrl server.address server.serverName server.pool :
          Option (UpstreamConfig Conn)) with
      | none =>
          have kept : accepted Conn parseUrl (server :: servers) =
              accepted Conn parseUrl servers := List.filterMap_cons_none parsed
          rw [kept]
          exact inductionHypothesis configs indices
      | some cfg =>
          have added : accepted Conn parseUrl (server :: servers) =
              cfg :: accepted Conn parseUrl servers :=
            List.filterMap_cons_some parsed
          rw [added, List.length_cons, List.range'_succ]
          exact (inductionHypothesis _ _).trans (by simp)

theorem foldl_addGroup_configs (parseUrl : Text → Option Url) (groups : List UpstreamGroupConfig)
    (read : List (UpstreamConfig Conn) × List GroupPlan) :
    (groups.foldl (addGroup parseUrl) read).1 = read.1 ++ allServers Conn parseUrl groups := by
  induction groups generalizing read with
  | nil => exact (List.append_nil _).symm
  | cons group groups inductionHypothesis =>
      rw [List.foldl_cons, inductionHypothesis, allServers_cons, ← List.append_assoc]
      simp only [addGroup, foldl_addServer]

theorem foldl_addGroup_names (parseUrl : Text → Option Url) (groups : List UpstreamGroupConfig)
    (read : List (UpstreamConfig Conn) × List GroupPlan) :
    ∃ added, (groups.foldl (addGroup parseUrl) read).2 = read.2 ++ added ∧
      added.map GroupPlan.name = groups.map UpstreamGroupConfig.name := by
  induction groups generalizing read with
  | nil => exact ⟨[], (List.append_nil _).symm, rfl⟩
  | cons group groups inductionHypothesis =>
      obtain ⟨added, plans, names⟩ := inductionHypothesis (addGroup parseUrl read group)
      rw [List.foldl_cons, plans]
      simp only [addGroup, List.append_assoc, List.singleton_append]
      exact ⟨_, rfl, by rw [List.map_cons, List.map_cons, names]⟩

theorem exists_plan (Conn : Type) (parseUrl : Text → Option Url)
    (before after : List UpstreamGroupConfig) (group : UpstreamGroupConfig) :
    ∃ plans plan added,
      (readGroups parseUrl (before ++ group :: after) :
        List (UpstreamConfig Conn) × List GroupPlan).2 = plans ++ plan :: added ∧
      added.map GroupPlan.name = after.map UpstreamGroupConfig.name ∧
      plan.name = group.name ∧ plan.mode = group.mode ∧ plan.cooldown = group.cooldownConfig ∧
      plan.indices = List.range' (allServers Conn parseUrl before).length
        (accepted Conn parseUrl group.servers).length := by
  rw [readGroups, List.foldl_append, List.foldl_cons]
  have front := foldl_addGroup_configs parseUrl before (([], []) : List (UpstreamConfig Conn) × _)
  generalize before.foldl (addGroup parseUrl) ([], []) = read at front
  obtain ⟨added, plans, names⟩ := foldl_addGroup_names parseUrl after (addGroup parseUrl read group)
  rw [plans]
  simp only [addGroup, List.append_assoc, List.singleton_append]
  refine ⟨_, _, _, rfl, names, rfl, rfl, rfl, ?_⟩
  simp only [foldl_addServer, front, List.nil_append]

theorem foldl_update_of_not_mem {Item : Type} {name : Text} {plans : List GroupPlan}
    (others : name ∉ plans.map GroupPlan.name) (build : GroupPlan → Item)
    (groups : Text → Option Item) :
    plans.foldl (fun (groups : Text → Option Item) plan =>
      Function.update groups plan.name (some (build plan))) groups name = groups name := by
  induction plans generalizing groups with
  | nil => rfl
  | cons plan plans inductionHypothesis =>
      rw [List.map_cons, List.mem_cons, not_or] at others
      rw [List.foldl_cons, inductionHypothesis others.2, Function.update_of_ne others.1]

theorem assemble_groups (configs : List (UpstreamConfig Conn)) {plans added : List GroupPlan}
    {plan : GroupPlan} (last : plan.name ∉ added.map GroupPlan.name) :
    (assemble configs (plans ++ plan :: added)).groups plan.name = some (plan.build configs) := by
  unfold assemble
  dsimp only
  rw [List.foldl_append, List.foldl_cons, foldl_update_of_not_mem last, Function.update_self]

/-! ### Resolving the servers -/

section Resolving

variable (table : HostsTable) (balance : Balance) (world : Nat → Bootstrap Name Error)
  (clients : Nat)

def settled (place : Nat) : UpstreamConfig Conn → UpstreamClient Conn
  | .Pool client => client
  | .NeedResolve serverName port factory rawPool proto fam =>
      resolvedClient table balance (world place) clients serverName port factory rawPool proto fam

/-- The server at a place has a client, or its domain has an address. -/
def Resolves (place : Nat) : UpstreamConfig Conn → Prop
  | .Pool _ => True
  | .NeedResolve serverName port _ _ _ fam =>
      resolveServer table (world place) clients serverName port fam ≠ []

variable {table balance world clients}

theorem resolveAt_isOk_iff {configs : List (UpstreamConfig Conn)} {place : Nat} :
    (∃ next, resolveAt table balance world clients configs place = .ok next) ↔
      ∀ cfg, configs[place]? = some cfg → Resolves table world clients place cfg := by
  unfold resolveAt
  cases found : configs[place]? with
  | none => simp
  | some cfg =>
      cases cfg with
      | Pool client => simp [Resolves]
      | NeedResolve serverName port factory rawPool proto fam =>
          by_cases none : resolveServer table (world place) clients serverName port fam = []
          · simp [Resolves, none]
          · simp [Resolves, none]

theorem resolveAt_getElem? {configs next : List (UpstreamConfig Conn)} {place : Nat}
    (resolved : resolveAt table balance world clients configs place = .ok next) (other : Nat) :
    next[other]? = if other = place then
      configs[other]?.map fun cfg => .Pool (settled table balance world clients other cfg)
    else configs[other]? := by
  unfold resolveAt at resolved
  by_cases same : other = place
  · subst same
    rw [if_pos rfl]
    cases found : configs[other]? with
    | none =>
        simp only [found, Except.ok.injEq] at resolved
        rw [← resolved, found, Option.map_none]
    | some cfg =>
        cases cfg with
        | Pool client =>
            simp only [found, Except.ok.injEq] at resolved
            rw [← resolved, found, Option.map_some, settled]
        | NeedResolve serverName port factory rawPool proto fam =>
            simp only [found] at resolved
            split at resolved
            · cases resolved
            · cases resolved
              rw [List.getElem?_set_self (List.getElem?_eq_some_iff.mp found).1]
              rfl
  · rw [if_neg same]
    split at resolved
    · dsimp only at resolved
      split at resolved
      · cases resolved
      · cases resolved
        exact List.getElem?_set_ne (Ne.symm same)
    · cases resolved
      rfl

theorem map_settled_twice (place : Nat) (config : Option (UpstreamConfig Conn)) :
    (config.map fun cfg => UpstreamConfig.Pool (settled table balance world clients place cfg)).map
      (fun cfg => UpstreamConfig.Pool (settled table balance world clients place cfg)) =
    config.map fun cfg => UpstreamConfig.Pool (settled table balance world clients place cfg) := by
  rw [Option.map_map]
  rfl

theorem foldlM_resolveAt_getElem? {configs done : List (UpstreamConfig Conn)} {places : List Nat}
    (resolved : places.foldlM (resolveAt table balance world clients) configs = .ok done)
    (other : Nat) :
    done[other]? = if other ∈ places then
      configs[other]?.map fun cfg => .Pool (settled table balance world clients other cfg)
    else configs[other]? := by
  induction places generalizing configs with
  | nil => cases resolved; rfl
  | cons place places inductionHypothesis =>
      rw [List.foldlM_cons] at resolved
      cases first : resolveAt table balance world clients configs place with
      | error error => rw [first] at resolved; cases resolved
      | ok next =>
          rw [first] at resolved
          rw [inductionHypothesis resolved, resolveAt_getElem? first]
          by_cases same : other = place
          · rw [if_pos same, map_settled_twice, ite_self, if_pos (by simp [same])]
          · simp [same]

theorem foldlM_resolveAt_isOk_iff {configs : List (UpstreamConfig Conn)} {places : List Nat} :
    (∃ done, places.foldlM (resolveAt table balance world clients) configs = .ok done) ↔
      ∀ place ∈ places, ∀ cfg, configs[place]? = some cfg →
        Resolves table world clients place cfg := by
  induction places generalizing configs with
  | nil => exact ⟨fun _ _ member => by simp at member, fun _ => ⟨configs, rfl⟩⟩
  | cons place places inductionHypothesis =>
      have here : (∃ next, resolveAt table balance world clients configs place = .ok next) ↔ _ :=
        resolveAt_isOk_iff
      rw [List.forall_mem_cons, ← here, List.foldlM_cons]
      cases first : resolveAt table balance world clients configs place with
      | error error => simp [bind, Except.bind]
      | ok next =>
          have resolves := here.mp ⟨next, first⟩
          simp only [bind, Except.bind, Except.ok.injEq, exists_eq', true_and, inductionHypothesis]
          apply forall₂_congr
          intro other _
          rw [resolveAt_getElem? first]
          by_cases same : other = place
          · subst same
            rw [if_pos rfl]
            constructor
            · intro _
              exact resolves
            · intro _ cfg after
              obtain ⟨_, _, rfl⟩ := Option.map_eq_some_iff.mp after
              trivial
          · rw [if_neg same]

theorem mem_dynamicIndices {configs : List (UpstreamConfig Conn)} {place : Nat} :
    place ∈ dynamicIndices configs ↔ ∃ cfg, configs[place]? = some cfg ∧ cfg.needsResolve := by
  rw [dynamicIndices, List.mem_filter, List.mem_range]
  cases found : configs[place]? with
  | none => simp
  | some cfg =>
      have within := (List.getElem?_eq_some_iff.mp found).1
      simp [within]

theorem getElem?_of_resolved {configs done : List (UpstreamConfig Conn)}
    (resolved : (dynamicIndices configs).foldlM (resolveAt table balance world clients) configs =
      .ok done) (place : Nat) :
    done[place]? = configs[place]?.map fun cfg =>
      .Pool (settled table balance world clients place cfg) := by
  rw [foldlM_resolveAt_getElem? resolved]
  split
  · rfl
  · next notDynamic =>
      cases found : configs[place]? with
      | none => rfl
      | some cfg =>
          cases cfg with
          | Pool client => rfl
          | NeedResolve serverName port factory rawPool proto fam =>
              exact absurd (mem_dynamicIndices.mpr ⟨_, found, rfl⟩) notDynamic

theorem resolved_isOk_iff {configs : List (UpstreamConfig Conn)} :
    (∃ done, (dynamicIndices configs).foldlM (resolveAt table balance world clients) configs =
        .ok done) ↔
      ∀ place cfg, configs[place]? = some cfg → Resolves table world clients place cfg := by
  rw [foldlM_resolveAt_isOk_iff]
  constructor
  · intro dynamic place cfg found
    cases cfg with
    | Pool client => trivial
    | NeedResolve serverName port factory rawPool proto fam =>
        exact dynamic place (mem_dynamicIndices.mpr ⟨_, found, rfl⟩) _ found
  · intro all place _ cfg found
    exact all place cfg found

theorem served_settled {place : Nat} {cfg : UpstreamConfig Conn}
    (resolves : Resolves table world clients place cfg) :
    Served table (world place).reply clients cfg
      (settled table balance world clients place cfg) := by
  cases cfg with
  | Pool client => rfl
  | NeedResolve serverName port factory rawPool proto fam =>
      have member : ∀ address, address ∈ (settled table balance world clients place
          (.NeedResolve serverName port factory rawPool proto fam :
            UpstreamConfig Conn)).pool.addresses ↔
          address ∈ resolveServer table (world place) clients serverName port fam := by
        intro address
        apply mem_buildResolvedPool (length_resolveServer_lt _ _ _ _ _ _)
        intro found listed
        exact (mem_resolveServer.mp listed).1
      refine ⟨rfl, rfl, rfl, ?_, ?_, ?_⟩
      · intro none
        obtain ⟨address, listed⟩ := List.exists_mem_of_ne_nil _ resolves
        rw [← member address, none] at listed
        cases listed
      · intro address listed
        obtain ⟨port, candidate⟩ := mem_resolveServer.mp ((member address).mp listed)
        exact ⟨port, candidate.1⟩
      · intro ip
        rw [member, mem_resolveServer]
        exact and_iff_right rfl

theorem resolves_needResolve_iff {place : Nat} {serverName : Text} {port : UInt16}
    {factory : ConnFactory} {rawPool : Option RawPoolConfig} {proto : Text} {fam : PreferFamily} :
    Resolves table world clients place
        (.NeedResolve serverName port factory rawPool proto fam : UpstreamConfig Conn) ↔
      ∃ ip, Candidate table (world place).reply clients serverName fam ip := by
  constructor
  · intro resolves
    obtain ⟨address, listed⟩ := List.exists_mem_of_ne_nil _ resolves
    exact ⟨address.ip, (mem_resolveServer.mp listed).2⟩
  · rintro ⟨ip, candidate⟩
    have listed : ⟨ip, port⟩ ∈ resolveServer table (world place) clients serverName port fam :=
      mem_resolveServer.mpr ⟨rfl, candidate⟩
    exact List.ne_nil_of_mem listed

theorem not_resolves_of_needsNetwork {configs : List (UpstreamConfig Conn)}
    (noClients : clients = 0) (needed : needsNetwork table configs = true) :
    ∃ place cfg, configs[place]? = some cfg ∧ ¬ Resolves table world clients place cfg := by
  subst noClients
  obtain ⟨cfg, member, network⟩ := List.any_eq_true.mp needed
  obtain ⟨place, found⟩ := List.mem_iff_getElem?.mp member
  refine ⟨place, cfg, found, ?_⟩
  cases cfg with
  | Pool client => cases network
  | NeedResolve serverName port factory rawPool proto fam =>
      rw [resolves_needResolve_iff]
      rintro ⟨ip, _, candidate⟩
      cases resolution : Hosts.resolveHostName table.trie serverName with
      | Static ips => simp [resolution, HostResolution.isStatic] at network
      | Network name =>
          rw [resolution] at candidate
          obtain ⟨client, within, _⟩ := candidate
          exact Nat.not_lt_zero _ within

theorem filterMap_client_range' (front items rest : List (UpstreamConfig Conn)) :
    ((List.range' front.length items.length).filterMap fun place =>
      (((front ++ (items ++ rest))[place]?).map fun cfg => UpstreamConfig.Pool
        (settled table balance world clients place cfg)).bind UpstreamConfig.client?) =
    items.mapIdx fun i cfg => settled table balance world clients (front.length + i) cfg := by
  induction items generalizing front with
  | nil => rfl
  | cons item items inductionHypothesis =>
      have tail := inductionHypothesis (front ++ [item])
      rw [List.length_append, List.length_singleton, List.append_assoc, List.singleton_append]
        at tail
      rw [List.length_cons, List.range'_succ, List.mapIdx_cons, List.cons_append,
        List.filterMap_cons_some (b := settled table balance world clients front.length item), tail]
      · simp only [Nat.add_zero, Nat.add_assoc, Nat.add_comm 1]
      · rw [List.getElem?_append_right (Nat.le_refl _), Nat.sub_self]
        rfl

end Resolving

/-! ### The whole startup -/

section Startup

variable (Conn) (parseUrl : Text → Option Url) (table : HostsTable) (balance : Balance)
  (world : Nat → Bootstrap Name Error) (groups : List UpstreamGroupConfig)

theorem readGroups_configs :
    (readGroups parseUrl groups).1 = allServers Conn parseUrl groups :=
  foldl_addGroup_configs parseUrl groups ([], [])

theorem init_eq_ok {upstreams : Upstreams Conn}
    (started : init parseUrl table balance world groups = .ok upstreams) :
    ∃ done, (dynamicIndices (allServers Conn parseUrl groups)).foldlM
        (resolveAt table balance world (bootstrapCount (allServers Conn parseUrl groups)))
        (allServers Conn parseUrl groups) = .ok done ∧
      upstreams = assemble done
        (readGroups parseUrl groups : List (UpstreamConfig Conn) × List GroupPlan).2 := by
  unfold init at started
  dsimp only at started
  rw [readGroups_configs] at started
  split at started
  · cases started
  · cases resolved : (dynamicIndices (allServers Conn parseUrl groups)).foldlM
        (resolveAt table balance world (bootstrapCount (allServers Conn parseUrl groups)))
        (allServers Conn parseUrl groups) with
    | error error =>
        rw [bootstrapCount] at resolved
        rw [resolved] at started
        cases started
    | ok done =>
        rw [bootstrapCount] at resolved
        rw [resolved] at started
        cases started
        exact ⟨done, rfl, rfl⟩

/-- The startup succeeds exactly if every server resolves.  The check for bootstrap clients
at its beginning turns away only what would fail later. -/
theorem init_isOk_iff :
    (∃ upstreams : Upstreams Conn, init parseUrl table balance world groups = .ok upstreams) ↔
      ∀ place cfg, (allServers Conn parseUrl groups)[place]? = some cfg →
        Resolves table world (bootstrapCount (allServers Conn parseUrl groups)) place cfg := by
  unfold init
  dsimp only
  rw [readGroups_configs]
  split
  · next early =>
      obtain ⟨noClients, needed⟩ := Bool.and_eq_true_iff.mp early
      have none : bootstrapCount (allServers Conn parseUrl groups) = 0 :=
        List.length_eq_zero_iff.mpr (List.isEmpty_iff.mp noClients)
      have blocked : ∃ place cfg, (allServers Conn parseUrl groups)[place]? = some cfg ∧
          ¬ Resolves table world (bootstrapCount (allServers Conn parseUrl groups)) place cfg :=
        not_resolves_of_needsNetwork none needed
      obtain ⟨place, cfg, found, unresolved⟩ := blocked
      constructor
      · rintro ⟨_, started⟩
        cases started
      · intro all
        exact absurd (all place cfg found) unresolved
  · have resolves : (∃ done, (dynamicIndices (allServers Conn parseUrl groups)).foldlM
        (resolveAt table balance world (bootstrapCount (allServers Conn parseUrl groups)))
        (allServers Conn parseUrl groups) = .ok done) ↔ _ := resolved_isOk_iff
    rw [← resolves, bootstrapCount]
    cases (dynamicIndices (allServers Conn parseUrl groups)).foldlM
        (resolveAt table balance world (bootstrapClients (allServers Conn parseUrl groups)).length)
        (allServers Conn parseUrl groups) with
    | error error => simp [bind, Except.bind]
    | ok done => simp [bind, Except.bind, pure, Except.pure]

/-- The startup fails exactly if some domain has no candidate. -/
theorem init_isError_iff :
    (∃ error, (init parseUrl table balance world groups : Except Text (Upstreams Conn)) =
        .error error) ↔
      ∃ place serverName port factory rawPool proto fam,
        (allServers Conn parseUrl groups)[place]? =
          some (.NeedResolve serverName port factory rawPool proto fam) ∧
        ∀ ip, ¬ Candidate table (world place).reply
          (bootstrapCount (allServers Conn parseUrl groups)) serverName fam ip := by
  have fails : (∃ error, (init parseUrl table balance world groups :
      Except Text (Upstreams Conn)) = .error error) ↔
      ¬ ∃ upstreams : Upstreams Conn,
        init parseUrl table balance world groups = .ok upstreams := by
    cases (init parseUrl table balance world groups : Except Text (Upstreams Conn)) with
    | error error => simp
    | ok upstreams => simp
  rw [fails, init_isOk_iff]
  constructor
  · intro unresolved
    by_contra noneFails
    apply unresolved
    intro place cfg found
    cases cfg with
    | Pool client => trivial
    | NeedResolve serverName port factory rawPool proto fam =>
        rw [resolves_needResolve_iff]
        by_contra noCandidate
        exact noneFails ⟨place, serverName, port, factory, rawPool, proto, fam, found,
          fun ip candidate => noCandidate ⟨ip, candidate⟩⟩
  · rintro ⟨place, serverName, port, factory, rawPool, proto, fam, found, noCandidate⟩ all
    obtain ⟨ip, candidate⟩ := resolves_needResolve_iff.mp (all place _ found)
    exact noCandidate ip candidate

theorem init_congr {other : Nat → Bootstrap Name Error}
    (sameReplies : ∀ place, (world place).reply = (other place).reply) :
    (init parseUrl table balance world groups : Except Text (Upstreams Conn)) =
      init parseUrl table balance other groups := by
  have sameStep : ∀ clients,
      (resolveAt table balance world clients : List (UpstreamConfig Conn) → Nat → _) =
        resolveAt table balance other clients := by
    intro clients
    funext configs place
    simp only [resolveAt, resolvedClient, resolveServer_congr (sameReplies place)]
  simp only [init, sameStep]

theorem groups_of_init {upstreams : Upstreams Conn}
    (started : init parseUrl table balance world groups = .ok upstreams)
    {before after : List UpstreamGroupConfig} {group : UpstreamGroupConfig}
    (split : groups = before ++ group :: after)
    (last : group.name ∉ after.map UpstreamGroupConfig.name) :
    ∃ served, upstreams.groups group.name = some served ∧ served.mode = group.mode ∧
      served.cooldown = group.cooldownConfig ∧
      served.clients = (accepted Conn parseUrl group.servers).mapIdx fun i cfg =>
        settled table balance world (bootstrapCount (allServers Conn parseUrl groups))
          ((allServers Conn parseUrl before).length + i) cfg := by
  obtain ⟨done, resolved, assembled⟩ := init_eq_ok Conn parseUrl table balance world groups started
  obtain ⟨plans, plan, added, read, names, name, mode, cooldown, indices⟩ :=
    exists_plan Conn parseUrl before after group
  rw [← split] at read
  refine ⟨plan.build done, ?_, mode, cooldown, ?_⟩
  · rw [assembled, read, ← name]
    apply assemble_groups
    rw [names, name]
    exact last
  · have clients : (plan.build done).clients = plan.clients done := rfl
    rw [clients, GroupPlan.clients, indices, ← filterMap_client_range']
    apply List.filterMap_congr
    intro place _
    rw [getElem?_of_resolved resolved, split, allServers_split]

end Startup

/-- The startup gives each group one client for each server that can be parsed, and a
domain upstream exactly the candidates of its domain.  Only the replies of the bootstrap
clients count, not their order, and the startup fails exactly if a domain has no candidate. -/
theorem init_spec (parseUrl : Text → Option Url) (table : HostsTable) (balance : Balance)
    {groups : List UpstreamGroupConfig}
    (distinct : (groups.map UpstreamGroupConfig.name).Nodup) :
    (∀ (world : Nat → Bootstrap Name Error) (upstreams : Upstreams Conn),
      init parseUrl table balance world groups = .ok upstreams →
      ∀ before group after, groups = before ++ group :: after →
        ∃ served, upstreams.groups group.name = some served ∧ served.mode = group.mode ∧
          served.cooldown = group.cooldownConfig ∧
          served.clients.length = (accepted Conn parseUrl group.servers).length ∧
          ∀ i cfg client, (accepted Conn parseUrl group.servers)[i]? = some cfg →
            served.clients[i]? = some client →
            Served table (world ((allServers Conn parseUrl before).length + i)).reply
              (bootstrapCount (allServers Conn parseUrl groups)) cfg client) ∧
    (∀ world other : Nat → Bootstrap Name Error,
      (∀ place, (world place).reply = (other place).reply) →
      (init parseUrl table balance world groups : Except Text (Upstreams Conn)) =
        init parseUrl table balance other groups) ∧
    ∀ world : Nat → Bootstrap Name Error,
      (∃ error, (init parseUrl table balance world groups : Except Text (Upstreams Conn)) =
          .error error) ↔
        ∃ place serverName port factory rawPool proto fam,
          (allServers Conn parseUrl groups)[place]? =
            some (.NeedResolve serverName port factory rawPool proto fam) ∧
          ∀ ip, ¬ Candidate table (world place).reply
            (bootstrapCount (allServers Conn parseUrl groups)) serverName fam ip := by
  refine ⟨?_, fun world other => init_congr Conn parseUrl table balance world groups,
    fun world => init_isError_iff Conn parseUrl table balance world groups⟩
  intro world upstreams started before group after split
  have last : group.name ∉ after.map UpstreamGroupConfig.name := by
    rw [split, List.map_append, List.map_cons] at distinct
    exact (List.nodup_cons.mp distinct.of_append_right).1
  obtain ⟨served, found, mode, cooldown, clients⟩ :=
    groups_of_init Conn parseUrl table balance world groups started split last
  refine ⟨served, found, mode, cooldown, ?_, ?_⟩
  · rw [clients, List.length_mapIdx]
  · intro i cfg client listed given
    rw [clients, List.getElem?_mapIdx, listed, Option.map_some, Option.some.injEq] at given
    subst given
    apply served_settled
    have all := (init_isOk_iff Conn parseUrl table balance world groups).mp ⟨upstreams, started⟩
    apply all
    have within := (List.getElem?_eq_some_iff.mp listed).1
    rw [split, allServers_split, List.getElem?_append_right (Nat.le_add_right _ _),
      Nat.add_sub_cancel_left, List.getElem?_append_left within, listed]

def mainGroup : UpstreamGroupConfig where
  name := "main".toList
  mode := .Serial
  cooldown := none
  servers :=
    [{ address := "192.0.2.1".toList, serverName := none, pool := none },
      { address := "dns.example".toList, serverName := none, pool := none }]
  bounded := by decide

def noHosts : HostsTable where
  trie := HostsTrieBuilder.new.build
  bounded := by simp [HostsTrieBuilder.build, HostsTrieBuilder.new]

def oneAnswer (client : Nat) (msg : Message LabelName) : Except Unit (Message LabelName) :=
  if client = 0 then
    let answer : Record LabelName :=
      { name := ⟨[], true⟩, dnsClass := .IN, ttl := 60, data := .A 0xC0000207#32 }
    .ok { msg with answers := [answer] }
  else .error ()

theorem few_brought (clients : Nat) (host : Text) (fam : PreferFamily) :
    ((bootstrapQueries clients host fam).flatMap (broughtBy oneAnswer)).length ≤ 2 := by
  have few : ∀ query : BootstrapQuery LabelName, (broughtBy oneAnswer query).length ≤ 1 := by
    intro query
    unfold broughtBy oneAnswer
    split
    · next replied =>
        split at replied
        · cases replied
          exact List.length_filterMap_le _ _
        · cases replied
    · exact Nat.zero_le _
  have nothing : ∀ query : BootstrapQuery LabelName, query.client ≠ 0 →
      broughtBy oneAnswer query = [] := by
    intro query other
    simp only [broughtBy, oneAnswer, if_neg other]
  unfold bootstrapQueries
  rw [List.flatMap_assoc]
  cases clients with
  | zero => exact Nat.zero_le _
  | succ clients =>
      rw [List.range_succ_eq_map, List.flatMap_cons, List.flatMap_map]
      have others : ((List.range clients).flatMap fun client =>
          ([RecordType.A, .AAAA].filterMap fun qtype =>
            if fam.asks qtype then
              (makeQueryMsg host qtype).toOption.map fun msg =>
                BootstrapQuery.mk client.succ qtype msg
            else none).flatMap (broughtBy oneAnswer)) = [] := by
        simp only [List.flatMap_eq_nil_iff, List.mem_filterMap]
        rintro client _ query ⟨qtype, _, sent⟩
        apply nothing
        split at sent
        · obtain ⟨msg, _, rfl⟩ := Option.map_eq_some_iff.mp sent
          exact Nat.succ_ne_zero client
        · cases sent
      rw [others, List.append_nil, List.length_flatMap]
      apply (List.sum_le_card_nsmul _ 1 (by simpa using fun query _ => few query)).trans
      rw [List.length_map]
      exact (Nat.mul_one _).trans_le (List.length_filterMap_le _ _)

def oneAnswering : Bootstrap LabelName Unit where
  reply := oneAnswer
  arrival := id
  arrives := fun _ => .refl _
  fits clients host fam := (few_brought clients host fam).trans_lt (by decide)

theorem candidate_oneAnswer :
    Candidate noHosts oneAnswer 1 "dns.example".toList .Any (.v4 0xC0000207#32) := by
  have resolution : Hosts.resolveHostName noHosts.trie "dns.example".toList =
      .Network "dns.example".toList := by decide +kernel
  obtain ⟨msg, made⟩ : ∃ msg : Message LabelName, makeQueryMsg "dns.example".toList .A = .ok msg :=
    ⟨_, rfl⟩
  refine ⟨rfl, ?_⟩
  rw [resolution]
  exact ⟨0, Nat.one_pos, .A, msg, _, made, rfl, _, List.mem_cons_self, .A _⟩

/-- The domain is resolved by the server with an IP address. -/
theorem domain_resolved_by_first_server :
    ∃ (upstreams : Upstreams Unit) (served : UpstreamGroup (UpstreamClient Unit))
        (client : UpstreamClient Unit),
      init (fun _ => none) noHosts (Balance.init none) (fun _ => oneAnswering) [mainGroup] =
        .ok upstreams ∧
      upstreams.groups "main".toList = some served ∧ served.clients[1]? = some client ∧
      ⟨.v4 0xC0000207#32, 53⟩ ∈ client.pool.addresses := by
  obtain ⟨serves, _, fails⟩ := @init_spec Unit LabelName Unit _ (fun _ => none) noHosts
    (Balance.init none) [mainGroup] (by decide)
  obtain ⟨first, servers⟩ : ∃ client, allServers Unit (fun _ => none) [mainGroup] =
      [.Pool client, .NeedResolve "dns.example".toList 53 .udp none "udp".toList .Any] := ⟨_, rfl⟩
  cases started : (init (fun _ => none) noHosts (Balance.init none) (fun _ => oneAnswering)
      [mainGroup] : Except Text (Upstreams Unit)) with
  | error error =>
      obtain ⟨place, serverName, port, factory, rawPool, proto, fam, listed, noCandidate⟩ :=
        (fails fun _ => oneAnswering).mp ⟨error, started⟩
      rw [servers] at listed
      cases place with
      | zero => cases listed
      | succ place =>
          cases place with
          | zero => cases listed; exact absurd candidate_oneAnswer (noCandidate _)
          | succ place => cases listed
  | ok upstreams =>
      obtain ⟨served, found, _, _, length, each⟩ := serves _ _ started [] mainGroup [] rfl
      have within : 1 < served.clients.length := by
        rw [length]
        decide
      obtain ⟨_, _, _, _, _, addresses⟩ :=
        each 1 _ _ rfl (List.getElem?_eq_getElem within)
      refine ⟨upstreams, served, _, rfl, found, List.getElem?_eq_getElem within, ?_⟩
      exact (addresses _).mpr candidate_oneAnswer

end Rsdns.Upstream
