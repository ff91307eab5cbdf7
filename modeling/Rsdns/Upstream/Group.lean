import Rsdns.Library.Text

/-!
# Upstream groups (`upstream/mod.rs`)

A group asks its clients in an order that its mode gives, or all of them at once.
Clients that failed too often are left out until they have cooled down.  What the
clients answer and when, the order drawn by chance and the order in which parallel
queries complete come from outside.
-/

namespace Rsdns.Upstream

inductive QueryModeConfig where
  | Serial
  | Random
  | RoundRobin
  | Parallel
  deriving DecidableEq

/-- Durations in nanoseconds. -/
structure CooldownConfig where
  window : Nat
  threshold : UInt32
  cooldown : Nat
  deriving DecidableEq

structure Breaker where
  errors : List Nat
  coolUntil : Option Nat
  deriving DecidableEq

namespace Breaker

def new : Breaker where
  errors := []
  coolUntil := none

def inCooldown (self : Breaker) (now : Nat) : Bool :=
  self.coolUntil.any fun until_ => until_ > now

/-- Errors outside the window are dropped, the new one is added; the length is compared
in 32 bits.  A sum past the last instant of the clock is a panic. -/
def recordFailure (last : Nat) (self : Breaker) (cfg : CooldownConfig) (now : Nat) :
    Option Breaker :=
  let errors := self.errors.dropWhile (fun t => now - t > cfg.window) ++ [now]
  if errors.length % 2 ^ 32 ≥ cfg.threshold.toNat then
    if now + cfg.cooldown ≤ last then
      some { errors := errors, coolUntil := some (now + cfg.cooldown) }
    else none
  else some { self with errors := errors }

def recordSuccess (self : Breaker) : Breaker := { self with errors := [] }

end Breaker

/-- Every client has its breaker. -/
structure UpstreamGroup (Client : Type) where
  clients : List Client
  bounded : clients.length < usizeBound
  mode : QueryModeConfig
  cooldown : Option CooldownConfig
  rrCursor : Nat
  breaker : List Breaker
  paired : breaker.length = clients.length

/-- What a query meets: the time at which it starts and the last that the clock can tell,
what each client answers and when, the order drawn and the order in which queries sent
together complete. -/
structure Meeting (Response Error : Type) where
  now : Nat
  last : Nat
  reply : Nat → Except Error Response
  completed : Nat → Nat
  shuffle : List Nat → List Nat
  shuffles : ∀ order, (shuffle order).Perm order
  completion : List Nat → List Nat
  completes : ∀ sent, (completion sent).Perm sent

inductive GroupError (Error : Type) where
  | client (error : Error)
  | allCooling
  | noUpstreams
  deriving DecidableEq

/-- The end of a query.  `contacted` is not part of the code: it records the clients
that were asked. -/
structure Outcome (Client Response Error : Type) where
  result : Except (GroupError Error) Response
  group : UpstreamGroup Client
  contacted : List Nat

variable {Client Response Error : Type}

namespace UpstreamGroup

def withCooldown (clients : List Client) (bounded : clients.length < usizeBound)
    (mode : QueryModeConfig) (cooldown : Option CooldownConfig) : UpstreamGroup Client where
  clients := clients
  bounded := bounded
  mode := mode
  cooldown := cooldown
  rrCursor := 0
  breaker := List.replicate clients.length .new
  paired := List.length_replicate

def setBreaker (self : UpstreamGroup Client) (idx : Nat) (breaker : Breaker) :
    UpstreamGroup Client :=
  { self with
    breaker := self.breaker.set idx breaker
    paired := by rw [List.length_set, self.paired] }

def recordFailure (last : Nat) (self : UpstreamGroup Client) (idx now : Nat) :
    Option (UpstreamGroup Client) :=
  match self.cooldown, self.breaker[idx]? with
  | some cfg, some breaker => (breaker.recordFailure last cfg now).map (self.setBreaker idx)
  | _, _ => some self

def recordSuccess (self : UpstreamGroup Client) (idx : Nat) : UpstreamGroup Client :=
  match self.cooldown, self.breaker[idx]? with
  | some _, some breaker => self.setBreaker idx breaker.recordSuccess
  | _, _ => self

/-- A client that is not left out. -/
def eligible (self : UpstreamGroup Client) (now : Nat) (idx : Nat) : Bool :=
  match self.breaker[idx]? with
  | none => false
  | some breaker => !(self.cooldown.isSome && breaker.inCooldown now)

def serialOrder (self : UpstreamGroup Client) : List Nat := List.range self.clients.length

def randomOrder (self : UpstreamGroup Client) (world : Meeting Response Error) : List Nat :=
  world.shuffle (List.range self.clients.length)

/-- The order from the cursor on, and the group with the cursor moved. -/
def roundRobinOrder (self : UpstreamGroup Client) : List Nat × UpstreamGroup Client :=
  let n := self.clients.length
  if n = 0 then ([], self)
  else
    let start := self.rrCursor % n
    ((List.range n).map fun i => (start + i) % n,
      { self with rrCursor := (self.rrCursor + 1) % usizeBound })

/-- Ask one client after the other; a client whose breaker is open is passed over.  After a
panic there is no outcome. -/
def queryOrdered (world : Meeting Response Error) :
    List Nat → UpstreamGroup Client → Option Error → Bool →
      Option (Outcome Client Response Error)
  | [], self, firstErr, triedAny =>
      some {
        result :=
          if !triedAny then .error .allCooling
          else .error (firstErr.elim .noUpstreams .client)
        group := self
        contacted := [] }
  | idx :: order, self, firstErr, triedAny =>
      if self.eligible world.now idx then
        match world.reply idx with
        | .ok response =>
            some { result := .ok response, group := self.recordSuccess idx, contacted := [idx] }
        | .error e => do
            let self ← self.recordFailure world.last idx (world.completed idx)
            let rest ← queryOrdered world order self (firstErr.or (some e)) true
            return { rest with contacted := idx :: rest.contacted }
      else queryOrdered world order self firstErr triedAny

/-- Take the answers as they complete. -/
def awaitFirst (world : Meeting Response Error) :
    List Nat → UpstreamGroup Client → Option Error →
      Option (Except (GroupError Error) Response × UpstreamGroup Client)
  | [], self, firstErr => some (.error (firstErr.elim .noUpstreams .client), self)
  | idx :: completed, self, firstErr =>
      match world.reply idx with
      | .ok response => some (.ok response, self.recordSuccess idx)
      | .error e => do
          let self ← self.recordFailure world.last idx (world.completed idx)
          awaitFirst world completed self (firstErr.or (some e))

def queryParallel (self : UpstreamGroup Client) (world : Meeting Response Error) :
    Option (Outcome Client Response Error) :=
  let indices := (List.range self.clients.length).filter (self.eligible world.now)
  if indices = [] then some { result := .error .allCooling, group := self, contacted := [] }
  else do
    let (result, group) ← awaitFirst world (world.completion indices) self none
    return { result := result, group := group, contacted := indices }

def query (self : UpstreamGroup Client) (world : Meeting Response Error) :
    Option (Outcome Client Response Error) :=
  match self.mode with
  | .Serial => queryOrdered world self.serialOrder self none false
  | .Random => queryOrdered world (self.randomOrder world) self none false
  | .RoundRobin =>
      let (order, self) := self.roundRobinOrder
      queryOrdered world order self none false
  | .Parallel => self.queryParallel world

end UpstreamGroup

end Rsdns.Upstream
