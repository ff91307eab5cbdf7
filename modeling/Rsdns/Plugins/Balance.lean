import Mathlib.Data.List.Sort
import Rsdns.Query

/-!
# Answer balancing (`plugins/balance.rs`)

The addresses of each family are sorted by the first configured range that
holds them.  Where this decides nothing a mode runs: none, a rotation from a
random offset, or a sort by connection latency.  The answer list is cut last.
-/

namespace Rsdns.Plugins

open Dns

/-- An address range; the length of its mask fits its family. -/
inductive Cidr where
  | V4 (net : Ipv4Addr) (prefixLen : Fin 33)
  | V6 (net : Ipv6Addr) (prefixLen : Fin 129)
  deriving DecidableEq

def prefixMask (width prefixLen : Nat) : BitVec width :=
  if prefixLen = 0 then 0 else BitVec.allOnes width <<< (width - prefixLen)

namespace Cidr

def parse (spec : Text) : Option Cidr := do
  let (addr, bits) ← Text.splitOnce '/' spec.trim
  let bits ← Text.parseUnsigned 256 bits
  match IpText.parseIpv4Addr addr with
  | some net => if short : bits < 33 then some (.V4 net ⟨bits, short⟩) else none
  | none =>
      match IpText.parseIpv6Addr addr with
      | some net => if short : bits < 129 then some (.V6 net ⟨bits, short⟩) else none
      | none => none

def contains (self : Cidr) (ip : IpAddr) : Bool :=
  match self, ip with
  | .V4 net prefixLen, .v4 ip => ip &&& prefixMask 32 prefixLen == net &&& prefixMask 32 prefixLen
  | .V6 net prefixLen, .v6 ip =>
      ip &&& prefixMask 128 prefixLen == net &&& prefixMask 128 prefixLen
  | _, _ => false

end Cidr

inductive BalanceMode where
  | None
  | RoundRobin
  | Speed
  deriving DecidableEq

def BalanceMode.parse (mode : Text) : BalanceMode :=
  let mode := Text.toAsciiLowercase mode.trim
  if mode = "round_robin".toList ∨ mode = "round-robin".toList then .RoundRobin
  else if mode = "speed".toList then .Speed
  else .None

structure BalanceConfig where
  mode : Text
  prefers : List Text
  maxAnswers : Option Nat
  deriving DecidableEq

structure Balance where
  enabled : Bool
  cidrs : List Cidr
  mode : BalanceMode
  maxAnswers : Option Nat
  deriving DecidableEq

/-- What the stage meets by chance, at each of its two passes: the offset drawn
and, for each address, the latency of its probe unless that failed. -/
structure Chance where
  offset : Nat → Nat
  latency : Nat → IpAddr → Option Nat

structure Families where
  a : Bool
  aaaa : Bool
  deriving DecidableEq

def Families.isEmpty (self : Families) : Bool := !self.a && !self.aaaa

def families : RecordType → Option Families
  | .A => some { a := true, aaaa := false }
  | .AAAA => some { a := false, aaaa := true }
  | .ANY => some { a := true, aaaa := true }
  | _ => none

variable {Name : Type}

def familyIp (isA : Bool) (record : Record Name) : Option IpAddr :=
  match record.data, isA with
  | .A ip, true => some (.v4 ip)
  | .AAAA ip, false => some (.v6 ip)
  | _, _ => none

/-- The slots of one family with their addresses, in answer order. -/
def collectFamily (answers : List (Record Name)) (isA : Bool) : List (Nat × IpAddr) :=
  answers.zipIdx.filterMap fun (record, index) =>
    (familyIp isA record).map fun ip => (index, ip)

/-- Slot `k` of the family receives the record of slot `order[k]`. -/
def permuteFamily (answers : List (Record Name)) (targets : List (Nat × IpAddr))
    (order : List Nat) : List (Record Name) :=
  if order = List.range order.length then answers
  else
    let records := order.filterMap fun k => targets[k]?.bind fun target => answers[target.1]?
    (targets.zip records).foldl (fun answers (target, record) => answers.set target.1 record)
      answers

def rotateFamily (answers : List (Record Name)) (targets : List (Nat × IpAddr)) (start : Nat) :
    List (Record Name) :=
  if start = 0 then answers
  else
    permuteFamily answers targets
      ((List.range targets.length).map fun k => (k + start) % targets.length)

/-- Answered probes before failed ones, then the faster one first. -/
def latencyLe (first second : Option Nat) : Bool :=
  match first, second with
  | some firstRtt, some secondRtt => firstRtt ≤ secondRtt
  | some _, none => true
  | none, some _ => false
  | none, none => true

def sortFamilyByLatency (answers : List (Record Name)) (targets : List (Nat × IpAddr))
    (latency : IpAddr → Option Nat) : List (Record Name) :=
  if targets.length < 2 then answers
  else
    let rtt := fun k => targets[k]?.bind fun target => latency target.2
    permuteFamily answers targets
      ((List.range targets.length).insertionSort fun a b => latencyLe (rtt a) (rtt b))

namespace Balance

def init : Option BalanceConfig → Balance
  | none => { enabled := false, cidrs := [], mode := .None, maxAnswers := none }
  | some cfg =>
      { enabled := true
        cidrs := cfg.prefers.filterMap Cidr.parse
        mode := BalanceMode.parse cfg.mode
        maxAnswers := cfg.maxAnswers }

def rank (self : Balance) (ip : IpAddr) : Option Nat :=
  self.cidrs.findIdx? fun cidr => cidr.contains ip

def rankIps (self : Balance) (ips : List IpAddr) : List IpAddr :=
  if !self.enabled || self.cidrs.isEmpty then ips
  else
    ips.insertionSort fun a b =>
      (self.rank a).getD (usizeBound - 1) ≤ (self.rank b).getD (usizeBound - 1)

def balanceFamily (self : Balance) (chance : Chance) (pass : Nat)
    (answers : List (Record Name)) (isA : Bool) : List (Record Name) :=
  let targets := collectFamily answers isA
  if targets.length < 2 then answers
  else
    let ranks := targets.map fun target => self.rank target.2
    if self.cidrs ≠ [] ∧ ¬ ranks.all (· == ranks.head?.join) then
      let place := fun k => (ranks[k]?.join).getD self.cidrs.length
      permuteFamily answers targets
        ((List.range targets.length).insertionSort fun a b => place a ≤ place b)
    else
      match self.mode with
      | .None => answers
      | .RoundRobin =>
          rotateFamily answers targets (chance.offset pass % targets.length)
      | .Speed => sortFamilyByLatency answers targets (chance.latency pass)

/-- The cut; `0` is no limit. -/
def truncate (self : Balance) (answers : List (Record Name)) : List (Record Name) :=
  match self.maxAnswers with
  | some max => if max > 0 ∧ answers.length > max then answers.take max else answers
  | none => answers

def balanceAnswers (self : Balance) (chance : Chance) (families : Families)
    (answers : List (Record Name)) : List (Record Name) :=
  let balanced :=
    if families.isEmpty then answers
    else
      self.balanceFamily chance 1 (self.balanceFamily chance 0 answers families.a) families.aaaa
  self.truncate balanced

def handle (self : Balance) (chance : Chance) (ctx : QueryContext Name) :
    Step × QueryContext Name :=
  if !self.enabled || ctx.skipBalance then (.continue, ctx)
  else
    match families ctx.qtype with
    | none => (.continue, ctx)
    | some families =>
        (.continue,
          { ctx with
            response := ctx.response.map fun response =>
              { response with answers := self.balanceAnswers chance families response.answers } })

end Balance

end Rsdns.Plugins
