import Rsdns.Upstream.Group
import Rsdns.Upstream.Pool

/-!
# The upstream section of the configuration (`upstream/config.rs`)

What the YAML reader gives, with a group's cooldown and a server's address still in
text.  Missing fields take their defaults when the pool is built.
-/

namespace Rsdns.Upstream

open Dns Plugins

inductive PreferFamily where
  | Any
  | Ipv4
  | Ipv6
  deriving DecidableEq

structure RawPoolConfig where
  idleTimeout : Option UInt16
  connectTimeout : Option UInt16
  dnsTimeout : Option UInt16
  preferFamily : Option Text
  deriving DecidableEq

def optDur (secs : Option UInt16) (default : Nat) : Nat :=
  (secs.map fun secs => Duration.fromSecs secs.toNat).getD default

namespace RawPoolConfig

def default : RawPoolConfig where
  idleTimeout := none
  connectTimeout := none
  dnsTimeout := none
  preferFamily := none

def intoPoolConfig (self : RawPoolConfig) : PoolConfig where
  idleTimeout := optDur self.idleTimeout PoolConfig.default.idleTimeout
  connectTimeout := optDur self.connectTimeout PoolConfig.default.connectTimeout
  dnsTimeout := optDur self.dnsTimeout PoolConfig.default.dnsTimeout

def family (self : RawPoolConfig) : PreferFamily :=
  if self.preferFamily = some "ipv4".toList then .Ipv4
  else if self.preferFamily = some "ipv6".toList then .Ipv6
  else .Any

end RawPoolConfig

structure ServerConfig where
  address : Text
  serverName : Option Text
  pool : Option RawPoolConfig
  deriving DecidableEq

/-- A vector is never as long as a machine word counts. -/
structure UpstreamGroupConfig where
  name : Text
  mode : QueryModeConfig
  cooldown : Option Text
  servers : List ServerConfig
  bounded : servers.length < usizeBound

/-! ### Cooldowns -/

/-- What is wrong with a cooldown; the text of the message is left out. -/
inductive CooldownError where
  | parts
  | window
  | errorsNumber
  | errorsZero
  | cooldown
  deriving DecidableEq

/-- A whole number of seconds, minutes or hours, not zero; it saturates in 64 bits. -/
def parseDuration (text : Text) : Option Nat :=
  let (num, mult) :=
    match Text.stripSuffix "h".toList text with
    | some num => (num, 3600)
    | none =>
        match Text.stripSuffix "m".toList text with
        | some num => (num, 60)
        | none =>
            match Text.stripSuffix "s".toList text with
            | some num => (num, 1)
            | none => (text, 1)
  match Text.parseUnsigned (2 ^ 64) num with
  | none => none
  | some n => if n = 0 then none else some (Duration.fromSecs (min (n * mult) (2 ^ 64 - 1)))

/-- `<window>:<errors>:<cooldown>`; the empty text is no cooldown. -/
def parseCooldown (spec : Text) : Except CooldownError (Option CooldownConfig) :=
  if spec.trim = [] then .ok none
  else
    match (spec.trim.splitOn ':').map Text.trim with
    | [window, errors, cooldown] =>
        match parseDuration window with
        | none => .error .window
        | some window =>
            match Text.parseUnsigned (2 ^ 32) errors with
            | none => .error .errorsNumber
            | some threshold =>
                if threshold = 0 then .error .errorsZero
                else
                  match parseDuration cooldown with
                  | none => .error .cooldown
                  | some cooldown =>
                      .ok (some
                        { window := window
                          threshold := UInt32.ofNat threshold
                          cooldown := cooldown })
    | _ => .error .parts

/-- The cooldown of a group; a malformed one counts as none. -/
def UpstreamGroupConfig.cooldownConfig (self : UpstreamGroupConfig) : Option CooldownConfig :=
  match self.cooldown with
  | none => none
  | some spec =>
      match parseCooldown spec with
      | .ok cooldown => cooldown
      | .error _ => none

example : parseCooldown "1m:10:10s".toList = .ok (some
    { window := Duration.fromSecs 60, threshold := 10, cooldown := Duration.fromSecs 10 }) := by
  decide

end Rsdns.Upstream
