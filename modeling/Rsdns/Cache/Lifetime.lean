import Mathlib.Tactic.Ring
import Rsdns.Cache.Rebuild
import Rsdns.Dns.LabelName

/-!
# The lifetime of an entry

An entry lives for its TTL, clamped between two bounds; a response built from it
carries what is left of its own TTL.  The two agree where the clamp does
nothing, and the clamp is defined where the bounds are in order.
-/

namespace Rsdns.Plugins

open Dns

variable {Name : Type}

/-! ### The clamp -/

theorem Duration.clamp_eq_none_iff {duration low high : Nat} :
    Duration.clamp duration low high = none ↔ high < low := by
  simp [Duration.clamp]

theorem TtlExpiry.durationFor_eq_none_iff {expiry : TtlExpiry} {entry : CacheEntry Name} :
    expiry.durationFor entry = none ↔
      expiry.keepTtl = false ∧ expiry.maxTtl < expiry.minTtl := by
  unfold TtlExpiry.durationFor
  cases expiry.keepTtl with
  | true => simp
  | false => simp [Duration.clamp_eq_none_iff]

theorem Duration.fromSecs_lt_fromSecs_iff {first second : Nat} :
    Duration.fromSecs first < Duration.fromSecs second ↔ first < second :=
  Nat.mul_lt_mul_right (by decide)

/-- A configuration is safe exactly if it keeps the TTLs or its two bounds, each
with its default, are in order. -/
theorem init_durationFor_isSome_iff (cfg : CacheConfig) :
    (∀ entry : CacheEntry Name,
        ((Cache.init cfg : Cache Name).cache.expiry.durationFor entry).isSome) ↔
      cfg.keepTtl.getD false = true ∨ cfg.minTtl.getD 60 ≤ cfg.maxTtl.getD 3600 := by
  have aborts : ∀ entry : CacheEntry Name,
      (Cache.init cfg : Cache Name).cache.expiry.durationFor entry = none ↔
        cfg.keepTtl.getD false = false ∧ cfg.maxTtl.getD 3600 < cfg.minTtl.getD 60 := by
    intro entry
    rw [TtlExpiry.durationFor_eq_none_iff]
    exact and_congr Iff.rfl Duration.fromSecs_lt_fromSecs_iff
  constructor
  · intro safe
    have defined := safe { records := [], createdAt := 0, ttl := 0 }
    rw [Option.isSome_iff_ne_none, ne_eq, aborts] at defined
    cases kept : cfg.keepTtl.getD false with
    | true => exact .inl rfl
    | false => exact .inr (UInt32.not_lt.mp fun reversed => defined ⟨kept, reversed⟩)
  · intro condition entry
    rw [Option.isSome_iff_ne_none, ne_eq, aborts]
    rintro ⟨notKept, reversed⟩
    cases condition with
    | inl kept => exact absurd (kept.symm.trans notKept) (by decide)
    | inr ordered => exact UInt32.not_lt.mpr ordered reversed

/-- A lower bound of two hours and no upper bound: the first write aborts. -/
theorem init_minTtl_alone_aborts :
    ¬ ∀ (cfg : CacheConfig) (entry : CacheEntry LabelName),
      ((Cache.init cfg : Cache LabelName).cache.expiry.durationFor entry).isSome := by
  intro safe
  have defined := safe
    { size := none, minTtl := some 7200, maxTtl := none, keepTtl := none, skipBalance := none }
    { records := [.NoData], createdAt := 0, ttl := 300 }
  exact absurd defined (by decide)

/-! ### What a hit serves -/

/-- What is left of two spans of whole seconds shows the same number of seconds
exactly if they are equal, or if the longer one has less than a second left. -/
theorem remaining_div_eq_iff {ttl lifetime elapsed second : Nat} (positive : 0 < second)
    (live : elapsed < lifetime * second) :
    (ttl * second - elapsed) / second = (lifetime * second - elapsed) / second ↔
      ttl = lifetime ∨ (ttl < lifetime ∧ lifetime * second - elapsed < second) := by
  rcases Nat.lt_trichotomy ttl lifetime with shorter | same | longer
  · obtain ⟨rest, rfl⟩ := Nat.exists_eq_add_of_lt shorter
    have split : (ttl + rest + 1) * second = ttl * second + rest * second + second := by ring
    by_cases last : (ttl + rest + 1) * second - elapsed < second
    · have short : ttl * second - elapsed < second := by omega
      rw [Nat.div_eq_of_lt last, Nat.div_eq_of_lt short]
      exact ⟨fun _ => .inr ⟨shorter, last⟩, fun _ => rfl⟩
    · have whole : (ttl * second - elapsed) / second + 1 ≤
          ((ttl + rest + 1) * second - elapsed) / second := by
        rw [← Nat.add_div_right _ positive]
        apply Nat.div_le_div_right
        omega
      constructor
      · intro equal
        omega
      · rintro (equal | ⟨_, last'⟩)
        · omega
        · exact absurd last' last
  · subst same
    exact ⟨fun _ => .inl rfl, fun _ => rfl⟩
  · obtain ⟨rest, rfl⟩ := Nat.exists_eq_add_of_lt longer
    have split : (lifetime + rest + 1) * second - elapsed =
        (lifetime * second - elapsed) + (rest + 1) * second := by
      rw [Nat.add_assoc, Nat.add_mul]
      omega
    rw [split, Nat.add_mul_div_right _ _ positive]
    constructor
    · intro equal
      omega
    · rintro (equal | ⟨less, _⟩) <;> omega

theorem remainingTtl_toNat {entry : CacheEntry Name} {now : Nat}
    (later : entry.createdAt ≤ now) :
    (entry.remainingTtl false now).toNat =
      Duration.asSecs (Duration.fromSecs entry.ttl.toNat - (now - entry.createdAt)) := by
  have bounded := entry.ttl.toNat_lt
  rw [CacheEntry.remainingTtl, if_neg Bool.false_ne_true]
  by_cases expired : now ≥ entry.createdAt + Duration.fromSecs entry.ttl.toNat
  · have nothing : Duration.fromSecs entry.ttl.toNat - (now - entry.createdAt) = 0 := by omega
    rw [if_pos expired, nothing]
    rfl
  · have same : entry.createdAt + Duration.fromSecs entry.ttl.toNat - now =
        Duration.fromSecs entry.ttl.toNat - (now - entry.createdAt) := by omega
    rw [if_neg expired, same, UInt32.toNat_ofNat_of_lt']
    apply Nat.lt_of_le_of_lt _ bounded
    calc Duration.asSecs (Duration.fromSecs entry.ttl.toNat - (now - entry.createdAt))
        ≤ Duration.fromSecs entry.ttl.toNat / Duration.second :=
          Nat.div_le_div_right (Nat.sub_le _ _)
      _ = entry.ttl.toNat := Nat.mul_div_cancel _ (by decide)

/-- The seconds an entry lives: its TTL between the two bounds. -/
def lifetimeSecs (minTtl maxTtl ttl : UInt32) : Nat :=
  max minTtl.toNat (min ttl.toNat maxTtl.toNat)

theorem durationFor_eq_fromSecs {minTtl maxTtl : UInt32} (ordered : minTtl ≤ maxTtl)
    (entry : CacheEntry Name) :
    TtlExpiry.durationFor
        { minTtl := Duration.fromSecs minTtl.toNat
          maxTtl := Duration.fromSecs maxTtl.toNat
          keepTtl := false } entry =
      some (Duration.fromSecs (lifetimeSecs minTtl maxTtl entry.ttl)) := by
  have inOrder : Duration.fromSecs minTtl.toNat ≤ Duration.fromSecs maxTtl.toNat :=
    Nat.mul_le_mul_right _ (UInt32.le_iff_toNat_le.mp ordered)
  rw [TtlExpiry.durationFor, if_neg Bool.false_ne_true, Duration.clamp, if_pos inOrder]
  simp only [Duration.fromSecs, lifetimeSecs, Nat.mul_max_mul_right, Nat.mul_min_mul_right]

theorem ttl_eq_lifetimeSecs_iff {minTtl maxTtl ttl : UInt32} (ordered : minTtl ≤ maxTtl) :
    ttl.toNat = lifetimeSecs minTtl maxTtl ttl ↔ minTtl ≤ ttl ∧ ttl ≤ maxTtl := by
  rw [UInt32.le_iff_toNat_le] at ordered
  rw [UInt32.le_iff_toNat_le, UInt32.le_iff_toNat_le, lifetimeSecs]
  omega

theorem ttl_lt_lifetimeSecs_iff {minTtl maxTtl ttl : UInt32} :
    ttl.toNat < lifetimeSecs minTtl maxTtl ttl ↔ ttl < minTtl := by
  rw [UInt32.lt_iff_toNat_lt, lifetimeSecs]
  omega

theorem lifetimeSecs_of_lt {minTtl maxTtl ttl : UInt32} (below : ttl < minTtl) :
    lifetimeSecs minTtl maxTtl ttl = minTtl.toNat := by
  rw [UInt32.lt_iff_toNat_lt] at below
  rw [lifetimeSecs]
  omega

/-- The TTL served is the lifetime left: the same number of seconds, no more than
the upper bound and zero only in the last second. -/
def ServesLifetime (maxTtl served : UInt32) (left : Nat) : Prop :=
  served.toNat = Duration.asSecs left ∧ served ≤ maxTtl ∧
    (1 ≤ Duration.asSecs left → served ≠ 0)

theorem servesLifetime_iff {minTtl maxTtl ttl served : UInt32} {elapsed : Nat}
    (ordered : minTtl ≤ maxTtl) :
    ServesLifetime maxTtl served
        (Duration.fromSecs (lifetimeSecs minTtl maxTtl ttl) - elapsed) ↔
      served.toNat =
        Duration.asSecs (Duration.fromSecs (lifetimeSecs minTtl maxTtl ttl) - elapsed) := by
  refine ⟨And.left, fun same => ⟨same, ?_, ?_⟩⟩
  · have atMost : lifetimeSecs minTtl maxTtl ttl ≤ maxTtl.toNat :=
      max_le (UInt32.le_iff_toNat_le.mp ordered) (min_le_right _ _)
    rw [UInt32.le_iff_toNat_le, same]
    calc Duration.asSecs (Duration.fromSecs (lifetimeSecs minTtl maxTtl ttl) - elapsed)
        ≤ Duration.fromSecs (lifetimeSecs minTtl maxTtl ttl) / Duration.second :=
          Nat.div_le_div_right (Nat.sub_le _ _)
      _ = lifetimeSecs minTtl maxTtl ttl := Nat.mul_div_cancel _ (by decide)
      _ ≤ maxTtl.toNat := atMost
  · intro aSecond isZero
    rw [← same, isZero] at aSecond
    exact absurd aSecond (by decide)

/-- The TTL left of an entry that is still live is the lifetime left exactly if its TTL is
between the bounds, or below them while the last second is running. -/
theorem remainingTtl_servesLifetime_iff {minTtl maxTtl : UInt32} {entry : CacheEntry Name}
    {now : Nat} (ordered : minTtl ≤ maxTtl) (later : entry.createdAt ≤ now)
    (elapsed : now - entry.createdAt < lifetimeSecs minTtl maxTtl entry.ttl * Duration.second) :
    ServesLifetime maxTtl (entry.remainingTtl false now)
        (Duration.fromSecs (lifetimeSecs minTtl maxTtl entry.ttl) - (now - entry.createdAt)) ↔
      (minTtl ≤ entry.ttl ∧ entry.ttl ≤ maxTtl) ∨
      (entry.ttl < minTtl ∧
        Duration.fromSecs minTtl.toNat - (now - entry.createdAt) < Duration.second) := by
  rw [servesLifetime_iff ordered, remainingTtl_toNat later]
  refine (remaining_div_eq_iff (by decide) elapsed).trans (or_congr ?_ ?_)
  · exact ttl_eq_lifetimeSecs_iff ordered
  · rw [ttl_lt_lifetimeSecs_iff]
    refine and_congr_right fun below => ?_
    rw [lifetimeSecs_of_lt below]
    rfl

variable [NameApi Name]

/-- A hit serves the lifetime left exactly if the entry has no records to serve, its
TTL is between the bounds, or it is below them and the last second is running. -/
theorem hit_servesLifetime_iff {cache cache' : DnsCache Name} {minTtl maxTtl ttl : UInt32}
    {stored now : Nat} {key : CacheKey} {records : List (CacheRecord Name)}
    {entry : CacheEntry Name} {msg rebuilt : Message Name}
    (policy : cache.expiry =
      { minTtl := Duration.fromSecs minTtl.toNat
        maxTtl := Duration.fromSecs maxTtl.toNat
        keepTtl := false })
    (ordered : minTtl ≤ maxTtl)
    (put : cache.put stored key records ttl = some cache')
    (later : stored ≤ now)
    (found : cache'.getCached now key = .fresh entry)
    (built : buildResponseFromCache msg entry cache'.keepTtl now = .ok rebuilt) :
    (∀ answer ∈ rebuilt.answers,
        ServesLifetime maxTtl answer.ttl
          (Duration.fromSecs (lifetimeSecs minTtl maxTtl ttl) - (now - stored))) ↔
      (∀ record ∈ records, record.IsNegative) ∨
      (minTtl ≤ ttl ∧ ttl ≤ maxTtl) ∨
      (ttl < minTtl ∧ Duration.fromSecs minTtl.toNat - (now - stored) < Duration.second) := by
  obtain ⟨rfl, lifetime, defined, live⟩ := DnsCache.entry_of_put put found
  rw [policy, durationFor_eq_fromSecs ordered, Option.some.injEq] at defined
  subst defined
  have notKept : cache'.keepTtl = false := by
    rw [DnsCache.keepTtl, DnsCache.expiry_of_put put, policy]
  obtain ⟨query, answers, _, answersBuilt, rfl⟩ := buildResponseFromCache_eq_ok_iff.mp built
  rw [notKept] at answersBuilt
  have elapsed : now - stored <
      lifetimeSecs minTtl maxTtl ttl * Duration.second := by
    simp only [Duration.fromSecs] at live
    omega
  have served : ∀ answer ∈ answers,
      (ServesLifetime maxTtl answer.ttl
          (Duration.fromSecs (lifetimeSecs minTtl maxTtl ttl) - (now - stored)) ↔
        (minTtl ≤ ttl ∧ ttl ≤ maxTtl) ∨
        (ttl < minTtl ∧ Duration.fromSecs minTtl.toNat - (now - stored) < Duration.second)) := by
    intro answer member
    rw [rebuildAnswers_eq_fromRdata answersBuilt answer member]
    exact remainingTtl_servesLifetime_iff ordered later elapsed
  cases answers with
  | nil =>
      have negative := (rebuildAnswers_eq_nil_iff answersBuilt).mp rfl
      exact ⟨fun _ => .inl negative, fun _ answer member => absurd member List.not_mem_nil⟩
  | cons answer rest =>
      have positive : ¬ ∀ record ∈ records, record.IsNegative := fun negative =>
        absurd ((rebuildAnswers_eq_nil_iff answersBuilt).mpr negative) (List.cons_ne_nil _ _)
      rw [or_iff_right positive]
      constructor
      · intro all
        exact (served answer List.mem_cons_self).mp (all answer List.mem_cons_self)
      · intro condition other member
        exact (served other member).mpr condition

/-- A TTL of 100 seconds between bounds of a minute and an hour, after 20 seconds. -/
theorem hit_servesLifetime_in_window :
    ∃ (cache : DnsCache LabelName) (entry : CacheEntry LabelName) (rebuilt : Message LabelName),
      cache.getCached (20 * Duration.second) { name := "a".toList, qtype := .A } =
        .fresh entry ∧
      buildResponseFromCache (LabelName.ask ⟨["a".toList], true⟩ .A) entry cache.keepTtl
        (20 * Duration.second) = .ok rebuilt ∧
      ∀ answer ∈ rebuilt.answers,
        ServesLifetime 3600 answer.ttl
          (Duration.fromSecs (lifetimeSecs 60 3600 100) - (20 * Duration.second - 0)) := by
  let empty : DnsCache LabelName := .newMetric 4096 60 3600 false
  let question := LabelName.ask ⟨["a".toList], true⟩ .A
  let key : CacheKey := { name := "a".toList, qtype := .A }
  have inWindow : (60 : UInt32) ≤ 100 ∧ (100 : UInt32) ≤ 3600 := by decide
  let cache := { empty with
    inner := empty.inner.insert 0 key { records := [.A 1], createdAt := 0, ttl := 100 }
      (100 * Duration.second) }
  have found : cache.getCached (20 * Duration.second) key =
      .fresh { records := [.A 1], createdAt := 0, ttl := 100 } := rfl
  obtain ⟨rebuilt, built⟩ : ∃ rebuilt, buildResponseFromCache question
      { records := [.A 1], createdAt := 0, ttl := 100 } cache.keepTtl (20 * Duration.second) =
        .ok rebuilt := ⟨_, rfl⟩
  have policy : empty.expiry =
      { minTtl := Duration.fromSecs (60 : UInt32).toNat
        maxTtl := Duration.fromSecs (3600 : UInt32).toNat
        keepTtl := false } := rfl
  have lifetime : empty.expiry.durationFor
      ({ records := [.A 1], createdAt := 0, ttl := 100 } : CacheEntry LabelName) =
        some (100 * Duration.second) := by decide
  have put : empty.put 0 key [.A 1] 100 = some cache := by
    rw [DnsCache.put, lifetime]
    rfl
  have served := (hit_servesLifetime_iff policy (by decide) put (by decide) found built).mpr
    (.inr (.inl inWindow))
  exact ⟨_, { records := [.A 1], createdAt := 0, ttl := 100 }, _, found, built, served⟩

/-- A TTL of two hours is served in full, though the entry lives for one. -/
theorem hit_above_window_serves_too_much :
    ∃ (cache cache' : DnsCache LabelName) (entry : CacheEntry LabelName)
        (rebuilt : Message LabelName),
      cache = .newMetric 4096 60 3600 false ∧
      cache.put 0 { name := "a".toList, qtype := .A } [.A 1] 7200 = some cache' ∧
      cache'.getCached 0 { name := "a".toList, qtype := .A } = .fresh entry ∧
      buildResponseFromCache (LabelName.ask ⟨["a".toList], true⟩ .A) entry cache'.keepTtl 0 =
        .ok rebuilt ∧
      ¬ ∀ answer ∈ rebuilt.answers,
        ServesLifetime 3600 answer.ttl
          (Duration.fromSecs (lifetimeSecs 60 3600 7200) - (0 - 0)) := by
  refine ⟨_, _, _, _, rfl, rfl, rfl, rfl, fun all => ?_⟩
  have served := (all _ List.mem_cons_self).1
  exact absurd served (by decide)

end Rsdns.Plugins
