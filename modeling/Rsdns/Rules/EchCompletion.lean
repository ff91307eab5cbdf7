import Rsdns.Dns.LabelName
import Rsdns.Plugins.Rules

/-!
# ECH completion

A template comes from the private cache, which is searched for records with an ECH
configuration only.  A record made of a template is therefore no candidate, and one pass
over the answers completes all of them.
-/

namespace Rsdns.Plugins

open Dns

variable {Name : Type}

/-! ### Templates -/

/-- `fetch_ech_template` with what other queries make of the private cache, first while the
upstream is asked and then while its answer is written. -/
def fetchEchTemplateAmong [NameApi Name] (others : Bool → DnsCache Name → DnsCache Name)
    (upstream : Text → Message Name → Option (Message Name)) (asked answered again : Nat)
    (cache : DnsCache Name) (group domain : Text) :
    Option (Option (Svcb Name) × DnsCache Name) :=
  let key : CacheKey := { name := domain, qtype := .HTTPS }
  match cache.getCached asked key with
  | .fresh entry => some (firstEchSvcbFromCache entry.records, cache)
  | .miss =>
      match makeQueryMsg domain .HTTPS with
      | .error _ => some (none, cache)
      | .ok templateMsg =>
          match upstream group templateMsg with
          | none => some (none, others false cache)
          | some resp =>
              (cacheUpstreamResponse (others false cache) answered key resp none).map fun cache =>
                let cache := others true cache
                match cache.getCached again key with
                | .fresh entry => (firstEchSvcbFromCache entry.records, cache)
                | .miss => (none, cache)

theorem fetchEchTemplateAmong_alone [NameApi Name]
    (upstream : Text → Message Name → Option (Message Name)) (asked answered : Nat)
    (cache : DnsCache Name) (group domain : Text) :
    fetchEchTemplateAmong (fun _ cache => cache) upstream asked answered answered cache group
        domain =
      fetchEchTemplate upstream asked answered cache group domain := rfl

theorem svcbHasEch_of_firstEchSvcbFromCache {records : List (CacheRecord Name)}
    {template : Svcb Name} (found : firstEchSvcbFromCache records = some template) :
    svcbHasEch template = true := by
  obtain ⟨record, _, taken⟩ := List.exists_of_findSome?_eq_some found
  cases record with
  | Https svcb =>
      obtain ⟨hasEch, same⟩ := Option.ite_none_right_eq_some.mp taken
      cases same
      exact hasEch
  | A | Aaaa | Cname | Mx | Txt | NxDomain | NoData => cases taken

theorem svcbHasEch_of_fetchEchTemplateAmong [NameApi Name]
    {others : Bool → DnsCache Name → DnsCache Name}
    {upstream : Text → Message Name → Option (Message Name)} {asked answered again : Nat}
    {cache later : DnsCache Name} {group domain : Text} {template : Svcb Name}
    (fetched : fetchEchTemplateAmong others upstream asked answered again cache group domain =
      some (some template, later)) : svcbHasEch template = true := by
  unfold fetchEchTemplateAmong at fetched
  dsimp only at fetched
  split at fetched
  · next entry _ =>
      obtain ⟨found, _⟩ := Prod.mk.inj (Option.some.inj fetched)
      exact svcbHasEch_of_firstEchSvcbFromCache found
  · split at fetched
    · cases fetched
    · split at fetched
      · cases fetched
      · obtain ⟨written, _, reread⟩ := Option.map_eq_some_iff.mp fetched
        split at reread
        · next entry _ => exact svcbHasEch_of_firstEchSvcbFromCache (Prod.mk.inj reread).1
        · cases reread

/-! ### Candidates -/

/-- A record with an ECH configuration is left alone, wherever its hints point. -/
theorem recordUsesCf_of_svcbHasEch {svcb : Svcb Name} (hasEch : svcbHasEch svcb = true)
    (owner : Name) (ttl : UInt32) :
    recordUsesCf (Record.fromRdata owner ttl (.HTTPS svcb)) = false := by
  simp [recordUsesCf, Record.fromRdata, hasEch]

theorem recordUsesCf_of_mem_cfEchReplacementHttps {template : Svcb Name}
    (hasEch : svcbHasEch template = true) {queryName : Name} {records : List (Record Name)} :
    ∀ record ∈ cfEchReplacementHttps records template queryName, recordUsesCf record = false := by
  intro record member
  obtain ⟨original, _, rfl⟩ := List.mem_map.mp member
  by_cases candidate : recordUsesCf original = true
  · rw [if_pos candidate]
    exact recordUsesCf_of_svcbHasEch hasEch queryName original.ttl
  · rw [if_neg candidate]
    exact Bool.eq_false_iff.mpr candidate

theorem cfEchReplacementHttps_eq_self {records : List (Record Name)}
    (settled : ∀ record ∈ records, recordUsesCf record = false) (template : Svcb Name)
    (queryName : Name) : cfEchReplacementHttps records template queryName = records := by
  unfold cfEchReplacementHttps
  conv_rhs => rw [← List.map_id records]
  apply List.map_congr_left
  intro record member
  rw [settled record member]
  rfl

theorem getElem?_cfEchReplacementHttps {records : List (Record Name)} {index : Nat}
    {record : Record Name} (found : records[index]? = some record) (template : Svcb Name)
    (queryName : Name) :
    (cfEchReplacementHttps records template queryName)[index]? =
      some (if recordUsesCf record then Record.fromRdata queryName record.ttl (.HTTPS template)
        else record) := by
  rw [cfEchReplacementHttps, List.getElem?_map, found]
  rfl

/-! ### Completion -/

/-- With a template that can be fetched every candidate is replaced where it stands and with
its TTL, nothing else changes, and nothing is left to replace, by whatever template. -/
theorem ech_completion_complete [NameApi Name] (others : Bool → DnsCache Name → DnsCache Name)
    (upstream : Text → Message Name → Option (Message Name)) (asked answered again : Nat)
    (cache later : DnsCache Name) (group domain : Text) (template : Svcb Name)
    (fetched : fetchEchTemplateAmong others upstream asked answered again cache group domain =
      some (some template, later)) (records : List (Record Name)) (queryName : Name) :
    let completed := cfEchReplacementHttps records template queryName
    completed.length = records.length ∧
    (∀ (index : Nat) (record : Record Name), records[index]? = some record →
      recordUsesCf record = false → completed[index]? = some record) ∧
    (∀ (index : Nat) (record : Record Name), records[index]? = some record →
      recordUsesCf record = true → completed[index]? = some
        { name := queryName, dnsClass := .IN, ttl := record.ttl, data := .HTTPS template }) ∧
    (∀ record ∈ completed, recordUsesCf record = false) ∧
    ∀ other otherName, cfEchReplacementHttps completed other otherName = completed := by
  intro completed
  have hasEch := svcbHasEch_of_fetchEchTemplateAmong fetched
  have settled : ∀ record ∈ completed, recordUsesCf record = false :=
    recordUsesCf_of_mem_cfEchReplacementHttps hasEch
  refine ⟨List.length_map _, ?_, ?_, settled,
    fun other otherName => cfEchReplacementHttps_eq_self settled other otherName⟩
  · intro index record found ordinary
    have entry := getElem?_cfEchReplacementHttps found template queryName
    rwa [ordinary] at entry
  · intro index record found candidate
    have entry := getElem?_cfEchReplacementHttps found template queryName
    rwa [candidate] at entry

/-- A template that is still cached, and a candidate in front of another answer. -/
theorem ech_completion_of_one_candidate :
    let template : Svcb LabelName :=
      { svcPriority := 1
        targetName := ⟨["crypto".toList], true⟩
        svcParams := [(.echConfigList, .other [9, 9])] }
    let hinted (ip : Ipv4Addr) : RData LabelName :=
      .HTTPS { svcPriority := 1, targetName := ⟨[], true⟩, svcParams := [(.ipv4Hint, .ipv4Hint [ip])] }
    let records : List (Record LabelName) :=
      [Record.fromRdata ⟨["a".toList], true⟩ 120 (hinted 0x68100001),
        Record.fromRdata ⟨["b".toList], true⟩ 60 (hinted 0x08080808)]
    let queryName : LabelName := ⟨["q".toList], true⟩
    let completed := cfEchReplacementHttps records template queryName
    records.map recordUsesCf = [true, false] ∧
    completed.length = records.length ∧
    (∀ (index : Nat) (record : Record LabelName), records[index]? = some record →
      recordUsesCf record = false → completed[index]? = some record) ∧
    (∀ (index : Nat) (record : Record LabelName), records[index]? = some record →
      recordUsesCf record = true → completed[index]? = some
        { name := queryName, dnsClass := .IN, ttl := record.ttl, data := .HTTPS template }) ∧
    (∀ record ∈ completed, recordUsesCf record = false) ∧
    ∀ other otherName, cfEchReplacementHttps completed other otherName = completed := by
  intro template hinted records queryName
  let entry : CacheEntry LabelName :=
    { records := [.NoData, .Https template], createdAt := 0, ttl := 300 }
  let cache : DnsCache LabelName :=
    { inner := ⟨fun _ => some ⟨entry, 10⟩⟩
      maxCapacity := 16
      expiry := { minTtl := 0, maxTtl := 10, keepTtl := false } }
  refine ⟨by decide, ?_⟩
  exact ech_completion_complete (fun _ cache => cache) (fun _ _ => none) 9 9 9 cache cache
    "cf".toList "crypto.".toList template rfl records queryName

end Rsdns.Plugins
