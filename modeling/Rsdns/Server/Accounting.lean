import Rsdns.Dns.LabelName
import Rsdns.Metrics.Metered
import Rsdns.Plugins.Logs
import Rsdns.Server.Pipeline

/-!
# What the server counts (`server.rs`, `plugins/logs.rs`)

A query is counted when it comes in, when it is refused or has its final response, and when it
is logged or left out of the log.  Queries are handled beside each other and may be given up
while they wait, and scrapes go on meanwhile.
-/

namespace Rsdns.Server

open Dns Metrics Plugins

variable {A Name : Type} [Amount A] [NameApi Name]

/-! ### Handles -/

structure ServerMetrics where
  queriesTotal : Handle
  parseErrorsTotal : Handle
  rcodeTotal : Handle
  qtypeTotal : Handle
  durationSeconds : Handle

def ServerMetrics.new (registry : Registry A) (thread : Nat) (defaultBuckets : List A) :
    Option (ServerMetrics × Registry A) := do
  let (queriesTotal, registry) ← registry.counter thread "rsdns_queries_total".toList
    "Inbound DNS queries".toList ["proto".toList]
  let (parseErrorsTotal, registry) ← registry.counter thread
    "rsdns_query_parse_errors_total".toList "Inbound packet parse failures".toList []
  let (rcodeTotal, registry) ← registry.counter thread "rsdns_query_rcode_total".toList
    "Final response rcode distribution".toList ["rcode".toList]
  let (qtypeTotal, registry) ← registry.counter thread "rsdns_query_qtype_total".toList
    "Query type distribution".toList ["qtype".toList]
  let (durationSeconds, registry) ← registry.histogram thread
    "rsdns_query_duration_seconds".toList "End-to-end query handling latency".toList
    ["proto".toList] defaultBuckets
  return ({ queriesTotal := queriesTotal, parseErrorsTotal := parseErrorsTotal,
            rcodeTotal := rcodeTotal, qtypeTotal := qtypeTotal,
            durationSeconds := durationSeconds }, registry)

def ServerMetrics.registrations (thread : Nat) (defaultBuckets : List A) : List (Change A) :=
  [.counter thread "rsdns_queries_total".toList "Inbound DNS queries".toList ["proto".toList],
    .counter thread "rsdns_query_parse_errors_total".toList
      "Inbound packet parse failures".toList [],
    .counter thread "rsdns_query_rcode_total".toList "Final response rcode distribution".toList
      ["rcode".toList],
    .counter thread "rsdns_query_qtype_total".toList "Query type distribution".toList
      ["qtype".toList],
    .histogram thread "rsdns_query_duration_seconds".toList
      "End-to-end query handling latency".toList ["proto".toList] defaultBuckets]

structure LogsMetrics where
  queriesTotal : Handle
  skippedTotal : Handle

def LogsMetrics.new (registry : Registry A) (thread : Nat) :
    Option (LogsMetrics × Registry A) := do
  let (queriesTotal, registry) ← registry.counter thread "rsdns_logs_queries_total".toList
    "Logged DNS queries".toList ["proto".toList]
  let (skippedTotal, registry) ← registry.counter thread "rsdns_logs_skipped_total".toList
    "Queries skipped due to skip_log".toList []
  return ({ queriesTotal := queriesTotal, skippedTotal := skippedTotal }, registry)

def LogsMetrics.registrations (thread : Nat) : List (Change A) :=
  [.counter thread "rsdns_logs_queries_total".toList "Logged DNS queries".toList
      ["proto".toList],
    .counter thread "rsdns_logs_skipped_total".toList "Queries skipped due to skip_log".toList []]

/-! ### The handling of a query -/

/-- What the handling of a query waits for: the stages up to the final response, the clock,
the cache and the log. -/
inductive QueryAsk (Name : Type) where
  | stages (ctx : QueryContext Name)
  | elapsed
  | writeBack (ctx : QueryContext Name)
  | write (ctx : QueryContext Name)

/-- The stages leave a context behind, and whether the query is kept out of the log. -/
abbrev QueryReply (A : Type) : QueryAsk Name → Type
  | .stages _ => QueryContext Name × Bool
  | .elapsed => A
  | .writeBack _ => Unit
  | .write _ => Unit

abbrev Counting (A Name Result : Type) : Type :=
  Metered A (QueryReply A : QueryAsk Name → Type) Result

def responseCodeNumber : ResponseCode → Nat
  | .NoError => 0
  | .FormErr => 1
  | .ServFail => 2
  | .NXDomain => 3
  | .NotImp => 4
  | .Refused => 5
  | .other code => code.toNat

/-- The parser and the text of a record type are the wire library's. -/
structure DnsServer (Name : Type) where
  metrics : ServerMetrics
  logs : LogsMetrics
  fromVec : List UInt8 → Option (Message Name)
  displayType : RecordType → Text

structure QueryJob where
  proto : Text
  data : List UInt8

namespace DnsServer

def logQuery (self : DnsServer Name) (proto : Text) (ctx : QueryContext Name) (skipLog : Bool) :
    Counting A Name Unit :=
  if skipLog then count (.inc self.logs.skippedTotal) (.done ())
  else
    wait (.write ctx) fun _ =>
      count (.inc (self.logs.queriesTotal.withLabelValues [proto])) (.done ())

/-- What is left to do when the final response is there. -/
def finish (self : DnsServer Name) (proto : Text) (qtype : RecordType) (ctx : QueryContext Name)
    (skipLog : Bool) : Counting A Name (Option (QueryContext Name)) :=
  let rcode := ctx.response.elim .ServFail fun r => r.metadata.responseCode
  count (.inc (self.metrics.rcodeTotal.withLabelValues
    [rcodeLabel (responseCodeNumber rcode)])) <|
  count (.inc (self.metrics.qtypeTotal.withLabelValues [self.displayType qtype])) <|
  wait .elapsed fun elapsed =>
  count (.observe (self.metrics.durationSeconds.withLabelValues [proto]) elapsed) <|
  wait (.writeBack ctx) fun _ =>
  (self.logQuery proto ctx skipLog).bind fun _ => .done (some ctx)

/-- `none` is a query that is refused. -/
def handleQuery (self : DnsServer Name) (job : QueryJob) :
    Counting A Name (Option (QueryContext Name)) :=
  count (.inc (self.metrics.queriesTotal.withLabelValues [job.proto])) <|
    match self.fromVec job.data with
    | none => count (.inc self.metrics.parseErrorsTotal) (.done none)
    | some msg =>
        match openContext msg with
        | .error _ => count (.inc self.metrics.parseErrorsTotal) (.done none)
        | .ok asked =>
            wait (.stages asked) fun reply =>
              self.finish job.proto asked.qtype reply.1 reply.2

def counters (self : DnsServer Name) : List Nat :=
  [self.logs.queriesTotal.series, self.logs.skippedTotal.series,
    self.metrics.queriesTotal.series, self.metrics.parseErrorsTotal.series,
    self.metrics.rcodeTotal.series, self.metrics.qtypeTotal.series]

omit [Amount A] [NameApi Name] in
def owns (self : DnsServer Name) : Change A → Bool
  | .incBy counter _ => self.counters.contains counter.series
  | .observe histogram _ => histogram.series = self.metrics.durationSeconds.series
  | _ => false

/-- Only the clock is read without a pause. -/
def programs (self : DnsServer Name) :
    Programs A QueryJob (QueryReply A : QueryAsk Name → Type) (Option (QueryContext Name)) where
  program := self.handleQuery
  owns := self.owns
  givesWay
    | .elapsed => false
    | _ => true

end DnsServer

/-! ### What is between two counts -/

/-- The next step counts in one of these families. -/
def countsIn (series : List Nat) : Need A (QueryAsk Name) → Bool
  | .change (.incBy counter _) => series.contains counter.series
  | _ => false

/-- The steps between the count of the type and that of the log. -/
def comesBeforeLog : Need A (QueryAsk Name) → Bool
  | .other .elapsed => true
  | .other (.writeBack _) => true
  | .other (.write _) => true
  | .change (.observe _ _) => true
  | _ => false

omit [Amount A] [NameApi Name] in
@[simp]
theorem comesBeforeLog_inc (counter : Handle) :
    comesBeforeLog (.change (.inc counter) : Need A (QueryAsk Name)) = false := rfl

omit [Amount A] [NameApi Name] in
@[simp]
theorem countsIn_inc (series : List Nat) (counter : Handle) :
    countsIn series (.change (.inc counter) : Need A (QueryAsk Name)) =
      series.contains counter.series := rfl

namespace DnsServer

/-- The query is counted, and neither its response nor an error is. -/
def unanswered (self : DnsServer Name) : Need A (QueryAsk Name) → Bool
  | .other (.stages _) => true
  | need => countsIn [self.metrics.parseErrorsTotal.series, self.metrics.rcodeTotal.series] need

def untyped (self : DnsServer Name) : Need A (QueryAsk Name) → Bool :=
  countsIn [self.metrics.qtypeTotal.series]

/-- The type of the query is counted, and that it is logged or not is not. -/
def unlogged (self : DnsServer Name) (need : Need A (QueryAsk Name)) : Bool :=
  comesBeforeLog need ||
    countsIn [self.logs.queriesTotal.series, self.logs.skippedTotal.series] need

def answers (self : DnsServer Name) (change : Change A) : Nat :=
  familyWeight self.metrics.parseErrorsTotal.series change +
    familyWeight self.metrics.rcodeTotal.series change

def logged (self : DnsServer Name) (change : Change A) : Nat :=
  familyWeight self.logs.queriesTotal.series change +
    familyWeight self.logs.skippedTotal.series change

/-- The families are different ones. -/
structure Apart (self : DnsServer Name) : Prop where
  forth : self.counters.Nodup
  back : self.counters.reverse.Nodup

section Balances

variable {self : DnsServer Name}

omit [Amount A] in
theorem owes_handleQuery {light heavy : Change A → Nat} {pending : Need A (QueryAsk Name) → Bool}
    (job : QueryJob) (owed : Nat)
    (here : pending (.change (.inc (self.metrics.queriesTotal.withLabelValues [job.proto]))) =
      false)
    (paid : heavy (.inc (self.metrics.queriesTotal.withLabelValues [job.proto])) =
      owed + light (.inc (self.metrics.queriesTotal.withLabelValues [job.proto])))
    (refused : Owes light heavy pending owed (count (.inc self.metrics.parseErrorsTotal)
      (.done none : Counting A Name (Option (QueryContext Name)))))
    (waits : ∀ asked, (pending (.other (.stages asked))).toNat = owed)
    (finished : ∀ qtype ctx skipLog,
      Owes light heavy pending owed (self.finish job.proto qtype ctx skipLog)) :
    Balances light heavy pending (self.handleQuery job) := by
  refine Owes.balances (.count owed ?_ ?_ ?_)
  · rw [here]
    rfl
  · rw [Nat.zero_add, paid]
  · split
    · exact refused
    · split
      · exact refused
      · next asked _ => exact .wait (waits asked) fun reply => finished asked.qtype reply.1 reply.2

omit [Amount A] in
/-- A program that counts queries first, and nothing like it behind. -/
theorem once_handleQuery {weigh : Change A → Nat} (job : QueryJob)
    (first : weigh (.inc (self.metrics.queriesTotal.withLabelValues [job.proto])) ≤ 1)
    (refused : Within weigh 0 (count (.inc self.metrics.parseErrorsTotal)
      (.done none : Counting A Name (Option (QueryContext Name)))))
    (finished : ∀ qtype ctx skipLog,
      Within weigh 0 (self.finish job.proto qtype ctx skipLog)) :
    Once weigh (self.handleQuery job) := by
  refine Within.once (.count (Nat.add_le_add first (Nat.le_refl 0)) ?_)
  split
  · exact refused
  · split
    · exact refused
    · next asked _ => exact .wait fun reply => finished asked.qtype reply.1 reply.2

variable (apart : self.Apart)
include apart

omit [Amount A] in
theorem answers_balance (job : QueryJob) :
    Balances self.answers (familyWeight self.metrics.queriesTotal.series) self.unanswered
      (self.handleQuery (A := A) job) := by
  obtain ⟨forth, back⟩ := apart
  simp [counters] at forth back
  refine owes_handleQuery job 1 ?_ ?_ (.count 0 ?_ ?_ .done) (fun _ => rfl) fun _ _ skipLog => ?_
  · simp [unanswered, forth]
  · simp [answers, forth]
  · simp [unanswered]
  · simp [answers, forth, back]
  · refine .count 0 ?_ ?_ (.count 0 ?_ ?_ (.wait rfl fun _ => .count 0 rfl rfl
      (.wait rfl fun _ => ?_)))
    · simp [unanswered]
    · simp [answers, back]
    · simp [unanswered, back]
    · simp [answers, back]
    · cases skipLog with
      | true => refine .count 0 ?_ ?_ .done <;> simp [unanswered, answers, forth]
      | false => refine .wait rfl fun _ => .count 0 ?_ ?_ .done <;> simp [unanswered, answers, forth]

omit [Amount A] in
theorem types_balance (job : QueryJob) :
    Balances (familyWeight self.metrics.qtypeTotal.series)
      (familyWeight self.metrics.rcodeTotal.series) self.untyped
      (self.handleQuery (A := A) job) := by
  obtain ⟨forth, back⟩ := apart
  simp [counters] at forth back
  refine owes_handleQuery job 0 ?_ ?_ (.count 0 ?_ ?_ .done) (fun _ => rfl) fun _ _ skipLog => ?_
  · simp [untyped, forth]
  · simp [forth]
  · simp [untyped, forth]
  · simp [forth]
  · refine .count 1 ?_ ?_ (.count 0 ?_ ?_ (.wait rfl fun _ => .count 0 rfl rfl
      (.wait rfl fun _ => ?_)))
    · simp [untyped, forth]
    · simp [forth]
    · simp [untyped]
    · simp [back]
    · cases skipLog with
      | true => refine .count 0 ?_ ?_ .done <;> simp [untyped, forth]
      | false => refine .wait rfl fun _ => .count 0 ?_ ?_ .done <;> simp [untyped, forth]

omit [Amount A] in
theorem logs_balance (job : QueryJob) :
    Balances self.logged (familyWeight self.metrics.qtypeTotal.series) self.unlogged
      (self.handleQuery (A := A) job) := by
  obtain ⟨forth, back⟩ := apart
  simp [counters] at forth back
  refine owes_handleQuery job 0 ?_ ?_ (.count 0 ?_ ?_ .done) (fun _ => rfl) fun _ _ skipLog => ?_
  · simp [unlogged, back]
  · simp [logged, forth, back]
  · simp [unlogged, back]
  · simp [logged, forth, back]
  · refine .count 0 ?_ ?_ (.count 1 ?_ ?_ (.wait rfl fun _ => .count 1 rfl rfl
      (.wait rfl fun _ => ?_)))
    · simp [unlogged, back]
    · simp [logged, forth, back]
    · simp [unlogged, back]
    · simp [logged, back]
    · cases skipLog with
      | true => refine .count 0 ?_ ?_ .done <;> simp [unlogged, logged, forth, back]
      | false =>
          refine .wait rfl fun _ => .count 0 ?_ ?_ .done <;>
            simp [unlogged, logged, forth]

omit [Amount A] in
theorem queries_once (job : QueryJob) :
    Once (familyWeight self.metrics.queriesTotal.series) (self.handleQuery (A := A) job) := by
  obtain ⟨forth, back⟩ := apart
  simp [counters] at forth back
  have nothing {counter : Handle} (other : counter.series ≠ self.metrics.queriesTotal.series) :
      familyWeight self.metrics.queriesTotal.series (.inc counter : Change A) + 0 ≤ 0 := by
    simp [other]
  have unobserved (histogram : Handle) (value : A) :
      familyWeight self.metrics.queriesTotal.series (.observe histogram value) + 0 ≤ 0 :=
    Nat.le_refl 0
  refine once_handleQuery job (by simp) (.count (nothing ?_) .done) fun _ _ skipLog => ?_
  · simp [back]
  · refine .count (nothing ?_) (.count (nothing ?_) (.wait fun elapsed =>
      .count (unobserved _ elapsed) (.wait fun _ => ?_)))
    · simp [back]
    · simp [back]
    · cases skipLog with
      | true => exact .count (nothing (by simp [forth])) .done
      | false => exact .wait fun _ => .count (nothing (by simp [forth])) .done

end Balances

section Guards

variable {self : DnsServer Name}

omit [Amount A] in
theorem steady_handleQuery (job : QueryJob) : Steady (self.handleQuery (A := A) job) := by
  refine .inc ?_
  split
  · exact .inc (.done none)
  · split
    · exact .inc (.done none)
    · refine .wait fun reply => .inc (.inc (.wait fun _ => .observe (.wait fun _ => ?_)))
      unfold logQuery
      split
      · exact .inc (.done _)
      · exact .wait fun _ => .inc (.done _)

omit [Amount A] in
theorem weighs_family {series : Nat} (member : series ∈ self.counters) :
    (self.programs (A := A)).Weighs (familyWeight series) := by
  intro change foreign
  cases change with
  | incBy counter v =>
      refine if_neg fun same => ?_
      rw [← same] at member
      exact absurd (List.contains_iff_mem.mpr member) (by simpa [programs, owns] using foreign)
  | _ => rfl

end Guards

end DnsServer

/-! ### Starting -/

theorem counter_eq_some {registry next : Registry A} {thread : Nat} {name help : Text}
    {labelNames : List Text} {handle : Handle}
    (made : registry.counter thread name help labelNames = some (handle, next)) :
    registry.apply (.counter thread name help labelNames) = some next ∧
      handle = ⟨registry.counters.length, []⟩ ∧
      next.counters.length = registry.counters.length + 1 ∧
      next.histograms.length = registry.histograms.length := by
  have applied : registry.apply (.counter thread name help labelNames) = some next := by
    rw [Registry.apply, made]
    rfl
  obtain ⟨_, same⟩ := Option.ite_none_right_eq_some.mp made
  cases same
  exact ⟨applied, rfl, List.length_append, rfl⟩

theorem histogram_eq_some {registry next : Registry A} {thread : Nat} {name help : Text}
    {labelNames : List Text} {buckets : List A} {handle : Handle}
    (made : registry.histogram thread name help labelNames buckets = some (handle, next)) :
    registry.apply (.histogram thread name help labelNames buckets) = some next ∧
      handle = ⟨registry.histograms.length, []⟩ := by
  have applied : registry.apply (.histogram thread name help labelNames buckets) = some next := by
    rw [Registry.apply, made]
    rfl
  obtain ⟨_, same⟩ := Option.ite_none_right_eq_some.mp made
  cases same
  exact ⟨applied, rfl⟩

theorem LogsMetrics.new_eq_some {registry next : Registry A} {thread : Nat} {logs : LogsMetrics}
    (made : LogsMetrics.new registry thread = some (logs, next)) :
    registry.applyAll (LogsMetrics.registrations thread) = some next ∧
      logs = ⟨⟨registry.counters.length, []⟩, ⟨registry.counters.length + 1, []⟩⟩ ∧
      next.counters.length = registry.counters.length + 2 ∧
      next.histograms.length = registry.histograms.length := by
  obtain ⟨⟨queries, second⟩, first, made⟩ := Option.bind_eq_some_iff.mp made
  obtain ⟨⟨skipped, third⟩, last, made⟩ := Option.bind_eq_some_iff.mp made
  cases made
  obtain ⟨appliedFirst, rfl, lengthFirst, sameFirst⟩ := counter_eq_some first
  obtain ⟨appliedLast, rfl, lengthLast, sameLast⟩ := counter_eq_some last
  refine ⟨?_, by rw [lengthFirst], by rw [lengthLast, lengthFirst], sameLast.trans sameFirst⟩
  rw [LogsMetrics.registrations, Registry.applyAll_cons appliedFirst,
    Registry.applyAll_cons appliedLast]
  rfl

theorem ServerMetrics.new_eq_some {registry next : Registry A} {thread : Nat}
    {defaultBuckets : List A} {metrics : ServerMetrics}
    (made : ServerMetrics.new registry thread defaultBuckets = some (metrics, next)) :
    registry.applyAll (ServerMetrics.registrations thread defaultBuckets) = some next ∧
      metrics = ⟨⟨registry.counters.length, []⟩, ⟨registry.counters.length + 1, []⟩,
        ⟨registry.counters.length + 2, []⟩, ⟨registry.counters.length + 3, []⟩,
        ⟨registry.histograms.length, []⟩⟩ := by
  obtain ⟨⟨queries, r₁⟩, made₁, made⟩ := Option.bind_eq_some_iff.mp made
  obtain ⟨⟨errors, r₂⟩, made₂, made⟩ := Option.bind_eq_some_iff.mp made
  obtain ⟨⟨rcodes, r₃⟩, made₃, made⟩ := Option.bind_eq_some_iff.mp made
  obtain ⟨⟨qtypes, r₄⟩, made₄, made⟩ := Option.bind_eq_some_iff.mp made
  obtain ⟨⟨durations, r₅⟩, made₅, made⟩ := Option.bind_eq_some_iff.mp made
  cases made
  obtain ⟨applied₁, rfl, length₁, histograms₁⟩ := counter_eq_some made₁
  obtain ⟨applied₂, rfl, length₂, histograms₂⟩ := counter_eq_some made₂
  obtain ⟨applied₃, rfl, length₃, histograms₃⟩ := counter_eq_some made₃
  obtain ⟨applied₄, rfl, length₄, histograms₄⟩ := counter_eq_some made₄
  obtain ⟨applied₅, rfl⟩ := histogram_eq_some made₅
  refine ⟨?_, ?_⟩
  · rw [ServerMetrics.registrations, Registry.applyAll_cons applied₁,
      Registry.applyAll_cons applied₂, Registry.applyAll_cons applied₃,
      Registry.applyAll_cons applied₄, Registry.applyAll_cons applied₅]
    rfl
  · simp only [length₁, length₂, length₃, histograms₁, histograms₂, histograms₃, histograms₄]

namespace DnsServer

/-- The counters of the log are made first and those of the server last.  Before that, and in
between, others make and change theirs. -/
def Started (self : DnsServer Name) (state : State A) (past : Past A) : Prop :=
  ∃ (thread : Nat) (defaultBuckets : List A) (first second : State A)
    (firstPast secondPast : Past A) (logged served : Registry A),
    (Metrics.recorded A).GuardedRun (fun _ event => Forward event) ({}, {}) (first, firstPast) ∧
    LogsMetrics.new first.registry thread = some (self.logs, logged) ∧
    (Metrics.recorded A).GuardedRun
      (fun _ event => Forward event ∧ event.isForeign self.owns = true)
      ({ first with registry := logged }, firstPast.noteAll (LogsMetrics.registrations thread))
      (second, secondPast) ∧
    ServerMetrics.new second.registry thread defaultBuckets = some (self.metrics, served) ∧
    state = { second with registry := served } ∧
    past = secondPast.noteAll (ServerMetrics.registrations thread defaultBuckets)

end DnsServer

theorem familyCount_of_run {guard : State A × Past A → Event A → Prop}
    {start recorded : State A × Past A}
    (run : (Metrics.recorded A).GuardedRun guard start recorded) (block : Block) :
    start.1.registry.familyCount block ≤ recorded.1.registry.familyCount block := by
  induction run with
  | refl => exact Nat.le_refl _
  | @step current next event _ _ stepped inductionHypothesis =>
      refine Nat.le_trans inductionHypothesis ?_
      obtain ⟨state, past⟩ := current
      obtain ⟨after, later⟩ := next
      cases moves_of_step stepped with
      | changes free applied => exact familyCount_apply (applies_of_apply applied) block
      | _ => exact Nat.le_refl _

namespace DnsServer

omit [NameApi Name] in
theorem unopened_of_fresh {self : DnsServer Name} {state : State A} {past : Past A}
    (tallied : Tallied (state, past))
    (fresh : ∀ series ∈ self.counters, state.registry.counters.length ≤ series)
    (freshHistogram : state.registry.histograms.length ≤ self.metrics.durationSeconds.series) :
    Unopened self.owns past := by
  intro change member
  cases change with
  | incBy counter v =>
      by_contra owned
      have inside : counter.series ∈ self.counters := by simpa [owns] using owned
      have none := increments_eq_nil tallied.tallies (fresh counter.series inside)
      rw [increments, List.filterMap_eq_nil_iff] at none
      simpa [Change.increment?] using none _ member
  | observe histogram value =>
      by_contra owned
      have same : histogram.series = self.metrics.durationSeconds.series := by
        simpa [owns] using owned
      have none := tallied.tallies.unobserved histogram (same ▸ freshHistogram)
      rw [observations, List.filterMap_eq_nil_iff] at none
      simpa [Change.observation?] using none _ member
  | _ => rfl

omit [NameApi Name] in
theorem unopened_of_run {self : DnsServer Name} {start recorded : State A × Past A}
    (unopened : Unopened self.owns start.2)
    (run : (Metrics.recorded A).GuardedRun
      (fun _ event => Forward event ∧ event.isForeign self.owns = true) start recorded) :
    Unopened self.owns recorded.2 := by
  induction run with
  | refl => exact unopened
  | @step current next event _ guarded stepped inductionHypothesis =>
      obtain ⟨state, past⟩ := current
      obtain ⟨after, later⟩ := next
      intro change member
      rw [changesOf_step stepped] at member
      rcases List.mem_append.mp member with before | made
      · exact inductionHypothesis change before
      · cases event with
        | change now =>
            cases List.mem_singleton.mp made
            simpa [Event.isForeign] using guarded.2
        | _ => cases made

omit [Amount A] [NameApi Name] in
theorem Unopened.noteAll {self : DnsServer Name} {past : Past A}
    (unopened : Unopened self.owns past) {changes : List (Change A)}
    (foreign : ∀ change ∈ changes, self.owns change = false) :
    Unopened self.owns (past.noteAll changes) := by
  intro change member
  rw [changesOf_noteAll] at member
  rcases List.mem_append.mp member with before | made
  · exact unopened change before
  · exact foreign change made

omit [NameApi Name] in
theorem Started.spec {self : DnsServer Name} {state : State A} {past : Past A}
    (started : self.Started state past) :
    self.Apart ∧ Tallied (state, past) ∧ Unopened self.owns past := by
  obtain ⟨thread, buckets, first, second, firstPast, secondPast, logged, served, before, newLogs,
    between, newServer, rfl, rfl⟩ := started
  obtain ⟨appliedLogs, isLogs, grown, same⟩ := LogsMetrics.new_eq_some newLogs
  obtain ⟨appliedServer, isServer⟩ := ServerMetrics.new_eq_some newServer
  have moreCounters := familyCount_of_run between .counters
  have moreHistograms := familyCount_of_run between .histograms
  simp only [Registry.familyCount] at moreCounters moreHistograms
  have forth : self.counters.Nodup := by
    simp [counters, isLogs, isServer]
    omega
  have tallied : Tallied (first, firstPast) := tallied_of_run before
  have talliedBetween : Tallied (second, secondPast) := by
    refine between.invariant ?_ fun tallied guarded stepped => tallied.step guarded.1 stepped
    refine tallied.changedAll ?_ appliedLogs
    simp [LogsMetrics.registrations, Forward]
  have unopened : Unopened self.owns firstPast := by
    refine unopened_of_fresh tallied (fun series member => ?_) ?_
    · simp only [counters, isLogs, isServer, List.mem_cons, List.not_mem_nil, or_false] at member
      omega
    · simp only [isServer]
      omega
  refine ⟨⟨forth, List.nodup_reverse.mpr forth⟩, ?_, ?_⟩
  · refine talliedBetween.changedAll ?_ appliedServer
    simp [ServerMetrics.registrations, Forward]
  · refine Unopened.noteAll (unopened_of_run (Unopened.noteAll unopened ?_) between) ?_
    · simp [LogsMetrics.registrations, owns]
    · simp [ServerMetrics.registrations, owns]

section Counters

variable {self : DnsServer Name}

omit [Amount A] in
theorem weighs_answers : (self.programs (A := A)).Weighs self.answers :=
  .add (weighs_family (by simp [counters])) (weighs_family (by simp [counters]))

omit [Amount A] in
theorem weighs_logged : (self.programs (A := A)).Weighs self.logged :=
  .add (weighs_family (by simp [counters])) (weighs_family (by simp [counters]))

end Counters

/-- Beside whatever is scraped and counted elsewhere: every query that was counted was refused,
has its response counted, or is on its way to that or was given up there; every response has
its type counted, or is about to; and every type belongs to a query that was logged, left out
of the log, or is on its way there or was given up. -/
theorem queries_accounted {self : DnsServer Name} {metrics : State A} {past later : Past A}
    {state : MeteredState A QueryJob (QueryReply A) (Option (QueryContext Name))}
    (started : self.Started metrics past)
    (run : self.programs.recorded.GuardedRun (fun _ event => event.Forward)
      ({ metrics := metrics }, past) (state, later))
    (few : state.tasks.length ≤ u64Max) :
    state.metrics.total self.metrics.queriesTotal =
        state.metrics.total self.metrics.parseErrorsTotal +
          state.metrics.total self.metrics.rcodeTotal +
            state.tasks.countP (MeteredTask.isAt · self.unanswered) ∧
      state.metrics.total self.metrics.rcodeTotal =
        state.metrics.total self.metrics.qtypeTotal +
          state.tasks.countP (MeteredTask.isAt · self.untyped) ∧
      state.metrics.total self.metrics.qtypeTotal =
        state.metrics.total self.logs.queriesTotal + state.metrics.total self.logs.skippedTotal +
          state.tasks.countP (MeteredTask.isAt · self.unlogged) := by
  obtain ⟨apart, tallied, unopened⟩ := started.spec
  obtain ⟨accounted, tallied⟩ := tallied_of_metered_run tallied unopened steady_handleQuery run
  have answers := accounted.balance weighs_answers (weighs_family (by simp [counters]))
    (answers_balance apart)
  have types := accounted.balance (weighs_family (by simp [counters]))
    (weighs_family (by simp [counters])) (types_balance apart)
  have logs := accounted.balance weighs_logged (weighs_family (by simp [counters]))
    (logs_balance apart)
  have once := accounted.weight_le (weighs_family (by simp [counters])) (queries_once apart)
  have splitAnswers : weight self.answers (changesOf later.entries) =
      weight (familyWeight self.metrics.parseErrorsTotal.series) (changesOf later.entries) +
        weight (familyWeight self.metrics.rcodeTotal.series) (changesOf later.entries) :=
    weight_add _ _ _
  have splitLogged : weight self.logged (changesOf later.entries) =
      weight (familyWeight self.logs.queriesTotal.series) (changesOf later.entries) +
        weight (familyWeight self.logs.skippedTotal.series) (changesOf later.entries) :=
    weight_add _ _ _
  have shown {counter : Handle}
      (fits : weight (familyWeight counter.series) (changesOf later.entries) ≤ u64Max) :
      state.metrics.total counter =
        weight (familyWeight counter.series) (changesOf later.entries) :=
    counterTotal_of_tallies tallied.tallies fits
  rw [shown (by omega), shown (by omega), shown (by omega), shown (by omega), shown (by omega),
    shown (by omega)]
  omega

/-- The log's counters come first, then the server's. -/
def firstServer : DnsServer LabelName where
  metrics := ⟨⟨2, []⟩, ⟨3, []⟩, ⟨4, []⟩, ⟨5, []⟩, ⟨0, []⟩⟩
  logs := ⟨⟨0, []⟩, ⟨1, []⟩⟩
  fromVec data := if data = [] then none else some (LabelName.ask ⟨[['q']], true⟩ .A)
  displayType _ := ['A']

def plainReply : (ask : QueryAsk LabelName) → QueryReply Nat ask
  | .stages ctx => (ctx, false)
  | .elapsed => 5
  | .writeBack _ => ()
  | .write _ => ()

/-- One query is about to be logged, one was refused and one was given up. -/
theorem three_queries_accounted :
    let events : List (MeteredEvent Nat QueryJob (QueryReply Nat)) :=
      [.begin ⟨['u'], [1]⟩, .count 0, .begin ⟨['t'], []⟩, .count 1, .aside .scrape,
        .begin ⟨['u'], [2]⟩, .count 2, .giveUp 2, .count 1, .answer 0 plainReply, .count 0,
        .count 0, .answer 0 plainReply, .count 0]
    ∃ registry past state later, firstServer.Started { registry := registry } past ∧
      firstServer.programs.recorded.execWhile (fun _ event => event.Forward)
        ({ metrics := { registry := registry } }, past) events = some (state, later) ∧
      state.tasks.length = 3 ∧ state.metrics.total firstServer.metrics.queriesTotal = 3 ∧
      (state.metrics.total firstServer.metrics.queriesTotal =
          state.metrics.total firstServer.metrics.parseErrorsTotal +
            state.metrics.total firstServer.metrics.rcodeTotal +
              state.tasks.countP (MeteredTask.isAt · firstServer.unanswered) ∧
        state.metrics.total firstServer.metrics.rcodeTotal =
          state.metrics.total firstServer.metrics.qtypeTotal +
            state.tasks.countP (MeteredTask.isAt · firstServer.untyped) ∧
        state.metrics.total firstServer.metrics.qtypeTotal =
          state.metrics.total firstServer.logs.queriesTotal +
            state.metrics.total firstServer.logs.skippedTotal +
              state.tasks.countP (MeteredTask.isAt · firstServer.unlogged)) := by
  intro events
  have executed : ∃ registry past state later,
      firstServer.Started { registry := registry } past ∧
      firstServer.programs.recorded.execWhile (fun _ event => event.Forward)
        ({ metrics := { registry := registry } }, past) events = some (state, later) ∧
      state.tasks.length = 3 ∧ state.metrics.total firstServer.metrics.queriesTotal = 3 :=
    ⟨_, _, _, _, ⟨0, [], {}, _, {}, _, _, _, .refl, rfl, .refl, rfl, rfl, rfl⟩, rfl, rfl, rfl⟩
  obtain ⟨registry, past, state, later, started, taken, tasks, queries⟩ := executed
  have few : state.tasks.length ≤ u64Max := by
    rw [tasks]
    decide
  exact ⟨registry, past, state, later, started, taken, tasks, queries,
    queries_accounted started (.of_execWhile .refl taken) few⟩

/-- A scrape that looks at the errors and the response codes first never sees more of them than
of queries, in whatever scrapes the three are looked at; nor does it see more queries logged and
left out than responses. -/
theorem scraped_queries_cover {self : DnsServer Name} {metrics : State A} {past later : Past A}
    {state : MeteredState A QueryJob (QueryReply A) (Option (QueryContext Name))}
    (started : self.Started metrics past)
    (run : self.programs.recorded.GuardedRun (fun _ event => event.Forward)
      ({ metrics := metrics }, past) (state, later))
    (few : state.tasks.length ≤ u64Max) {earlier other last : List (Entry A)}
    {one two all : Nat} (earlierFirst : earlier <+: last) (otherFirst : other <+: last) :
    (later.Shows self.metrics.parseErrorsTotal earlier one →
      later.Shows self.metrics.rcodeTotal other two →
      later.Shows self.metrics.queriesTotal last all → one + two ≤ all) ∧
      (later.Shows self.logs.queriesTotal earlier one →
        later.Shows self.logs.skippedTotal other two →
        later.Shows self.metrics.rcodeTotal last all → one + two ≤ all) := by
  obtain ⟨apart, tallied, unopened⟩ := started.spec
  have ⟨accounted, talliedLater⟩ :=
    tallied_of_metered_run tallied unopened steady_handleQuery run
  have plain : self.programs.recorded.Run ({ metrics := metrics }, past) (state, later) :=
    run.mono fun _ => trivial
  have once := accounted.weight_le (weighs_family (by simp [counters])) (queries_once apart)
  have answered : ∀ before, before <+: later.entries →
      weight (familyWeight self.metrics.parseErrorsTotal.series) (changesOf before) +
          weight (familyWeight self.metrics.rcodeTotal.series) (changesOf before) ≤
        weight (familyWeight self.metrics.queriesTotal.series) (changesOf before) := by
    intro before front
    rw [← weight_add]
    exact (ordered_of_run unopened plain weighs_answers (weighs_family (by simp [counters]))
      (answers_balance apart)).ordered before front
  have logged : ∀ before, before <+: later.entries →
      weight (familyWeight self.logs.queriesTotal.series) (changesOf before) +
          weight (familyWeight self.logs.skippedTotal.series) (changesOf before) ≤
        weight (familyWeight self.metrics.rcodeTotal.series) (changesOf before) := by
    intro before front
    rw [← weight_add]
    exact Nat.le_trans
      ((ordered_of_run unopened plain weighs_logged (weighs_family (by simp [counters]))
        (logs_balance apart)).ordered before front)
      ((ordered_of_run unopened plain (weighs_family (by simp [counters]))
        (weighs_family (by simp [counters])) (types_balance apart)).ordered before front)
  have fits := Nat.le_trans once few
  have whole := answered later.entries List.prefix_rfl
  constructor
  · intro showsOne showsTwo showsAll
    exact talliedLater.shows_le answered fits showsOne showsTwo showsAll earlierFirst otherFirst
  · intro showsOne showsTwo showsAll
    exact talliedLater.shows_le logged (by dsimp only; omega) showsOne showsTwo showsAll
      earlierFirst otherFirst

/-- A query that comes in between two scrapes is seen by the second alone. -/
theorem second_scrape_covers :
    let plainOrder : Iteration := ⟨id, fun _ => .refl _⟩
    let look (task : Nat) : MeteredEvent Nat QueryJob (QueryReply Nat) :=
      .aside (.visit task plainOrder)
    let events : List (MeteredEvent Nat QueryJob (QueryReply Nat)) :=
      [.begin ⟨['t'], []⟩, .count 0, .count 0, .aside .scrape, .aside (.openBlock 0), look 0,
        look 0, look 0, look 0, look 0, look 0, .aside (.closeBlock 0), .begin ⟨['t'], []⟩,
        .count 1, .aside .scrape, .aside (.openBlock 1), look 1, look 1, look 1]
    ∃ registry past state later, firstServer.Started { registry := registry } past ∧
      firstServer.programs.recorded.execWhile (fun _ event => event.Forward)
        ({ metrics := { registry := registry } }, past) events = some (state, later) ∧
      later.Shows firstServer.metrics.parseErrorsTotal (later.entries.take 12) 1 ∧
      later.Shows firstServer.metrics.rcodeTotal (later.entries.take 13) 0 ∧
      later.Shows firstServer.metrics.queriesTotal (later.entries.take 18) 2 ∧ 1 + 0 ≤ 2 := by
  intro plainOrder look events
  have executed : ∃ registry past, firstServer.Started { registry := registry } past ∧
      (firstServer.programs.recorded.execWhile (fun _ event => event.Forward)
        ({ metrics := { registry := registry } }, past) events).any (fun (state, later) =>
          state.tasks.length == 2 && later.shownAt 12 == some (3, 1) &&
            later.shownAt 13 == some (4, 0) && later.shownAt 18 == some (2, 2)) = true :=
    ⟨_, _, ⟨0, [], {}, _, {}, _, _, _, .refl, rfl, .refl, rfl, rfl, rfl⟩, by decide +kernel⟩
  obtain ⟨registry, past, started, checked⟩ := executed
  obtain ⟨⟨state, later⟩, taken, checked⟩ := (Option.any_eq_true _ _).mp checked
  simp only [Bool.and_eq_true, beq_iff_eq] at checked
  obtain ⟨⟨⟨tasks, errors⟩, rcodes⟩, queries⟩ := checked
  have few : state.tasks.length ≤ u64Max := by
    rw [tasks]
    decide
  have showsErrors : later.Shows firstServer.metrics.parseErrorsTotal
      (later.entries.take 12) 1 := Past.shows_of_shownAt errors
  have showsRcodes : later.Shows firstServer.metrics.rcodeTotal
      (later.entries.take 13) 0 := Past.shows_of_shownAt rcodes
  have showsQueries : later.Shows firstServer.metrics.queriesTotal
      (later.entries.take 18) 2 := Past.shows_of_shownAt queries
  have errorsFirst : later.entries.take 12 <+: later.entries.take 18 :=
    List.take_prefix_take_left (by decide)
  have rcodesFirst : later.entries.take 13 <+: later.entries.take 18 :=
    List.take_prefix_take_left (by decide)
  have run := Machine.GuardedRun.of_execWhile .refl taken
  exact ⟨registry, past, state, later, started, taken, showsErrors, showsRcodes, showsQueries,
    (scraped_queries_cover started run few errorsFirst rcodesFirst).1 showsErrors showsRcodes
      showsQueries⟩

end DnsServer

end Rsdns.Server
