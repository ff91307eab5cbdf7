import Rsdns.Metrics.Readback

/-!
# What the numbers of a scrape stand for

At every visit of a scrape a counter is the sum of the increments before it, up to the
greatest word, a gauge what it was last set to, and a histogram the tally of what was
observed.  So no counter falls from one scrape to another.
-/

namespace Rsdns.Metrics

variable {A : Type}

/-! ### What the changes amount to -/

namespace Change

def increment? (handle : Handle) : Change A → Option Nat
  | .incBy there v => if there = handle then some v.toNat else none
  | _ => none

def level? (handle : Handle) : Change A → Option Nat
  | .set there v => if there = handle then some v.toNat else none
  | _ => none

def observation? (handle : Handle) : Change A → Option A
  | .observe there value => if there = handle then some value else none
  | _ => none

end Change

def increments (handle : Handle) (changes : List (Change A)) : List Nat :=
  changes.filterMap (Change.increment? handle)

def observations (handle : Handle) (changes : List (Change A)) : List A :=
  changes.filterMap (Change.observation? handle)

/-- A series that nothing was added to is not there yet. -/
def counted (handle : Handle) (changes : List (Change A)) : Option Nat :=
  if increments handle changes = [] then none
  else some (min (increments handle changes).sum u64Max)

def lastLevel (handle : Handle) (changes : List (Change A)) : Option Nat :=
  (changes.filterMap (Change.level? handle)).getLast?

variable [Amount A]

def HistogramValue.tally (buckets observed : List A) : HistogramValue A buckets.length where
  sum := observed.foldl Amount.add Amount.zero
  count := observed.length % 2 ^ 64
  bucketCounts := fun i =>
    observed.countP (fun value => Amount.le value (buckets.get i)) % 2 ^ 64

def tallied (buckets : List A) (handle : Handle) (changes : List (Change A)) :
    Option (HistogramValue A buckets.length) :=
  if (observations handle changes).isEmpty then none
  else some (.tally buckets (observations handle changes))

/-- What a scrape sees is what the changes amount to. -/
def Found.Agrees (index : Nat) (changes : List (Change A)) : Found A → Prop
  | .counter family => ∀ labels,
      family.series.values.lookup labels = counted ⟨index, labels⟩ changes
  | .gauge family => ∀ labels,
      family.series.values.lookup labels = lastLevel ⟨index, labels⟩ changes
  | .histogram family => ∀ labels,
      family.series.values.lookup labels = tallied family.series.buckets ⟨index, labels⟩ changes

/-- An increment is less than half of the words, as a counter takes it for a signed number. -/
def Forward : Event A → Prop
  | .change (.incBy _ v) => v.toNat < 2 ^ 63
  | _ => True

instance : (event : Event A) → Decidable (Forward event)
  | .change (.incBy _ v) => inferInstanceAs (Decidable (v.toNat < 2 ^ 63))
  | .change (.counter ..) | .change (.gauge ..) | .change (.histogram ..) => isTrue trivial
  | .change (.set ..) | .change (.observe ..) => isTrue trivial
  | .scrape | .openBlock _ | .visit .. | .closeBlock _ => isTrue trivial

/-! ### One more change -/

theorem filterMap_concat {Item Value : Type*} (read : Item → Option Value) (items : List Item)
    (item : Item) :
    (items ++ [item]).filterMap read = items.filterMap read ++ (read item).toList := by
  rw [List.filterMap_append]
  cases found : read item <;> simp [found]

omit [Amount A] in
theorem counted_concat (handle : Handle) (changes : List (Change A)) (change : Change A) :
    counted handle (changes ++ [change]) =
      (change.increment? handle).elim (counted handle changes) fun v =>
        some (min ((counted handle changes).getD 0 + v) u64Max) := by
  unfold counted increments
  rw [filterMap_concat]
  cases change.increment? handle with
  | none => simp
  | some v =>
      by_cases empty : changes.filterMap (Change.increment? handle) = []
      · simp [empty]
      · simp only [empty, if_false, Option.toList_some, List.append_eq_nil_iff, List.cons_ne_self,
          and_false, Option.elim_some, Option.getD_some, List.sum_append,
          List.sum_singleton]
        congr 1
        omega

omit [Amount A] in
theorem lastLevel_concat (handle : Handle) (changes : List (Change A)) (change : Change A) :
    lastLevel handle (changes ++ [change]) =
      (change.level? handle).elim (lastLevel handle changes) some := by
  unfold lastLevel
  rw [filterMap_concat]
  cases change.level? handle <;> simp

theorem HistogramValue.tally_concat (buckets observed : List A) (value : A) :
    HistogramValue.tally buckets (observed ++ [value]) =
      { sum := Amount.add (HistogramValue.tally buckets observed).sum value
        count := ((HistogramValue.tally buckets observed).count + 1) % 2 ^ 64
        bucketCounts := fun i =>
          if Amount.le value (buckets.get i) then
            ((HistogramValue.tally buckets observed).bucketCounts i + 1) % 2 ^ 64
          else (HistogramValue.tally buckets observed).bucketCounts i } := by
  unfold HistogramValue.tally
  congr 1
  · simp
  · simp only [List.length_append, List.length_singleton]
    omega
  · funext i
    rw [List.countP_append, List.countP_singleton]
    dsimp only
    split
    · exact (Nat.mod_add_mod _ _ _).symm
    · rfl

theorem tallied_concat (buckets : List A) (handle : Handle) (changes : List (Change A))
    (change : Change A) :
    tallied buckets handle (changes ++ [change]) =
      (change.observation? handle).elim (tallied buckets handle changes) fun value =>
        some (.tally buckets (observations handle changes ++ [value])) := by
  unfold tallied observations
  rw [filterMap_concat]
  cases change.observation? handle <;> simp

/-! ### Series and the changes -/

/-- The value of a series that a handle of the right kind stands for. -/
def seriesValue (families : List (Family Series)) (handle : Handle) : Option Nat :=
  families[handle.series]?.bind fun family => family.series.values.lookup handle.labels

theorem seriesValue_concat (families : List (Family Series)) (name help : Text)
    (labelNames : List Text) (handle : Handle) :
    seriesValue (families ++ [freshFamily name help labelNames]) handle =
      seriesValue families handle := by
  unfold seriesValue
  rcases lt_or_ge handle.series families.length with old | new
  · rw [List.getElem?_append_left old]
  · rw [List.getElem?_append_right new, List.getElem?_eq_none new, List.getElem?_singleton]
    split
    · exact AList.lookup_empty handle.labels
    · rfl

theorem seriesValue_modify {families : List (Family Series)} {handle : Handle}
    (there : handle.series < families.length) {change : Series → Series} (value : Option Nat → Nat)
    (writes : ∀ series, (change series).values =
      series.values.insert handle.labels (value (series.values.lookup handle.labels)))
    (other : Handle) :
    seriesValue (families.modify handle.series fun family => family.modify change) other =
      if handle = other then some (value (seriesValue families handle))
      else seriesValue families other := by
  unfold seriesValue
  rw [List.getElem?_modify]
  by_cases same : handle = other
  · subst same
    rw [if_pos rfl, List.getElem?_eq_getElem there]
    simp [Family.modify, writes]
  · rw [if_neg same]
    by_cases sameFamily : handle.series = other.series
    · have otherLabels : other.labels ≠ handle.labels := by
        intro sameLabels
        exact same (by cases handle; cases other; simp_all)
      rw [← sameFamily, List.getElem?_eq_getElem there]
      simp [Family.modify, writes, AList.lookup_insert_ne otherLabels]
    · simp [sameFamily]

/-- What the series of a registry are after some changes. -/
structure Registry.Tallies (registry : Registry A) (changes : List (Change A)) : Prop where
  counters : ∀ handle, seriesValue registry.counters handle = counted handle changes
  gauges : ∀ handle, seriesValue registry.gauges handle = lastLevel handle changes
  histograms : ∀ handle, ∀ family ∈ registry.histograms[handle.series]?,
    family.series.values.lookup handle.labels = tallied family.series.buckets handle changes
  unobserved : ∀ handle : Handle, registry.histograms.length ≤ handle.series →
    observations handle changes = []

theorem asI64_of_lt {v : UInt64} (small : v.toNat < 2 ^ 63) : asI64 v = v.toNat := by
  unfold asI64
  exact Int.bmod_eq_of_le (by omega) (by omega)

section Apply

variable {registry next : Registry A} {changes : List (Change A)} {change : Change A}

theorem counters_apply
    (tallies : ∀ handle, seriesValue registry.counters handle = counted handle changes)
    (forward : Forward (.change change)) (applied : Applies registry change next)
    (handle : Handle) :
    seriesValue next.counters handle = counted handle (changes ++ [change]) := by
  rw [counted_concat, ← tallies handle]
  cases applied with
  | counter admitted => exact seriesValue_concat _ _ _ _ handle
  | @incBy counter v there =>
      have counts (series : Series) : (series.update counter.labels (asI64 v)).values =
          series.values.insert counter.labels
            (min ((series.values.lookup counter.labels).getD 0 + v.toNat) u64Max) := by
        have forwards : ¬ (v.toNat : Int) < 0 := by omega
        simp [Series.update, asI64_of_lt forward, forwards]
      have modified := seriesValue_modify there
        (fun entry => min (entry.getD 0 + v.toNat) u64Max) counts handle
      refine modified.trans ?_
      by_cases same : counter = handle
      · simp [Change.increment?, same]
      · simp [Change.increment?, same]
  | gauge => rfl
  | histogram => rfl
  | set => rfl
  | observe => rfl

theorem gauges_apply
    (tallies : ∀ handle, seriesValue registry.gauges handle = lastLevel handle changes)
    (applied : Applies registry change next) (handle : Handle) :
    seriesValue next.gauges handle = lastLevel handle (changes ++ [change]) := by
  rw [lastLevel_concat, ← tallies handle]
  cases applied with
  | gauge admitted => exact seriesValue_concat _ _ _ _ handle
  | @set gauge v there =>
      have sets (series : Series) : (series.set gauge.labels v.toNat).values =
          series.values.insert gauge.labels v.toNat := rfl
      have modified := seriesValue_modify there (fun _ => v.toNat) sets handle
      refine modified.trans ?_
      by_cases same : gauge = handle
      · simp [Change.level?, same]
      · simp [Change.level?, same]
  | counter => rfl
  | histogram => rfl
  | incBy => rfl
  | observe => rfl

theorem getD_tallied (buckets : List A) (handle : Handle) (changes : List (Change A)) :
    (tallied buckets handle changes).getD (HistogramSeries.fresh buckets.length) =
      .tally buckets (observations handle changes) := by
  unfold tallied
  split
  · next empty =>
      rw [List.isEmpty_iff.mp empty]
      rfl
  · rfl

/-- What was observed by one histogram so far does not say anything about the others. -/
theorem unobserved_apply
    (unobserved : ∀ handle : Handle, registry.histograms.length ≤ handle.series →
      observations handle changes = [])
    (applied : Applies registry change next) {handle : Handle}
    (outside : next.histograms.length ≤ handle.series) :
    observations handle (changes ++ [change]) = [] := by
  unfold observations at unobserved ⊢
  rw [filterMap_concat, List.append_eq_nil_iff]
  cases applied with
  | histogram admitted =>
      rw [List.length_append] at outside
      exact ⟨unobserved handle (Nat.le_of_add_right_le outside), rfl⟩
  | @observe histogram value there =>
      rw [Registry.observe, List.length_modify] at outside
      refine ⟨unobserved handle outside, ?_⟩
      have other : histogram ≠ handle := by
        rintro rfl
        exact absurd there (Nat.not_lt.mpr outside)
      simp [Change.observation?, other]
  | counter => exact ⟨unobserved handle outside, rfl⟩
  | gauge => exact ⟨unobserved handle outside, rfl⟩
  | incBy => exact ⟨unobserved handle outside, rfl⟩
  | set => exact ⟨unobserved handle outside, rfl⟩

theorem histograms_apply (tallies : registry.Tallies changes)
    (applied : Applies registry change next) (handle : Handle) :
    ∀ family ∈ next.histograms[handle.series]?, family.series.values.lookup handle.labels =
      tallied family.series.buckets handle (changes ++ [change]) := by
  intro family found
  rw [tallied_concat]
  cases applied with
  | @histogram thread name help labelNames buckets admitted =>
      rcases lt_or_ge handle.series registry.histograms.length with old | new
      · refine tallies.histograms handle family ?_
        exact (List.getElem?_append_left old).symm.trans found
      · have isNew := (List.getElem?_append_right new).symm.trans found
        rw [List.getElem?_singleton] at isNew
        obtain ⟨_, fresh⟩ := Option.ite_none_right_eq_some.mp isNew
        cases fresh
        have nothing : tallied (freshHistogram name help labelNames buckets).series.buckets handle
            changes = none := by
          rw [tallied, tallies.unobserved handle new]
          rfl
        exact (AList.lookup_empty handle.labels).trans nothing.symm
  | @observe histogram value there =>
      have modified := List.getElem?_modify (fun family : Family (HistogramSeries A) =>
        family.modify fun series => series.observe histogram.labels value)
        histogram.series registry.histograms handle.series
      obtain ⟨before, present, changed⟩ := Option.map_eq_some_iff.mp (modified.symm.trans found)
      have held := tallies.histograms handle before present
      by_cases sameFamily : histogram.series = handle.series
      · rw [if_pos sameFamily] at changed
        subst changed
        by_cases sameLabels : histogram.labels = handle.labels
        · have same : histogram = handle := by
            cases histogram
            cases handle
            simp_all
          subst same
          have read : (before.series.values.lookup histogram.labels).getD
              (HistogramSeries.fresh before.series.buckets.length) =
              .tally before.series.buckets (observations histogram changes) := by
            rw [held, getD_tallied]
          simp only [Change.observation?, if_true, Option.elim_some, Family.modify,
            HistogramSeries.observe, AList.lookup_insert, read]
          rw [HistogramValue.tally_concat]
        · have other : histogram ≠ handle := fun same => sameLabels (same ▸ rfl)
          simp only [Change.observation?, if_neg other, Option.elim_none]
          exact (AList.lookup_insert_ne (Ne.symm sameLabels)).trans held
      · rw [if_neg sameFamily] at changed
        subst changed
        have other : histogram ≠ handle := fun same => sameFamily (same ▸ rfl)
        simp only [Change.observation?, if_neg other, Option.elim_none]
        exact held
  | counter => exact tallies.histograms handle family found
  | gauge => exact tallies.histograms handle family found
  | incBy => exact tallies.histograms handle family found
  | set => exact tallies.histograms handle family found

theorem Registry.Tallies.apply (tallies : registry.Tallies changes)
    (forward : Forward (.change change)) (applied : Applies registry change next) :
    next.Tallies (changes ++ [change]) where
  counters := counters_apply tallies.counters forward applied
  gauges := gauges_apply tallies.gauges applied
  histograms := histograms_apply tallies applied
  unobserved := fun _ outside => unobserved_apply tallies.unobserved applied outside

end Apply

theorem Registry.Tallies.agrees {registry : Registry A} {changes : List (Change A)}
    (tallies : registry.Tallies changes) {index : Nat} {block : Block} {found : Found A}
    (family : registry.familyAt index block = some found) : found.Agrees index changes := by
  cases block with
  | counters =>
      obtain ⟨member, there, rfl⟩ := Option.map_eq_some_iff.mp family
      intro labels
      have value := tallies.counters ⟨index, labels⟩
      rwa [seriesValue, there] at value
  | gauges =>
      obtain ⟨member, there, rfl⟩ := Option.map_eq_some_iff.mp family
      intro labels
      have value := tallies.gauges ⟨index, labels⟩
      rwa [seriesValue, there] at value
  | histograms =>
      obtain ⟨member, there, rfl⟩ := Option.map_eq_some_iff.mp family
      exact fun labels => tallies.histograms ⟨index, labels⟩ member there

/-! ### Runs -/

def changesOf (entries : List (Entry A)) : List (Change A) := entries.filterMap Entry.change?

structure Tallied (recorded : State A × Past A) : Prop where
  tallies : recorded.1.registry.Tallies (changesOf recorded.2.entries)
  seen : ∀ before visit after, recorded.2.entries = before ++ .saw visit :: after →
    visit.found.Agrees visit.index (changesOf before)

omit [Amount A] in
theorem entry_of_concat {entries before after : List (Entry A)} {entry last : Entry A}
    (split : entries ++ [last] = before ++ entry :: after) :
    (entries = before ∧ last = entry) ∨ ∃ rest, entries = before ++ entry :: rest := by
  rcases List.eq_nil_or_concat after with rfl | ⟨rest, final, rfl⟩
  · obtain ⟨same, isLast⟩ := List.append_inj' split rfl
    exact .inl ⟨same, List.singleton_inj.mp isLast⟩
  · have regrouped : entries ++ [last] = (before ++ entry :: rest) ++ [final] := by
      simpa using split
    exact .inr ⟨rest, (List.append_inj' regrouped rfl).1⟩

theorem Tallied.changed {state : State A} {past : Past A} (tallied : Tallied (state, past))
    {change : Change A} {registry : Registry A} (forward : Forward (.change change))
    (applied : state.registry.apply change = some registry) :
    Tallied ({ state with registry := registry },
      { past with entries := past.entries ++ [.changed change] }) where
  tallies := by
    have grown := tallied.tallies.apply forward (applies_of_apply applied)
    have same : changesOf (past.entries ++ [.changed change]) =
        changesOf past.entries ++ [change] := by
      rw [changesOf, filterMap_concat]
      rfl
    rwa [← same] at grown
  seen := by
    intro before visit after split
    rcases entry_of_concat split with ⟨_, impossible⟩ | ⟨rest, old⟩
    · cases impossible
    · exact tallied.seen before visit rest old

theorem Tallied.step {recorded next : State A × Past A} {event : Event A}
    (tallied : Tallied recorded) (forward : Forward event)
    (stepped : (Metrics.recorded A).step recorded event = some next) : Tallied next := by
  obtain ⟨state, past⟩ := recorded
  obtain ⟨after, later⟩ := next
  cases moves_of_step stepped with
  | changes free applied => exact tallied.changed forward applied
  | begins => exact { tallies := tallied.tallies, seen := tallied.seen }
  | opens => exact { tallies := tallied.tallies, seen := tallied.seen }
  | @visits task iteration out block index found here family =>
      refine { tallies := ?_, seen := fun before visit after split => ?_ }
      · have same : changesOf (past.entries ++ [.saw ⟨task, iteration, block, index, found⟩]) =
            changesOf past.entries := by
          rw [changesOf, filterMap_concat]
          exact List.append_nil _
        exact same ▸ tallied.tallies
      · rcases entry_of_concat split with ⟨rfl, isVisit⟩ | ⟨rest, old⟩
        · cases isVisit
          exact tallied.tallies.agrees family
        · exact tallied.seen before visit rest old
  | closes => exact { tallies := tallied.tallies, seen := tallied.seen }

theorem tallied_of_run {recorded : State A × Past A}
    (run : (Metrics.recorded A).GuardedRun (fun _ event => Forward event) ({}, {}) recorded) :
    Tallied recorded := by
  refine run.invariant ?_ Tallied.step
  exact {
    tallies := ⟨fun _ => rfl, fun _ => rfl, fun _ _ found => (nomatch found), fun _ _ => rfl⟩
    seen := fun before visit after split =>
      absurd split.symm (List.append_ne_nil_of_right_ne_nil before (List.cons_ne_nil _ after)) }

/-- At every visit a counter is the sum of the increments before it, a gauge what it was last
set to, and a histogram the tally of what it observed. -/
theorem visits_see_totals {state : State A} {past : Past A}
    (run : (recorded A).GuardedRun (fun _ event => Forward event) ({}, {}) (state, past))
    {before after : List (Entry A)} {visit : Visit A}
    (entry : past.entries = before ++ .saw visit :: after) :
    visit.found.Agrees visit.index (changesOf before) :=
  (tallied_of_run run).seen before visit after entry

/-- A counter with a quote in its label, a gauge and a histogram, all of which go on after
the scrape has seen them. -/
theorem overtaken_scrapes_see_totals :
    let plainOrder : Iteration := ⟨id, fun _ => .refl _⟩
    let handle : Handle := ⟨0, ["u\"".toList]⟩
    let early : List (Change Nat) :=
      [.counter 0 "a".toList "h".toList ["p".toList], .gauge 0 "b".toList "h".toList ["p".toList],
        .histogram 0 "c".toList "h".toList ["p".toList] [1, 5],
        .incBy handle 2, .set handle 7, .observe handle 3]
    let late : List (Change Nat) := [.incBy handle 1, .set handle 8, .observe handle 1]
    let events : List (Event Nat) :=
      early.map .change ++ [.scrape, .openBlock 0, .visit 0 plainOrder, .closeBlock 0,
        .openBlock 0, .visit 0 plainOrder, .closeBlock 0, .openBlock 0, .visit 0 plainOrder] ++
        late.map .change
    ∃ state past counter gauge histogram,
      (recorded Nat).execWhile (fun _ event => Forward event) ({}, {}) events =
        some (state, past) ∧
      past.entries = early.map .changed ++ [.saw counter, .saw gauge, .saw histogram] ++
        late.map .changed ∧
      (counter.block = .counters ∧ counter.found.Agrees counter.index early) ∧
      (gauge.block = .gauges ∧ gauge.found.Agrees gauge.index early) ∧
      histogram.block = .histograms ∧ histogram.found.Agrees histogram.index early := by
  intro plainOrder handle early late events
  have executed : ∃ state past counter gauge histogram,
      (recorded Nat).execWhile (fun _ event => Forward event) ({}, {}) events =
        some (state, past) ∧
      past.entries = early.map .changed ++ [.saw counter, .saw gauge, .saw histogram] ++
        late.map .changed ∧
      counter.block = .counters ∧ gauge.block = .gauges ∧ histogram.block = .histograms :=
    ⟨_, _, _, _, _, rfl, rfl, rfl, rfl, rfl⟩
  obtain ⟨state, past, counter, gauge, histogram, taken, entries, isCounter, isGauge,
    isHistogram⟩ := executed
  have run := Machine.GuardedRun.of_execWhile .refl taken
  have first : past.entries = early.map .changed ++
      .saw counter :: ([.saw gauge, .saw histogram] ++ late.map .changed) := entries
  have second : past.entries = (early.map .changed ++ [.saw counter]) ++
      .saw gauge :: ([.saw histogram] ++ late.map .changed) := entries
  have third : past.entries = (early.map .changed ++ [.saw counter, .saw gauge]) ++
      .saw histogram :: late.map .changed := entries
  exact ⟨state, past, counter, gauge, histogram, taken, entries,
    ⟨isCounter, visits_see_totals run first⟩, ⟨isGauge, visits_see_totals run second⟩,
    isHistogram, visits_see_totals run third⟩

/-! ### From one scrape to another -/

/-- No series of a counter is lost, and none falls. -/
def Found.NeverFalls : Found A → Found A → Prop
  | .counter family, .counter later => ∀ labels, ∀ value ∈ family.series.values.lookup labels,
      ∃ grown ∈ later.series.values.lookup labels, value ≤ grown
  | _, _ => True

/-- A bucket holds what a lower one holds, and no more than was observed. -/
def Found.Cumulative : Found A → Prop
  | .histogram family => ∀ labels, ∀ value ∈ family.series.values.lookup labels,
      ∀ lower upper : Fin family.series.buckets.length,
        Amount.le (family.series.buckets.get lower) (family.series.buckets.get upper) = true →
        value.bucketCounts lower ≤ value.bucketCounts upper ∧
          value.bucketCounts upper ≤ value.count
  | _ => True

omit [Amount A] in
theorem counted_append {handle : Handle} {changes : List (Change A)} {value : Nat}
    (shown : counted handle changes = some value) (more : List (Change A)) :
    ∃ grown, counted handle (changes ++ more) = some grown ∧ value ≤ grown := by
  induction more using List.reverseRecOn with
  | nil => exact ⟨value, by rwa [List.append_nil], le_rfl⟩
  | append_singleton more change inductionHypothesis =>
      obtain ⟨grown, counts, below⟩ := inductionHypothesis
      rw [← List.append_assoc, counted_concat, counts]
      cases change.increment? handle with
      | none => exact ⟨grown, rfl, below⟩
      | some v =>
          -- what was counted so far is at most the greatest word
          have bounded : grown ≤ u64Max := by
            unfold counted at counts
            obtain ⟨_, isGrown⟩ := Option.ite_none_left_eq_some.mp counts
            have same := Option.some.inj isGrown
            omega
          exact ⟨_, rfl, below.trans (le_min (Nat.le_add_right grown v) bounded)⟩

theorem cumulative_tally {buckets observed : List A} (few : observed.length < 2 ^ 64)
    {lower upper : Fin buckets.length}
    (ordered : Amount.le (buckets.get lower) (buckets.get upper) = true) :
    (HistogramValue.tally buckets observed).bucketCounts lower ≤
        (HistogramValue.tally buckets observed).bucketCounts upper ∧
      (HistogramValue.tally buckets observed).bucketCounts upper ≤
        (HistogramValue.tally buckets observed).count := by
  have within (i : Fin buckets.length) :
      observed.countP (fun value => Amount.le value (buckets.get i)) ≤ observed.length :=
    List.countP_le_length
  have more : observed.countP (fun value => Amount.le value (buckets.get lower)) ≤
      observed.countP (fun value => Amount.le value (buckets.get upper)) :=
    List.countP_mono_left fun _ _ below => Amount.le_trans below ordered
  have lowerFits := (within lower).trans_lt few
  have upperFits := (within upper).trans_lt few
  simp only [HistogramValue.tally, Nat.mod_eq_of_lt few, Nat.mod_eq_of_lt lowerFits,
    Nat.mod_eq_of_lt upperFits]
  exact ⟨more, within upper⟩

theorem neverFalls_of_agrees {index : Nat} {changes more : List (Change A)}
    {first second : Found A} (early : first.Agrees index changes)
    (late : second.Agrees index (changes ++ more)) : first.NeverFalls second := by
  cases first with
  | counter family =>
      cases second with
      | counter later =>
          intro labels value shown
          obtain ⟨sum, counts, below⟩ := counted_append ((early labels).symm.trans shown) more
          exact ⟨sum, (late labels).trans counts, below⟩
      | gauge => trivial
      | histogram => trivial
  | gauge => trivial
  | histogram => trivial

theorem cumulative_of_agrees {index : Nat} {changes : List (Change A)} {found : Found A}
    (agrees : found.Agrees index changes) (few : changes.length < 2 ^ 64) : found.Cumulative := by
  cases found with
  | counter => trivial
  | gauge => trivial
  | histogram family =>
      intro labels value shown lower upper ordered
      have isTally := (agrees labels).symm.trans shown
      obtain ⟨_, isValue⟩ := Option.ite_none_left_eq_some.mp isTally
      rw [← Option.some.inj isValue]
      exact cumulative_tally ((List.length_filterMap_le _ _).trans_lt few) ordered

/-- From one visit of a counter to a later one no series of it falls, and the buckets of a
histogram are cumulative at every visit. -/
theorem scraped_counts_ordered {state : State A} {past : Past A}
    (run : (recorded A).GuardedRun (fun _ event => Forward event) ({}, {}) (state, past))
    (few : past.entries.length < 2 ^ 64) :
    (∀ before between after first second,
      past.entries = before ++ .saw first :: between ++ .saw second :: after →
        first.index = second.index → first.found.NeverFalls second.found) ∧
    ∀ visit, .saw visit ∈ past.entries → visit.found.Cumulative := by
  have tallied := tallied_of_run run
  constructor
  · intro before between after first second entries same
    have early := tallied.seen before first _ (entries.trans (List.append_assoc _ _ _))
    have late := tallied.seen (before ++ .saw first :: between) second after entries
    have grown : changesOf (before ++ .saw first :: between) =
        changesOf before ++ changesOf between := List.filterMap_append
    rw [grown, ← same] at late
    exact neverFalls_of_agrees early late
  · intro visit member
    obtain ⟨before, after, entries⟩ := List.append_of_mem member
    apply cumulative_of_agrees (tallied.seen before visit after entries)
    calc (changesOf before).length
        ≤ before.length := List.length_filterMap_le _ _
      _ ≤ past.entries.length := by simp [entries]
      _ < 2 ^ 64 := few

/-- A counter and a histogram are scraped twice, side by side. -/
theorem overlapping_scrapes_ordered :
    let plainOrder : Iteration := ⟨id, fun _ => .refl _⟩
    let handle : Handle := ⟨0, ["u".toList]⟩
    let early : List (Change Nat) :=
      [.counter 0 "a".toList "h".toList ["p".toList],
        .histogram 0 "c".toList "h".toList ["p".toList] [1, 5],
        .incBy handle 2, .observe handle 3]
    let events : List (Event Nat) :=
      early.map .change ++ [.scrape, .scrape, .openBlock 0, .visit 0 plainOrder,
        .change (.incBy handle 1), .closeBlock 0, .openBlock 1, .visit 1 plainOrder,
        .openBlock 0, .closeBlock 0, .openBlock 0, .visit 0 plainOrder]
    ∃ state past first second histogram,
      (recorded Nat).execWhile (fun _ event => Forward event) ({}, {}) events =
        some (state, past) ∧
      past.entries = early.map .changed ++ .saw first :: [.changed (.incBy handle 1)] ++
          .saw second :: [.saw histogram] ∧
      first.found.NeverFalls second.found ∧
      histogram.block = .histograms ∧ histogram.found.Cumulative := by
  intro plainOrder handle early events
  have executed : ∃ state past first second histogram,
      (recorded Nat).execWhile (fun _ event => Forward event) ({}, {}) events =
        some (state, past) ∧
      past.entries = early.map .changed ++ .saw first :: [.changed (.incBy handle 1)] ++
          .saw second :: [.saw histogram] ∧
      first.index = second.index ∧ histogram.block = .histograms :=
    ⟨_, _, _, _, _, rfl, rfl, rfl, rfl⟩
  obtain ⟨state, past, first, second, histogram, taken, entries, same, isHistogram⟩ := executed
  have run := Machine.GuardedRun.of_execWhile .refl taken
  have few : past.entries.length < 2 ^ 64 := by
    rw [entries]
    simp [early]
  have ordered := scraped_counts_ordered run few
  refine ⟨state, past, first, second, histogram, taken, entries,
    ordered.1 _ _ _ first second entries same, isHistogram, ordered.2 histogram ?_⟩
  rw [entries]
  simp

end Rsdns.Metrics
