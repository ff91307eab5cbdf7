import Rsdns.Metrics.Runs

/-!
# Every scrape can be read back

Whatever is registered and counted while a scrape runs, its text is that of the families it
saw, and reads back as their items.  It goes through the blocks one after the other and
leaves out no family that was there when it began.
-/

namespace Rsdns.Metrics

open Exposition

variable {A : Type} [Amount A]

/-! ### Registries of plain families -/

/-- All families can be read back. -/
structure Registry.Plain (registry : Registry A) : Prop where
  counters : ∀ family ∈ registry.counters,
    family.Plain ∧ Labelled family.series.labelNames family.series.values
  gauges : ∀ family ∈ registry.gauges,
    family.Plain ∧ Labelled family.series.labelNames family.series.values
  histograms : ∀ family ∈ registry.histograms,
    family.Plain ∧ Labelled family.series.labelNames family.series.values

/-- Help texts keep to one line, label names are plain, and a handle has as many label values
as its family has label names. -/
def Registry.Suits (registry : Registry A) : Change A → Prop
  | .counter _ _ help labelNames => IsLine help ∧ ∀ label ∈ labelNames, IsName label
  | .gauge _ _ help labelNames => IsLine help ∧ ∀ label ∈ labelNames, IsName label
  | .histogram _ _ help labelNames _ => IsLine help ∧ ∀ label ∈ labelNames, IsName label
  | .incBy counter _ => ∀ family ∈ registry.counters[counter.series]?,
      counter.labels.length = family.series.labelNames.length
  | .set gauge _ => ∀ family ∈ registry.gauges[gauge.series]?,
      gauge.labels.length = family.series.labelNames.length
  | .observe histogram _ => ∀ family ∈ registry.histograms[histogram.series]?,
      histogram.labels.length = family.series.labelNames.length

omit [Amount A] in
theorem isName_of_admits {registry : Registry A} {thread : Nat} {name : Text}
    (admitted : registry.admits thread name = true) : IsName name := by
  have valid : validateMetricName name = true := (Bool.and_eq_true_iff.mp admitted).1
  obtain ⟨nonempty, plain⟩ := Bool.and_eq_true_iff.mp valid
  exact ⟨by simpa using nonempty, plain⟩

theorem forall_mem_modify {S : Type} {families : List S} {property : S → Prop}
    (all : ∀ family ∈ families, property family) {index : Nat} {change : S → S}
    (kept : ∀ family ∈ families[index]?, property family → property (change family)) :
    ∀ family ∈ families.modify index change, property family := by
  intro family member
  obtain ⟨place, found⟩ := List.mem_iff_getElem?.mp member
  rw [List.getElem?_modify] at found
  obtain ⟨before, there, rfl⟩ := Option.map_eq_some_iff.mp found
  have held := all before (List.mem_of_getElem? there)
  split
  · next same => exact kept before (same ▸ there) held
  · exact held

theorem Labelled.insert {Value : List Text → Type} {labelNames labels : List Text}
    {values : AList Value} (labelled : Labelled labelNames values)
    (same : labels.length = labelNames.length) (value : Value labels) :
    Labelled labelNames (values.insert labels value) where
  named := labelled.named
  matched := by
    intro other member
    rcases (AList.mem_insert values).mp member with rfl | present
    · exact same
    · exact labelled.matched other present

theorem Labelled.empty {Value : List Text → Type} {labelNames : List Text}
    (named : ∀ label ∈ labelNames, IsName label) :
    Labelled labelNames (∅ : AList Value) where
  named := named
  matched := fun labels present => absurd present (AList.notMem_empty labels)

theorem Registry.Plain.apply {registry next : Registry A} {change : Change A}
    (plain : registry.Plain) (suits : registry.Suits change)
    (applied : Applies registry change next) : next.Plain := by
  cases applied with
  | counter admitted =>
      refine { plain with counters := ?_ }
      intro family member
      rcases List.mem_append.mp member with old | new
      · exact plain.counters family old
      · rw [List.mem_singleton.mp new]
        exact ⟨⟨isName_of_admits admitted, suits.1⟩, .empty suits.2⟩
  | gauge admitted =>
      refine { plain with gauges := ?_ }
      intro family member
      rcases List.mem_append.mp member with old | new
      · exact plain.gauges family old
      · rw [List.mem_singleton.mp new]
        exact ⟨⟨isName_of_admits admitted, suits.1⟩, .empty suits.2⟩
  | histogram admitted =>
      refine { plain with histograms := ?_ }
      intro family member
      rcases List.mem_append.mp member with old | new
      · exact plain.histograms family old
      · rw [List.mem_singleton.mp new]
        exact ⟨⟨isName_of_admits admitted, suits.1⟩, .empty suits.2⟩
  | incBy there =>
      exact { plain with
        counters := forall_mem_modify plain.counters fun family found held =>
          ⟨⟨held.1.name, held.1.help⟩, held.2.insert (suits family found) _⟩ }
  | set there =>
      exact { plain with
        gauges := forall_mem_modify plain.gauges fun family found held =>
          ⟨⟨held.1.name, held.1.help⟩, held.2.insert (suits family found) _⟩ }
  | observe there =>
      exact { plain with
        histograms := forall_mem_modify plain.histograms fun family found held =>
          ⟨⟨held.1.name, held.1.help⟩, held.2.insert (suits family found) _⟩ }

theorem Registry.Plain.found {registry : Registry A} (plain : registry.Plain) {index : Nat}
    {block : Block} {found : Found A} (family : registry.familyAt index block = some found)
    (iteration : Iteration) :
    (∀ item ∈ found.items iteration, item.WellFormed) ∧
      ∀ out, found.emit iteration out = out ++ writeItems (found.items iteration) := by
  cases block with
  | counters =>
      obtain ⟨member, there, rfl⟩ := Option.map_eq_some_iff.mp family
      obtain ⟨held, labelled⟩ := plain.counters member (List.mem_of_getElem? there)
      exact ⟨held.items labelled (by decide) iteration, emitFamily_eq labelled _ iteration⟩
  | gauges =>
      obtain ⟨member, there, rfl⟩ := Option.map_eq_some_iff.mp family
      obtain ⟨held, labelled⟩ := plain.gauges member (List.mem_of_getElem? there)
      exact ⟨held.items labelled (by decide) iteration, emitFamily_eq labelled _ iteration⟩
  | histograms =>
      obtain ⟨member, there, rfl⟩ := Option.map_eq_some_iff.mp family
      obtain ⟨held, labelled⟩ := plain.histograms member (List.mem_of_getElem? there)
      exact ⟨held.histogramItems labelled iteration, emitHistogramFamily_eq labelled iteration⟩

/-! ### The way of a scrape -/

def Block.rank : Block → Nat
  | .counters => 0
  | .gauges => 1
  | .histograms => 2

/-- The places of the first families of each block, as many as are counted. -/
def pathOf (count : Block → Nat) : List (Block × Nat) :=
  Block.all.flatMap fun block => (List.range (count block)).map (block, ·)

def Visit.place (self : Visit A) : Block × Nat := (self.block, self.index)

/-- What a scrape has counted at its stage, of the families that had begun with it. -/
def Stage.Reached (begun count : Block → Nat) : Stage → Prop
  | .opening block => ∀ other, (other.rank < block.rank → begun other ≤ count other) ∧
      (block.rank ≤ other.rank → count other = 0)
  | .reading block index => ∀ other, (other.rank < block.rank → begun other ≤ count other) ∧
      (other = block → count other = index) ∧ (block.rank < other.rank → count other = 0)
  | .finished => ∀ other, begun other ≤ count other

theorem pathOf_update {count : Block → Nat} {block : Block}
    (later : ∀ other, block.rank < other.rank → count other = 0) :
    pathOf (Function.update count block (count block + 1)) =
      pathOf count ++ [(block, count block)] := by
  cases block with
  | counters =>
      have gauges : count .gauges = 0 := later .gauges (by decide)
      have histograms : count .histograms = 0 := later .histograms (by decide)
      simp [pathOf, Block.all, List.range_succ, gauges, histograms]
  | gauges =>
      have histograms : count .histograms = 0 := later .histograms (by decide)
      simp [pathOf, Block.all, List.range_succ, histograms]
  | histograms => simp [pathOf, Block.all, List.range_succ]

theorem Block.rank_injective {first second : Block} (same : first.rank = second.rank) :
    first = second := by
  cases first <;> cases second <;> first | rfl | cases same

theorem Block.next_spec (block : Block) :
    (∀ next, block.next = some next → next.rank = block.rank + 1) ∧
      (block.next = none → ∀ other : Block, other.rank ≤ block.rank) := by
  cases block with
  | counters => exact ⟨fun _ same => by cases same; rfl, fun none => nomatch none⟩
  | gauges => exact ⟨fun _ same => by cases same; rfl, fun none => nomatch none⟩
  | histograms =>
      refine ⟨fun _ same => (nomatch same), fun _ other => ?_⟩
      cases other <;> decide

namespace Stage.Reached

variable {begun count : Block → Nat} {block : Block} {index : Nat}

theorem opens (reached : Stage.Reached begun count (.opening block)) :
    Stage.Reached begun count (.reading block 0) :=
  fun other => ⟨(reached other).1, fun same => (reached other).2 (same ▸ le_rfl),
    fun later => (reached other).2 later.le⟩

theorem visits (reached : Stage.Reached begun count (.reading block index)) :
    Stage.Reached begun (Function.update count block (index + 1)) (.reading block (index + 1)) := by
  intro other
  refine ⟨fun earlier => ?_, fun same => ?_, fun later => ?_⟩
  · rw [Function.update_of_ne (by rintro rfl; exact lt_irrefl _ earlier)]
    exact (reached other).1 earlier
  · rw [same, Function.update_self]
  · rw [Function.update_of_ne (by rintro rfl; exact lt_irrefl _ later)]
    exact (reached other).2.2 later

theorem closes (reached : Stage.Reached begun count (.reading block index))
    (all : begun block ≤ index) :
    Stage.Reached begun count (block.next.elim .finished Stage.opening) := by
  have through (other : Block) (upTo : other.rank ≤ block.rank) : begun other ≤ count other := by
    rcases upTo.lt_or_eq with earlier | same
    · exact (reached other).1 earlier
    · rw [Block.rank_injective same, (reached block).2.1 rfl]
      exact all
  obtain ⟨follows, last⟩ := block.next_spec
  cases isNext : block.next with
  | none => exact fun other => through other (last isNext other)
  | some next =>
      have rank := follows next isNext
      exact fun other => ⟨fun earlier => through other (by omega),
        fun later => (reached other).2.2 (by omega)⟩

end Stage.Reached

/-! ### Runs -/

/-- A step whose change, if it is one, suits the registry. -/
def Proper (recorded : State A × Past A) : Event A → Prop
  | .change change => recorded.1.registry.Suits change
  | _ => True

/-- What the past says about one scrape. -/
structure Traced (registry : Registry A) (past : Past A) (task : Nat) (scrape : Scrape) :
    Prop where
  written : scrape.out = writeItems ((past.visitsOf task).flatMap Visit.items)
  covered : ∃ begun count, past.begun[task]? = some begun ∧
    (∀ block, begun block ≤ registry.familyCount block) ∧
    (past.visitsOf task).map Visit.place = pathOf count ∧ scrape.stage.Reached begun count

structure Readable (recorded : State A × Past A) : Prop where
  plain : recorded.1.registry.Plain
  formed : ∀ visit ∈ recorded.2.visits, ∀ item ∈ visit.items, item.WellFormed
  known : ∀ visit ∈ recorded.2.visits, visit.task < recorded.1.scrapes.length
  begun : recorded.2.begun.length = recorded.1.scrapes.length
  traced : ∀ task scrape, recorded.1.scrapes[task]? = some scrape →
    Traced recorded.1.registry recorded.2 task scrape

omit [Amount A] in
theorem Past.visits_changed (past : Past A) (change : Change A) :
    Past.visits { past with entries := past.entries ++ [.changed change] } = past.visits := by
  simp [Past.visits, Entry.visit?]

omit [Amount A] in
theorem Past.visits_saw (past : Past A) (visit : Visit A) :
    Past.visits { past with entries := past.entries ++ [.saw visit] } =
      past.visits ++ [visit] := by
  simp [Past.visits, Entry.visit?]

theorem familyCount_apply {registry next : Registry A} {change : Change A}
    (applied : Applies registry change next) (block : Block) :
    registry.familyCount block ≤ next.familyCount block := by
  cases applied <;> cases block <;>
    simp [Registry.familyCount, Registry.incBy, Registry.set, Registry.observe]

omit [Amount A] in
theorem Past.visitsOf_saw (past : Past A) (visit : Visit A) (task : Nat) :
    Past.visitsOf { past with entries := past.entries ++ [.saw visit] } task =
      past.visitsOf task ++ if visit.task = task then [visit] else [] := by
  simp only [Past.visitsOf, Past.visits_saw, List.filter_append, List.filter_singleton,
    Bool.cond_decide]

theorem Readable.moved {state : State A} {past : Past A} (readable : Readable (state, past))
    {task : Nat} {out : Text} {before after : Stage}
    (here : state.scrapes[task]? = some ⟨out, before⟩)
    (reaches : ∀ begun count, (∀ block, begun block ≤ state.registry.familyCount block) →
      before.Reached begun count → after.Reached begun count) :
    Readable (state.goOn task ⟨out, after⟩, past) where
  plain := readable.plain
  formed := readable.formed
  known := by
    intro visit member
    rw [State.goOn, List.length_set]
    exact readable.known visit member
  begun := by
    rw [State.goOn, List.length_set]
    exact readable.begun
  traced := by
    intro other scrape there
    rcases getElem?_goOn here there with ⟨rfl, rfl⟩ | ⟨_, old⟩
    · obtain ⟨written, begun, count, began, bound, path, reached⟩ := readable.traced _ _ here
      exact ⟨written, begun, count, began, bound, path, reaches begun count bound reached⟩
    · exact readable.traced other scrape old

theorem Readable.visited {state : State A} {past : Past A} (readable : Readable (state, past))
    {task : Nat} {out : Text} {block : Block} {index : Nat} {found : Found A}
    (here : state.scrapes[task]? = some ⟨out, .reading block index⟩)
    (family : state.registry.familyAt index block = some found) (iteration : Iteration) :
    Readable (state.goOn task ⟨found.emit iteration out, .reading block (index + 1)⟩,
      { past with entries := past.entries ++ [.saw ⟨task, iteration, block, index, found⟩] }) := by
  obtain ⟨formed, emitted⟩ := readable.plain.found family iteration
  obtain ⟨inside, _⟩ := List.getElem?_eq_some_iff.mp here
  refine {
    plain := readable.plain
    formed := ?_, known := ?_, begun := ?_, traced := ?_ }
  · intro visit member
    rw [Past.visits_saw] at member
    rcases List.mem_append.mp member with old | new
    · exact readable.formed visit old
    · rw [List.mem_singleton.mp new]
      exact formed
  · intro visit member
    rw [Past.visits_saw] at member
    rw [State.goOn, List.length_set]
    rcases List.mem_append.mp member with old | new
    · exact readable.known visit old
    · rw [List.mem_singleton.mp new]
      exact inside
  · rw [State.goOn, List.length_set]
    exact readable.begun
  · intro other scrape there
    rcases getElem?_goOn here there with ⟨rfl, rfl⟩ | ⟨another, old⟩
    · obtain ⟨written, begun, count, began, bound, path, reached⟩ := readable.traced _ _ here
      have counted : count block = index := (reached block).2.1 rfl
      refine ⟨?_, begun, Function.update count block (index + 1), began, bound, ?_,
        reached.visits⟩
      · have isOut : out = writeItems ((past.visitsOf other).flatMap Visit.items) := written
        rw [Past.visitsOf_saw, if_pos rfl, List.flatMap_append, writeItems_append, ← isOut,
          List.flatMap_singleton]
        exact emitted out
      · have longer := pathOf_update fun other later => (reached other).2.2 later
        rw [counted] at longer
        rw [Past.visitsOf_saw, if_pos rfl, List.map_append, path, longer]
        rfl
    · obtain ⟨written, begun, count, began, bound, path, reached⟩ :=
        readable.traced other scrape old
      have same : Past.visitsOf { past with
          entries := past.entries ++ [.saw ⟨task, iteration, block, index, found⟩] } other =
          past.visitsOf other := by
        rw [Past.visitsOf_saw, if_neg (Ne.symm another), List.append_nil]
      exact ⟨by rw [same]; exact written, begun, count, began, bound, by rw [same]; exact path,
        reached⟩

theorem Readable.began {state : State A} {past : Past A} (readable : Readable (state, past)) :
    Readable ({ state with scrapes := state.scrapes ++ [{}] },
      { past with begun := past.begun ++ [state.registry.familyCount] }) where
  plain := readable.plain
  formed := readable.formed
  known := by
    intro visit member
    rw [List.length_append]
    exact Nat.lt_add_right _ (readable.known visit member)
  begun := by
    have same : past.begun.length = state.scrapes.length := readable.begun
    rw [List.length_append, List.length_append, same]
    rfl
  traced := by
    intro task scrape there
    have same : past.begun.length = state.scrapes.length := readable.begun
    rcases lt_or_ge task state.scrapes.length with old | new
    · rw [List.getElem?_append_left old] at there
      obtain ⟨written, begun, count, began, bound, path, reached⟩ :=
        readable.traced task scrape there
      exact ⟨written, begun, count,
        (List.getElem?_append_left (same ▸ old)).trans began, bound, path, reached⟩
    · rw [List.getElem?_append_right new, List.getElem?_singleton] at there
      obtain ⟨isNew, fresh⟩ := Option.ite_none_right_eq_some.mp there
      cases fresh
      have isTask : task = past.begun.length := by omega
      have unseen : past.visitsOf task = [] :=
        List.filter_eq_nil_iff.mpr fun visit member seen => by
          have known := readable.known visit member
          have isVisit : visit.task = task := of_decide_eq_true seen
          exact absurd new (by rw [← isVisit]; exact Nat.not_le.mpr known)
      refine ⟨?_, state.registry.familyCount, fun _ => 0, ?_, fun _ => le_rfl, ?_, ?_⟩
      · exact (congrArg (fun visits => writeItems (visits.flatMap Visit.items)) unseen).symm
      · rw [isTask, List.getElem?_concat_length]
      · exact congrArg (List.map Visit.place) unseen
      · exact fun other => ⟨fun earlier => absurd earlier (Nat.not_lt_zero _), fun _ => rfl⟩

theorem Readable.step {recorded next : State A × Past A} {event : Event A}
    (readable : Readable recorded) (proper : Proper recorded event)
    (stepped : (Metrics.recorded A).step recorded event = some next) : Readable next := by
  obtain ⟨state, past⟩ := recorded
  obtain ⟨after, later⟩ := next
  cases moves_of_step stepped with
  | @changes change registry free applied =>
      have applies := applies_of_apply applied
      refine {
        plain := readable.plain.apply proper applies
        formed := ?_, known := ?_
        begun := readable.begun
        traced := ?_ }
      · rw [Past.visits_changed]
        exact readable.formed
      · rw [Past.visits_changed]
        exact readable.known
      · intro task scrape there
        obtain ⟨written, begun, count, here, bound, path, reached⟩ :=
          readable.traced task scrape there
        have same : Past.visitsOf { past with entries := past.entries ++ [.changed change] } task =
            past.visitsOf task := by
          simp only [Past.visitsOf, Past.visits_changed]
        refine ⟨by rw [same]; exact written, begun, count, here, fun block => ?_, ?_, reached⟩
        · exact (bound block).trans (familyCount_apply applies block)
        · rw [same]
          exact path
  | begins => exact readable.began
  | opens here free => exact readable.moved here fun _ _ _ reached => reached.opens
  | visits here family => exact readable.visited here family _
  | closes here => exact readable.moved here fun _ _ bound reached => reached.closes (bound _)

/-- The text of a scrape reads back as the items of the families that it saw, and when it has
finished it has seen, in order, at least the families that there were when it began. -/
theorem scrapes_read_back {state : State A} {past : Past A}
    (run : (recorded A).GuardedRun Proper ({}, {}) (state, past))
    {task : Nat} {scrape : Scrape} (there : state.scrapes[task]? = some scrape) :
    readItems scrape.out = some ((past.visitsOf task).flatMap Visit.items) ∧
      (scrape.stage = .finished → ∃ begun count, past.begun[task]? = some begun ∧
        (∀ block, begun block ≤ count block) ∧
        (past.visitsOf task).map Visit.place = pathOf count) := by
  have readable : Readable (state, past) := by
    refine run.invariant ?_ Readable.step
    exact { plain := ⟨nofun, nofun, nofun⟩, formed := nofun, known := nofun, begun := rfl,
            traced := fun _ _ there => nomatch there }
  obtain ⟨written, begun, count, began, _, path, reached⟩ := readable.traced task scrape there
  refine ⟨?_, fun finished => ?_⟩
  · rw [written]
    apply readItems_writeItems
    intro item member
    obtain ⟨visit, isVisit, inside⟩ := List.mem_flatMap.mp member
    exact readable.formed visit (List.mem_of_mem_filter isVisit) item inside
  · rw [finished] at reached
    exact ⟨begun, count, began, reached, path⟩

instance (registry : Registry A) (change : Change A) : Decidable (registry.Suits change) :=
  match change with
  | .counter .. | .gauge .. | .histogram .. => inferInstanceAs (Decidable (_ ∧ _))
  | .incBy .. | .set .. | .observe .. => inferInstanceAs (Decidable (∀ _ ∈ (_ : Option _), _))

instance (recorded : State A × Past A) : (event : Event A) → Decidable (Proper recorded event)
  | .change change => inferInstanceAs (Decidable (recorded.1.registry.Suits change))
  | .scrape | .openBlock _ | .visit .. | .closeBlock _ => isTrue trivial

/-- A counter goes on between the visit of a scrape and its end. -/
theorem overtaken_scrape_reads_back :
    let plainOrder : Iteration := ⟨id, fun _ => .refl _⟩
    let handle : Handle := ⟨0, ["u".toList]⟩
    let events : List (Event Nat) :=
      [.change (.counter 0 "a".toList "h".toList ["p".toList]), .change (.incBy handle 2),
        .scrape, .openBlock 0, .visit 0 plainOrder, .change (.incBy handle 1), .closeBlock 0,
        .openBlock 0, .closeBlock 0, .openBlock 0, .closeBlock 0]
    ∃ state past scrape,
      (recorded Nat).execWhile Proper ({}, {}) events = some (state, past) ∧
      state.scrapes[0]? = some scrape ∧
      scrape.out = "# HELP a h\n# TYPE a counter\na\x7bp=\"u\"\x7d 2\n".toList ∧
      readItems scrape.out = some ((past.visitsOf 0).flatMap Visit.items) := by
  intro plainOrder handle events
  have checked : ((recorded Nat).execWhile Proper ({}, {}) events).any (fun recorded =>
      recorded.1.scrapes[0]?.any fun scrape => decide (scrape.stage = .finished) &&
        decide (scrape.out =
          "# HELP a h\n# TYPE a counter\na\x7bp=\"u\"\x7d 2\n".toList)) = true := by
    decide +kernel
  obtain ⟨⟨state, past⟩, executed, ends⟩ := (Option.any_eq_true _ _).mp checked
  obtain ⟨scrape, there, written⟩ := (Option.any_eq_true _ _).mp ends
  have text := of_decide_eq_true (Bool.and_eq_true_iff.mp written).2
  have run := Machine.GuardedRun.of_execWhile .refl executed
  exact ⟨state, past, scrape, executed, there, text, (scrapes_read_back run there).1⟩

end Rsdns.Metrics
