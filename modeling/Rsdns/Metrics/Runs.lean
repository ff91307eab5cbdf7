import Rsdns.Library.Machine
import Rsdns.Metrics.Scrape

/-!
# Scrapes beside everything else

A scrape holds the lock of one block of families at a time and looks into one series at a
time, so counters go on while it runs.  What was registered and counted, and the families
that scrapes saw, are recorded in order.
-/

namespace Rsdns.Metrics

open Exposition

variable {A : Type} [Amount A]

inductive Block where
  | counters
  | gauges
  | histograms
  deriving DecidableEq

def Block.all : List Block := [.counters, .gauges, .histograms]

def Block.next : Block → Option Block
  | .counters => some .gauges
  | .gauges => some .histograms
  | .histograms => none

/-- How far a scrape has come: it waits for the lock of a block, or is about to look at the
family of this index. -/
inductive Stage where
  | opening (block : Block)
  | reading (block : Block) (index : Nat)
  | finished
  deriving DecidableEq

structure Scrape where
  out : Text := []
  stage : Stage := .opening .counters

structure State (A : Type) where
  registry : Registry A := {}
  scrapes : List Scrape := []

/-- Registrations, with the thread they run on, and what is counted. -/
inductive Change (A : Type) where
  | counter (thread : Nat) (name help : Text) (labelNames : List Text)
  | gauge (thread : Nat) (name help : Text) (labelNames : List Text)
  | histogram (thread : Nat) (name help : Text) (labelNames : List Text) (buckets : List A)
  | incBy (counter : Handle) (v : UInt64)
  | set (gauge : Handle) (v : UInt64)
  | observe (histogram : Handle) (value : A)

/-- What comes from outside: a change, or which of the scrapes goes on. -/
inductive Event (A : Type) where
  | change (change : Change A)
  | scrape
  | openBlock (task : Nat)
  | visit (task : Nat) (iteration : Iteration)
  | closeBlock (task : Nat)

/-! ### Families of any kind -/

inductive Found (A : Type) where
  | counter (family : Family Series)
  | gauge (family : Family Series)
  | histogram (family : Family (HistogramSeries A))

namespace Found

def emit (iteration : Iteration) (out : Text) : Found A → Text
  | .counter family => emitFamily "counter".toList iteration out family
  | .gauge family => emitFamily "gauge".toList iteration out family
  | .histogram family => emitHistogramFamily iteration out family

def items (iteration : Iteration) : Found A → List Item
  | .counter family => family.items "counter".toList iteration
  | .gauge family => family.items "gauge".toList iteration
  | .histogram family => family.histogramItems iteration

end Found

namespace Registry

def familyCount (self : Registry A) : Block → Nat
  | .counters => self.counters.length
  | .gauges => self.gauges.length
  | .histograms => self.histograms.length

def familyAt (self : Registry A) (index : Nat) : Block → Option (Found A)
  | .counters => self.counters[index]?.map .counter
  | .gauges => self.gauges[index]?.map .gauge
  | .histograms => self.histograms[index]?.map .histogram

/-- A handle was given out by the registry, so its family is there. -/
def apply (self : Registry A) : Change A → Option (Registry A)
  | .counter thread name help labelNames =>
      (self.counter thread name help labelNames).map Prod.snd
  | .gauge thread name help labelNames => (self.gauge thread name help labelNames).map Prod.snd
  | .histogram thread name help labelNames buckets =>
      (self.histogram thread name help labelNames buckets).map Prod.snd
  | .incBy counter v =>
      if counter.series < self.counters.length then some (self.incBy counter v) else none
  | .set gauge v =>
      if gauge.series < self.gauges.length then some (self.set gauge v) else none
  | .observe histogram value =>
      if histogram.series < self.histograms.length then some (self.observe histogram value)
      else none

end Registry

/-- A registration takes the lock of its block. -/
def Change.block? : Change A → Option Block
  | .counter .. => some .counters
  | .gauge .. => some .gauges
  | .histogram .. => some .histograms
  | _ => none

/-! ### The machine -/

def Stage.holds (block : Block) : Stage → Bool
  | .reading held _ => held = block
  | _ => false

namespace State

def locked (self : State A) (block : Block) : Bool :=
  self.scrapes.any fun scrape => scrape.stage.holds block

def goOn (self : State A) (task : Nat) (scrape : Scrape) : State A :=
  { self with scrapes := self.scrapes.set task scrape }

def change (self : State A) (change : Change A) : Option (State A) :=
  if change.block?.any self.locked then none
  else (self.registry.apply change).map fun registry => { self with registry := registry }

def openBlock (self : State A) (task : Nat) : Option (State A) :=
  match self.scrapes[task]? with
  | some ⟨out, .opening block⟩ =>
      if self.locked block then none else some (self.goOn task ⟨out, .reading block 0⟩)
  | _ => none

def visit (self : State A) (task : Nat) (iteration : Iteration) : Option (State A) :=
  match self.scrapes[task]? with
  | some ⟨out, .reading block index⟩ =>
      (self.registry.familyAt index block).map fun found =>
        self.goOn task ⟨found.emit iteration out, .reading block (index + 1)⟩
  | _ => none

/-- All families of the block are through, and its lock is let go. -/
def closeBlock (self : State A) (task : Nat) : Option (State A) :=
  match self.scrapes[task]? with
  | some ⟨out, .reading block index⟩ =>
      if index = self.registry.familyCount block then
        some (self.goOn task ⟨out, block.next.elim .finished Stage.opening⟩)
      else none
  | _ => none

def step (self : State A) : Event A → Option (State A)
  | .change change => self.change change
  | .scrape => some { self with scrapes := self.scrapes ++ [{}] }
  | .openBlock task => self.openBlock task
  | .visit task iteration => self.visit task iteration
  | .closeBlock task => self.closeBlock task

end State

def machine (A : Type) [Amount A] : Machine (State A) (Event A) where
  step := State.step

/-! ### The record -/

/-- A scrape saw a family. -/
structure Visit (A : Type) where
  task : Nat
  iteration : Iteration
  block : Block
  index : Nat
  found : Found A

inductive Entry (A : Type) where
  | changed (change : Change A)
  | saw (visit : Visit A)

namespace Entry

def change? : Entry A → Option (Change A)
  | .changed change => some change
  | .saw _ => none

def visit? : Entry A → Option (Visit A)
  | .changed _ => none
  | .saw visit => some visit

end Entry

def Visit.items (self : Visit A) : List Item := self.found.items self.iteration

/-- What a visit of this task sees. -/
def State.sight (self : State A) (task : Nat) (iteration : Iteration) : Option (Visit A) :=
  match self.scrapes[task]? with
  | some ⟨_, .reading block index⟩ =>
      (self.registry.familyAt index block).map fun found =>
        { task := task, iteration := iteration, block := block, index := index, found := found }
  | _ => none

/-- The changes and the visits so far, and how many families of each block there were when
each scrape began. -/
structure Past (A : Type) where
  entries : List (Entry A) := []
  begun : List (Block → Nat) := []

namespace Past

def note (state : State A) (event : Event A) (_ : State A) (past : Past A) : Past A :=
  match event with
  | .change change => { past with entries := past.entries ++ [.changed change] }
  | .scrape => { past with begun := past.begun ++ [state.registry.familyCount] }
  | .visit task iteration =>
      { past with
        entries := past.entries ++ ((state.sight task iteration).map Entry.saw).toList }
  | _ => past

def visits (self : Past A) : List (Visit A) := self.entries.filterMap Entry.visit?

def visitsOf (self : Past A) (task : Nat) : List (Visit A) :=
  self.visits.filter fun visit => visit.task = task

end Past

/-! ### What a change does -/

def freshFamily (name help : Text) (labelNames : List Text) : Family Series where
  name := name
  help := help
  series := { labelNames := labelNames, values := ∅ }

def freshHistogram (name help : Text) (labelNames : List Text) (buckets : List A) :
    Family (HistogramSeries A) where
  name := name
  help := help
  series := { labelNames := labelNames, buckets := buckets.mergeSort notAfter, values := ∅ }

/-- Everything a change can do to a registry. -/
inductive Applies (registry : Registry A) : Change A → Registry A → Prop where
  | counter {thread : Nat} {name help : Text} {labelNames : List Text}
      (admitted : registry.admits thread name = true) :
      Applies registry (.counter thread name help labelNames)
        { registry with
          registeredNames := registry.registeredNames ++ [(thread, name)]
          counters := registry.counters ++ [freshFamily name help labelNames] }
  | gauge {thread : Nat} {name help : Text} {labelNames : List Text}
      (admitted : registry.admits thread name = true) :
      Applies registry (.gauge thread name help labelNames)
        { registry with
          registeredNames := registry.registeredNames ++ [(thread, name)]
          gauges := registry.gauges ++ [freshFamily name help labelNames] }
  | histogram {thread : Nat} {name help : Text} {labelNames : List Text} {buckets : List A}
      (admitted : registry.admits thread name = true) :
      Applies registry (.histogram thread name help labelNames buckets)
        { registry with
          registeredNames := registry.registeredNames ++ [(thread, name)]
          histograms := registry.histograms ++ [freshHistogram name help labelNames buckets] }
  | incBy {counter : Handle} {v : UInt64} (there : counter.series < registry.counters.length) :
      Applies registry (.incBy counter v) (registry.incBy counter v)
  | set {gauge : Handle} {v : UInt64} (there : gauge.series < registry.gauges.length) :
      Applies registry (.set gauge v) (registry.set gauge v)
  | observe {histogram : Handle} {value : A}
      (there : histogram.series < registry.histograms.length) :
      Applies registry (.observe histogram value) (registry.observe histogram value)

theorem applies_of_apply {registry next : Registry A} {change : Change A}
    (applied : registry.apply change = some next) : Applies registry change next := by
  cases change with
  | counter thread name help labelNames =>
      obtain ⟨made, registered, rfl⟩ := Option.map_eq_some_iff.mp applied
      obtain ⟨admitted, same⟩ := Option.ite_none_right_eq_some.mp registered
      cases same
      exact .counter admitted
  | gauge thread name help labelNames =>
      obtain ⟨made, registered, rfl⟩ := Option.map_eq_some_iff.mp applied
      obtain ⟨admitted, same⟩ := Option.ite_none_right_eq_some.mp registered
      cases same
      exact .gauge admitted
  | histogram thread name help labelNames buckets =>
      obtain ⟨made, registered, rfl⟩ := Option.map_eq_some_iff.mp applied
      obtain ⟨admitted, same⟩ := Option.ite_none_right_eq_some.mp registered
      cases same
      exact .histogram admitted
  | incBy counter v =>
      obtain ⟨there, same⟩ := Option.ite_none_right_eq_some.mp applied
      cases same
      exact .incBy there
  | set gauge v =>
      obtain ⟨there, same⟩ := Option.ite_none_right_eq_some.mp applied
      cases same
      exact .set there
  | observe histogram value =>
      obtain ⟨there, same⟩ := Option.ite_none_right_eq_some.mp applied
      cases same
      exact .observe there

/-! ### What a step does -/

/-- Everything a step can do to a state and to the record beside it. -/
inductive Moves (state : State A) (past : Past A) : Event A → State A → Past A → Prop where
  | changes {change : Change A} {registry : Registry A}
      (free : change.block?.any state.locked = false)
      (applied : state.registry.apply change = some registry) :
      Moves state past (.change change) { state with registry := registry }
        { past with entries := past.entries ++ [.changed change] }
  | begins :
      Moves state past .scrape { state with scrapes := state.scrapes ++ [{}] }
        { past with begun := past.begun ++ [state.registry.familyCount] }
  | opens {task : Nat} {out : Text} {block : Block}
      (here : state.scrapes[task]? = some ⟨out, .opening block⟩)
      (free : state.locked block = false) :
      Moves state past (.openBlock task) (state.goOn task ⟨out, .reading block 0⟩) past
  | visits {task : Nat} {iteration : Iteration} {out : Text} {block : Block} {index : Nat}
      {found : Found A} (here : state.scrapes[task]? = some ⟨out, .reading block index⟩)
      (family : state.registry.familyAt index block = some found) :
      Moves state past (.visit task iteration)
        (state.goOn task ⟨found.emit iteration out, .reading block (index + 1)⟩)
        { past with entries := past.entries ++ [.saw ⟨task, iteration, block, index, found⟩] }
  | closes {task : Nat} {out : Text} {block : Block}
      (here : state.scrapes[task]? =
        some ⟨out, .reading block (state.registry.familyCount block)⟩) :
      Moves state past (.closeBlock task)
        (state.goOn task ⟨out, block.next.elim .finished Stage.opening⟩) past

/-- The machine with its record. -/
abbrev recorded (A : Type) [Amount A] : Machine (State A × Past A) (Event A) :=
  (machine A).recording Past.note

theorem moves_of_step {state next : State A} {past later : Past A} {event : Event A}
    (stepped : (recorded A).step (state, past) event = some (next, later)) :
    Moves state past event next later := by
  obtain ⟨taken, noted⟩ := Machine.recording_step_eq_some.mp stepped
  dsimp only at taken noted
  subst noted
  cases event with
  | change change =>
      obtain ⟨free, made⟩ := Option.ite_none_left_eq_some.mp taken
      obtain ⟨registry, applied, same⟩ := Option.map_eq_some_iff.mp made
      cases same
      exact .changes (Bool.eq_false_iff.mpr free) applied
  | scrape =>
      cases taken
      exact .begins
  | openBlock task =>
      simp only [machine, State.step, State.openBlock] at taken
      split at taken
      · next out block here =>
          obtain ⟨free, moved⟩ := Option.ite_none_left_eq_some.mp taken
          cases moved
          exact .opens here (Bool.eq_false_iff.mpr free)
      · cases taken
  | visit task iteration =>
      simp only [machine, State.step, State.visit] at taken
      split at taken
      · next out block index here =>
          obtain ⟨found, family, rfl⟩ := Option.map_eq_some_iff.mp taken
          have seen : state.sight task iteration =
              some ⟨task, iteration, block, index, found⟩ := by
            simp only [State.sight, here, family, Option.map_some]
          simp only [Past.note, seen]
          exact .visits here family
      · cases taken
  | closeBlock task =>
      simp only [machine, State.step, State.closeBlock] at taken
      split at taken
      · next out block index here =>
          obtain ⟨through, moved⟩ := Option.ite_none_right_eq_some.mp taken
          cases moved
          subst through
          exact .closes here
      · cases taken

omit [Amount A] in
theorem getElem?_goOn {state : State A} {task other : Nat} {before after scrape : Scrape}
    (here : state.scrapes[task]? = some before)
    (there : (state.goOn task after).scrapes[other]? = some scrape) :
    (other = task ∧ scrape = after) ∨ (other ≠ task ∧ state.scrapes[other]? = some scrape) := by
  obtain ⟨inside, _⟩ := List.getElem?_eq_some_iff.mp here
  by_cases same : other = task
  · subst same
    rw [State.goOn, List.getElem?_set_self inside] at there
    exact .inl ⟨rfl, (Option.some.inj there).symm⟩
  · rw [State.goOn, List.getElem?_set_ne (Ne.symm same)] at there
    exact .inr ⟨same, there⟩

/-! ### A scrape that nothing disturbs -/

namespace Registry

def founds (self : Registry A) : Block → List (Found A)
  | .counters => self.counters.map .counter
  | .gauges => self.gauges.map .gauge
  | .histograms => self.histograms.map .histogram

/-- The families of the blocks in front of one. -/
def foundsBefore (self : Registry A) : Block → List (Found A)
  | .counters => []
  | .gauges => self.founds .counters
  | .histograms => self.founds .counters ++ self.founds .gauges

/-- The families that a scrape has gone through at a stage, if the registry stays the same. -/
def foundsAt (self : Registry A) : Stage → List (Found A)
  | .opening block => self.foundsBefore block
  | .reading block index => self.foundsBefore block ++ (self.founds block).take index
  | .finished => self.foundsBefore .histograms ++ self.founds .histograms

def textAt (self : Registry A) (iteration : Iteration) (stage : Stage) : Text :=
  (self.foundsAt stage).foldl (fun out found => found.emit iteration out) []

variable (registry : Registry A)

omit [Amount A] in
theorem familyAt_eq (index : Nat) (block : Block) :
    registry.familyAt index block = (registry.founds block)[index]? := by
  cases block <;> exact List.getElem?_map.symm

omit [Amount A] in
theorem familyCount_eq (block : Block) :
    registry.familyCount block = (registry.founds block).length := by
  cases block <;> simp [familyCount, founds]

theorem textAt_finished (iteration : Iteration) :
    registry.textAt iteration .finished = registry.encodeText iteration := by
  simp only [textAt, foundsAt, foundsBefore, founds, List.foldl_append, List.foldl_map]
  rfl

theorem textAt_opened (iteration : Iteration) (block : Block) :
    registry.textAt iteration (.opening block) =
      registry.textAt iteration (.reading block 0) := by
  rw [textAt, textAt, foundsAt, foundsAt, List.take_zero, List.append_nil]

theorem textAt_visited (iteration : Iteration) {block : Block} {index : Nat} {found : Found A}
    (family : registry.familyAt index block = some found) :
    registry.textAt iteration (.reading block (index + 1)) =
      found.emit iteration (registry.textAt iteration (.reading block index)) := by
  rw [familyAt_eq] at family
  have longer : (registry.founds block).take (index + 1) =
      (registry.founds block).take index ++ [found] := by
    rw [List.take_add_one, family, Option.toList_some]
  simp only [textAt, foundsAt, longer, ← List.append_assoc, List.foldl_append, List.foldl_cons,
    List.foldl_nil]

theorem textAt_closed (iteration : Iteration) (block : Block) :
    registry.textAt iteration (block.next.elim .finished Stage.opening) =
      registry.textAt iteration (.reading block (registry.familyCount block)) := by
  unfold textAt
  congr 1
  rw [familyCount_eq]
  cases block <;> simp [foundsAt, foundsBefore, Block.next]

end Registry

/-- Nothing is registered or counted, and the maps are gone through in one order. -/
def Undisturbed (task : Nat) (iteration : Iteration) : Event A → Prop
  | .change _ => False
  | .visit other order => other = task → order = iteration
  | _ => True

/-- The registry is the same still, and the scrape has the text of its stage. -/
def OnText (registry : Registry A) (task : Nat) (iteration : Iteration)
    (recorded : State A × Past A) : Prop :=
  recorded.1.registry = registry ∧ ∀ scrape ∈ recorded.1.scrapes[task]?,
    scrape.out = registry.textAt iteration scrape.stage

theorem OnText.step {registry : Registry A} {task : Nat} {iteration : Iteration}
    {recorded next : State A × Past A} {event : Event A}
    (onText : OnText registry task iteration recorded)
    (undisturbed : Undisturbed task iteration event)
    (stepped : (Metrics.recorded A).step recorded event = some next) :
    OnText registry task iteration next := by
  obtain ⟨state, past⟩ := recorded
  obtain ⟨after, later⟩ := next
  obtain ⟨same, texts⟩ := onText
  dsimp only at same texts
  cases moves_of_step stepped with
  | changes free applied => exact absurd undisturbed id
  | begins =>
      refine ⟨same, fun scrape there => ?_⟩
      rcases lt_or_ge task state.scrapes.length with old | new
      · rw [List.getElem?_append_left old] at there
        exact texts scrape there
      · rw [List.getElem?_append_right new, List.getElem?_singleton] at there
        obtain ⟨_, isNew⟩ := Option.ite_none_right_eq_some.mp there
        cases isNew
        rfl
  | @opens moved out block here free =>
      refine ⟨same, fun scrape there => ?_⟩
      rcases getElem?_goOn here there with ⟨rfl, rfl⟩ | ⟨_, old⟩
      · exact (texts _ here).trans (registry.textAt_opened iteration block)
      · exact texts scrape old
  | @visits moved order out block index found here family =>
      refine ⟨same, fun scrape there => ?_⟩
      rcases getElem?_goOn here there with ⟨rfl, rfl⟩ | ⟨_, old⟩
      · have isIteration : order = iteration := undisturbed rfl
        subst isIteration
        have soFar : out = registry.textAt order (.reading block index) := texts _ here
        rw [same] at family
        rw [registry.textAt_visited order family, ← soFar]
      · exact texts scrape old
  | @closes moved out block here =>
      refine ⟨same, fun scrape there => ?_⟩
      rcases getElem?_goOn here there with ⟨rfl, rfl⟩ | ⟨_, old⟩
      · have soFar : out = registry.textAt iteration
            (.reading block (state.registry.familyCount block)) := texts _ here
        rw [registry.textAt_closed, soFar, same]
      · exact texts scrape old

/-- A scrape that nothing disturbs, beside others, ends with the text of the registry. -/
theorem encodeText_of_undisturbed {task : Nat} {iteration : Iteration}
    {start final : State A × Past A} (fresh : start.1.scrapes[task]? = some {})
    (run : (recorded A).GuardedRun (fun _ => Undisturbed task iteration) start final)
    {scrape : Scrape} (there : final.1.scrapes[task]? = some scrape)
    (finished : scrape.stage = .finished) :
    scrape.out = start.1.registry.encodeText iteration := by
  have onText : OnText start.1.registry task iteration final := by
    refine run.invariant ⟨rfl, fun scrape there => ?_⟩ OnText.step
    cases fresh.symm.trans there
    rfl
  rw [onText.2 scrape there, finished, Registry.textAt_finished]

end Rsdns.Metrics
