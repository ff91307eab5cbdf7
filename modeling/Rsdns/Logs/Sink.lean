import Mathlib.Data.List.Nodup
import Rsdns.Library.Machine

/-!
# The query log in a directory (`plugins/logs.rs`)

Queries write their lines under one lock, and a reopened file takes the place of the old one
under the same lock.  A file of the runtime takes a line over and appends it in the background:
the next line waits for that, and is refused if it failed.  The file on disk may be renamed by
others at any time; handles stay with the file they were opened on.
-/

namespace Rsdns.Plugins

/-- What has become of the line that a handle took over last. -/
inductive LastWrite where
  | idle
  | busy (line : List UInt8)
  | failed
  deriving DecidableEq

/-- An open handle with its number, and the file that it stands for. -/
structure LogFile where
  handle : Nat
  inode : Nat
  last : LastWrite
  deriving DecidableEq

/-- A line on its way to the file of a handle. -/
structure Append where
  handle : Nat
  inode : Nat
  line : List UInt8
  deriving DecidableEq

/-- A query that wants to write its line or holds the lock for it, or a reload that opens the
file or waits for the lock with the file opened. -/
inductive SinkTask where
  | writing (line : List UInt8) (holds : Bool)
  | opening
  | opened (inode : Nat)
  | done
  deriving DecidableEq

/-- `retired` are lines that were on their way when their handle was replaced.  `named` is the
file that is called `query.log`, `inodes` counts the files there have been. -/
structure DirectorySink where
  file : LogFile
  retired : List Append := []
  tasks : List SinkTask := []
  named : Option Nat
  inodes : Nat
  handles : Nat := 1

/-- What comes from outside: queries and reloads, which of them goes on, what the disk makes of
a line, and what others do to the file. -/
inductive SinkEvent where
  | log (line : List UInt8)
  | lock (index : Nat)
  | write (index : Nat)
  | cancel (index : Nat)
  | land (count : Nat) (worked : Bool)
  | landRetired (index count : Nat) (worked : Bool)
  | reopen
  | open_ (index : Nat) (worked : Bool)
  | swap (index : Nat)
  | rename
  | create

namespace LogFile

def onTheWay (self : LogFile) : List Append :=
  match self.last with
  | .busy line => [{ handle := self.handle, inode := self.inode, line := line }]
  | _ => []

end LogFile

namespace DirectorySink

def locked (self : DirectorySink) : Bool :=
  self.tasks.any fun
    | .writing _ true => true
    | _ => false

def setTask (self : DirectorySink) (index : Nat) (task : SinkTask) : DirectorySink :=
  { self with tasks := self.tasks.set index task }

def lock (self : DirectorySink) (index : Nat) : Option DirectorySink :=
  match self.tasks[index]? with
  | some (.writing line false) =>
      if self.locked then none else some (self.setTask index (.writing line true))
  | _ => none

/-- `write_all` of the line: it waits for the line before, and reports it if that failed. -/
def write (self : DirectorySink) (index : Nat) : Option DirectorySink :=
  match self.tasks[index]?, self.file.last with
  | some (.writing line true), .idle =>
      some { self.setTask index .done with file := { self.file with last := .busy line } }
  | some (.writing _ true), .failed =>
      some { self.setTask index .done with file := { self.file with last := .idle } }
  | _, _ => none

/-- A query that is no longer wanted lets the lock go. -/
def cancel (self : DirectorySink) (index : Nat) : Option DirectorySink :=
  match self.tasks[index]? with
  | some (.writing _ _) => some (self.setTask index .done)
  | _ => none

/-- The line is appended, whole or up to where that failed. -/
def land (self : DirectorySink) (count : Nat) (worked : Bool) : Option DirectorySink :=
  match self.file.last with
  | .busy line =>
      if worked = decide (count = line.length) ∧ count ≤ line.length then
        some { self with file := { self.file with last := if worked then .idle else .failed } }
      else none
  | _ => none

def landRetired (self : DirectorySink) (index count : Nat) (worked : Bool) :
    Option DirectorySink :=
  match self.retired[index]? with
  | some append =>
      if worked = decide (count = append.line.length) ∧ count ≤ append.line.length then
        some { self with retired := self.retired.eraseIdx index }
      else none
  | none => none

/-- The file that has the name is opened, or one is created under it. -/
def openQueryLog (self : DirectorySink) (index : Nat) (worked : Bool) : Option DirectorySink :=
  match self.tasks[index]? with
  | some .opening =>
      if worked then
        match self.named with
        | some inode => some (self.setTask index (.opened inode))
        | none =>
            some { self.setTask index (.opened self.inodes) with
              named := some self.inodes, inodes := self.inodes + 1 }
      else some (self.setTask index .done)
  | _ => none

/-- The opened file takes the place of the old one. -/
def swap (self : DirectorySink) (index : Nat) : Option DirectorySink :=
  match self.tasks[index]? with
  | some (.opened inode) =>
      if self.locked then none
      else
        some { self.setTask index .done with
          file := { handle := self.handles, inode := inode, last := .idle }
          retired := self.retired ++ self.file.onTheWay
          handles := self.handles + 1 }
  | _ => none

def step (self : DirectorySink) : SinkEvent → Option DirectorySink
  | .log line => some { self with tasks := self.tasks ++ [.writing line false] }
  | .lock index => self.lock index
  | .write index => self.write index
  | .cancel index => self.cancel index
  | .land count worked => self.land count worked
  | .landRetired index count worked => self.landRetired index count worked
  | .reopen => some { self with tasks := self.tasks ++ [.opening] }
  | .open_ index worked => self.openQueryLog index worked
  | .swap index => self.swap index
  | .rename => some { self with named := none }
  | .create =>
      if self.named = none then
        some { self with named := some self.inodes, inodes := self.inodes + 1 }
      else none

def start : DirectorySink where
  file := { handle := 0, inode := 0, last := .idle }
  named := some 0
  inodes := 1

end DirectorySink

def sinkMachine : Machine DirectorySink SinkEvent where
  step := DirectorySink.step

/-! ### The record -/

/-- A line that the disk has dealt with, and how much of it was appended. -/
structure Landing where
  append : Append
  count : Nat
  deriving DecidableEq

/-- The lines that handles took over, what the disk made of them, and the lines that were
refused, all in order. -/
structure SinkPast where
  taken : List Append := []
  landed : List Landing := []
  refused : List (List UInt8) := []

def noteSink (before : DirectorySink) (event : SinkEvent) (after : DirectorySink)
    (past : SinkPast) : SinkPast :=
  match event with
  | .write index =>
      match before.tasks[index]?, before.file.last with
      | some (.writing line _), .failed => { past with refused := past.refused ++ [line] }
      | _, _ => { past with taken := past.taken ++ after.file.onTheWay }
  | .land count _ =>
      { past with landed := past.landed ++ before.file.onTheWay.map fun line => ⟨line, count⟩ }
  | .landRetired index count _ =>
      { past with
        landed := past.landed ++ before.retired[index]?.toList.map fun line => ⟨line, count⟩ }
  | _ => past

abbrev recordedSink : Machine (DirectorySink × SinkPast) SinkEvent :=
  sinkMachine.recording noteSink

def SinkPast.landedIn (self : SinkPast) (inode : Nat) : List Landing :=
  self.landed.filter fun landing => landing.append.inode = inode

/-- What a file holds: all that was appended to it, in order. -/
def SinkPast.contents (self : SinkPast) (inode : Nat) : List UInt8 :=
  (self.landedIn inode).flatMap fun landing => landing.append.line.take landing.count

/-! ### What a step does -/

/-- Everything a step can do to the sink and to the record beside it. -/
inductive SinkMoves (self : DirectorySink) (past : SinkPast) : DirectorySink → SinkPast → Prop where
  | tasks (tasks : List SinkTask)
      (openedBefore : ∀ inode, .opened inode ∈ tasks → .opened inode ∈ self.tasks) :
      SinkMoves self past { self with tasks := tasks } past
  | takes (tasks : List SinkTask) {line : List UInt8} (idle : self.file.last = .idle)
      (openedBefore : ∀ inode, .opened inode ∈ tasks → .opened inode ∈ self.tasks) :
      SinkMoves self past
        { self with tasks := tasks, file := { self.file with last := .busy line } }
        { past with taken := past.taken ++ [⟨self.file.handle, self.file.inode, line⟩] }
  | refuses (tasks : List SinkTask) {line : List UInt8} (failed : self.file.last = .failed)
      (openedBefore : ∀ inode, .opened inode ∈ tasks → .opened inode ∈ self.tasks) :
      SinkMoves self past
        { self with tasks := tasks, file := { self.file with last := .idle } }
        { past with refused := past.refused ++ [line] }
  | lands {line : List UInt8} (busy : self.file.last = .busy line) :
      SinkMoves self past { self with file := { self.file with last := .idle } }
        { past with
          landed := past.landed ++ [⟨⟨self.file.handle, self.file.inode, line⟩, line.length⟩] }
  | breaks {line : List UInt8} {count : Nat} (busy : self.file.last = .busy line)
      (short : count < line.length) :
      SinkMoves self past { self with file := { self.file with last := .failed } }
        { past with
          landed := past.landed ++ [⟨⟨self.file.handle, self.file.inode, line⟩, count⟩] }
  | landsRetired {before after : List Append} {append : Append} {count : Nat}
      (there : self.retired = before ++ append :: after)
      (within : count ≤ append.line.length) :
      SinkMoves self past { self with retired := before ++ after }
        { past with landed := past.landed ++ [⟨append, count⟩] }
  | opens (index inode : Nat) (named : self.named = some inode) :
      SinkMoves self past (self.setTask index (.opened inode)) past
  | creates (tasks : List SinkTask) (unnamed : self.named = none)
      (openedBefore : ∀ inode, .opened inode ∈ tasks → .opened inode ∈ self.tasks ∨
        inode = self.inodes) :
      SinkMoves self past
        { self with tasks := tasks, named := some self.inodes, inodes := self.inodes + 1 } past
  | swaps {index inode : Nat} (opened : self.tasks[index]? = some (.opened inode)) :
      SinkMoves self past
        { self.setTask index .done with
          file := { handle := self.handles, inode := inode, last := .idle }
          retired := self.retired ++ self.file.onTheWay
          handles := self.handles + 1 } past
  | renames : SinkMoves self past { self with named := none } past

theorem opened_of_mem_set {tasks : List SinkTask} {index : Nat} {task : SinkTask} {inode : Nat}
    (member : .opened inode ∈ tasks.set index task) (other : task ≠ .opened inode) :
    .opened inode ∈ tasks := by
  rcases List.mem_or_eq_of_mem_set member with old | new
  · exact old
  · exact absurd new.symm other

theorem opened_of_mem_concat {tasks : List SinkTask} {task : SinkTask} {inode : Nat}
    (member : .opened inode ∈ tasks ++ [task]) (other : task ≠ .opened inode) :
    .opened inode ∈ tasks := by
  rcases List.mem_append.mp member with old | new
  · exact old
  · exact absurd (List.mem_singleton.mp new).symm other

theorem sinkMoves_of_write {self next : DirectorySink} {past : SinkPast} {index : Nat}
    (moved : self.write index = some next) :
    SinkMoves self past next (noteSink self (.write index) next past) := by
  unfold DirectorySink.write at moved
  split at moved
  · next line here idle =>
      cases moved
      simp only [noteSink, here, idle]
      exact .takes _ idle fun inode member => opened_of_mem_set member nofun
  · next line here failed =>
      cases moved
      simp only [noteSink, here, failed]
      exact .refuses _ failed fun inode member => opened_of_mem_set member nofun
  · cases moved

theorem sinkMoves_of_land {self next : DirectorySink} {past : SinkPast} {count : Nat}
    {worked : Bool} (moved : self.land count worked = some next) :
    SinkMoves self past next (noteSink self (.land count worked) next past) := by
  unfold DirectorySink.land at moved
  split at moved
  · next line busy =>
      obtain ⟨⟨isWorked, within⟩, landed⟩ := Option.ite_none_right_eq_some.mp moved
      cases landed
      have noted : self.file.onTheWay = [⟨self.file.handle, self.file.inode, line⟩] := by
        simp only [LogFile.onTheWay, busy]
      simp only [noteSink, noted, List.map_singleton]
      by_cases whole : count = line.length
      · rw [isWorked, decide_eq_true whole, if_pos rfl, whole]
        exact .lands busy
      · rw [isWorked, decide_eq_false whole, if_neg Bool.false_ne_true]
        exact .breaks busy (Nat.lt_of_le_of_ne within whole)
  · cases moved

theorem sinkMoves_of_landRetired {self next : DirectorySink} {past : SinkPast}
    {index count : Nat} {worked : Bool}
    (moved : self.landRetired index count worked = some next) :
    SinkMoves self past next (noteSink self (.landRetired index count worked) next past) := by
  unfold DirectorySink.landRetired at moved
  split at moved
  · next append here =>
      obtain ⟨⟨_, within⟩, landed⟩ := Option.ite_none_right_eq_some.mp moved
      cases landed
      obtain ⟨inside, isHere⟩ := List.getElem?_eq_some_iff.mp here
      have there : self.retired = self.retired.take index ++ append ::
          self.retired.drop (index + 1) := by
        rw [← isHere, ← List.drop_eq_getElem_cons inside, List.take_append_drop]
      simp only [noteSink, here, Option.toList_some, List.map_singleton,
        List.eraseIdx_eq_take_drop_succ]
      exact .landsRetired there within
  · cases moved

theorem sinkMoves_of_open {self next : DirectorySink} {past : SinkPast} {index : Nat}
    {worked : Bool} (moved : self.openQueryLog index worked = some next) :
    SinkMoves self past next past := by
  unfold DirectorySink.openQueryLog at moved
  split at moved
  · split at moved
    · split at moved
      · next inode named =>
          cases moved
          exact .opens index inode named
      · next unnamed =>
          cases moved
          refine .creates _ unnamed fun inode member => ?_
          rcases List.mem_or_eq_of_mem_set member with old | new
          · exact .inl old
          · exact .inr (SinkTask.opened.inj new)
    · cases moved
      exact .tasks _ fun inode member => opened_of_mem_set member nofun
  · cases moved

theorem sinkMoves_of_step {self next : DirectorySink} {past later : SinkPast}
    {event : SinkEvent} (stepped : recordedSink.step (self, past) event = some (next, later)) :
    SinkMoves self past next later := by
  obtain ⟨taken, noted⟩ := Machine.recording_step_eq_some.mp stepped
  dsimp only at taken noted
  subst noted
  cases event with
  | log line =>
      cases taken
      exact .tasks _ fun inode member => opened_of_mem_concat member nofun
  | lock index =>
      simp only [sinkMachine, DirectorySink.step, DirectorySink.lock] at taken
      split at taken
      · obtain ⟨_, moved⟩ := Option.ite_none_left_eq_some.mp taken
        cases moved
        exact .tasks _ fun inode member => opened_of_mem_set member nofun
      · cases taken
  | write index => exact sinkMoves_of_write taken
  | cancel index =>
      simp only [sinkMachine, DirectorySink.step, DirectorySink.cancel] at taken
      split at taken
      · cases taken
        exact .tasks _ fun inode member => opened_of_mem_set member nofun
      · cases taken
  | land count worked => exact sinkMoves_of_land taken
  | landRetired index count worked => exact sinkMoves_of_landRetired taken
  | reopen =>
      cases taken
      exact .tasks _ fun inode member => opened_of_mem_concat member nofun
  | open_ index worked => exact sinkMoves_of_open taken
  | swap index =>
      simp only [sinkMachine, DirectorySink.step, DirectorySink.swap] at taken
      split at taken
      · next inode opened =>
          obtain ⟨_, moved⟩ := Option.ite_none_left_eq_some.mp taken
          cases moved
          exact .swaps opened
      · cases taken
  | rename =>
      cases taken
      exact .renames
  | create =>
      obtain ⟨unnamed, moved⟩ := Option.ite_none_right_eq_some.mp taken
      cases moved
      exact .creates _ unnamed fun inode member => .inl member

/-! ### Lines are kept together and in order -/

def DirectorySink.onTheWay (self : DirectorySink) : List Append :=
  self.retired ++ self.file.onTheWay

def ofHandle (handle : Nat) (appends : List Append) : List Append :=
  appends.filter fun append => append.handle = handle

def Landing.isPartial (self : Landing) : Bool := self.count < self.append.line.length

/-- A handle was told of a failure that it has not told on yet. -/
def LogFile.owes (self : LogFile) : Nat := if self.last = .failed then 1 else 0

/-- What a handle took over has landed, in order, but for one line that may be on its way. -/
structure Orderly (recorded : DirectorySink × SinkPast) : Prop where
  lines : ∀ handle, ofHandle handle recorded.2.taken =
    ofHandle handle (recorded.2.landed.map Landing.append) ++
      ofHandle handle recorded.1.onTheWay
  older : ∀ append ∈ recorded.1.retired, append.handle < recorded.1.file.handle
  handles : recorded.1.file.handle + 1 = recorded.1.handles
  single : (recorded.1.retired.map Append.handle).Nodup
  refused : recorded.2.refused.length + recorded.1.file.owes ≤
    (recorded.2.landed.filter Landing.isPartial).length

theorem ofHandle_append (handle : Nat) (first second : List Append) :
    ofHandle handle (first ++ second) = ofHandle handle first ++ ofHandle handle second :=
  List.filter_append ..

theorem ofHandle_eq_nil {handle : Nat} {appends : List Append}
    (others : ∀ append ∈ appends, append.handle ≠ handle) : ofHandle handle appends = [] :=
  List.filter_eq_nil_iff.mpr fun append member isHandle =>
    others append member (of_decide_eq_true isHandle)

theorem Orderly.takes {self : DirectorySink} {past : SinkPast} (orderly : Orderly (self, past))
    {line : List UInt8} (idle : self.file.last = .idle) (tasks : List SinkTask) :
    Orderly ({ self with tasks := tasks, file := { self.file with last := .busy line } },
      { past with taken := past.taken ++ [⟨self.file.handle, self.file.inode, line⟩] }) where
  lines := by
    intro handle
    have before := orderly.lines handle
    have nothing : self.file.onTheWay = [] := by simp only [LogFile.onTheWay, idle]
    simp only [DirectorySink.onTheWay, nothing, List.append_nil] at before
    simp only [DirectorySink.onTheWay, ofHandle_append, before, List.append_assoc]
    rfl
  older := orderly.older
  handles := orderly.handles
  single := orderly.single
  refused := by
    have before := orderly.refused
    simp only [LogFile.owes, idle] at before ⊢
    exact before

theorem Orderly.lines_land {self : DirectorySink} {past : SinkPast}
    (orderly : Orderly (self, past)) {line : List UInt8} (busy : self.file.last = .busy line)
    (count handle : Nat) :
    ofHandle handle past.taken =
      ofHandle handle ((past.landed ++
        [(⟨⟨self.file.handle, self.file.inode, line⟩, count⟩ : Landing)]).map
          Landing.append) ++ ofHandle handle self.retired := by
  have before := orderly.lines handle
  have one : self.file.onTheWay = [⟨self.file.handle, self.file.inode, line⟩] := by
    simp only [LogFile.onTheWay, busy]
  simp only [DirectorySink.onTheWay, one, ofHandle_append] at before
  rw [before, List.map_append, ofHandle_append, List.map_singleton]
  by_cases isCurrent : self.file.handle = handle
  · have none : ofHandle handle self.retired = [] :=
      ofHandle_eq_nil fun append member =>
        isCurrent ▸ Nat.ne_of_lt (orderly.older append member)
    rw [none, List.nil_append, List.append_nil]
  · have absent : ofHandle handle [⟨self.file.handle, self.file.inode, line⟩] = [] :=
      ofHandle_eq_nil fun append member => by
        rw [List.mem_singleton.mp member]
        exact isCurrent
    rw [absent, List.append_nil, List.append_nil]

theorem Orderly.lands {self : DirectorySink} {past : SinkPast} (orderly : Orderly (self, past))
    {line : List UInt8} (busy : self.file.last = .busy line) :
    Orderly ({ self with file := { self.file with last := .idle } },
      { past with
        landed := past.landed ++ [⟨⟨self.file.handle, self.file.inode, line⟩, line.length⟩] })
    where
  lines := by
    intro handle
    have after := orderly.lines_land busy line.length handle
    simpa [DirectorySink.onTheWay, LogFile.onTheWay] using after
  older := orderly.older
  handles := orderly.handles
  single := orderly.single
  refused := by
    have before := orderly.refused
    simp only [LogFile.owes, busy] at before
    have whole : Landing.isPartial ⟨⟨self.file.handle, self.file.inode, line⟩, line.length⟩ =
        false := decide_eq_false (Nat.lt_irrefl _)
    simpa [LogFile.owes, List.filter_append, whole] using before

theorem Orderly.breaks {self : DirectorySink} {past : SinkPast} (orderly : Orderly (self, past))
    {line : List UInt8} {count : Nat} (busy : self.file.last = .busy line)
    (short : count < line.length) :
    Orderly ({ self with file := { self.file with last := .failed } },
      { past with
        landed := past.landed ++ [⟨⟨self.file.handle, self.file.inode, line⟩, count⟩] }) where
  lines := by
    intro handle
    have after := orderly.lines_land busy count handle
    simpa [DirectorySink.onTheWay, LogFile.onTheWay] using after
  older := orderly.older
  handles := orderly.handles
  single := orderly.single
  refused := by
    have before := orderly.refused
    simp only [LogFile.owes, busy] at before
    have cut : Landing.isPartial ⟨⟨self.file.handle, self.file.inode, line⟩, count⟩ = true :=
      decide_eq_true short
    simpa [LogFile.owes, List.filter_append, cut] using before

theorem Orderly.landsRetired {self : DirectorySink} {past : SinkPast}
    (orderly : Orderly (self, past)) {before after : List Append} {append : Append}
    (there : self.retired = before ++ append :: after) (count : Nat) :
    Orderly ({ self with retired := before ++ after },
      { past with landed := past.landed ++ [⟨append, count⟩] }) := by
  have older := orderly.older
  have single := orderly.single
  simp only [there] at older single
  rw [List.map_append, List.map_cons, List.nodup_middle, List.nodup_cons] at single
  obtain ⟨alone, single⟩ := single
  refine {
    lines := fun handle => ?_, older := fun other member => older other ?_
    handles := orderly.handles
    single := by rw [List.map_append]; exact single
    refused := ?_ }
  · have lines := orderly.lines handle
    simp only [DirectorySink.onTheWay, there, ofHandle_append, List.map_append,
      List.map_singleton] at lines ⊢
    by_cases isHandle : append.handle = handle
    · have others (list : List Append) (sub : ∀ other ∈ list, other ∈ before ++ after) :
          ofHandle handle list = [] := ofHandle_eq_nil fun other member same => by
        have inMap := List.mem_map_of_mem (f := Append.handle) (sub other member)
        rw [List.map_append, same, ← isHandle] at inMap
        exact alone inMap
      have current : ofHandle handle self.file.onTheWay = [] :=
        ofHandle_eq_nil fun other member same => by
          have isCurrent : other.handle = self.file.handle := by
            unfold LogFile.onTheWay at member
            split at member
            · rw [List.mem_singleton.mp member]
            · cases member
          have less := older append (List.mem_append_right _ List.mem_cons_self)
          omega
      have cons : ofHandle handle (append :: after) = ofHandle handle [append] ++
          ofHandle handle after := ofHandle_append handle [append] after
      rw [cons, others before fun _ member => List.mem_append_left _ member,
        others after fun _ member => List.mem_append_right _ member, current] at lines
      rw [others before fun _ member => List.mem_append_left _ member,
        others after fun _ member => List.mem_append_right _ member, current]
      simpa using lines
    · have absent : ofHandle handle [append] = [] := ofHandle_eq_nil fun other member => by
        rw [List.mem_singleton.mp member]
        exact isHandle
      have cons : ofHandle handle (append :: after) = ofHandle handle [append] ++
          ofHandle handle after := ofHandle_append handle [append] after
      rw [cons, absent] at lines
      rw [absent]
      simpa using lines
  · rcases List.mem_append.mp member with inBefore | inAfter
    · exact List.mem_append_left _ inBefore
    · exact List.mem_append_right _ (List.mem_cons_of_mem _ inAfter)
  · have refused := orderly.refused
    dsimp only at refused ⊢
    rw [List.filter_append, List.length_append]
    exact Nat.le_add_right_of_le refused

theorem Orderly.swaps {self : DirectorySink} {past : SinkPast} (orderly : Orderly (self, past))
    (index inode : Nat) :
    Orderly ({ self.setTask index .done with
      file := { handle := self.handles, inode := inode, last := .idle }
      retired := self.retired ++ self.file.onTheWay
      handles := self.handles + 1 }, past) := by
  have isCurrent : ∀ append ∈ self.file.onTheWay, append.handle = self.file.handle := by
    intro append member
    unfold LogFile.onTheWay at member
    split at member
    · rw [List.mem_singleton.mp member]
    · cases member
  have next := orderly.handles
  dsimp only at next
  refine {
    lines := fun handle => ?_, older := fun append member => ?_
    handles := rfl
    single := ?_, refused := ?_ }
  · have lines := orderly.lines handle
    have nothing : LogFile.onTheWay ⟨self.handles, inode, .idle⟩ = [] := rfl
    simpa only [DirectorySink.onTheWay, nothing, List.append_nil] using lines
  · rcases List.mem_append.mp member with old | current
    · have less := orderly.older append old
      dsimp only at less ⊢
      omega
    · have same := isCurrent append current
      dsimp only
      omega
  · rw [List.map_append, List.nodup_append]
    refine ⟨orderly.single, ?_, ?_⟩
    · unfold LogFile.onTheWay
      split
      · exact List.nodup_singleton _
      · exact List.nodup_nil
    · intro first inRetired second inCurrent same
      obtain ⟨append, old, rfl⟩ := List.mem_map.mp inRetired
      obtain ⟨last, current, rfl⟩ := List.mem_map.mp inCurrent
      have less := orderly.older append old
      rw [same, isCurrent last current] at less
      exact Nat.lt_irrefl _ less
  · have refused := orderly.refused
    have nothing : LogFile.owes ⟨self.handles, inode, .idle⟩ = 0 := rfl
    dsimp only at refused ⊢
    rw [nothing]
    omega

theorem Orderly.step {recorded next : DirectorySink × SinkPast} {event : SinkEvent}
    (orderly : Orderly recorded) (stepped : recordedSink.step recorded event = some next) :
    Orderly next := by
  obtain ⟨self, past⟩ := recorded
  obtain ⟨after, later⟩ := next
  have kept : ∀ (tasks : List SinkTask) (named : Option Nat) (inodes : Nat),
      Orderly ({ self with tasks := tasks, named := named, inodes := inodes }, past) :=
    fun _ _ _ => ⟨orderly.lines, orderly.older, orderly.handles, orderly.single, orderly.refused⟩
  cases sinkMoves_of_step stepped with
  | tasks tasks => exact kept tasks self.named self.inodes
  | takes tasks idle => exact orderly.takes idle tasks
  | @refuses tasks line failed =>
      have refused := orderly.refused
      have nothing : self.file.onTheWay = [] := by simp only [LogFile.onTheWay, failed]
      refine {
        lines := fun handle => ?_
        older := orderly.older, handles := orderly.handles, single := orderly.single
        refused := ?_ }
      · have lines := orderly.lines handle
        simpa only [DirectorySink.onTheWay, LogFile.onTheWay, failed] using lines
      · simp only [LogFile.owes, failed, if_true] at refused
        simpa [LogFile.owes] using refused
  | lands busy => exact orderly.lands busy
  | breaks busy short => exact orderly.breaks busy short
  | landsRetired there => exact orderly.landsRetired there _
  | opens index inode named => exact kept _ self.named self.inodes
  | creates tasks => exact kept tasks _ _
  | swaps => exact orderly.swaps _ _
  | renames => exact kept self.tasks none self.inodes

theorem length_ofHandle_le {appends : List Append} (single : (appends.map Append.handle).Nodup)
    (handle : Nat) : (ofHandle handle appends).length ≤ 1 := by
  induction appends with
  | nil => exact Nat.zero_le 1
  | cons append appends inductionHypothesis =>
      rw [List.map_cons, List.nodup_cons] at single
      obtain ⟨alone, single⟩ := single
      by_cases isHandle : append.handle = handle
      · have none : ofHandle handle appends = [] := ofHandle_eq_nil fun other member same =>
          alone (isHandle ▸ same ▸ List.mem_map_of_mem member)
        have cons : ofHandle handle (append :: appends) = append :: ofHandle handle appends :=
          List.filter_cons_of_pos (decide_eq_true isHandle)
        rw [cons, none]
        exact Nat.le_refl 1
      · have cons : ofHandle handle (append :: appends) = ofHandle handle appends :=
          List.filter_cons_of_neg (by simpa using isHandle)
        rw [cons]
        exact inductionHypothesis single

/-- Through all reloads, renames, failures and queries given up: each handle's lines land
whole or cut, each once and in the order they were taken over, with at most one on its way;
and no more lines are refused than have failed before. -/
theorem log_lines_kept {self : DirectorySink} {past : SinkPast}
    (run : recordedSink.Run (.start, {}) (self, past)) :
    (∀ handle, ofHandle handle past.taken =
        ofHandle handle (past.landed.map Landing.append) ++ ofHandle handle self.onTheWay ∧
      (ofHandle handle self.onTheWay).length ≤ 1) ∧
      past.refused.length ≤ (past.landed.filter Landing.isPartial).length := by
  have orderly : Orderly (self, past) := by
    refine run.invariant ?_ fun orderly _ stepped => orderly.step stepped
    exact { lines := fun _ => rfl, older := nofun, handles := rfl, single := List.nodup_nil,
            refused := Nat.le_refl _ }
  have single : (self.onTheWay.map Append.handle).Nodup := (orderly.swaps 0 0).single
  exact ⟨fun handle => ⟨orderly.lines handle, length_ofHandle_le single handle⟩,
    Nat.le_of_add_right_le orderly.refused⟩

/-- A line that fails on the new file while the last one for the old file is still on its
way: the line behind it is refused, the one after that is not. -/
theorem rotated_log_lines_kept :
    let events : List SinkEvent :=
      [.log [1], .lock 0, .write 0, .rename, .reopen, .open_ 1 true, .swap 1, .log [2, 3],
        .lock 2, .write 2, .land 1 false, .log [4], .lock 3, .write 3, .log [5], .lock 4,
        .write 4, .landRetired 0 1 true, .land 1 true]
    ∃ self past, recordedSink.execWhile (fun _ _ => True) (.start, {}) events =
        some (self, past) ∧ past.contents 0 = [1] ∧ past.contents 1 = [2, 5] ∧
      past.refused = [[4]] ∧
      (∀ handle, ofHandle handle past.taken =
          ofHandle handle (past.landed.map Landing.append) ++ ofHandle handle self.onTheWay ∧
        (ofHandle handle self.onTheWay).length ≤ 1) ∧
      past.refused.length ≤ (past.landed.filter Landing.isPartial).length := by
  intro events
  have executed : ∃ self past,
      recordedSink.execWhile (fun _ _ => True) (.start, {}) events = some (self, past) ∧
        past.contents 0 = [1] ∧ past.contents 1 = [2, 5] ∧ past.refused = [[4]] :=
    ⟨_, _, rfl, rfl, rfl, rfl⟩
  obtain ⟨self, past, taken, old, new, refused⟩ := executed
  exact ⟨self, past, taken, old, new, refused, log_lines_kept (.of_execWhile .refl taken)⟩

/-! ### A file that was rotated away -/

/-- The sink is on another file, and neither the name nor a reload leads back. -/
structure Abandoned (inode : Nat) (sink : DirectorySink) : Prop where
  replaced : sink.file.inode ≠ inode
  unnamed : sink.named ≠ some inode
  old : inode < sink.inodes
  unopened : .opened inode ∉ sink.tasks

def ofFile (inode : Nat) (appends : List Append) : List Append :=
  appends.filter fun append => append.inode = inode

/-- Nothing is added to a file but the lines that were on their way to it. -/
structure Completes (inode : Nat) (before after : DirectorySink × SinkPast) : Prop where
  abandoned : Abandoned inode after.1
  finished : ∃ finished, after.2.landedIn inode = before.2.landedIn inode ++ finished ∧
    (finished.map Landing.append ++ ofFile inode after.1.retired).Perm
      (ofFile inode before.1.retired)

theorem ofFile_append (inode : Nat) (first second : List Append) :
    ofFile inode (first ++ second) = ofFile inode first ++ ofFile inode second :=
  List.filter_append ..

theorem ofFile_cons_self {inode : Nat} {append : Append} (isInode : append.inode = inode)
    (appends : List Append) : ofFile inode (append :: appends) = append :: ofFile inode appends :=
  List.filter_cons_of_pos (decide_eq_true isInode)

theorem ofFile_cons_other {inode : Nat} {append : Append} (other : append.inode ≠ inode)
    (appends : List Append) : ofFile inode (append :: appends) = ofFile inode appends :=
  List.filter_cons_of_neg (by simpa using other)

theorem ofFile_onTheWay {file : LogFile} {inode : Nat} (other : file.inode ≠ inode) :
    ofFile inode file.onTheWay = [] := by
  refine List.filter_eq_nil_iff.mpr fun append member isInode => other ?_
  rw [← of_decide_eq_true isInode]
  unfold LogFile.onTheWay at member
  split at member
  · rw [List.mem_singleton.mp member]
  · cases member

theorem landedIn_concat_other {past : SinkPast} {landing : Landing} {inode : Nat}
    (other : landing.append.inode ≠ inode) :
    SinkPast.landedIn { past with landed := past.landed ++ [landing] } inode =
      past.landedIn inode := by
  simp only [SinkPast.landedIn, List.filter_append, List.filter_singleton,
    decide_eq_false other, cond_false, List.append_nil]

theorem Completes.landsRetired {inode : Nat} {origin : DirectorySink × SinkPast}
    {self : DirectorySink} {past : SinkPast} (completes : Completes inode origin (self, past))
    {before after : List Append} {append : Append}
    (there : self.retired = before ++ append :: after) (count : Nat) :
    Completes inode origin ({ self with retired := before ++ after },
      { past with landed := past.landed ++ [⟨append, count⟩] }) := by
  obtain ⟨abandoned, finished, landed, waiting⟩ := completes
  refine ⟨⟨abandoned.replaced, abandoned.unnamed, abandoned.old, abandoned.unopened⟩, ?_⟩
  dsimp only at landed waiting ⊢
  rw [there] at waiting
  by_cases isInode : append.inode = inode
  · refine ⟨finished ++ [⟨append, count⟩], ?_, ?_⟩
    · rw [← List.append_assoc, ← landed]
      simp only [SinkPast.landedIn, List.filter_append, List.filter_singleton,
        decide_eq_true isInode, cond_true]
    · rw [ofFile_append, ofFile_cons_self isInode] at waiting
      rw [ofFile_append, List.map_append, List.map_singleton, List.append_assoc,
        List.singleton_append]
      exact (List.Perm.append_left _ List.perm_middle.symm).trans waiting
  · refine ⟨finished, (landedIn_concat_other isInode).trans landed, ?_⟩
    rw [ofFile_append, ofFile_cons_other isInode] at waiting
    rwa [ofFile_append]

theorem Completes.step {inode : Nat} {origin current next : DirectorySink × SinkPast}
    {event : SinkEvent} (completes : Completes inode origin current)
    (stepped : recordedSink.step current event = some next) : Completes inode origin next := by
  obtain ⟨self, past⟩ := current
  obtain ⟨after, later⟩ := next
  have ⟨⟨replaced, unnamed, old, unopened⟩, finished, landed, waiting⟩ := completes
  cases sinkMoves_of_step stepped with
  | tasks tasks openedBefore =>
      exact ⟨⟨replaced, unnamed, old, fun member => unopened (openedBefore inode member)⟩,
        finished, landed, waiting⟩
  | takes tasks idle openedBefore =>
      exact ⟨⟨replaced, unnamed, old, fun member => unopened (openedBefore inode member)⟩,
        finished, landed, waiting⟩
  | refuses tasks failed openedBefore =>
      exact ⟨⟨replaced, unnamed, old, fun member => unopened (openedBefore inode member)⟩,
        finished, landed, waiting⟩
  | lands busy =>
      exact ⟨⟨replaced, unnamed, old, unopened⟩, finished,
        (landedIn_concat_other replaced).trans landed, waiting⟩
  | breaks busy short =>
      exact ⟨⟨replaced, unnamed, old, unopened⟩, finished,
        (landedIn_concat_other replaced).trans landed, waiting⟩
  | landsRetired there => exact completes.landsRetired there _
  | opens index opened named =>
      refine ⟨⟨replaced, unnamed, old, fun member => ?_⟩, finished, landed, waiting⟩
      refine unopened (opened_of_mem_set member fun same => unnamed ?_)
      rw [named, SinkTask.opened.inj same]
  | creates tasks _ openedBefore =>
      refine ⟨⟨replaced, fun same => ?_, Nat.lt_succ_of_lt old, fun member => ?_⟩, finished,
        landed, waiting⟩
      · exact Nat.ne_of_lt old (Option.some.inj same).symm
      · rcases openedBefore inode member with before | isNew
        · exact unopened before
        · exact Nat.ne_of_lt old isNew
  | @swaps index opened isOpened =>
      refine ⟨⟨fun same => unopened ?_, unnamed, old, fun member => ?_⟩, finished, landed, ?_⟩
      · exact same ▸ List.mem_of_getElem? isOpened
      · exact unopened (opened_of_mem_set member nofun)
      · dsimp only
        rwa [ofFile_append, ofFile_onTheWay replaced, List.append_nil]
  | renames => exact ⟨⟨replaced, nofun, old, unopened⟩, finished, landed, waiting⟩

/-- From when a file has been rotated away and the sink is on another one, whatever queries and
reloads follow: what is appended to it are lines that were on their way to it by then, each at
most once, and with none on its way it stays as it is. -/
theorem rotated_file_completes {inode : Nat} {self after : DirectorySink}
    {past later : SinkPast} (abandoned : Abandoned inode self)
    (run : recordedSink.Run (self, past) (after, later)) :
    Abandoned inode after ∧
      (∃ finished, later.landedIn inode = past.landedIn inode ++ finished ∧
        (finished.map Landing.append ++ ofFile inode after.retired).Perm
          (ofFile inode self.retired)) ∧
      (ofFile inode self.retired = [] → later.contents inode = past.contents inode) := by
  have completes : Completes inode (self, past) (after, later) := by
    refine run.invariant ?_ fun completes _ stepped => completes.step stepped
    exact ⟨abandoned, [], (List.append_nil _).symm, List.Perm.refl _⟩
  obtain ⟨abandonedAfter, finished, landed, waiting⟩ := completes
  refine ⟨abandonedAfter, ⟨finished, landed, waiting⟩, fun nothing => ?_⟩
  rw [nothing] at waiting
  have isNil := List.append_eq_nil_iff.mp waiting.eq_nil
  rw [SinkPast.contents, landed, List.map_eq_nil_iff.mp isNil.1, List.append_nil]
  rfl

theorem slow_rotated_file_completes :
    let self : DirectorySink :=
      { file := ⟨1, 1, .idle⟩, retired := [⟨0, 0, [1]⟩], named := some 1, inodes := 2,
        handles := 2 }
    let events : List SinkEvent :=
      [.log [2], .lock 0, .write 0, .rename, .landRetired 0 1 true, .create, .land 1 true]
    ∃ after later, recordedSink.execWhile (fun _ _ => True) (self, {}) events =
        some (after, later) ∧ later.contents 0 = [1] ∧ later.contents 1 = [2] ∧
      Abandoned 0 self ∧ Abandoned 0 after ∧
      (∃ finished, later.landedIn 0 = SinkPast.landedIn {} 0 ++ finished ∧
        (finished.map Landing.append ++ ofFile 0 after.retired).Perm
          (ofFile 0 self.retired)) ∧
      (ofFile 0 self.retired = [] → later.contents 0 = SinkPast.contents {} 0) := by
  intro self events
  have executed : ∃ after later,
      recordedSink.execWhile (fun _ _ => True) (self, {}) events = some (after, later) ∧
        later.contents 0 = [1] ∧ later.contents 1 = [2] := ⟨_, _, rfl, rfl, rfl⟩
  obtain ⟨after, later, taken, old, new⟩ := executed
  have abandoned : Abandoned 0 self := by
    exact { replaced := Nat.one_ne_zero, unnamed := by decide, old := Nat.zero_lt_two,
            unopened := List.not_mem_nil }
  exact ⟨after, later, taken, old, new, abandoned,
    rotated_file_completes abandoned (.of_execWhile .refl taken)⟩

end Rsdns.Plugins
