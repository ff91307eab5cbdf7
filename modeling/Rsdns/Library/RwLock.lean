import Mathlib.Data.List.Basic

/-!
# Readers and writers

A lock that any number of readers or one writer may hold.  A reader is not
admitted while a writer holds the lock or waits for it.  The lock's state is
what its clients hold, so it is read off them.
-/

namespace RwLock

inductive Holding where
  | nothing
  | reading (guards : Nat)
  | waiting
  | writing
  deriving DecidableEq

namespace Holding

def blocksReaders : Holding → Bool
  | waiting => true
  | writing => true
  | _ => false

def blocksWriters : Holding → Bool
  | reading _ => true
  | writing => true
  | _ => false

end Holding

def readAdmitted (holdings : List Holding) : Bool :=
  holdings.all fun holding => !holding.blocksReaders

def writeAdmitted (holdings : List Holding) : Bool :=
  holdings.all fun holding => !holding.blocksWriters

theorem readAdmitted_iff {holdings : List Holding} :
    readAdmitted holdings = true ↔ ∀ holding ∈ holdings, holding.blocksReaders = false := by
  simp [readAdmitted]

theorem writeAdmitted_iff {holdings : List Holding} :
    writeAdmitted holdings = true ↔ ∀ holding ∈ holdings, holding.blocksWriters = false := by
  simp [writeAdmitted]

/-- What a client does next: nothing any more, a step that needs no guard, or the
taking of a guard. -/
inductive Request where
  | done
  | free
  | read
  | write
  deriving DecidableEq

structure Client where
  holding : Holding
  request : Request
  deriving DecidableEq

/-- A client keeps to the protocol: it waits exactly when it asks to write, a writer
goes on without asking, and whoever is done has given everything back. -/
structure Client.Disciplined (client : Client) : Prop where
  waits : client.holding = .waiting ↔ client.request = .write
  writerRuns : client.holding = .writing → client.request = .free
  givesBack : client.request = .done → client.holding = .nothing

/-- The request is met with the lock as the clients hold it. -/
def Granted (clients : List Client) (client : Client) : Prop :=
  match client.request with
  | .done => False
  | .free => True
  | .read => readAdmitted (clients.map Client.holding) = true
  | .write => writeAdmitted (clients.map Client.holding) = true

/-! ### Progress -/

/-- A disciplined client that is not free to go on has no guard, unless it asks to read. -/
theorem Client.Disciplined.blocksWriters_eq_false {client : Client}
    (disciplined : client.Disciplined) (notFree : client.request ≠ .free)
    (readsFirst : client.request = .read → client.holding = .nothing) :
    client.holding.blocksWriters = false := by
  cases held : client.holding with
  | nothing | waiting => rfl
  | writing => exact absurd (disciplined.writerRuns held) notFree
  | reading guards =>
      cases asks : client.request with
      | done => exact absurd (held.symm.trans (disciplined.givesBack asks)) nofun
      | free => exact absurd asks notFree
      | write => exact absurd (held.symm.trans (disciplined.waits.mpr asks)) nofun
      | read => exact absurd (held.symm.trans (readsFirst asks)) nofun

theorem Client.Disciplined.blocksReaders_eq_false {client : Client}
    (disciplined : client.Disciplined) (notFree : client.request ≠ .free)
    (notWaiting : client.holding ≠ .waiting) : client.holding.blocksReaders = false := by
  cases held : client.holding with
  | nothing | reading _ => rfl
  | writing => exact absurd (disciplined.writerRuns held) notFree
  | waiting => exact absurd held notWaiting

theorem granted_of_write {clients : List Client} {client : Client}
    (writes : client.request = .write)
    (admitted : ∀ other ∈ clients, other.holding.blocksWriters = false) :
    Granted clients client := by
  rw [Granted, writes]
  exact writeAdmitted_iff.mpr (List.forall_mem_map.mpr admitted)

theorem granted_of_read {clients : List Client} {client : Client}
    (reads : client.request = .read)
    (admitted : ∀ other ∈ clients, other.holding.blocksReaders = false) :
    Granted clients client := by
  rw [Granted, reads]
  exact readAdmitted_iff.mpr (List.forall_mem_map.mpr admitted)

/-- Without a reader that asks for a second guard behind a waiting writer, there is
no deadlock. -/
theorem exists_granted {clients : List Client}
    (disciplined : ∀ client ∈ clients, client.Disciplined)
    (noNesting : (∃ client ∈ clients, client.holding = .waiting) →
      ∀ client ∈ clients, client.request = .read → client.holding = .nothing)
    (unfinished : ∃ client ∈ clients, client.request ≠ .done) :
    ∃ client ∈ clients, Granted clients client := by
  by_contra stuck
  push Not at stuck
  have noneFree : ∀ client ∈ clients, client.request ≠ .free := by
    intro client member free
    apply stuck client member
    rw [Granted, free]
    trivial
  by_cases waiting : ∃ client ∈ clients, client.holding = .waiting
  · -- every guard is given back, so the waiting writer may go
    obtain ⟨writer, writerMember, waits⟩ := waiting
    have writes := (disciplined writer writerMember).waits.mp waits
    have readsFirst := noNesting ⟨writer, writerMember, waits⟩
    exact stuck writer writerMember (granted_of_write writes fun client member =>
      (disciplined client member).blocksWriters_eq_false (noneFree client member)
        (readsFirst client member))
  · -- nobody waits, so whoever is not done asks to read and may
    obtain ⟨reader, readerMember, notDone⟩ := unfinished
    have reads : reader.request = .read := by
      cases asks : reader.request with
      | done => exact absurd asks notDone
      | free => exact absurd asks (noneFree reader readerMember)
      | write =>
          have waits := (disciplined reader readerMember).waits.mpr asks
          exact absurd ⟨reader, readerMember, waits⟩ waiting
      | read => rfl
    exact stuck reader readerMember (granted_of_read reads fun client member =>
      (disciplined client member).blocksReaders_eq_false (noneFree client member)
        fun waits => waiting ⟨client, member, waits⟩)

end RwLock
