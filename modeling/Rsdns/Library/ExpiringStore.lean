import Mathlib.Logic.Function.Basic

/-!
# Stores whose entries expire

Each entry is kept with the instant it expires.  An entry can be read before
that instant and no longer from then on; writing a key again replaces both its
value and its deadline.  Instants and lifetimes are numbers of one unit.
-/

universe u v

/-- A stored value and the instant from which it is gone. -/
structure Slot (Value : Type v) where
  value : Value
  deadline : Nat

/-- A store of values under keys, each with a deadline of its own. -/
structure ExpiringStore (Key : Type u) (Value : Type v) where
  slot : Key → Option (Slot Value)

namespace ExpiringStore

variable {Key : Type u} {Value : Type v}

def empty : ExpiringStore Key Value := ⟨fun _ => none⟩

def get (store : ExpiringStore Key Value) (now : Nat) (key : Key) : Option Value :=
  match store.slot key with
  | some slot => if now < slot.deadline then some slot.value else none
  | none => none

def insert [DecidableEq Key] (store : ExpiringStore Key Value)
    (now : Nat) (key : Key) (value : Value) (lifetime : Nat) :
    ExpiringStore Key Value :=
  ⟨Function.update store.slot key (some ⟨value, now + lifetime⟩)⟩

def evict [DecidableEq Key] (store : ExpiringStore Key Value) (key : Key) :
    ExpiringStore Key Value :=
  ⟨Function.update store.slot key none⟩

theorem get_eq_some_iff {store : ExpiringStore Key Value} {now : Nat} {key : Key}
    {value : Value} :
    store.get now key = some value ↔
      ∃ deadline, store.slot key = some ⟨value, deadline⟩ ∧ now < deadline := by
  unfold get
  cases found : store.slot key with
  | none => simp
  | some slot =>
      rcases slot with ⟨stored, deadline⟩
      simp only [Option.ite_none_right_eq_some, Option.some.injEq, Slot.mk.injEq]
      constructor
      · rintro ⟨live, rfl⟩
        exact ⟨deadline, ⟨rfl, rfl⟩, live⟩
      · rintro ⟨_, ⟨rfl, rfl⟩, live⟩
        exact ⟨live, rfl⟩

variable [DecidableEq Key]

@[simp]
theorem insert_slot_self (store : ExpiringStore Key Value) (now lifetime : Nat)
    (key : Key) (value : Value) :
    (store.insert now key value lifetime).slot key = some ⟨value, now + lifetime⟩ := by
  simp [insert]

theorem insert_slot_of_ne (store : ExpiringStore Key Value) (now lifetime : Nat)
    {key other : Key} (different : other ≠ key) (value : Value) :
    (store.insert now key value lifetime).slot other = store.slot other := by
  simp [insert, different]

theorem slot_insert_cases {store : ExpiringStore Key Value} {now lifetime : Nat}
    {key other : Key} {value : Value} {slot : Slot Value}
    (found : (store.insert now key value lifetime).slot other = some slot) :
    (other = key ∧ slot = ⟨value, now + lifetime⟩) ∨ store.slot other = some slot := by
  by_cases same : other = key
  · subst same
    rw [insert_slot_self] at found
    exact .inl ⟨rfl, (Option.some.inj found).symm⟩
  · rw [insert_slot_of_ne store now lifetime same] at found
    exact .inr found

theorem slot_of_slot_evict {store : ExpiringStore Key Value} {key other : Key}
    {slot : Slot Value} (found : (store.evict key).slot other = some slot) :
    store.slot other = some slot := by
  by_cases same : other = key
  · subst same
    simp [evict] at found
  · simpa [evict, same] using found

end ExpiringStore
