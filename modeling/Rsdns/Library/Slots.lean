import Mathlib.Algebra.Ring.Nat
import Mathlib.Data.List.Basic
import Mathlib.Data.List.Infix

/-!
# Slots of a kind

Some elements of a list are of a kind.  Writing other elements of the kind into
their slots, one after the other, leaves everything else where it is.  Writing into
one slot adds to a sum over the list what the slot has more.
-/

universe u v

namespace Slots

variable {Item : Type u} {Value : Type v}

/-- Write the values into the slots of the kind, in order. -/
def refill (here : Item → Bool) : List Item → List Item → List Item
  | [], _ => []
  | item :: items, values =>
      if here item then values.headD item :: refill here items values.tail
      else item :: refill here items values

variable {here : Item → Bool}

theorem refill_cons_of_here {item value : Item} (isHere : here item = true)
    (items values : List Item) :
    refill here (item :: items) (value :: values) = value :: refill here items values := by
  rw [refill, if_pos isHere]
  rfl

theorem refill_cons_of_not_here {item : Item} (notHere : here item = false)
    (items values : List Item) :
    refill here (item :: items) values = item :: refill here items values := by
  rw [refill, if_neg (by simp [notHere])]

@[simp]
theorem refill_filter_self (items : List Item) :
    refill here items (items.filter here) = items := by
  induction items with
  | nil => rfl
  | cons item items inductionHypothesis =>
      cases isHere : here item with
      | true =>
          rw [List.filter_cons_of_pos isHere, refill_cons_of_here isHere, inductionHypothesis]
      | false =>
          rw [List.filter_cons_of_neg (by simp [isHere]), refill_cons_of_not_here isHere,
            inductionHypothesis]

/-- As many values of the kind as there are slots of the kind. -/
structure Fits (here : Item → Bool) (items values : List Item) : Prop where
  kind : ∀ value ∈ values, here value = true
  length : values.length = (items.filter here).length

theorem Fits.of_perm {items values : List Item} (permuted : values.Perm (items.filter here)) :
    Fits here items values where
  kind _ member := (List.mem_filter.mp (permuted.mem_iff.mp member)).2
  length := permuted.length_eq

theorem Fits.tail_of_not_here {item : Item} {items values : List Item}
    (notHere : here item = false) (fits : Fits here (item :: items) values) :
    Fits here items values where
  kind := fits.kind
  length := by
    have length := fits.length
    rwa [List.filter_cons_of_neg (by simp [notHere])] at length

theorem Fits.tail_of_here {item value : Item} {items values : List Item}
    (isHere : here item = true) (fits : Fits here (item :: items) (value :: values)) :
    Fits here items values where
  kind other member := fits.kind other (List.mem_cons_of_mem _ member)
  length := by
    have length := fits.length
    rw [List.filter_cons_of_pos isHere, List.length_cons, List.length_cons] at length
    exact Nat.succ.inj length

theorem Fits.exists_cons {item : Item} {items values : List Item}
    (isHere : here item = true) (fits : Fits here (item :: items) values) :
    ∃ value rest, values = value :: rest := by
  have length := fits.length
  rw [List.filter_cons_of_pos isHere] at length
  exact List.exists_cons_of_length_eq_add_one length

theorem filter_refill {items values : List Item} (fits : Fits here items values) :
    (refill here items values).filter here = values := by
  induction items generalizing values with
  | nil =>
      have empty : values = [] := List.length_eq_zero_iff.mp fits.length
      subst empty
      rfl
  | cons item items inductionHypothesis =>
      cases isHere : here item with
      | false =>
          rw [refill_cons_of_not_here isHere, List.filter_cons_of_neg (by simp [isHere]),
            inductionHypothesis (fits.tail_of_not_here isHere)]
      | true =>
          obtain ⟨value, values, rfl⟩ := fits.exists_cons isHere
          have valueHere : here value = true := fits.kind value List.mem_cons_self
          rw [refill_cons_of_here isHere, List.filter_cons_of_pos valueHere,
            inductionHypothesis (fits.tail_of_here isHere)]

theorem map_refill {items values : List Item} (fits : Fits here items values)
    {aspect : Item → Value}
    (blind : ∀ left right, here left = true → here right = true → aspect left = aspect right) :
    (refill here items values).map aspect = items.map aspect := by
  induction items generalizing values with
  | nil => rfl
  | cons item items inductionHypothesis =>
      cases isHere : here item with
      | false =>
          rw [refill_cons_of_not_here isHere, List.map_cons, List.map_cons,
            inductionHypothesis (fits.tail_of_not_here isHere)]
      | true =>
          obtain ⟨value, values, rfl⟩ := fits.exists_cons isHere
          have valueHere : here value = true := fits.kind value List.mem_cons_self
          rw [refill_cons_of_here isHere, List.map_cons, List.map_cons,
            inductionHypothesis (fits.tail_of_here isHere), blind value item valueHere isHere]

theorem filter_refill_of_apart {items values : List Item} (fits : Fits here items values)
    {other : Item → Bool} (apart : ∀ item, here item = true → other item = false) :
    (refill here items values).filter other = items.filter other := by
  induction items generalizing values with
  | nil => rfl
  | cons item items inductionHypothesis =>
      cases isHere : here item with
      | false =>
          rw [refill_cons_of_not_here isHere, List.filter_cons, List.filter_cons,
            inductionHypothesis (fits.tail_of_not_here isHere)]
      | true =>
          obtain ⟨value, values, rfl⟩ := fits.exists_cons isHere
          have valueHere : here value = true := fits.kind value List.mem_cons_self
          rw [refill_cons_of_here isHere, List.filter_cons_of_neg (by simp [apart value valueHere]),
            List.filter_cons_of_neg (by simp [apart item isHere]),
            inductionHypothesis (fits.tail_of_here isHere)]

theorem getElem?_refill_of_not_here {items : List Item} (values : List Item) {place : Nat}
    {item : Item} (listed : items[place]? = some item) (notHere : here item = false) :
    (refill here items values)[place]? = some item := by
  induction items generalizing place values with
  | nil => simp at listed
  | cons first items inductionHypothesis =>
      cases place with
      | zero =>
          obtain rfl : first = item := Option.some.inj listed
          rw [refill_cons_of_not_here notHere]
          rfl
      | succ place =>
          unfold refill
          split
          · exact inductionHypothesis _ listed
          · exact inductionHypothesis _ listed

theorem refill_perm {items values : List Item} (permuted : values.Perm (items.filter here)) :
    (refill here items values).Perm items := by
  have fits := Fits.of_perm permuted
  have pieces := List.filter_append_perm here (refill here items values)
  rw [filter_refill fits, filter_refill_of_apart fits (by simp)] at pieces
  exact pieces.symm.trans
    ((permuted.append_right _).trans (List.filter_append_perm here items))

/-! ### Writing slot by slot -/

/-- The kind of the elements that have a value. -/
def hasValue (value : Item → Option Value) (item : Item) : Bool := (value item).isSome

def valued (value : Item → Option Value) (start : Nat) (items : List Item) :
    List (Nat × Value) :=
  (items.zipIdx start).filterMap fun (item, index) =>
    (value item).map fun found => (index, found)

theorem valued_cons_of_none {value : Item → Option Value} {item : Item}
    (missing : value item = none) (start : Nat) (items : List Item) :
    valued value start (item :: items) = valued value (start + 1) items := by
  simp [valued, missing]

theorem valued_cons_of_some {value : Item → Option Value} {item : Item} {found : Value}
    (present : value item = some found) (start : Nat) (items : List Item) :
    valued value start (item :: items) = (start, found) :: valued value (start + 1) items := by
  simp [valued, present]

theorem map_snd_valued (value : Item → Option Value) (start : Nat) (items : List Item) :
    (valued value start items).map Prod.snd = items.filterMap value := by
  induction items generalizing start with
  | nil => rfl
  | cons item items inductionHypothesis =>
      cases found : value item with
      | none =>
          rw [valued_cons_of_none found, List.filterMap_cons_none found, inductionHypothesis]
      | some found' =>
          rw [valued_cons_of_some found, List.filterMap_cons_some found, List.map_cons,
            inductionHypothesis]

theorem map_filterMap_eq {Found : Type*} (value : Item → Option Value)
    (find : Value → Option Found) (items : List Item) :
    (items.filterMap value).map find =
      (items.filter (hasValue value)).map fun item => (value item).bind find := by
  induction items with
  | nil => rfl
  | cons item items inductionHypothesis =>
      cases found : value item with
      | none =>
          rw [List.filterMap_cons_none found, inductionHypothesis,
            List.filter_cons_of_neg (by simp [hasValue, found])]
      | some found' =>
          rw [List.filterMap_cons_some found, List.map_cons, inductionHypothesis,
            List.filter_cons_of_pos (by simp [hasValue, found]), List.map_cons, found]
          rfl

theorem length_valued (value : Item → Option Value) (start : Nat) (items : List Item) :
    (valued value start items).length =
      (items.filter (hasValue value)).length := by
  rw [← List.length_map Prod.snd, map_snd_valued, List.length_filterMap_eq_countP,
    List.countP_eq_length_filter]
  rfl

theorem map_getElem?_valued (value : Item → Option Value) (front items : List Item) :
    ((valued value front.length items).map fun slot => (front ++ items)[slot.1]?) =
      (items.filter (hasValue value)).map some := by
  induction items generalizing front with
  | nil => rfl
  | cons item items inductionHypothesis =>
      have rest := inductionHypothesis (front ++ [item])
      rw [List.length_append, List.append_assoc] at rest
      cases found : value item with
      | none =>
          rw [valued_cons_of_none found, List.filter_cons_of_neg (by simp [hasValue, found])]
          exact rest
      | some found' =>
          rw [valued_cons_of_some found, List.filter_cons_of_pos (by simp [hasValue, found]),
            List.map_cons, List.map_cons]
          congr 1
          simp

theorem foldl_set_valued (value : Item → Option Value) (front : List Item)
    {items values : List Item}
    (fits : Fits (hasValue value) items values) :
    ((valued value front.length items).zip values).foldl
        (fun items write => items.set write.1.1 write.2) (front ++ items) =
      front ++ refill (hasValue value) items values := by
  induction items generalizing front values with
  | nil => rfl
  | cons item items inductionHypothesis =>
      cases found : value item with
      | none =>
          have notHere : hasValue value item = false := by simp [hasValue, found]
          have rest := inductionHypothesis (front ++ [item]) (fits.tail_of_not_here notHere)
          rw [valued_cons_of_none found, refill_cons_of_not_here notHere]
          simpa using rest
      | some found' =>
          have isHere : hasValue value item = true := by simp [hasValue, found]
          obtain ⟨written, values, rfl⟩ := fits.exists_cons isHere
          have rest := inductionHypothesis (front ++ [written]) (fits.tail_of_here isHere)
          rw [valued_cons_of_some found, refill_cons_of_here isHere, List.zip_cons_cons,
            List.foldl_cons]
          simpa using rest

/-! ### Cutting the list -/

/-- What a cut leaves of a kind is the front of that kind. -/
theorem filter_take (here : Item → Bool) (items : List Item) (count : Nat) :
    (items.take count).filter here =
      (items.filter here).take ((items.take count).countP here) := by
  have isFront : (items.take count).filter here <+: items.filter here :=
    (List.take_prefix count items).filter here
  rw [List.countP_eq_length_filter]
  exact List.prefix_iff_eq_take.mp isFront

theorem countP_take_eq {items others : List Item} (kinds : items.map here = others.map here)
    (count : Nat) : (items.take count).countP here = (others.take count).countP here := by
  have fronts : (items.take count).map here = (others.take count).map here := by
    rw [List.map_take, List.map_take, kinds]
  have counted := congrArg (List.countP id) fronts
  rwa [List.countP_map, List.countP_map] at counted

/-! ### One slot -/

theorem sum_map_set {items : List Item} {index : Nat} {item next : Item}
    (here : items[index]? = some item) (value : Item → Nat) {added : Nat}
    (grown : value next = value item + added) :
    ((items.set index next).map value).sum = (items.map value).sum + added := by
  induction items generalizing index with
  | nil => cases here
  | cons first rest inductionHypothesis =>
      cases index with
      | zero =>
          cases here
          rw [List.set_cons_zero, List.map_cons, List.sum_cons, List.map_cons, List.sum_cons, grown]
          omega
      | succ index =>
          rw [List.set_cons_succ, List.map_cons, List.sum_cons, inductionHypothesis here,
            List.map_cons, List.sum_cons]
          omega

end Slots
