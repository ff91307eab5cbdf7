import Rsdns.Metrics.Registry

/-!
# What a scrape says

The text of a family is the text of its items: what it is about, its kind, and the samples
of its series.  Names that are plain, help of one line and as many label values as label
names make these items readable.
-/

namespace Rsdns.Metrics

open Exposition

variable {A : Type} [Amount A]

/-! ### Labels -/

theorem escapeLabelValue_eq (s : Text) : escapeLabelValue s = escape s := by
  induction s with
  | nil => rfl
  | cons char s inductionHypothesis =>
      have goesOn : escapeLabelValue (char :: s) =
          escapeLabelValue [char] ++ escapeLabelValue s := by
        simp only [escapeLabelValue, replace, List.flatMap_cons, List.flatMap_append,
          List.flatMap_nil, List.append_nil]
      have one : escapeLabelValue [char] = escapeChar char := by
        unfold escapeChar
        -- a backslash that is written for another character is not met again
        by_cases backslash : char = '\\'
        · subst backslash
          rfl
        · by_cases quote : char = '"'
          · subst quote
            rfl
          · by_cases lineEnd : char = '\n'
            · subst lineEnd
              rfl
            · simp [escapeLabelValue, replace, backslash, quote, lineEnd]
      rw [goesOn, one, inductionHypothesis, escape, escape, List.flatMap_cons]

theorem foldl_pushLabel (pairs : List (Text × Text)) (start : Nat) (out : Text) :
    (pairs.zipIdx (start + 1)).foldl pushLabel out =
      out ++ pairs.flatMap fun pair => ',' :: writeLabel pair := by
  induction pairs generalizing start out with
  | nil => simp
  | cons pair pairs inductionHypothesis =>
      have pushed : pushLabel out (pair, start + 1) = out ++ ',' :: writeLabel pair := by
        simp [pushLabel, writeLabel, escapeLabelValue_eq]
      rw [List.zipIdx_cons, List.foldl_cons, inductionHypothesis, pushed, List.flatMap_cons,
        List.append_assoc]

theorem writeLabels_cons (label : Text × Text) (labels : List (Text × Text)) :
    writeLabels (label :: labels) =
      writeLabel label ++ labels.flatMap fun later => ',' :: writeLabel later := by
  induction labels generalizing label with
  | nil => simp [writeLabels]
  | cons next labels inductionHypothesis =>
      have separated : writeLabels (label :: next :: labels) =
          writeLabel label ++ ',' :: writeLabels (next :: labels) := by
        simp [writeLabels, List.intercalate]
      rw [separated, inductionHypothesis, List.flatMap_cons, List.cons_append]

theorem fmtLabels_eq (names values : List Text) :
    fmtLabels names values = writeLabels (names.zip values) := by
  unfold fmtLabels
  cases names.zip values with
  | nil => rfl
  | cons pair pairs =>
      have pushed : pushLabel [] (pair, 0) = writeLabel pair := by
        simp [pushLabel, writeLabel, escapeLabelValue_eq]
      rw [List.zipIdx_cons, List.foldl_cons, foldl_pushLabel, pushed, writeLabels_cons]

theorem appendLabel_eq (names values : List Text) (extraName extraValue : Text) :
    appendLabel names values extraName extraValue =
      writeLabels (names.zip values ++ [(extraName, extraValue)]) := by
  have formatted : (names.zip values).zipIdx.foldl pushLabel [] =
      writeLabels (names.zip values) := fmtLabels_eq names values
  unfold appendLabel
  rw [formatted]
  cases names.zip values with
  | nil => simp [writeLabels, writeLabel, escapeLabelValue_eq]
  | cons pair pairs =>
      have written : (writeLabels (pair :: pairs)).isEmpty = false := by
        simp [writeLabels_cons, writeLabel]
      simp only [written, Bool.false_eq_true, if_false, List.cons_append]
      rw [writeLabels_cons, writeLabels_cons, List.flatMap_append]
      simp [writeLabel, escapeLabelValue_eq]

/-! ### Items -/

def seriesItem (name : Text) (labelNames labels : List Text) (value : Nat) : Item :=
  .sample { name := name, labels := labelNames.zip labels, value := Text.ofNat value }

def bucketItem (name : Text) (labelNames labels : List Text) (le : Text) (count : Nat) : Item :=
  .sample {
    name := name ++ "_bucket".toList
    labels := labelNames.zip labels ++ [(['l', 'e'], le)]
    value := Text.ofNat count }

def histogramItems (name : Text) (labelNames labels : List Text) (buckets : List A)
    (value : HistogramValue A buckets.length) : List Item :=
  ((List.finRange buckets.length).flatMap fun i =>
    [bucketItem name labelNames labels (Amount.print (buckets.get i)) (value.bucketCounts i)]) ++
  [bucketItem name labelNames labels "+Inf".toList value.count] ++
  [.sample {
      name := name ++ "_sum".toList
      labels := labelNames.zip labels
      value := Amount.print value.sum },
    .sample {
      name := name ++ "_count".toList
      labels := labelNames.zip labels
      value := Text.ofNat value.count }]

def Family.head {S : Type} (self : Family S) (kind : Text) : List Item :=
  [.help self.name self.help, .kind self.name kind]

def Family.items (self : Family Series) (kind : Text) (iteration : Iteration) : List Item :=
  self.head kind ++ (iteration.order self.series.values.entries).map fun entry =>
    seriesItem self.name self.series.labelNames entry.1 entry.2

def Family.histogramItems (self : Family (HistogramSeries A)) (iteration : Iteration) :
    List Item :=
  self.head "histogram".toList ++ (iteration.order self.series.values.entries).flatMap fun entry =>
    Metrics.histogramItems self.name self.series.labelNames entry.1 self.series.buckets entry.2

/-! ### The text is the text of the items -/

theorem writeItems_append (first second : List Item) :
    writeItems (first ++ second) = writeItems first ++ writeItems second :=
  List.flatMap_append

theorem writeItems_singleton (item : Item) : writeItems [item] = item.write ++ ['\n'] := by
  simp [writeItems]

/-- A loop that adds the text of some items in each round adds the text of all of them. -/
theorem foldl_writeItems {Round : Type} {emit : Text → Round → Text} {items : Round → List Item}
    {rounds : List Round}
    (adds : ∀ out, ∀ round ∈ rounds, emit out round = out ++ writeItems (items round))
    (out : Text) : rounds.foldl emit out = out ++ writeItems (rounds.flatMap items) := by
  induction rounds generalizing out with
  | nil => simp [writeItems]
  | cons round rounds inductionHypothesis =>
      have later := inductionHypothesis fun out round member =>
        adds out round (List.mem_cons_of_mem _ member)
      rw [List.foldl_cons, adds out round List.mem_cons_self, later, List.flatMap_cons,
        writeItems_append, List.append_assoc]

theorem write_labelled (name : Text) {labels : List (Text × Text)} (nonempty : labels ≠ [])
    (value : Text) : (Item.sample ⟨name, labels, value⟩).write =
      name ++ '{' :: writeLabels labels ++ '}' :: ' ' :: value := by
  simp [Item.write, Sample.write, nonempty]

theorem write_unlabelled (name value : Text) :
    (Item.sample ⟨name, [], value⟩).write = name ++ ' ' :: value := by
  simp [Item.write, Sample.write]

theorem zip_eq_nil_iff {names values : List Text} (same : values.length = names.length) :
    names.zip values = [] ↔ names = [] := by
  rw [List.zip_eq_nil_iff]
  constructor
  · rintro (empty | empty)
    · exact empty
    · subst empty
      exact List.length_eq_zero_iff.mp same.symm
  · exact Or.inl

theorem emitSeries_eq (out name : Text) {labelNames labels : List Text}
    (same : labels.length = labelNames.length) (value : Nat) :
    emitSeries out name labelNames labels value =
      out ++ writeItems [seriesItem name labelNames labels value] := by
  unfold emitSeries seriesItem
  rw [writeItems_singleton]
  by_cases empty : labelNames = []
  · subst empty
    rw [List.zip_nil_left, write_unlabelled]
    rfl
  · have present : labelNames.zip labels ≠ [] := mt (zip_eq_nil_iff same).mp empty
    rw [write_labelled name present, fmtLabels_eq, if_neg (by simpa using empty)]

theorem emitHead_eq {S : Type} (out : Text) (family : Family S) (kind : Text) :
    emitHead out family.name family.help kind = out ++ writeItems (family.head kind) := by
  have helped : "# HELP ".toList = helpMark := rfl
  have kinded : "# TYPE ".toList = kindMark := rfl
  simp only [emitHead, Family.head, writeItems, Item.write, helped, kinded, List.flatMap_cons,
    List.flatMap_nil, List.append_nil, List.append_assoc]

theorem bucket_line (name : Text) (labelNames labels : List Text) (le : Text) (count : Nat) :
    name ++ "_bucket".toList ++ '{' :: appendLabel labelNames labels ['l', 'e'] le ++
        '}' :: ' ' :: Text.ofNat count ++ ['\n'] =
      writeItems [bucketItem name labelNames labels le count] := by
  have present : labelNames.zip labels ++ [(['l', 'e'], le)] ≠ [] :=
    List.append_ne_nil_of_right_ne_nil _ (List.cons_ne_nil _ _)
  rw [writeItems_singleton, bucketItem, write_labelled _ present, appendLabel_eq]

theorem emitHistogram_eq (out name : Text) {labelNames labels : List Text}
    (same : labels.length = labelNames.length) (buckets : List A)
    (value : HistogramValue A buckets.length) :
    emitHistogram out name labelNames labels buckets value =
      out ++ writeItems (histogramItems name labelNames labels buckets value) := by
  have loop (out : Text) : (List.finRange buckets.length).foldl
      (emitBucket name labelNames labels buckets value) out =
      out ++ writeItems ((List.finRange buckets.length).flatMap fun i =>
        [bucketItem name labelNames labels (Amount.print (buckets.get i))
          (value.bucketCounts i)]) :=
    foldl_writeItems (fun out i _ => congrArg (out ++ ·) (bucket_line name labelNames labels
      (Amount.print (buckets.get i)) (value.bucketCounts i))) out
  have tail : writeItems
      [.sample ⟨name ++ "_sum".toList, labelNames.zip labels, Amount.print value.sum⟩,
        .sample ⟨name ++ "_count".toList, labelNames.zip labels, Text.ofNat value.count⟩] =
      (Item.sample ⟨name ++ "_sum".toList, labelNames.zip labels,
        Amount.print value.sum⟩).write ++ ['\n'] ++
      ((Item.sample ⟨name ++ "_count".toList, labelNames.zip labels,
        Text.ofNat value.count⟩).write ++ ['\n']) := by
    simp [writeItems]
  unfold emitHistogram histogramItems
  dsimp only
  rw [loop, bucket_line, writeItems_append, writeItems_append, tail]
  by_cases empty : labelNames = []
  · subst empty
    rw [List.zip_nil_left, write_unlabelled, write_unlabelled]
    simp [List.append_assoc]
  · have present : labelNames.zip labels ≠ [] := mt (zip_eq_nil_iff same).mp empty
    rw [write_labelled _ present, write_labelled _ present, fmtLabels_eq,
      if_neg (by simpa using empty)]
    simp [List.append_assoc]

/-! ### Families that can be read back -/

/-- The label values of each series are as many as the label names, which are plain. -/
structure Labelled {Value : List Text → Type} (labelNames : List Text) (values : AList Value) :
    Prop where
  named : ∀ name ∈ labelNames, IsName name
  matched : ∀ labels ∈ values, labels.length = labelNames.length

/-- What a family is registered with is plain text. -/
structure Family.Plain {S : Type} (family : Family S) : Prop where
  name : IsName family.name
  help : IsLine family.help

theorem length_of_mem_order {Value : List Text → Type} {labelNames : List Text}
    {values : AList Value} (labelled : Labelled labelNames values) {iteration : Iteration}
    {entry : Sigma Value} (member : entry ∈ iteration.order values.entries) :
    entry.1.length = labelNames.length :=
  labelled.matched entry.1
    (List.mem_keys_of_mem ((iteration.perm values.entries).mem_iff.mp member))

theorem emitFamily_eq {family : Family Series}
    (labelled : Labelled family.series.labelNames family.series.values)
    (kind : Text) (iteration : Iteration) (out : Text) :
    emitFamily kind iteration out family = out ++ writeItems (family.items kind iteration) := by
  unfold emitFamily Family.items
  rw [emitHead_eq, foldl_writeItems fun out entry member =>
    emitSeries_eq out family.name (length_of_mem_order labelled member) entry.2]
  rw [writeItems_append, List.append_assoc, ← List.map_eq_flatMap]

theorem emitHistogramFamily_eq {family : Family (HistogramSeries A)}
    (labelled : Labelled family.series.labelNames family.series.values)
    (iteration : Iteration) (out : Text) :
    emitHistogramFamily iteration out family =
      out ++ writeItems (family.histogramItems iteration) := by
  unfold emitHistogramFamily Family.histogramItems
  rw [emitHead_eq, foldl_writeItems fun out entry member =>
    emitHistogram_eq out family.name (length_of_mem_order labelled member)
      family.series.buckets entry.2]
  rw [writeItems_append, List.append_assoc]

/-! ### Their items are well formed -/

theorem isLine_ofNat (number : Nat) : IsLine (Text.ofNat number) := by
  intro member
  exact absurd (Text.isDigit_of_mem_ofNat member) (by decide)

theorem isName_le : IsName ['l', 'e'] := ⟨List.cons_ne_nil _ _, by decide⟩

theorem named_of_mem_zip {names values : List Text} (named : ∀ name ∈ names, IsName name) :
    ∀ label ∈ names.zip values, IsName label.1 :=
  fun _ member => named _ (List.of_mem_zip member).1

theorem Family.Plain.head {S : Type} {self : Family S} (plain : self.Plain) {kind : Text}
    (oneLine : IsLine kind) : ∀ item ∈ self.head kind, item.WellFormed := by
  intro item member
  rcases List.mem_pair.mp member with rfl | rfl
  · exact ⟨plain.name, plain.help⟩
  · exact ⟨plain.name, oneLine⟩

theorem Family.Plain.items {self : Family Series} (plain : self.Plain)
    (labelled : Labelled self.series.labelNames self.series.values) {kind : Text}
    (oneLine : IsLine kind) (iteration : Iteration) :
    ∀ item ∈ self.items kind iteration, item.WellFormed := by
  intro item member
  rcases List.mem_append.mp member with inHead | inSeries
  · exact plain.head oneLine item inHead
  · obtain ⟨entry, _, rfl⟩ := List.mem_map.mp inSeries
    exact { name := plain.name, labels := named_of_mem_zip labelled.named,
            value := isLine_ofNat entry.2 }

theorem wellFormed_histogramItems {name : Text} (isName : IsName name)
    {labelNames : List Text} (named : ∀ label ∈ labelNames, IsName label) (labels : List Text)
    (buckets : List A) (value : HistogramValue A buckets.length) :
    ∀ item ∈ histogramItems name labelNames labels buckets value, item.WellFormed := by
  have bucket (le : Text) (count : Nat) :
      (bucketItem name labelNames labels le count).WellFormed := by
    refine { name := isName.append (by decide), labels := ?_, value := isLine_ofNat count }
    intro label member
    rcases List.mem_append.mp member with inZip | extra
    · exact named_of_mem_zip named label inZip
    · rw [List.mem_singleton.mp extra]
      exact isName_le
  intro item member
  rcases List.mem_append.mp member with inBuckets | inRest
  · rcases List.mem_append.mp inBuckets with explicit | infinite
    · obtain ⟨i, _, isBucket⟩ := List.mem_flatMap.mp explicit
      rw [List.mem_singleton.mp isBucket]
      exact bucket _ _
    · rw [List.mem_singleton.mp infinite]
      exact bucket _ _
  · rcases List.mem_pair.mp inRest with rfl | rfl
    · exact { name := isName.append (by decide), labels := named_of_mem_zip named,
              value := Amount.print_line value.sum }
    · exact { name := isName.append (by decide), labels := named_of_mem_zip named,
              value := isLine_ofNat value.count }

theorem Family.Plain.histogramItems {self : Family (HistogramSeries A)} (plain : self.Plain)
    (labelled : Labelled self.series.labelNames self.series.values) (iteration : Iteration) :
    ∀ item ∈ self.histogramItems iteration, item.WellFormed := by
  intro item member
  rcases List.mem_append.mp member with inHead | inSeries
  · exact plain.head (by decide) item inHead
  · obtain ⟨entry, _, inEntry⟩ := List.mem_flatMap.mp inSeries
    exact wellFormed_histogramItems plain.name labelled.named entry.1 self.series.buckets entry.2
      item inEntry

/-- Whole numbers are printed without a point. -/
instance : Amount Nat where
  zero := 0
  add := Nat.add
  le := Nat.ble
  print := Text.ofNat
  le_trans := fun below above =>
    Nat.ble_eq.mpr ((Nat.ble_eq.mp below).trans (Nat.ble_eq.mp above))
  print_line := isLine_ofNat

end Rsdns.Metrics
