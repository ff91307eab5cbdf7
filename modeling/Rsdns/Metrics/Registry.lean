import Mathlib.Data.List.AList
import Rsdns.Library.Exposition

/-!
# The metrics registry (`metrics.rs`)

Families of counters, gauges and histograms, each with one series for every combination of
label values, and the text that they are scraped as.
-/

namespace Rsdns.Metrics

/-- The values that a histogram observes, as far as the registry uses them. -/
class Amount (A : Type) where
  zero : A
  add : A → A → A
  le : A → A → Bool
  print : A → Text
  le_trans : ∀ {first second third}, le first second = true → le second third = true →
    le first third = true
  print_line : ∀ amount, '\n' ∉ print amount

def u64Max : Nat := 2 ^ 64 - 1

/-- A word read with its sign. -/
def asI64 (v : UInt64) : Int := (v.toNat : Int).bmod (2 ^ 64)

/-! ### Labels -/

def rcodeLabel (code : Nat) : Text :=
  match code with
  | 0 => "NOERROR".toList
  | 1 => "FORMERR".toList
  | 2 => "SERVFAIL".toList
  | 3 => "NXDOMAIN".toList
  | 4 => "NOTIMP".toList
  | 5 => "REFUSED".toList
  | 6 => "YXDOMAIN".toList
  | 7 => "YXRRSET".toList
  | 8 => "NXRRSET".toList
  | 9 => "NOTAUTH".toList
  | 10 => "NOTZONE".toList
  | 16 => "BADVERS".toList
  | 17 => "BADKEY".toList
  | 18 => "BADTIME".toList
  | 19 => "BADMODE".toList
  | 20 => "BADNAME".toList
  | 21 => "BADALG".toList
  | 22 => "BADTRUNC".toList
  | 23 => "BADCOOKIE".toList
  | _ => "OTHER".toList

def replace (mark : Char) (written : Text) (text : Text) : Text :=
  text.flatMap fun char => if char = mark then written else [char]

def escapeLabelValue (s : Text) : Text :=
  replace '\n' ['\\', 'n'] (replace '"' ['\\', '"'] (replace '\\' ['\\', '\\'] s))

def pushLabel (out : Text) (pair : (Text × Text) × Nat) : Text :=
  (if 0 < pair.2 then out ++ [','] else out) ++ pair.1.1 ++
    '=' :: '"' :: escapeLabelValue pair.1.2 ++ ['"']

def fmtLabels (names values : List Text) : Text :=
  (names.zip values).zipIdx.foldl pushLabel []

def appendLabel (names values : List Text) (extraName extraValue : Text) : Text :=
  let out := (names.zip values).zipIdx.foldl pushLabel []
  let out := if out.isEmpty then out else out ++ [',']
  out ++ extraName ++ '=' :: '"' :: escapeLabelValue extraValue ++ ['"']

/-- What the assertion lets pass. -/
def validateMetricName (name : Text) : Bool :=
  !name.isEmpty && name.all fun char => char.isAlphanum || char == '_'

/-! ### Series -/

structure Series where
  labelNames : List Text
  values : AList fun _ : List Text => Nat

namespace Series

def update (self : Series) (labels : List Text) (delta : Int) : Series :=
  let entry := (self.values.lookup labels).getD 0
  { self with
    values := self.values.insert labels
      (if delta < 0 then entry - delta.natAbs else min (entry + delta.toNat) u64Max) }

def set (self : Series) (labels : List Text) (value : Nat) : Series :=
  { self with values := self.values.insert labels value }

end Series

structure HistogramValue (A : Type) (buckets : Nat) where
  sum : A
  count : Nat
  bucketCounts : Fin buckets → Nat

structure HistogramSeries (A : Type) where
  labelNames : List Text
  buckets : List A
  values : AList fun _ : List Text => HistogramValue A buckets.length

variable {A : Type} [Amount A]

namespace HistogramSeries

def fresh (buckets : Nat) : HistogramValue A buckets where
  sum := Amount.zero
  count := 0
  bucketCounts := fun _ => 0

/-- The counts are words that wrap around. -/
def observe (self : HistogramSeries A) (labels : List Text) (value : A) : HistogramSeries A :=
  let v := (self.values.lookup labels).getD (fresh self.buckets.length)
  { self with
    values := self.values.insert labels
      { sum := Amount.add v.sum value
        count := (v.count + 1) % 2 ^ 64
        bucketCounts := fun i =>
          if Amount.le value (self.buckets.get i) then (v.bucketCounts i + 1) % 2 ^ 64
          else v.bucketCounts i } }

end HistogramSeries

/-! ### Families -/

structure Family (S : Type) where
  name : Text
  help : Text
  series : S

def Family.modify {S : Type} (self : Family S) (change : S → S) : Family S :=
  { self with series := change self.series }

/-- A handle to a series of a counter or gauge family, or of a histogram family. -/
structure Handle where
  series : Nat
  labels : List Text
  deriving DecidableEq

def Handle.withLabelValues (self : Handle) (values : List Text) : Handle :=
  { self with labels := values }

@[simp]
theorem Handle.withLabelValues_series (self : Handle) (values : List Text) :
    (self.withLabelValues values).series = self.series := rfl

/-- Names that are taken are taken for the thread that registered them. -/
structure Registry (A : Type) where
  counters : List (Family Series) := []
  gauges : List (Family Series) := []
  histograms : List (Family (HistogramSeries A)) := []
  registeredNames : List (Nat × Text) := []

/-- The order by which buckets are sorted; what cannot be compared counts as equal. -/
def notAfter (first second : A) : Bool := Amount.le first second || !Amount.le second first

namespace Registry

/-- A registration that fails an assertion ends the process. -/
def admits (self : Registry A) (thread : Nat) (name : Text) : Bool :=
  validateMetricName name && !self.registeredNames.contains (thread, name)

def counter (self : Registry A) (thread : Nat) (name help : Text) (labelNames : List Text) :
    Option (Handle × Registry A) :=
  if self.admits thread name then
    let series : Series := { labelNames := labelNames, values := ∅ }
    some ({ series := self.counters.length, labels := [] },
      { self with
        registeredNames := self.registeredNames ++ [(thread, name)]
        counters := self.counters ++ [{ name := name, help := help, series := series }] })
  else none

def gauge (self : Registry A) (thread : Nat) (name help : Text) (labelNames : List Text) :
    Option (Handle × Registry A) :=
  if self.admits thread name then
    let series : Series := { labelNames := labelNames, values := ∅ }
    some ({ series := self.gauges.length, labels := [] },
      { self with
        registeredNames := self.registeredNames ++ [(thread, name)]
        gauges := self.gauges ++ [{ name := name, help := help, series := series }] })
  else none

def histogram (self : Registry A) (thread : Nat) (name help : Text) (labelNames : List Text)
    (buckets : List A) : Option (Handle × Registry A) :=
  if self.admits thread name then
    let series : HistogramSeries A :=
      { labelNames := labelNames, buckets := buckets.mergeSort notAfter, values := ∅ }
    some ({ series := self.histograms.length, labels := [] },
      { self with
        registeredNames := self.registeredNames ++ [(thread, name)]
        histograms := self.histograms ++ [{ name := name, help := help, series := series }] })
  else none

def incBy (self : Registry A) (counter : Handle) (v : UInt64) : Registry A :=
  { self with
    counters := self.counters.modify counter.series fun family =>
      family.modify fun series => series.update counter.labels (asI64 v) }

def inc (self : Registry A) (counter : Handle) : Registry A := self.incBy counter 1

def set (self : Registry A) (gauge : Handle) (v : UInt64) : Registry A :=
  { self with
    gauges := self.gauges.modify gauge.series fun family =>
      family.modify fun series => series.set gauge.labels v.toNat }

def observe (self : Registry A) (histogram : Handle) (value : A) : Registry A :=
  { self with
    histograms := self.histograms.modify histogram.series fun family =>
      family.modify fun series => series.observe histogram.labels value }

end Registry

/-! ### Rendering -/

/-- The order in which a hash map is gone through. -/
structure Iteration where
  order : {Value : List Text → Type} → List (Sigma Value) → List (Sigma Value)
  perm : ∀ {Value : List Text → Type} (entries : List (Sigma Value)), (order entries).Perm entries

def emitSeries (out name : Text) (labelNames labels : List Text) (value : Nat) : Text :=
  if labelNames.isEmpty then out ++ (name ++ ' ' :: Text.ofNat value ++ ['\n'])
  else
    out ++ (name ++ '{' :: fmtLabels labelNames labels ++ '}' :: ' ' :: Text.ofNat value ++ ['\n'])

/-- One round of the loop over the buckets. -/
def emitBucket (name : Text) (labelNames labels : List Text) (buckets : List A)
    (value : HistogramValue A buckets.length) (out : Text) (i : Fin buckets.length) : Text :=
  let le := Amount.print (buckets.get i)
  let bucketLabels := appendLabel labelNames labels ['l', 'e'] le
  out ++ (name ++ "_bucket".toList ++ '{' :: bucketLabels ++
    '}' :: ' ' :: Text.ofNat (value.bucketCounts i) ++ ['\n'])

def emitHistogram (out name : Text) (labelNames labels : List Text) (buckets : List A)
    (value : HistogramValue A buckets.length) : Text :=
  let out := (List.finRange buckets.length).foldl
    (emitBucket name labelNames labels buckets value) out
  let infLabels := appendLabel labelNames labels ['l', 'e'] "+Inf".toList
  let out := out ++ (name ++ "_bucket".toList ++ '{' :: infLabels ++
    '}' :: ' ' :: Text.ofNat value.count ++ ['\n'])
  let sumLabels := fmtLabels labelNames labels
  if labelNames.isEmpty then
    out ++ (name ++ "_sum".toList ++ ' ' :: Amount.print value.sum ++ ['\n']) ++
      (name ++ "_count".toList ++ ' ' :: Text.ofNat value.count ++ ['\n'])
  else
    out ++ (name ++ "_sum".toList ++ '{' :: sumLabels ++
        '}' :: ' ' :: Amount.print value.sum ++ ['\n']) ++
      (name ++ "_count".toList ++ '{' :: sumLabels ++
        '}' :: ' ' :: Text.ofNat value.count ++ ['\n'])

/-- The two lines that a family begins with. -/
def emitHead (out name help kind : Text) : Text :=
  out ++ ("# HELP ".toList ++ name ++ ' ' :: help ++ ['\n']) ++
    ("# TYPE ".toList ++ name ++ ' ' :: kind ++ ['\n'])

def emitFamily (kind : Text) (iteration : Iteration) (out : Text) (family : Family Series) :
    Text :=
  (iteration.order family.series.values.entries).foldl
    (fun out entry => emitSeries out family.name family.series.labelNames entry.1 entry.2)
    (emitHead out family.name family.help kind)

def emitHistogramFamily (iteration : Iteration) (out : Text)
    (family : Family (HistogramSeries A)) : Text :=
  (iteration.order family.series.values.entries).foldl
    (fun out entry => emitHistogram out family.name family.series.labelNames entry.1
      family.series.buckets entry.2)
    (emitHead out family.name family.help "histogram".toList)

/-- The text of a registry that nothing changes meanwhile. -/
def Registry.encodeText (self : Registry A) (iteration : Iteration) : Text :=
  let out := self.counters.foldl (emitFamily "counter".toList iteration) []
  let out := self.gauges.foldl (emitFamily "gauge".toList iteration) out
  self.histograms.foldl (emitHistogramFamily iteration) out

end Rsdns.Metrics
