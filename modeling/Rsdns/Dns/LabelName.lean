import Rsdns.Dns.Message

/-!
# Names by their labels

A library of domain names to run the model with.  On letters, digits, inner hyphens
and underscores it does what the wire library does: the strict parser lowers
letters and takes an underscore only in front of a label, the other parser
keeps letters and takes it anywhere.  Hyphens at the ends of a label it judges in
its own way, not as the wire library does.
-/

namespace Rsdns.Dns

structure LabelName where
  labels : List Text
  fqdn : Bool
  deriving DecidableEq

namespace LabelName

def isAsciiLabel (label : Text) : Bool :=
  label ≠ [] && label.length ≤ 63 &&
    label.all fun char => char.isAlphanum || char == '-' || char == '_'

/-- Letters, digits and inner hyphens, or an underscore and any label after it. -/
def isUtf8Label (label : Text) : Bool :=
  isAsciiLabel label &&
    (label.head? == some '_' ||
      (label.all (· ≠ '_') && label.head? ≠ some '-' && label.getLast? ≠ some '-'))

def parse (valid : Text → Bool) (text : Text) : Option LabelName :=
  let pieces := text.splitOn '.'
  let fqdn := text.getLast? == some '.'
  let labels := if pieces.getLast? = some [] then pieces.dropLast else pieces
  if text = ['.'] then some ⟨[], true⟩
  else if labels.all valid then some ⟨labels, fqdn⟩
  else none

def render (name : LabelName) : Text :=
  ['.'].intercalate name.labels ++ if name.fqdn then ['.'] else []

def toLowercase (name : LabelName) : LabelName :=
  { name with labels := name.labels.map Text.toAsciiLowercase }

instance : NameApi LabelName where
  root := ⟨[], true⟩
  toAscii := render
  toUtf8 := render
  toLowercase := toLowercase
  fromUtf8 text := (parse isUtf8Label text).map toLowercase
  fromAscii := parse isAsciiLabel
  eqIgnoreRoot first second := first.toLowercase.labels = second.toLowercase.labels

def ask (name : LabelName) (qtype : RecordType) : Message LabelName :=
  { Message.new 1 .query .query with
    queries := [{ name := name, queryType := qtype, queryClass := .IN }] }

end LabelName

end Rsdns.Dns
