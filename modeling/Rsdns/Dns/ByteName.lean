import Rsdns.Dns.LabelName
import Rsdns.Dns.NameText

/-!
# Names by their bytes

Names with arbitrary bytes in their labels, written as the wire library writes
them: a letter, digit, underscore, inner hyphen or star in front as it is, any other
visible character behind a backslash, and any other byte in octal behind one.
-/

namespace Rsdns.Dns

structure ByteName where
  labels : List { label : List UInt8 // label ≠ [] }
  fqdn : Bool
  deriving DecidableEq

namespace ByteName

def isSafeAscii (first : Bool) (char : Char) : Bool :=
  char.isAlphanum || (char == '-' && !first) || char == '_' || (char == '*' && first)

def octalDigit (number : Nat) : Char := Char.ofNat (number % 8 + '0'.toNat)

def writeByte (first : Bool) (byte : UInt8) : Text :=
  if isSafeAscii first (byteChar byte) then [byteChar byte]
  else if 0x20 < byte ∧ byte < 0x7f then ['\\', byteChar byte]
  else
    ['\\', octalDigit (byte.toNat / 64), octalDigit (byte.toNat / 8), octalDigit byte.toNat]

def render (name : ByteName) : Text :=
  ['.'].intercalate ((name.labels.map Subtype.val).map (writeBytes writeByte true)) ++
    if name.fqdn then ['.'] else []

def lowerByte (byte : UInt8) : UInt8 := if 65 ≤ byte ∧ byte ≤ 90 then byte + 32 else byte

def toLowercase (name : ByteName) : ByteName :=
  { name with
    labels := name.labels.map fun label => ⟨label.val.map lowerByte, by simpa using label.property⟩ }

/-- The bytes of a parsed text. -/
def ofLabelName (name : LabelName) : ByteName where
  labels := name.labels.filterMap fun label =>
    let bytes := label.map fun char => UInt8.ofNat char.toNat
    if nonempty : bytes ≠ [] then some ⟨bytes, nonempty⟩ else none
  fqdn := name.fqdn

instance : NameApi ByteName where
  root := ⟨[], true⟩
  toAscii := render
  toUtf8 := render
  toLowercase := toLowercase
  fromUtf8 text := (NameApi.fromUtf8 text).map ofLabelName
  fromAscii text := (NameApi.fromAscii text).map ofLabelName
  eqIgnoreRoot first second := first.toLowercase.labels = second.toLowercase.labels

theorem forall_byte {property : UInt8 → Prop}
    (holds : ∀ number : Fin 256, property (UInt8.ofNat number)) (byte : UInt8) :
    property byte := by
  have found := holds ⟨byte.toNat, byte.toNat_lt⟩
  rwa [UInt8.ofNat_toNat] at found

theorem byteChar_lowerByte : ∀ byte, byteChar (lowerByte byte) = (byteChar byte).toLower :=
  forall_byte (by decide +kernel)

theorem writeByte_of_standsForItself (first : Bool) : ∀ byte, StandsForItself first byte →
    writeByte first byte = [byteChar byte] := by
  apply forall_byte
  revert first
  decide +kernel

theorem writeByte_dot (first : Bool) : ∀ byte, byteChar byte = '.' →
    writeByte first byte = ['\\', '.'] := by
  apply forall_byte
  revert first
  decide +kernel

theorem writeByte_escaped (first : Bool) : ∀ byte, ¬ StandsForItself first byte →
    byteChar byte ≠ '.' →
    (∀ char ∈ writeByte first byte, char ≠ '.' ∧ char.isAlpha = false) ∧
      ∃ char ∈ writeByte first byte, isPlainChar char = false := by
  have checked : ∀ byte, ¬ StandsForItself first byte → byteChar byte ≠ '.' →
      (writeByte first byte).all (fun char => decide (char ≠ '.' ∧ char.isAlpha = false)) = true ∧
        (writeByte first byte).any (fun char => decide (isPlainChar char = false)) = true := by
    apply forall_byte
    revert first
    decide +kernel
  intro byte notPlain noDot
  obtain ⟨quiet, marked⟩ := checked byte notPlain noDot
  exact ⟨List.all_iff_forall_prop.mp quiet, List.any_iff_exists_prop.mp marked⟩

theorem writeByte_closed (first : Bool) : ∀ byte,
    openAfter false (writeByte first byte) = false := by
  apply forall_byte
  revert first
  decide +kernel

/-- The names are written the way names are. -/
def text : NameText ByteName where
  labels name := name.labels.map Subtype.val
  absolute name := name.fqdn
  write := writeByte
  nonempty name label member := by
    obtain ⟨bytes, _, rfl⟩ := List.mem_map.mp member
    exact bytes.property
  toAscii _ := rfl
  toLowercase name := by
    simp only [NameApi.toLowercase, toLowercase, List.map_map]
    apply List.map_congr_left
    intro label _
    simp [Text.toAsciiLowercase, byteChar_lowerByte]
  plain := writeByte_of_standsForItself
  dot := writeByte_dot
  escaped := writeByte_escaped
  closed := writeByte_closed

end ByteName

end Rsdns.Dns
