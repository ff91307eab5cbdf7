import Rsdns.Library.BitPrefix
import Rsdns.Library.IpPrinting
import Rsdns.Plugins.Rules

/-!
# What an address range holds

Two parts of the server compare masked words.  A range holds the addresses that agree
with its network on the first bits, which are those of an interval, and the mask is
computed without a shift by a whole word.
-/

namespace Rsdns.Plugins

open Dns

/-! ### The mask as it is computed -/

/-- A shift by less than a word. -/
def checkedShl {width : Nat} (word : BitVec width) (amount : Nat) : Option (BitVec width) :=
  if amount < width then some (word <<< amount) else none

/-- The mask, unless the difference falls below zero or the shift leaves the word. -/
def checkedMask (width prefixLen : Nat) : Option (BitVec width) :=
  if prefixLen = 0 then some 0
  else if prefixLen ≤ width then checkedShl (BitVec.allOnes width) (width - prefixLen)
  else none

theorem checkedMask_eq {width prefixLen : Nat} (short : prefixLen ≤ width) :
    checkedMask width prefixLen = some (prefixMask width prefixLen) := by
  unfold checkedMask prefixMask
  by_cases empty : prefixLen = 0
  · rw [if_pos empty, if_pos empty]
  · have inside : width - prefixLen < width := by omega
    rw [if_neg empty, if_neg empty, if_pos short, checkedShl, if_pos inside]

/-- The empty mask is no exception: a shift by the whole width leaves nothing. -/
theorem prefixMask_eq (width prefixLen : Nat) :
    prefixMask width prefixLen = BitVec.allOnes width <<< (width - prefixLen) := by
  unfold prefixMask
  split
  · next empty => rw [empty, Nat.sub_zero, BitVec.shiftLeft_eq_zero le_rfl]; rfl
  · rfl

theorem masked_eq_iff {width prefixLen : Nat} (short : prefixLen ≤ width)
    {ip net : BitVec width} :
    (ip &&& prefixMask width prefixLen == net &&& prefixMask width prefixLen) = true ↔
      BitPrefix.Agree prefixLen ip net := by
  rw [beq_iff_eq, prefixMask_eq, BitPrefix.and_mask_eq_iff short]

/-! ### What a range holds -/

namespace Cidr

def SharesPrefix : Cidr → IpAddr → Prop
  | .V4 net prefixLen, .v4 ip => BitPrefix.Agree prefixLen ip net
  | .V6 net prefixLen, .v6 ip => BitPrefix.Agree prefixLen ip net
  | _, _ => False

/-- The address lies between the network with all host bits cleared and with all of them
set. -/
def Spans : Cidr → IpAddr → Prop
  | .V4 net prefixLen, .v4 ip =>
      BitPrefix.lowest prefixLen net ≤ ip ∧ ip ≤ BitPrefix.highest prefixLen net
  | .V6 net prefixLen, .v6 ip =>
      BitPrefix.lowest prefixLen net ≤ ip ∧ ip ≤ BitPrefix.highest prefixLen net
  | _, _ => False

theorem contains_iff_sharesPrefix (self : Cidr) (ip : IpAddr) :
    self.contains ip = true ↔ self.SharesPrefix ip := by
  cases self with
  | V4 net prefixLen =>
      cases ip with
      | v4 ip => exact masked_eq_iff (Nat.le_of_lt_succ prefixLen.isLt)
      | v6 ip => exact iff_of_false Bool.false_ne_true id
  | V6 net prefixLen =>
      cases ip with
      | v4 ip => exact iff_of_false Bool.false_ne_true id
      | v6 ip => exact masked_eq_iff (Nat.le_of_lt_succ prefixLen.isLt)

theorem sharesPrefix_iff_spans (self : Cidr) (ip : IpAddr) :
    self.SharesPrefix ip ↔ self.Spans ip := by
  cases self with
  | V4 net prefixLen =>
      cases ip with
      | v4 ip => exact BitPrefix.agree_iff_between (Nat.le_of_lt_succ prefixLen.isLt)
      | v6 ip => exact Iff.rfl
  | V6 net prefixLen =>
      cases ip with
      | v4 ip => exact Iff.rfl
      | v6 ip => exact BitPrefix.agree_iff_between (Nat.le_of_lt_succ prefixLen.isLt)

/-! ### What is parsed -/

/-- A range of the other kind is parsed from the same text, apart from the white space
around it. -/
theorem parse_eq_V4_iff {spec : Text} {net : Ipv4Addr} {prefixLen : Fin 33} :
    Cidr.parse spec = some (.V4 net prefixLen) ↔
      Ipv4Cidr.parse spec.trim = some { net := net, prefixLen := prefixLen } := by
  unfold Cidr.parse Ipv4Cidr.parse
  cases Text.splitOnce '/' spec.trim with
  | none => simp
  | some found =>
      obtain ⟨addr, bits⟩ := found
      simp only [Option.bind_eq_bind, Option.bind_some]
      cases Text.parseUnsigned 256 bits with
      | none => simp
      | some bits =>
          simp only [Option.bind_some]
          cases IpText.parseIpv4Addr addr with
          | none =>
              cases IpText.parseIpv6Addr addr with
              | none => simp
              | some ip => simp
          | some ip =>
              simp only [Option.bind_some]
              split <;> simp

theorem splitOnce_written {addr : Text} (isAddr : ∀ char ∈ addr, IpText.IsIpChar char)
    (prefixLen : Nat) :
    Text.splitOnce '/' (Text.trim (addr ++ '/' :: Text.ofNat prefixLen)) =
      some (addr, Text.ofNat prefixLen) := by
  have dark : ∀ char ∈ addr ++ '/' :: Text.ofNat prefixLen, Text.isWhitespace char = false := by
    intro char member
    rcases List.mem_append.mp member with inAddr | inRest
    · exact (isAddr char inAddr).plain.1
    · rcases List.mem_cons.mp inRest with rfl | inBits
      · decide
      · have digit := Text.isDigit_of_mem_ofNat inBits
        exact Text.isWhitespace_of_isAlphanum (by simp [Char.isAlphanum, digit])
  have unmarked : '/' ∉ addr := fun member => (isAddr '/' member).plain.2.1 rfl
  have whole : Text.trim (addr ++ '/' :: Text.ofNat prefixLen) =
      addr ++ '/' :: Text.ofNat prefixLen :=
    Text.trim_eq_self (fun char first => dark char (List.mem_of_mem_head? first))
      (fun char last => dark char (List.mem_of_getLast? last))
  rw [whole, Text.splitOnce_append unmarked]

theorem parse_V4 (net : Ipv4Addr) (prefixLen : Fin 33) :
    Cidr.parse (IpText.ofIpv4Addr net ++ '/' :: Text.ofNat prefixLen) =
      some (.V4 net prefixLen) := by
  have cut := splitOnce_written (fun char member => (@IpText.isIpv4Char_of_mem net char member).isIpChar)
    prefixLen.val
  have small : prefixLen.val < 256 := lt_trans prefixLen.isLt (by decide)
  rw [Cidr.parse, cut]
  simp [Text.parseUnsigned_ofNat small, IpText.parseIpv4Addr_ofIpv4Addr, prefixLen.isLt]

theorem parse_V6 (net : Ipv6Addr) (prefixLen : Fin 129) :
    Cidr.parse (IpText.ofIpv6Addr net ++ '/' :: Text.ofNat prefixLen) =
      some (.V6 net prefixLen) := by
  have cut := splitOnce_written (@IpText.isIpChar_of_mem net) prefixLen.val
  have small : prefixLen.val < 256 := lt_trans prefixLen.isLt (by decide)
  rw [Cidr.parse, cut]
  simp [Text.parseUnsigned_ofNat small, IpText.parseIpv4Addr_ofIpv6Addr,
    IpText.parseIpv6Addr_ofIpv6Addr, prefixLen.isLt]

end Cidr

/-- A range, of any network and with any length that is parsed, holds the addresses of its
family that share its prefix, which are those of an interval.  The mask never shifts by a
whole word, and both kinds of IPv4 range are parsed and hold alike. -/
theorem cidr_containment_is_prefix_equality :
    (∀ (cidr : Cidr) (ip : IpAddr),
      (cidr.contains ip = true ↔ cidr.SharesPrefix ip) ∧
      (cidr.contains ip = true ↔ cidr.Spans ip)) ∧
    (∀ (net : Ipv4Addr) (prefixLen : Fin 33) (ip : Ipv6Addr),
      (Cidr.V4 net prefixLen).contains (.v6 ip) = false) ∧
    (∀ (net : Ipv6Addr) (prefixLen : Fin 129) (ip : Ipv4Addr),
      (Cidr.V6 net prefixLen).contains (.v4 ip) = false) ∧
    (∀ prefixLen : Fin 33, checkedMask 32 prefixLen = some (prefixMask 32 prefixLen)) ∧
    (∀ prefixLen : Fin 129, checkedMask 128 prefixLen = some (prefixMask 128 prefixLen)) ∧
    (∀ (cidr : Ipv4Cidr) (ip : Ipv4Addr),
      cidr.contains ip = (Cidr.V4 cidr.net cidr.prefixLen).contains (.v4 ip)) ∧
    (∀ (spec : Text) (net : Ipv4Addr) (prefixLen : Fin 33),
      Cidr.parse spec = some (.V4 net prefixLen) ↔
        Ipv4Cidr.parse spec.trim = some { net := net, prefixLen := prefixLen }) ∧
    (∀ (net : Ipv4Addr) (prefixLen : Fin 33),
      Cidr.parse (IpText.ofIpv4Addr net ++ '/' :: Text.ofNat prefixLen) =
        some (.V4 net prefixLen)) ∧
    ∀ (net : Ipv6Addr) (prefixLen : Fin 129),
      Cidr.parse (IpText.ofIpv6Addr net ++ '/' :: Text.ofNat prefixLen) =
        some (.V6 net prefixLen) := by
  refine ⟨fun cidr ip => ⟨cidr.contains_iff_sharesPrefix ip, ?_⟩, fun _ _ _ => rfl,
    fun _ _ _ => rfl, ?_, ?_, fun _ _ => rfl, fun _ _ _ => Cidr.parse_eq_V4_iff, Cidr.parse_V4,
    Cidr.parse_V6⟩
  · rw [cidr.contains_iff_sharesPrefix, cidr.sharesPrefix_iff_spans]
  · exact fun prefixLen => checkedMask_eq (Nat.le_of_lt_succ prefixLen.isLt)
  · exact fun prefixLen => checkedMask_eq (Nat.le_of_lt_succ prefixLen.isLt)

/-- A network with host bits, and the addresses at both ends of what it spans. -/
example : (Cidr.parse " 10.1.2.3/8".toList).map (fun cidr =>
    ["9.255.255.255", "10.0.0.0", "10.255.255.255", "11.0.0.0"].map fun ip =>
      (IpAddr.parse ip.toList).map cidr.contains) =
    some [some false, some true, some true, some false] := by decide

end Rsdns.Plugins
