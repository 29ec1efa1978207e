import TunnelAI.Library.AddressBlocks

/-!
The address types of the standard library and the predicates on them, as
octets, with the ranges they are documented to have as prefix blocks.
-/
namespace StdNet
open StreamReader AddressBlocks

structure Ipv4Addr where
  octets : Octets 4
  deriving DecidableEq

structure Ipv6Addr where
  octets : Octets 16
  deriving DecidableEq

inductive IpAddr where
  | v4 : Ipv4Addr → IpAddr
  | v6 : Ipv6Addr → IpAddr
  deriving DecidableEq

structure SocketAddr where
  ip : IpAddr
  port : UInt16
  deriving DecidableEq

def Ipv4Addr.octet0 (ip : Ipv4Addr) : UInt8 := ip.octets.1.headD 0

def Ipv4Addr.isPrivate (ip : Ipv4Addr) : Bool :=
  match ip.octets.1 with
  | [10, _, _, _] => true
  | [172, b, _, _] => 16 ≤ b && b ≤ 31
  | [192, 168, _, _] => true
  | _ => false

def Ipv4Addr.isLoopback (ip : Ipv4Addr) : Bool := ip.octet0 == 127

def Ipv4Addr.isLinkLocal (ip : Ipv4Addr) : Bool :=
  match ip.octets.1 with
  | [169, 254, _, _] => true
  | _ => false

def Ipv4Addr.isMulticast (ip : Ipv4Addr) : Bool := 224 ≤ ip.octet0 && ip.octet0 ≤ 239

def Ipv4Addr.isUnspecified (ip : Ipv4Addr) : Bool := ip.octets.1 == [0, 0, 0, 0]

def Ipv4Addr.isBroadcast (ip : Ipv4Addr) : Bool := ip.octets.1 == [255, 255, 255, 255]

def Ipv6Addr.toIpv4Mapped (ip : Ipv6Addr) : Option Ipv4Addr :=
  match ip.octets with
  | ⟨[0, 0, 0, 0, 0, 0, 0, 0, 0, 0, 0xff, 0xff, a, b, c, d], _⟩ => some ⟨⟨[a, b, c, d], rfl⟩⟩
  | _ => none

def Ipv6Addr.segment0 (ip : Ipv6Addr) : Nat := value (ip.octets.1.take 2)

def Ipv6Addr.isLoopback (ip : Ipv6Addr) : Bool :=
  ip.octets.1 == [0, 0, 0, 0, 0, 0, 0, 0, 0, 0, 0, 0, 0, 0, 0, 1]

def Ipv6Addr.isUnspecified (ip : Ipv6Addr) : Bool :=
  ip.octets.1 == [0, 0, 0, 0, 0, 0, 0, 0, 0, 0, 0, 0, 0, 0, 0, 0]

def Ipv6Addr.isMulticast (ip : Ipv6Addr) : Bool := ip.octets.1.headD 0 == 0xff

def Ipv6Addr.isUniqueLocal (ip : Ipv6Addr) : Bool := ip.segment0 &&& 0xfe00 == 0xfc00

def Ipv4Addr.value (ip : Ipv4Addr) : Nat := AddressBlocks.value ip.octets.1

def Ipv6Addr.value (ip : Ipv6Addr) : Nat := AddressBlocks.value ip.octets.1

theorem ipv4_octets (ip : Ipv4Addr) : ∃ a b c d, ip.octets.1 = [a, b, c, d] := by
  obtain ⟨octets, size⟩ := ip
  match octets, size with
  | [a, b, c, d], _ => exact ⟨a, b, c, d, rfl⟩

theorem ipv4_value_div {ip : Ipv4Addr} {a b c d : UInt8} (h : ip.octets.1 = [a, b, c, d])
    (k : Nat) : ip.value / 2 ^ (16 + k) = (a.toNat * 256 + b.toNat) / 2 ^ k := by
  have leading := value_append_div_pow [a, b] [c, d] k
  simpa [Ipv4Addr.value, h, AddressBlocks.value] using leading

theorem ipv4_private_iff {ip : Ipv4Addr} {a b c d : UInt8} (h : ip.octets.1 = [a, b, c, d]) :
    ip.isPrivate = true ↔ a = 10 ∨ (a = 172 ∧ 16 ≤ b ∧ b ≤ 31) ∨ (a = 192 ∧ b = 168) := by
  unfold Ipv4Addr.isPrivate
  rw [h]
  constructor
  · intro accepted
    split at accepted <;> simp_all
  · intro range
    rcases range with rfl | ⟨rfl, low, high⟩ | ⟨rfl, rfl⟩
    · rfl
    · simp [low, high]
    · rfl

theorem ipv4_link_local_iff {ip : Ipv4Addr} {a b c d : UInt8} (h : ip.octets.1 = [a, b, c, d]) :
    ip.isLinkLocal = true ↔ a = 169 ∧ b = 254 := by
  unfold Ipv4Addr.isLinkLocal
  rw [h]
  constructor
  · intro accepted
    split at accepted <;> simp_all
  · intro range
    obtain ⟨rfl, rfl⟩ := range
    rfl

theorem ipv6_value_div (ip : Ipv6Addr) (k : Nat) :
    ip.value / 2 ^ (112 + k) = ip.segment0 / 2 ^ k := by
  have size : (ip.octets.1.drop 2).length = 14 := by simp [ip.octets.2]
  have leading := value_append_div_pow (ip.octets.1.take 2) (ip.octets.1.drop 2) k
  rw [List.take_append_drop, size] at leading
  exact leading

theorem ipv6_segment0_lt (ip : Ipv6Addr) : ip.segment0 < 2 ^ 16 := by
  have bound := value_lt (ip.octets.1.take 2)
  have size : (ip.octets.1.take 2).length = 2 := by simp [ip.octets.2]
  rw [size] at bound
  exact bound

/-- A segment test with a mask of leading ones is a prefix test. -/
theorem ipv6_segment_mask (ip : Ipv6Addr) (high low pattern : Nat) (width : high + low = 16) :
    (ip.segment0 &&& (2 ^ high - 1) * 2 ^ low) = pattern * 2 ^ low ↔
      ip.value / 2 ^ (112 + low) = pattern := by
  have positive : 0 < 2 ^ low := Nat.pow_pos (by decide)
  rw [and_high_mask _ _ _ (by rw [width]; exact ipv6_segment0_lt ip), ipv6_value_div]
  exact Nat.mul_left_inj (Nat.pos_iff_ne_zero.mp positive)

theorem ipv6_unique_local_iff (ip : Ipv6Addr) :
    ip.isUniqueLocal = true ↔ ip.value / 2 ^ 121 = 0xfc00 / 2 ^ 9 := by
  have mask := ipv6_segment_mask ip 7 9 126 rfl
  simpa [Ipv6Addr.isUniqueLocal] using mask

theorem ipv6_multicast_iff (ip : Ipv6Addr) :
    ip.isMulticast = true ↔ ip.value / 2 ^ 120 = 0xff := by
  obtain ⟨octets, size⟩ := ip
  cases octets with
  | nil => simp at size
  | cons a rest =>
    have tail : rest.length = 15 := by simpa using size
    have leading := value_append_div_pow [a] rest 0
    rw [tail] at leading
    have head : (⟨⟨a :: rest, size⟩⟩ : Ipv6Addr).value / 2 ^ 120 = a.toNat := by
      simpa [Ipv6Addr.value, value] using leading
    rw [head]
    simp [Ipv6Addr.isMulticast, ← UInt8.toNat_inj]

theorem ipv6_loopback_iff (ip : Ipv6Addr) : ip.isLoopback = true ↔ ip.value = 1 := by
  have one : value [0, 0, 0, 0, 0, 0, 0, 0, 0, 0, 0, 0, 0, 0, 0, 1] = 1 := by decide
  simp only [Ipv6Addr.isLoopback, beq_iff_eq, Ipv6Addr.value]
  constructor
  · intro same
    rw [same, one]
  · intro same
    exact value_injective ip.octets.2 (same.trans one.symm)

theorem ipv6_unspecified_iff (ip : Ipv6Addr) : ip.isUnspecified = true ↔ ip.value = 0 := by
  have zero : value [0, 0, 0, 0, 0, 0, 0, 0, 0, 0, 0, 0, 0, 0, 0, 0] = 0 := by decide
  simp only [Ipv6Addr.isUnspecified, beq_iff_eq, Ipv6Addr.value]
  constructor
  · intro same
    rw [same, zero]
  · intro same
    exact value_injective ip.octets.2 (same.trans zero.symm)

def mappedPrefix : Bytes := [0, 0, 0, 0, 0, 0, 0, 0, 0, 0, 0xff, 0xff]

theorem ipv4_mapped_iff (ip : Ipv6Addr) (embedded : Ipv4Addr) :
    ip.toIpv4Mapped = some embedded ↔ ip.octets.1 = mappedPrefix ++ embedded.octets.1 := by
  obtain ⟨octets⟩ := ip
  unfold Ipv6Addr.toIpv4Mapped
  constructor
  · intro h
    dsimp only at h
    split at h
    · rw [Option.some.injEq] at h
      subst h
      rfl
    · contradiction
  · intro h
    obtain ⟨⟨low, four⟩⟩ := embedded
    obtain ⟨octets, size⟩ := octets
    match low, four with
    | [a, b, c, d], _ =>
      simp only [mappedPrefix, List.cons_append, List.nil_append] at h
      subst h
      rfl

/-- The mapped addresses are the block `::ffff:0:0/96`, and the low 32 bits of
    one are the IPv4 address it maps. -/
theorem ipv4_mapped_value {ip : Ipv6Addr} {embedded : Ipv4Addr}
    (h : ip.toIpv4Mapped = some embedded) :
    ip.value / 2 ^ 32 = 0xffff ∧ ip.value % 2 ^ 32 = embedded.value := by
  have octets := (ipv4_mapped_iff ip embedded).mp h
  have leading : value mappedPrefix = 0xffff := by decide
  have small := value_lt embedded.octets.1
  rw [embedded.octets.2] at small
  have whole : ip.value = 0xffff * 256 ^ 4 + embedded.value := by
    rw [Ipv6Addr.value, octets, value_append, leading, embedded.octets.2, Ipv4Addr.value]
  have bound : embedded.value < 256 ^ 4 := small
  omega

theorem ipv4_not_mapped_value {ip : Ipv6Addr} (h : ip.toIpv4Mapped = none) :
    ip.value / 2 ^ 32 ≠ 0xffff := by
  intro high
  have leading : value mappedPrefix = 0xffff := by decide
  have size : (ip.octets.1.drop 12).length = 4 := by simp [ip.octets.2]
  have start : (ip.octets.1.take 12).length = mappedPrefix.length := by
    simp [ip.octets.2, mappedPrefix]
  have split := value_append_div (ip.octets.1.take 12) (ip.octets.1.drop 12)
  rw [List.take_append_drop, size] at split
  have same : ip.octets.1.take 12 = mappedPrefix := by
    apply value_injective start
    rw [← split, leading]
    exact high
  have mapped := (ipv4_mapped_iff ip ⟨⟨ip.octets.1.drop 12, size⟩⟩).mpr
    (by rw [← same, List.take_append_drop])
  rw [h] at mapped
  contradiction

end StdNet
