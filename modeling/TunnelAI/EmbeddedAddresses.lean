import TunnelAI.ExitPolicy

/-!
The exit policy on IPv6 addresses that carry an IPv4 address. Of the standard
formats the policy looks into the IPv4-mapped one only.
-/
namespace EmbeddedAddresses
open StreamReader AddressBlocks StdNet Socks5 ExitPolicy

/-- The formats of an IPv6 address that carries an IPv4 address: `::ffff:a`,
    `::a`, `64:ff9b::a`, and `2002:a::/48` with any lower octets. -/
inductive Format where
  | mapped
  | compatible
  | nat64
  | sixToFour (lower : Octets 10)

def Format.before : Format → Bytes
  | .mapped => mappedPrefix
  | .compatible => List.replicate 12 0
  | .nat64 => [0, 0x64, 0xff, 0x9b] ++ List.replicate 8 0
  | .sixToFour _ => [0x20, 0x02]

def Format.after : Format → Bytes
  | .sixToFour lower => lower.1
  | _ => []

theorem format_size (format : Format) (ip : Ipv4Addr) :
    (format.before ++ (ip.octets.1 ++ format.after)).length = 16 := by
  rw [List.length_append, List.length_append, ip.octets.2]
  cases format with
  | sixToFour lower =>
    rw [Format.before, Format.after, lower.2]
    rfl
  | mapped => rfl
  | compatible => rfl
  | nat64 => rfl

def embed (format : Format) (ip : Ipv4Addr) : Ipv6Addr :=
  ⟨⟨format.before ++ (ip.octets.1 ++ format.after), format_size format ip⟩⟩

/-- The denied IPv4 addresses whose embedding is denied as well. The compatible
    ones among them are the unspecified and the loopback address of IPv6. -/
def Covered (format : Format) (ip : Ipv4Addr) : Prop :=
  match format with
  | .mapped => True
  | .compatible => ip.value ≤ 1
  | .nat64 => False
  | .sixToFour _ => False

theorem embed_value (format : Format) (ip : Ipv4Addr) :
    (embed format ip).value = value format.before * 256 ^ (4 + format.after.length) +
      (ip.value * 256 ^ format.after.length + value format.after) := by
  have size : (ip.octets.1 ++ format.after).length = 4 + format.after.length := by
    rw [List.length_append, ip.octets.2]
  rw [Ipv6Addr.value, embed, value_append, value_append, size, Ipv4Addr.value]

theorem ipv4_value_lt (ip : Ipv4Addr) : ip.value < 2 ^ 32 := by
  have bound := value_lt ip.octets.1
  rw [ip.octets.2] at bound
  exact bound

theorem embed_number (format : Format) (ip : Ipv4Addr) :
    match format with
    | .mapped => (embed .mapped ip).value = 0xffff * 2 ^ 32 + ip.value
    | .compatible => (embed .compatible ip).value = ip.value
    | .nat64 => (embed .nat64 ip).value = 0x64ff9b * 2 ^ 96 + ip.value
    | .sixToFour lower => (embed (.sixToFour lower) ip).value =
        0x2002 * 2 ^ 112 + ip.value * 2 ^ 80 + value lower.1 ∧ value lower.1 < 2 ^ 80 := by
  have whole := embed_value format ip
  cases format with
  | mapped => simpa [Format.before, Format.after, mappedPrefix, value] using whole
  | compatible => simpa [Format.before, Format.after, value] using whole
  | nat64 => simpa [Format.before, Format.after, value] using whole
  | sixToFour lower =>
    have rest := value_lt lower.1
    rw [lower.2] at rest
    rw [Format.after, lower.2] at whole
    refine ⟨?_, rest⟩
    rw [whole, Format.before, ← Nat.add_assoc]
    rfl

theorem embedded_public {ip : Ipv4Addr} (denied : isPublicIpv4 ip = false) (format : Format) :
    isPublicIp (.v6 (embed format ip)) = false ↔ Covered format ip := by
  have low := ipv4_value_lt ip
  have number := embed_number format ip
  rw [private_ipv4_iff] at denied
  rw [← not_iff_not, Bool.not_eq_false, public_ip_iff, not_iff_not, DeniedIp,
    denied_ipv6_iff]
  cases format with
  | mapped =>
    dsimp only at number
    have high : (embed .mapped ip).value / 2 ^ 32 = 0xffff := by omega
    have part : (embed .mapped ip).value % 2 ^ 32 = ip.value := by omega
    rw [high, part]
    exact iff_of_true (Or.inr ⟨rfl, denied⟩) trivial
  | compatible =>
    dsimp only at number
    have plain : ip.value / 2 ^ 32 ≠ 0xffff := by omega
    rw [number, Covered, or_iff_left (fun mapped => plain mapped.1)]
    omega
  | nat64 =>
    dsimp only at number
    have plain : (embed .nat64 ip).value / 2 ^ 32 ≠ 0xffff := by omega
    rw [or_iff_left (fun mapped => plain mapped.1)]
    exact iff_of_false (by omega) id
  | sixToFour lower =>
    dsimp only at number
    have plain : (embed (.sixToFour lower) ip).value / 2 ^ 32 ≠ 0xffff := by omega
    rw [or_iff_left (fun mapped => plain mapped.1)]
    exact iff_of_false (by omega) id

theorem selected_iff (addr : SocketAddr) (allowPrivateTargets : Bool) :
    (∃ addrs, selectAllowedResolvedAddr addrs allowPrivateTargets = .ok addr) ↔
      targetIpAllowed addr.ip allowPrivateTargets = true := by
  constructor
  · intro h
    obtain ⟨addrs, selected⟩ := h
    rw [selectAllowedResolvedAddr, select_loop_find] at selected
    split at selected
    · rename_i found first
      rw [Except.ok.injEq] at selected
      subst selected
      have allowed := List.find?_some first
      exact allowed
    · split at selected <;> contradiction
  · intro allowed
    refine ⟨[addr], ?_⟩
    rw [selectAllowedResolvedAddr, selectLoop, if_pos allowed]

/-- The policy denies a denied IPv4 address inside an IPv6 address, as a target and
    as an answer of the resolver, in the formats it covers and in no others. -/
theorem embedded_denied_iff {ip : Ipv4Addr} (denied : isPublicIpv4 ip = false) (format : Format)
    (port : UInt16) :
    (targetAllowed ⟨.ip (.v6 (embed format ip)), port⟩ false = false ↔ Covered format ip) ∧
    ((∀ addrs, selectAllowedResolvedAddr addrs false ≠ .ok ⟨.v6 (embed format ip), port⟩) ↔
      Covered format ip) := by
  have target := embedded_public denied format
  constructor
  · simp only [targetAllowed, targetIpAllowed, Bool.false_or]
    exact target
  · simp only [← target, ← not_exists, selected_iff, targetIpAllowed, Bool.false_or,
      Bool.not_eq_true]

theorem embedded_denied_example :
    targetAllowed ⟨.ip (.v6 (embed .mapped ⟨⟨[10, 0, 0, 1], rfl⟩⟩)), 80⟩ false = false ∧
    ∀ addrs, selectAllowedResolvedAddr addrs false ≠
      .ok ⟨.v6 (embed .mapped ⟨⟨[10, 0, 0, 1], rfl⟩⟩), 80⟩ := by
  have both := @embedded_denied_iff ⟨⟨[10, 0, 0, 1], rfl⟩⟩ (by decide) .mapped 80
  exact ⟨both.1.mpr trivial, both.2.mpr trivial⟩

/-- The loopback address of IPv4 is denied, and it is reached as `64:ff9b::127.0.0.1`,
    as `::127.0.0.1` and as `2002:7f00:1::`, also when the resolver answers so. -/
theorem embedded_loopback_allowed :
    isPublicIpv4 ⟨⟨[127, 0, 0, 1], rfl⟩⟩ = false ∧
    ∀ format ∈ [Format.nat64, .compatible, .sixToFour ⟨List.replicate 10 0, rfl⟩],
      targetAllowed ⟨.ip (.v6 (embed format ⟨⟨[127, 0, 0, 1], rfl⟩⟩)), 80⟩ false = true ∧
      selectAllowedResolvedAddr [⟨.v6 (embed format ⟨⟨[127, 0, 0, 1], rfl⟩⟩), 80⟩] false =
        .ok ⟨.v6 (embed format ⟨⟨[127, 0, 0, 1], rfl⟩⟩), 80⟩ := by
  refine ⟨by decide, ?_⟩
  intro format member
  simp only [List.mem_cons, List.not_mem_nil, or_false] at member
  rcases member with rfl | rfl | rfl
  · exact ⟨by decide, by decide⟩
  · exact ⟨by decide, by decide⟩
  · exact ⟨by decide, by decide⟩

end EmbeddedAddresses
