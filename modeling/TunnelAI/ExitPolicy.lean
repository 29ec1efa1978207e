import TunnelAI.Library.TracedEffects
import TunnelAI.TunnelCodec

/-!
The exit server's side of one tunnel stream: the request is read, its target is
checked and resolved, and at most one TCP connection is made. The resolver, the
TCP stack, the writes and the timers are given by a world; the events of a run
are the answers written to the tunnel and the connections attempted.
-/
namespace ExitPolicy
open AddressBlocks TracedEffects StdNet Socks5 TunnelCodec

def isIpv6UnicastLinkLocal (ip : Ipv6Addr) : Bool := ip.segment0 &&& 0xffc0 == 0xfe80

def isPublicIpv4 (ip : Ipv4Addr) : Bool :=
  !(ip.isPrivate || ip.isLoopback || ip.isLinkLocal || ip.isMulticast || ip.isUnspecified ||
    ip.isBroadcast || ip.octet0 == 0 || 224 ≤ ip.octet0)

def isPublicIpv6 (ip : Ipv6Addr) : Bool :=
  match ip.toIpv4Mapped with
  | some mapped => isPublicIpv4 mapped
  | none =>
    !(ip.isLoopback || ip.isUnspecified || ip.isMulticast || ip.isUniqueLocal ||
      isIpv6UnicastLinkLocal ip)

def isPublicIp : IpAddr → Bool
  | .v4 ip => isPublicIpv4 ip
  | .v6 ip => isPublicIpv6 ip

def targetIpAllowed (ip : IpAddr) (allowPrivateTargets : Bool) : Bool :=
  allowPrivateTargets || isPublicIp ip

def targetAllowed (request : ConnectRequest) (allowPrivateTargets : Bool) : Bool :=
  match request.target with
  | .domain _ => true
  | .ip ip => targetIpAllowed ip allowPrivateTargets

inductive ErrorKind where
  | connectionRefused
  | notFound
  | timedOut
  | addrNotAvailable
  | networkUnreachable
  | other

def mapConnectError : ErrorKind → ReplyCode
  | .connectionRefused => .connectionRefused
  | .notFound => .hostUnreachable
  | .timedOut => .ttlExpired
  | .addrNotAvailable => .hostUnreachable
  | .networkUnreachable => .networkUnreachable
  | .other => .generalFailure

structure ServerConfig where
  allowPrivateTargets : Bool

/-- What the outside does to one tunnel stream: the resolver, the TCP stack, and
    whether a write or a finish of the stream succeeds. -/
structure World where
  lookupHost : String → UInt16 → Timed (Except Unit (List SocketAddr))
  connect : SocketAddr → Timed (Except ErrorKind Unit)
  write : ReplyCode → Bool
  finish : Bool

inductive Event where
  | connect : SocketAddr → Event
  | response : ReplyCode → Event
  | finish
  | relay : SocketAddr → Event
  deriving DecidableEq

abbrev Stream := Traced Event String

def resolveIpTarget (ip : IpAddr) (port : UInt16) (allowPrivateTargets : Bool) :
    Except ReplyCode SocketAddr :=
  if targetIpAllowed ip allowPrivateTargets then .ok { ip, port }
  else .error .connectionNotAllowed

def selectLoop (allowPrivateTargets : Bool) :
    List SocketAddr → Bool → Except ReplyCode SocketAddr
  | [], sawDenied => if sawDenied then .error .connectionNotAllowed else .error .hostUnreachable
  | addr :: addrs, _ =>
    if targetIpAllowed addr.ip allowPrivateTargets then .ok addr
    else selectLoop allowPrivateTargets addrs true

def selectAllowedResolvedAddr (addrs : List SocketAddr) (allowPrivateTargets : Bool) :
    Except ReplyCode SocketAddr :=
  selectLoop allowPrivateTargets addrs false

def resolveDomainTarget (world : World) (domain : String) (port : UInt16)
    (allowPrivateTargets : Bool) : Timed (Except ReplyCode SocketAddr) :=
  match world.lookupHost domain port with
  | .elapsed => .elapsed
  | .finished (.error _) => .finished (.error .hostUnreachable)
  | .finished (.ok addrs) => .finished (selectAllowedResolvedAddr addrs allowPrivateTargets)

def resolveTarget (world : World) (request : ConnectRequest) (config : ServerConfig) :
    Timed (Except ReplyCode SocketAddr) :=
  match request.target with
  | .ip ip => .finished (resolveIpTarget ip request.port config.allowPrivateTargets)
  | .domain domain => resolveDomainTarget world domain request.port config.allowPrivateTargets

def streamResponse (world : World) (code : ReplyCode) : Stream Unit := do
  emit (.response code)
  if world.write code then pure () else raise "write tunnel response"

def streamFinish (world : World) : Stream Unit := do
  emit .finish
  if world.finish then pure () else raise "finish tunnel stream"

def writeResponseAndFinish (world : World) (code : ReplyCode) : Stream Unit := do
  streamResponse world code
  streamFinish world

def readTunnelRequest (world : World) (received : Timed (Except TunnelError ConnectRequest)) :
    Stream (Option ConnectRequest) :=
  match received with
  | .finished (.ok request) => return some request
  | .finished (.error _) => raise "read tunnel request"
  | .elapsed => do
    streamFinish world
    return none

def resolveAllowedTarget (world : World) (request : ConnectRequest) (config : ServerConfig) :
    Stream (Option SocketAddr) := do
  if !targetAllowed request config.allowPrivateTargets then
    writeResponseAndFinish world .connectionNotAllowed
    return none
  else
    match resolveTarget world request config with
    | .finished (.ok target) => return some target
    | .finished (.error code) =>
      writeResponseAndFinish world code
      return none
    | .elapsed =>
      writeResponseAndFinish world .ttlExpired
      return none

def connectTarget (world : World) (target : SocketAddr) : Stream Bool := do
  emit (.connect target)
  match world.connect target with
  | .finished (.ok _) => return true
  | .finished (.error err) =>
    writeResponseAndFinish world (mapConnectError err)
    return false
  | .elapsed =>
    writeResponseAndFinish world .ttlExpired
    return false

def handleTunnelStream (world : World) (config : ServerConfig)
    (received : Timed (Except TunnelError ConnectRequest)) : Stream Unit := do
  let some request ← readTunnelRequest world received | return ()
  let some target ← resolveAllowedTarget world request config | return ()
  let connected ← connectTarget world target
  if connected then
    streamResponse world .succeeded
    emit (.relay target)
  else
    return ()

def ipv4Block (a b c d : UInt8) (length : Nat) : Block 32 := ⟨value [a, b, c, d], length⟩

def ipv6Block (segment length : Nat) : Block 128 := ⟨segment * 2 ^ 112, length⟩

def deniedIpv4Blocks : List (Block 32) :=
  [ipv4Block 0 0 0 0 8, ipv4Block 10 0 0 0 8, ipv4Block 127 0 0 0 8, ipv4Block 169 254 0 0 16,
   ipv4Block 172 16 0 0 12, ipv4Block 192 168 0 0 16, ipv4Block 224 0 0 0 3]

def deniedIpv6Blocks : List (Block 128) :=
  [⟨0, 128⟩, ⟨1, 128⟩, ipv6Block 0xfc00 7, ipv6Block 0xfe80 10, ipv6Block 0xff00 8]

def DeniedIpv4 (address : Nat) : Prop := ∃ block ∈ deniedIpv4Blocks, block.Contains address

instance (address : Nat) : Decidable (DeniedIpv4 address) :=
  inferInstanceAs (Decidable (∃ block ∈ deniedIpv4Blocks, _))

/-- What the policy is for: the ranges that no connection may be made to. An
    IPv4 address counts also when it is written as an IPv4-mapped IPv6 address. -/
def DeniedIp : IpAddr → Prop
  | .v4 ip => DeniedIpv4 ip.value
  | .v6 ip => (∃ block ∈ deniedIpv6Blocks, block.Contains ip.value) ∨
      (ip.value / 2 ^ 32 = 0xffff ∧ DeniedIpv4 (ip.value % 2 ^ 32))

instance (ip : IpAddr) : Decidable (DeniedIp ip) := by
  cases ip <;> unfold DeniedIp <;> infer_instance

theorem denied_ipv4_iff {ip : Ipv4Addr} {a b c d : UInt8} (h : ip.octets.1 = [a, b, c, d]) :
    DeniedIpv4 ip.value ↔ a.toNat = 0 ∨ a.toNat = 10 ∨ a.toNat = 127 ∨
      (a.toNat = 169 ∧ b.toNat = 254) ∨ (a.toNat = 172 ∧ b.toNat / 16 = 1) ∨
      (a.toNat = 192 ∧ b.toNat = 168) ∨ 224 ≤ a.toNat := by
  have ha := a.toNat_lt
  have hb := b.toNat_lt
  have bits8 : ip.value / 16777216 = a.toNat := (ipv4_value_div h 8).trans (by omega)
  have bits12 : ip.value / 1048576 = a.toNat * 16 + b.toNat / 16 :=
    (ipv4_value_div h 4).trans (by omega)
  have bits16 : ip.value / 65536 = a.toNat * 256 + b.toNat :=
    (ipv4_value_div h 0).trans (by omega)
  have bits3 : ip.value / 536870912 = a.toNat / 32 := (ipv4_value_div h 13).trans (by omega)
  have linkLocal : a.toNat * 256 + b.toNat = 43518 ↔ a.toNat = 169 ∧ b.toNat = 254 := by omega
  have private12 : a.toNat * 16 + b.toNat / 16 = 2753 ↔ a.toNat = 172 ∧ b.toNat / 16 = 1 := by
    omega
  have private16 : a.toNat * 256 + b.toNat = 49320 ↔ a.toNat = 192 ∧ b.toNat = 168 := by omega
  have high : a.toNat / 32 = 7 ↔ 224 ≤ a.toNat := by omega
  simp [DeniedIpv4, deniedIpv4Blocks, ipv4Block, Block.Contains, value, bits8, bits12, bits16,
    bits3, linkLocal, private12, private16, high]

theorem private_ipv4_iff (ip : Ipv4Addr) : isPublicIpv4 ip = false ↔ DeniedIpv4 ip.value := by
  obtain ⟨a, b, c, d, octets⟩ := ipv4_octets ip
  have unspecified : ip.isUnspecified = true → a.toNat = 0 := by
    intro same
    simp_all [Ipv4Addr.isUnspecified]
  have broadcast : ip.isBroadcast = true → a.toNat = 255 := by
    intro same
    simp_all [Ipv4Addr.isBroadcast]
  simp only [isPublicIpv4, Bool.not_eq_false', Bool.or_eq_true, ipv4_private_iff octets,
    ipv4_link_local_iff octets, denied_ipv4_iff octets]
  simp only [Ipv4Addr.isLoopback, Ipv4Addr.isMulticast, Ipv4Addr.octet0, octets,
    List.headD_cons, beq_iff_eq, Bool.and_eq_true, decide_eq_true_eq, UInt8.le_iff_toNat_le,
    ← UInt8.toNat_inj, UInt8.reduceToNat]
  constructor
  · intro denied
    rcases denied with ((((((range | range) | range) | range) | zero) | ones) | range) | range
    · omega
    · omega
    · omega
    · omega
    · have := unspecified zero
      omega
    · have := broadcast ones
      omega
    · omega
    · omega
  · intro range
    omega

theorem denied_ipv6_iff (address : Nat) :
    (∃ block ∈ deniedIpv6Blocks, block.Contains address) ↔
      address = 0 ∨ address = 1 ∨ address / 2 ^ 121 = 0xfc00 / 2 ^ 9 ∨
        address / 2 ^ 118 = 0xfe80 / 2 ^ 6 ∨ address / 2 ^ 120 = 0xff := by
  simp [deniedIpv6Blocks, ipv6Block, Block.Contains]

theorem private_ipv6_iff {ip : Ipv6Addr} (plain : ip.toIpv4Mapped = none) :
    isPublicIpv6 ip = false ↔ ∃ block ∈ deniedIpv6Blocks, block.Contains ip.value := by
  have linkLocal : isIpv6UnicastLinkLocal ip = true ↔ ip.value / 2 ^ 118 = 0xfe80 / 2 ^ 6 := by
    have mask := ipv6_segment_mask ip 10 6 1018 rfl
    simpa [isIpv6UnicastLinkLocal] using mask
  rw [denied_ipv6_iff]
  simp only [isPublicIpv6, plain, Bool.not_eq_false', Bool.or_eq_true, ipv6_loopback_iff,
    ipv6_unspecified_iff, ipv6_multicast_iff, ipv6_unique_local_iff, linkLocal]
  omega

theorem public_ip_iff (ip : IpAddr) : isPublicIp ip = true ↔ ¬ DeniedIp ip := by
  rw [← Bool.not_eq_false, not_iff_not]
  cases ip with
  | v4 ip => exact private_ipv4_iff ip
  | v6 ip =>
    unfold isPublicIp DeniedIp
    dsimp only
    cases mapped : ip.toIpv4Mapped with
    | none =>
      have high := ipv4_not_mapped_value mapped
      simp only [private_ipv6_iff mapped, high, false_and, or_false]
    | some embedded =>
      obtain ⟨high, low⟩ := ipv4_mapped_value mapped
      have apart : ¬ ∃ block ∈ deniedIpv6Blocks, block.Contains ip.value := by
        rw [denied_ipv6_iff]
        omega
      simp only [isPublicIpv6, mapped, private_ipv4_iff, apart, high, low, false_or, true_and]

theorem select_loop_find (allowPrivateTargets : Bool) (addrs : List SocketAddr)
    (sawDenied : Bool) :
    selectLoop allowPrivateTargets addrs sawDenied =
      match addrs.find? (fun addr => targetIpAllowed addr.ip allowPrivateTargets) with
      | some addr => .ok addr
      | none =>
        if sawDenied = true ∨ addrs ≠ [] then .error .connectionNotAllowed
        else .error .hostUnreachable := by
  induction addrs generalizing sawDenied with
  | nil => simp [selectLoop]
  | cons addr addrs ih =>
    unfold selectLoop
    by_cases allowed : targetIpAllowed addr.ip allowPrivateTargets = true
    · simp [allowed]
    · simp [allowed, ih]

def connects (events : List Event) : List SocketAddr :=
  events.filterMap fun event => match event with
    | .connect target => some target
    | _ => none

/-- What the checks before the connection decide about a request. -/
def verdict (world : World) (config : ServerConfig) (request : ConnectRequest) :
    Timed (Except ReplyCode SocketAddr) :=
  if targetAllowed request config.allowPrivateTargets then resolveTarget world request config
  else .finished (.error .connectionNotAllowed)

def connectAnswer : Timed (Except ErrorKind Unit) → ReplyCode
  | .finished (.ok _) => .succeeded
  | .finished (.error err) => mapConnectError err
  | .elapsed => .ttlExpired

theorem refused_events (world : World) (code : ReplyCode) :
    ∃ rest, (writeResponseAndFinish world code).events = .response code :: rest ∧
      ∀ event ∈ rest, event = .finish := by
  unfold writeResponseAndFinish streamResponse streamFinish emit raise
  cases world.write code <;> cases world.finish <;> simp

theorem resolve_allowed_target_verdict (world : World) (config : ServerConfig)
    (request : ConnectRequest) :
    resolveAllowedTarget world request config =
      match verdict world config request with
      | .finished (.ok target) => (return some target)
      | .finished (.error code) => do
        writeResponseAndFinish world code
        return none
      | .elapsed => do
        writeResponseAndFinish world .ttlExpired
        return none := by
  unfold resolveAllowedTarget verdict
  by_cases allowed : targetAllowed request config.allowPrivateTargets = true
  · simp only [allowed, if_true, Bool.not_true, Bool.false_eq_true, if_false]
  · simp [allowed]

theorem connect_target_ok {world : World} {target : SocketAddr}
    (h : connectAnswer (world.connect target) = .succeeded) :
    connectTarget world target = ⟨[.connect target], .ok true⟩ := by
  unfold connectTarget emit
  match attempt : world.connect target with
  | .elapsed => simp [attempt, connectAnswer] at h
  | .finished (.ok _) => simp
  | .finished (.error err) => cases err <;> simp [attempt, connectAnswer, mapConnectError] at h

theorem connect_target_failed {world : World} {target : SocketAddr}
    (h : connectAnswer (world.connect target) ≠ .succeeded) :
    connectTarget world target = (do
      emit (.connect target)
      writeResponseAndFinish world (connectAnswer (world.connect target))
      return false) := by
  unfold connectTarget
  match attempt : world.connect target with
  | .elapsed => rfl
  | .finished (.ok _) => simp [attempt, connectAnswer] at h
  | .finished (.error err) => rfl

theorem handle_tunnel_stream_events (world : World) (config : ServerConfig)
    (request : ConnectRequest) :
    (handleTunnelStream world config (.finished (.ok request))).events =
      match verdict world config request with
      | .finished (.ok target) =>
        if connectAnswer (world.connect target) = .succeeded then
          .connect target :: (do
            streamResponse world .succeeded
            emit (.relay target) : Stream Unit).events
        else .connect target ::
          (writeResponseAndFinish world (connectAnswer (world.connect target))).events
      | .finished (.error code) => (writeResponseAndFinish world code).events
      | .elapsed => (writeResponseAndFinish world .ttlExpired).events := by
  unfold handleTunnelStream readTunnelRequest
  simp only [pure_eq, bind_ok, resolve_allowed_target_verdict, List.nil_append]
  match verdict world config request with
  | .elapsed =>
    rw [bind_assoc_eq]
    exact events_bind_silent _ _ fun _ => rfl
  | .finished (.error code) =>
    rw [bind_assoc_eq]
    exact events_bind_silent _ _ fun _ => rfl
  | .finished (.ok target) =>
    by_cases reached : connectAnswer (world.connect target) = .succeeded
    · simp [connect_target_ok reached, reached]
    · simp only [bind_ok, List.nil_append, reached, if_false]
      rw [connect_target_failed reached, bind_assoc_eq, events_emit_bind, bind_assoc_eq]
      congr 1
      exact events_bind_silent _ _ fun _ => rfl

theorem refused_response_iff (world : World) (code answered : ReplyCode) :
    .response answered ∈ (writeResponseAndFinish world code).events ↔ answered = code := by
  obtain ⟨rest, events, finishes⟩ := refused_events world code
  rw [events, List.mem_cons]
  constructor
  · intro member
    rcases member with same | later
    · exact Event.response.inj same
    · exact absurd (finishes _ later) (by simp)
  · intro same
    exact Or.inl (by rw [same])

theorem refused_connects (world : World) (code : ReplyCode) :
    connects (writeResponseAndFinish world code).events = [] := by
  obtain ⟨rest, events, finishes⟩ := refused_events world code
  rw [events]
  simp only [connects, List.filterMap_cons_none, List.filterMap_eq_nil_iff]
  intro event member
  rw [finishes event member]

theorem stream_connects (world : World) (config : ServerConfig) (request : ConnectRequest) :
    connects (handleTunnelStream world config (.finished (.ok request))).events =
      match verdict world config request with
      | .finished (.ok target) => [target]
      | _ => [] := by
  rw [handle_tunnel_stream_events]
  match verdict world config request with
  | .elapsed => exact refused_connects world .ttlExpired
  | .finished (.error code) => exact refused_connects world code
  | .finished (.ok target) =>
    by_cases reached : connectAnswer (world.connect target) = .succeeded
    · simp only [reached, if_true]
      unfold streamResponse emit raise
      cases world.write .succeeded <;> simp [connects]
    · simp only [reached, if_false]
      have none := refused_connects world (connectAnswer (world.connect target))
      simp only [connects, List.filterMap_cons] at none ⊢
      rw [none]

theorem connect_answer_allowed (attempt : Timed (Except ErrorKind Unit)) :
    connectAnswer attempt ≠ .connectionNotAllowed := by
  match attempt with
  | .elapsed => simp [connectAnswer]
  | .finished (.ok _) => simp [connectAnswer]
  | .finished (.error err) => cases err <;> simp [connectAnswer, mapConnectError]

theorem stream_response_iff (world : World) (config : ServerConfig) (request : ConnectRequest)
    (answered : ReplyCode) :
    .response answered ∈ (handleTunnelStream world config (.finished (.ok request))).events ↔
      match verdict world config request with
      | .finished (.ok target) => answered = connectAnswer (world.connect target)
      | .finished (.error code) => answered = code
      | .elapsed => answered = .ttlExpired := by
  rw [handle_tunnel_stream_events]
  match verdict world config request with
  | .elapsed => exact refused_response_iff world .ttlExpired answered
  | .finished (.error code) => exact refused_response_iff world code answered
  | .finished (.ok target) =>
    by_cases reached : connectAnswer (world.connect target) = .succeeded
    · simp only [reached, if_true]
      unfold streamResponse emit raise
      cases world.write .succeeded <;> simp
    · simp only [reached, if_false, List.mem_cons, reduceCtorEq, false_or]
      exact refused_response_iff world _ answered

theorem verdict_closed (world : World) (request : ConnectRequest) :
    verdict world ⟨false⟩ request =
      match request.target with
      | .ip ip =>
        if DeniedIp ip then .finished (.error .connectionNotAllowed)
        else .finished (.ok ⟨ip, request.port⟩)
      | .domain domain =>
        match world.lookupHost domain request.port with
        | .elapsed => .elapsed
        | .finished (.error _) => .finished (.error .hostUnreachable)
        | .finished (.ok addrs) =>
          match addrs.find? fun addr => !decide (DeniedIp addr.ip) with
          | some addr => .finished (.ok addr)
          | none =>
            if addrs ≠ [] then .finished (.error .connectionNotAllowed)
            else .finished (.error .hostUnreachable) := by
  obtain ⟨target, port⟩ := request
  have allowed : ∀ ip, targetIpAllowed ip false = !decide (DeniedIp ip) := by
    intro ip
    by_cases denied : DeniedIp ip
    · have := mt (public_ip_iff ip).mp (not_not.mpr denied)
      simp [targetIpAllowed, this, denied]
    · simp [targetIpAllowed, (public_ip_iff ip).mpr denied, denied]
  cases target with
  | ip ip =>
    by_cases denied : DeniedIp ip <;>
      simp [verdict, targetAllowed, resolveTarget, resolveIpTarget, allowed, denied]
  | domain domain =>
    simp only [verdict, targetAllowed, if_true, resolveTarget, resolveDomainTarget,
      selectAllowedResolvedAddr, select_loop_find, allowed]
    match world.lookupHost domain port with
    | .elapsed => rfl
    | .finished (.error _) => rfl
    | .finished (.ok addrs) =>
      cases found : addrs.find? fun addr => !decide (DeniedIp addr.ip) with
      | some addr => simp [found]
      | none => by_cases empty : addrs = [] <;> simp [found, empty]

/-- With private targets closed, one tunnel stream connects at most once and
    only outside the denied ranges; for a domain the address is the first allowed
    one the resolver gave. The two policy answers are given exactly where the
    target is denied and where the resolver has no address. -/
theorem tunnel_stream_exit_policy (world : World) (request : ConnectRequest) :
    let events := (handleTunnelStream world ⟨false⟩ (.finished (.ok request))).events
    (connects events).length ≤ 1 ∧
    (∀ addr ∈ connects events, ¬ DeniedIp addr.ip) ∧
    (∀ ip, request.target = .ip ip → ∀ addr ∈ connects events, addr = ⟨ip, request.port⟩) ∧
    (∀ domain, request.target = .domain domain → ∀ addr ∈ connects events,
      ∃ addrs, world.lookupHost domain request.port = .finished (.ok addrs) ∧
        addrs.find? (fun a => !decide (DeniedIp a.ip)) = some addr) ∧
    (.response .connectionNotAllowed ∈ events ↔
      (∃ ip, request.target = .ip ip ∧ DeniedIp ip) ∨
      ∃ domain addrs, request.target = .domain domain ∧
        world.lookupHost domain request.port = .finished (.ok addrs) ∧
        addrs ≠ [] ∧ ∀ addr ∈ addrs, DeniedIp addr.ip) ∧
    (.response .hostUnreachable ∈ events ∧ connects events = [] ↔
      ∃ domain, request.target = .domain domain ∧
        ((∃ e, world.lookupHost domain request.port = .finished (.error e)) ∨
          world.lookupHost domain request.port = .finished (.ok []))) := by
  dsimp only
  rw [stream_connects, stream_response_iff, stream_response_iff, verdict_closed]
  obtain ⟨target, port⟩ := request
  cases target with
  | ip ip =>
    by_cases denied : DeniedIp ip
    · simp [denied]
    · have answer := connect_answer_allowed (world.connect ⟨ip, port⟩)
      simp [denied, answer.symm]
  | domain domain =>
    match lookup : world.lookupHost domain port with
    | .elapsed => simp [lookup]
    | .finished (.error _) => simp [lookup]
    | .finished (.ok addrs) =>
      cases found : addrs.find? fun addr => !decide (DeniedIp addr.ip) with
      | some addr =>
        have answer := connect_answer_allowed (world.connect addr)
        have allowed : ¬ DeniedIp addr.ip := by
          have := List.find?_some found
          simpa using this
        have member := List.mem_of_find?_eq_some found
        have some_allowed : ¬ ∀ a ∈ addrs, DeniedIp a.ip := fun all => allowed (all addr member)
        have nonempty : addrs ≠ [] := List.ne_nil_of_mem member
        simp_all [answer.symm]
      | none =>
        have all_denied : ∀ a ∈ addrs, DeniedIp a.ip := by
          intro a member
          have := List.find?_eq_none.mp found a member
          simpa using this
        by_cases empty : addrs = []
        · simp [lookup, empty]
        · simpa [lookup, found, empty] using all_denied

end ExitPolicy
