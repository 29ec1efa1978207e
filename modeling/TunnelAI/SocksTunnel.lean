import TunnelAI.Library.Channels
import TunnelAI.Library.Runs
import TunnelAI.ExitPolicy

/-!
One SOCKS connection through the tunnel: the application, the client process,
the server process and the target, joined by six byte streams. Every process
moves on its own, reads take whatever has arrived, and writes may be partial.
Timers and I/O errors do not occur here; every other path of both handlers does.
-/
namespace SocksTunnel
open StreamReader Channels TransitionRuns TracedEffects StdNet Socks5 TunnelCodec ExitPolicy

/-- Where `handle_socks_connection` is. The bytes of a phase are still to be written. -/
inductive ClientPhase where
  | handshake : Reader SocksError (Octets 2 × Except SocksError Unit) → ClientPhase
  | selecting : Bytes → Except SocksError Unit → ClientPhase
  | request : Reader SocksError ConnectRequest → ClientPhase
  | sending : Bytes → Except TunnelError Unit → ClientPhase
  | awaiting : Reader TunnelError ReplyCode → ClientPhase
  | replying : Bytes → ReplyCode → ClientPhase
  | relay : Pump → Pump → ClientPhase
  | refusing : Bytes → ClientPhase
  | closed

inductive ServerPhase where
  | reading : Reader TunnelError ConnectRequest → ServerPhase
  | resolving : ConnectRequest → ServerPhase
  | connecting : ConnectRequest → SocketAddr → ServerPhase
  | responding : ConnectRequest → Bytes → ServerPhase
  | relay : ConnectRequest → Pump → Pump → ServerPhase
  | answering : Bytes → ServerPhase
  | closed

structure State where
  appUnsent : Bytes
  targetUnsent : Bytes
  fromApp : Channel
  toApp : Channel
  tunnelUp : Channel
  tunnelDown : Channel
  fromTarget : Channel
  toTarget : Channel
  client : ClientPhase
  server : ServerPhase

inductive Event where
  | appSend : Nat → Event
  | appEnd
  | targetSend : Nat → Event
  | targetEnd
  | client : Nat → Event
  | clientUp : PumpEvent → Event
  | clientDown : PumpEvent → Event
  | server : Nat → Event
  | serverUp : PumpEvent → Event
  | serverDown : PumpEvent → Event

def ServerPhase.decoded : ServerPhase → Option ConnectRequest
  | .reading _ => none
  | .resolving request => some request
  | .connecting request _ => some request
  | .responding request _ => some request
  | .relay request _ _ => some request
  | .answering _ => none
  | .closed => none

/-- The next step of the client before it relays; `n` is how much a write takes. -/
def clientStep (n : Nat) (s : State) : Option State :=
  match s.client with
  | .handshake r =>
    (progress .io r s.fromApp).map fun
      | .more r c => { s with client := .handshake r, fromApp := c }
      | .returned (answer, result) => { s with client := .selecting answer.1 result }
      | .failed _ => { s with client := .closed }
  | .selecting [] (.ok _) => some { s with client := .request readConnectRequest }
  | .selecting [] (.error _) => some { s with client := .closed }
  | .selecting todo result =>
    (writePart n todo s.toApp).map fun (todo, c) =>
      { s with client := .selecting todo result, toApp := c }
  | .request r =>
    (progress .io r s.fromApp).map fun
      | .more r c => { s with client := .request r, fromApp := c }
      | .returned request =>
        { s with client := .sending (writeRequest request).1 (writeRequest request).2 }
      | .failed err => { s with client := .refusing (writeReply err.replyCode) }
  | .sending [] (.ok _) => some { s with client := .awaiting readResponse }
  | .sending [] (.error _) => some { s with client := .refusing (writeReply .generalFailure) }
  | .sending todo result =>
    (writePart n todo s.tunnelUp).map fun (todo, c) =>
      { s with client := .sending todo result, tunnelUp := c }
  | .awaiting r =>
    (progress .io r s.tunnelDown).map fun
      | .more r c => { s with client := .awaiting r, tunnelDown := c }
      | .returned status => { s with client := .replying (writeReply status) status }
      | .failed _ => { s with client := .refusing (writeReply .generalFailure) }
  | .replying [] status =>
    if status = .succeeded then some { s with client := .relay Pump.fresh Pump.fresh }
    else some { s with client := .closed, tunnelUp := s.tunnelUp.finish }
  | .replying todo status =>
    (writePart n todo s.toApp).map fun (todo, c) =>
      { s with client := .replying todo status, toApp := c }
  | .refusing [] => some { s with client := .closed }
  | .refusing todo =>
    (writePart n todo s.toApp).map fun (todo, c) =>
      { s with client := .refusing todo, toApp := c }
  | .relay _ _ => none
  | .closed => none

def serverStep (world : World) (config : ServerConfig) (n : Nat) (s : State) : Option State :=
  match s.server with
  | .reading r =>
    (progress .io r s.tunnelUp).map fun
      | .more r c => { s with server := .reading r, tunnelUp := c }
      | .returned request => { s with server := .resolving request }
      | .failed _ => { s with server := .closed }
  | .resolving request =>
    match verdict world config request with
    | .finished (.ok target) => some { s with server := .connecting request target }
    | .finished (.error code) => some { s with server := .answering (writeResponse code) }
    | .elapsed => some { s with server := .answering (writeResponse .ttlExpired) }
  | .connecting request target =>
    if connectAnswer (world.connect target) = .succeeded then
      some { s with server := .responding request (writeResponse .succeeded) }
    else
      some { s with
        server := .answering (writeResponse (connectAnswer (world.connect target))) }
  | .responding request [] => some { s with server := .relay request Pump.fresh Pump.fresh }
  | .responding request todo =>
    (writePart n todo s.tunnelDown).map fun (todo, c) =>
      { s with server := .responding request todo, tunnelDown := c }
  | .answering [] => some { s with server := .closed, tunnelDown := s.tunnelDown.finish }
  | .answering todo =>
    (writePart n todo s.tunnelDown).map fun (todo, c) =>
      { s with server := .answering todo, tunnelDown := c }
  | .relay _ _ _ => none
  | .closed => none

def step (world : World) (config : ServerConfig) (s : State) : Event → Option State
  | .appSend n =>
    if s.fromApp.ended then none
    else (writePart n s.appUnsent s.fromApp).map fun (left, c) =>
      { s with appUnsent := left, fromApp := c }
  | .appEnd =>
    if s.appUnsent = [] ∧ s.fromApp.ended = false then
      some { s with fromApp := s.fromApp.finish }
    else none
  | .targetSend n =>
    if s.fromTarget.ended then none
    else (writePart n s.targetUnsent s.fromTarget).map fun (left, c) =>
      { s with targetUnsent := left, fromTarget := c }
  | .targetEnd =>
    if s.targetUnsent = [] ∧ s.fromTarget.ended = false then
      some { s with fromTarget := s.fromTarget.finish }
    else none
  | .client n => clientStep n s
  | .clientUp e =>
    match s.client with
    | .relay up down =>
      (pumpStep e up s.fromApp s.tunnelUp).map fun (up, input, output) =>
        { s with client := .relay up down, fromApp := input, tunnelUp := output }
    | _ => none
  | .clientDown e =>
    match s.client with
    | .relay up down =>
      (pumpStep e down s.tunnelDown s.toApp).map fun (down, input, output) =>
        { s with client := .relay up down, tunnelDown := input, toApp := output }
    | _ => none
  | .server n => serverStep world config n s
  | .serverUp e =>
    match s.server with
    | .relay request up down =>
      (pumpStep e up s.tunnelUp s.toTarget).map fun (up, input, output) =>
        { s with server := .relay request up down, tunnelUp := input, toTarget := output }
    | _ => none
  | .serverDown e =>
    match s.server with
    | .relay request up down =>
      (pumpStep e down s.fromTarget s.tunnelDown).map fun (down, input, output) =>
        { s with server := .relay request up down, fromTarget := input, tunnelDown := output }
    | _ => none

def start (appStream targetStream : Bytes) : State where
  appUnsent := appStream
  targetUnsent := targetStream
  fromApp := Channel.fresh
  toApp := Channel.fresh
  tunnelUp := Channel.fresh
  tunnelDown := Channel.fresh
  fromTarget := Channel.fresh
  toTarget := Channel.fresh
  client := .handshake negotiateNoAuth
  server := .reading readRequest

def tunnel (world : World) (config : ServerConfig) (appStream targetStream : Bytes) :
    System State Event where
  init := start appStream targetStream
  step := step world config

def ClientPhase.rank : ClientPhase → Nat
  | .handshake _ => 900
  | .selecting todo _ => todo.length + 890
  | .request _ => 880
  | .sending todo _ => 3 * todo.length + 20
  | .awaiting _ => 14
  | .replying todo _ => todo.length + 3
  | .relay up down => up.rank 3 + down.rank 1
  | .refusing todo => todo.length + 1
  | .closed => 0

def ServerPhase.rank : ServerPhase → Nat
  | .reading _ => 30
  | .resolving _ => 29
  | .connecting _ _ => 28
  | .responding _ todo => 3 * todo.length + 3
  | .relay _ up down => up.rank 1 + down.rank 3
  | .answering todo => 3 * todo.length + 1
  | .closed => 0

def endRank (c : Channel) : Nat := if c.ended then 0 else 1

/-- How many steps are left at most. A byte counts less after each hand-over. -/
def State.rank (s : State) : Nat :=
  5 * s.appUnsent.length + 4 * s.fromApp.flight.length + endRank s.fromApp +
    5 * s.targetUnsent.length + 4 * s.fromTarget.flight.length + endRank s.fromTarget +
    2 * s.tunnelUp.flight.length + 2 * s.tunnelDown.flight.length +
    s.client.rank + s.server.rank

theorem progress_end_rank {ε α : Type} {eof : ε} {now next : Reader ε α} {c d : Channel}
    (h : progress eof now c = some (.more next d)) : endRank d = endRank c := by
  obtain ⟨_, _, _, _, rfl, _⟩ := progress_more h
  rfl

theorem write_request_length (request : ConnectRequest) :
    (writeRequest request).1.length ≤ 265 := by
  have start : (magic ++ [version] ++ [cmdConnect]).length = 6 := rfl
  unfold writeRequest
  simp only
  split
  · rename_i ip _
    have := ip.octets.2
    simp only [u16Bytes, List.length_append, start, List.length_cons, List.length_nil]
    omega
  · split
    · simp only [start]
      omega
    · split
      · simp only [start]
        omega
      · simp only [u16Bytes, List.length_append, start, List.length_cons, List.length_nil]
        omega
  · rename_i ip _
    have := ip.octets.2
    simp only [u16Bytes, List.length_append, start, List.length_cons, List.length_nil]
    omega

theorem write_response_length (status : ReplyCode) : (writeResponse status).length = 8 := rfl

theorem client_phase_rank {s : State} {phase : ClientPhase} (lower : phase.rank < s.client.rank) :
    { s with client := phase }.rank < s.rank := by
  simp only [State.rank]
  omega

theorem server_phase_rank {s : State} {phase : ServerPhase} (lower : phase.rank < s.server.rank) :
    { s with server := phase }.rank < s.rank := by
  simp only [State.rank]
  omega

theorem from_app_rank {s : State} {phase : ClientPhase} {c : Channel}
    (same : phase.rank = s.client.rank) (shorter : c.flight.length < s.fromApp.flight.length)
    (ends : endRank c = endRank s.fromApp) :
    { s with client := phase, fromApp := c }.rank < s.rank := by
  simp only [State.rank]
  omega

theorem to_app_rank {s : State} {phase : ClientPhase} {c : Channel}
    (lower : phase.rank < s.client.rank) :
    { s with client := phase, toApp := c }.rank < s.rank := client_phase_rank lower

theorem client_step_rank {n : Nat} {s t : State} (h : clientStep n s = some t) :
    t.rank < s.rank := by
  unfold clientStep at h
  cases phase : s.client with
  | handshake r =>
    simp only [phase, Option.map_eq_some_iff] at h
    obtain ⟨next, moved, rfl⟩ := h
    cases next with
    | more r c =>
      exact from_app_rank (by rw [phase]; rfl) (progress_length moved) (progress_end_rank moved)
    | returned answer =>
      apply client_phase_rank
      simp [phase, ClientPhase.rank, answer.1.2]
    | failed err => exact client_phase_rank (by simp [phase, ClientPhase.rank])
  | selecting todo result =>
    cases todo with
    | nil =>
      cases result with
      | ok done =>
        simp only [phase, Option.some.injEq] at h
        subst h
        exact client_phase_rank (by simp [phase, ClientPhase.rank])
      | error err =>
        simp only [phase, Option.some.injEq] at h
        subst h
        exact client_phase_rank (by simp [phase, ClientPhase.rank])
    | cons b todo =>
      simp only [phase, Option.map_eq_some_iff] at h
      obtain ⟨⟨left, c⟩, part, rfl⟩ := h
      have shorter := (write_part_length part).1
      apply to_app_rank
      simp only [phase, ClientPhase.rank]
      omega
  | request r =>
    simp only [phase, Option.map_eq_some_iff] at h
    obtain ⟨next, moved, rfl⟩ := h
    cases next with
    | more r c =>
      exact from_app_rank (by rw [phase]; rfl) (progress_length moved) (progress_end_rank moved)
    | returned request =>
      have size := write_request_length request
      apply client_phase_rank
      simp only [phase, ClientPhase.rank]
      omega
    | failed err => exact client_phase_rank (by simp [phase, ClientPhase.rank, writeReply])
  | sending todo result =>
    cases todo with
    | nil =>
      cases result with
      | ok done =>
        simp only [phase, Option.some.injEq] at h
        subst h
        exact client_phase_rank (by simp [phase, ClientPhase.rank])
      | error err =>
        simp only [phase, Option.some.injEq] at h
        subst h
        exact client_phase_rank (by simp [phase, ClientPhase.rank, writeReply])
    | cons b todo =>
      simp only [phase, Option.map_eq_some_iff] at h
      obtain ⟨⟨left, c⟩, part, rfl⟩ := h
      have sizes := write_part_length part
      simp only [State.rank, phase, ClientPhase.rank]
      omega
  | awaiting r =>
    simp only [phase, Option.map_eq_some_iff] at h
    obtain ⟨next, moved, rfl⟩ := h
    cases next with
    | more r c =>
      have shorter := progress_length moved
      simp only [State.rank, phase, ClientPhase.rank]
      omega
    | returned status => exact client_phase_rank (by simp [phase, ClientPhase.rank, writeReply])
    | failed err => exact client_phase_rank (by simp [phase, ClientPhase.rank, writeReply])
  | replying todo status =>
    cases todo with
    | nil =>
      simp only [phase] at h
      split at h
      · rw [Option.some.injEq] at h
        subst h
        exact client_phase_rank (by simp [phase, ClientPhase.rank, Pump.rank, Pump.fresh])
      · rw [Option.some.injEq] at h
        subst h
        simp [State.rank, phase, ClientPhase.rank, Channel.finish]
    | cons b todo =>
      simp only [phase, Option.map_eq_some_iff] at h
      obtain ⟨⟨left, c⟩, part, rfl⟩ := h
      have shorter := (write_part_length part).1
      apply to_app_rank
      simp only [phase, ClientPhase.rank]
      omega
  | relay up down => simp [phase] at h
  | refusing todo =>
    cases todo with
    | nil =>
      simp only [phase, Option.some.injEq] at h
      subst h
      exact client_phase_rank (by simp [phase, ClientPhase.rank])
    | cons b todo =>
      simp only [phase, Option.map_eq_some_iff] at h
      obtain ⟨⟨left, c⟩, part, rfl⟩ := h
      have shorter := (write_part_length part).1
      apply to_app_rank
      simp only [phase, ClientPhase.rank]
      omega
  | closed => simp [phase] at h

theorem server_step_rank {world : World} {config : ServerConfig} {n : Nat} {s t : State}
    (h : serverStep world config n s = some t) : t.rank < s.rank := by
  unfold serverStep at h
  cases phase : s.server with
  | reading r =>
    simp only [phase, Option.map_eq_some_iff] at h
    obtain ⟨next, moved, rfl⟩ := h
    cases next with
    | more r c =>
      have shorter := progress_length moved
      simp only [State.rank, phase, ServerPhase.rank]
      omega
    | returned request => exact server_phase_rank (by simp [phase, ServerPhase.rank])
    | failed err => exact server_phase_rank (by simp [phase, ServerPhase.rank])
  | resolving request =>
    simp only [phase] at h
    split at h
    all_goals
      rw [Option.some.injEq] at h
      subst h
      exact server_phase_rank (by simp [phase, ServerPhase.rank, write_response_length])
  | connecting request target =>
    simp only [phase] at h
    split at h
    all_goals
      rw [Option.some.injEq] at h
      subst h
      exact server_phase_rank (by simp [phase, ServerPhase.rank, write_response_length])
  | responding request todo =>
    cases todo with
    | nil =>
      simp only [phase, Option.some.injEq] at h
      subst h
      exact server_phase_rank (by simp [phase, ServerPhase.rank, Pump.rank, Pump.fresh])
    | cons b todo =>
      simp only [phase, Option.map_eq_some_iff] at h
      obtain ⟨⟨left, c⟩, part, rfl⟩ := h
      have sizes := write_part_length part
      simp only [State.rank, phase, ServerPhase.rank]
      omega
  | relay request up down => simp [phase] at h
  | answering todo =>
    cases todo with
    | nil =>
      simp only [phase, Option.some.injEq] at h
      subst h
      simp [State.rank, phase, ServerPhase.rank, Channel.finish]
    | cons b todo =>
      simp only [phase, Option.map_eq_some_iff] at h
      obtain ⟨⟨left, c⟩, part, rfl⟩ := h
      have sizes := write_part_length part
      simp only [State.rank, phase, ServerPhase.rank]
      omega
  | closed => simp [phase] at h

theorem pump_end_rank {e : PumpEvent} {p q : Pump} {input input' output output' : Channel}
    (h : pumpStep e p input output = some (q, input', output')) :
    endRank input' = endRank input := by
  obtain ⟨_, action⟩ := pump_step_cases h
  rcases action with ⟨_, _, _, _, rfl, _⟩ | ⟨_, _, _, _, rfl, _⟩ | ⟨_, _, _, _, rfl, _⟩ <;> rfl

theorem step_rank {world : World} {config : ServerConfig} {s t : State} {e : Event}
    (h : step world config s e = some t) : t.rank < s.rank := by
  cases e with
  | appSend n =>
    simp only [step] at h
    split at h
    · contradiction
    · rw [Option.map_eq_some_iff] at h
      obtain ⟨⟨left, c⟩, part, rfl⟩ := h
      have sizes := write_part_length part
      have same : endRank c = endRank s.fromApp := by
        obtain ⟨_, _, rfl⟩ := write_part_iff.mp part
        rfl
      simp only [State.rank]
      omega
  | appEnd =>
    simp only [step] at h
    split at h
    · rename_i last
      rw [Option.some.injEq] at h
      subst h
      simp [State.rank, endRank, last.2, Channel.finish]
    · contradiction
  | targetSend n =>
    simp only [step] at h
    split at h
    · contradiction
    · rw [Option.map_eq_some_iff] at h
      obtain ⟨⟨left, c⟩, part, rfl⟩ := h
      have sizes := write_part_length part
      have same : endRank c = endRank s.fromTarget := by
        obtain ⟨_, _, rfl⟩ := write_part_iff.mp part
        rfl
      simp only [State.rank]
      omega
  | targetEnd =>
    simp only [step] at h
    split at h
    · rename_i last
      rw [Option.some.injEq] at h
      subst h
      simp [State.rank, endRank, last.2, Channel.finish]
    · contradiction
  | client n => exact client_step_rank h
  | clientUp e =>
    simp only [step] at h
    split at h
    · rename_i up down phase
      rw [Option.map_eq_some_iff] at h
      obtain ⟨⟨up', input, output⟩, moved, rfl⟩ := h
      have lower := pump_step_rank (show 2 < 3 by omega) (show 3 < 4 by omega) moved
      have same := pump_end_rank moved
      simp only [State.rank, phase, ClientPhase.rank]
      omega
    · contradiction
  | clientDown e =>
    simp only [step] at h
    split at h
    · rename_i up down phase
      rw [Option.map_eq_some_iff] at h
      obtain ⟨⟨down', input, output⟩, moved, rfl⟩ := h
      have lower := pump_step_rank (show 0 < 1 by omega) (show 1 < 2 by omega) moved
      simp only [State.rank, phase, ClientPhase.rank]
      omega
    · contradiction
  | server n => exact server_step_rank h
  | serverUp e =>
    simp only [step] at h
    split at h
    · rename_i request up down phase
      rw [Option.map_eq_some_iff] at h
      obtain ⟨⟨up', input, output⟩, moved, rfl⟩ := h
      have lower := pump_step_rank (show 0 < 1 by omega) (show 1 < 2 by omega) moved
      simp only [State.rank, phase, ServerPhase.rank]
      omega
    · contradiction
  | serverDown e =>
    simp only [step] at h
    split at h
    · rename_i request up down phase
      rw [Option.map_eq_some_iff] at h
      obtain ⟨⟨down', input, output⟩, moved, rfl⟩ := h
      have lower := pump_step_rank (show 2 < 3 by omega) (show 3 < 4 by omega) moved
      have same := pump_end_rank moved
      simp only [State.rank, phase, ServerPhase.rank]
      omega
    · contradiction

/-- Every run ends after a number of steps that the two streams bound. -/
theorem tunnel_run_bounded {world : World} {config : ServerConfig}
    {appStream targetStream : Bytes} {events : List Event} {s : State}
    (run : (tunnel world config appStream targetStream).replay events = some s) :
    events.length ≤ 5 * appStream.length + 5 * targetStream.length + 932 := by
  have bound := run_bounded State.rank (fun _ _ _ last => step_rank last) run
  simp only [tunnel, start, State.rank, endRank, Channel.fresh, ClientPhase.rank, ServerPhase.rank,
    List.length_nil, Bool.false_eq_true, if_false] at bound
  omega

end SocksTunnel
