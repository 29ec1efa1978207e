import TunnelAI.SocksTunnel

/-!
The tunnel is transparent. A session is a connection whose greeting offers
method zero, whose request the SOCKS parser accepts and whose target the server
allows and reaches. Both processes are described phase by phase by how far their
streams have come; neither description is disturbed by a step of anybody else.
-/
namespace SocksTransparency
open StreamReader Channels TransitionRuns TracedEffects StdNet Socks5 TunnelCodec ExitPolicy
open SocksTunnel

structure Session where
  world : World
  config : ServerConfig
  methods : Bytes
  countable : methods.length ≤ 255
  offered : methods.contains 0x00 = true
  connectFrame : Bytes
  request : ConnectRequest
  accepted : readConnectRequest.run .io connectFrame = .ok (request, [])
  payload : Bytes
  reply : Bytes
  target : SocketAddr
  allowed : verdict world config request = .finished (.ok target)
  reached : connectAnswer (world.connect target) = .succeeded

variable (x : Session)

def Session.greeting : Bytes := 0x05 :: UInt8.ofNat x.methods.length :: x.methods

def Session.appStream : Bytes := x.greeting ++ x.connectFrame ++ x.payload

def Session.tunnel : System State SocksTunnel.Event :=
  SocksTunnel.tunnel x.world x.config x.appStream x.reply

def answers : Bytes := [0x05, 0x00] ++ writeReply .succeeded

theorem greeting_after :
    negotiateNoAuth.after x.greeting = some (.done (⟨[0x05, 0x00], rfl⟩, .ok ())) := by
  apply after_of_run .io
  have count : (UInt8.ofNat x.methods.length).toNat = x.methods.length := by
    have := x.countable
    rw [UInt8.toNat_ofNat']
    omega
  have offered := x.offered
  simp only [Session.greeting, negotiateNoAuth, run_readU8_bind, run_ensure_bind, if_true,
    run_readExact_bind, count, Nat.le_refl, dite_true, List.take_length, offered, List.drop_length,
    pure_done, run_done]

theorem connect_frame_after :
    readConnectRequest.after x.connectFrame = some (.done x.request) :=
  after_of_run .io x.accepted

theorem request_encodable : x.request.target.Encodable :=
  read_connect_request_encodable x.accepted

theorem request_frame_after :
    readRequest.after (requestFrame x.request) = some (.done x.request) := by
  apply after_of_run .io
  have whole := read_request_frame (request_encodable x) []
  rwa [List.append_nil] at whole

theorem response_after (status : ReplyCode) :
    readResponse.after (writeResponse status) = some (.done status) := by
  apply after_of_run .io
  have whole := read_response_frame status []
  rwa [List.append_nil] at whole

/-- How far the client's four streams have come in each phase. -/
def ClientInv (fromApp tunnelUp tunnelDown toApp : Channel) : ClientPhase → Prop
  | .handshake r =>
    Reading negotiateNoAuth r [] fromApp ∧ Writing tunnelUp [] [] ∧ tunnelDown.consumed = [] ∧
      Writing toApp [] []
  | .selecting todo result =>
    result = .ok () ∧ fromApp.consumed = x.greeting ∧ Writing tunnelUp [] [] ∧
      tunnelDown.consumed = [] ∧ Writing toApp todo [0x05, 0x00]
  | .request r =>
    Reading readConnectRequest r x.greeting fromApp ∧ Writing tunnelUp [] [] ∧
      tunnelDown.consumed = [] ∧ Writing toApp [] [0x05, 0x00]
  | .sending todo result =>
    result = .ok () ∧ fromApp.consumed = x.greeting ++ x.connectFrame ∧
      Writing tunnelUp todo (requestFrame x.request) ∧ tunnelDown.consumed = [] ∧
      Writing toApp [] [0x05, 0x00]
  | .awaiting r =>
    fromApp.consumed = x.greeting ++ x.connectFrame ∧
      Writing tunnelUp [] (requestFrame x.request) ∧ Reading readResponse r [] tunnelDown ∧
      Writing toApp [] [0x05, 0x00]
  | .replying todo status =>
    status = .succeeded ∧ fromApp.consumed = x.greeting ++ x.connectFrame ∧
      Writing tunnelUp [] (requestFrame x.request) ∧
      tunnelDown.consumed = writeResponse .succeeded ∧ Writing toApp todo answers
  | .relay up down =>
    Pumping up (x.greeting ++ x.connectFrame) (requestFrame x.request) fromApp tunnelUp ∧
      Pumping down (writeResponse .succeeded) answers tunnelDown toApp
  | .refusing _ => False
  | .closed => False

def ServerInv (tunnelUp toTarget fromTarget tunnelDown : Channel) : ServerPhase → Prop
  | .reading r =>
    Reading readRequest r [] tunnelUp ∧ Writing toTarget [] [] ∧ fromTarget.consumed = [] ∧
      Writing tunnelDown [] []
  | .resolving request =>
    request = x.request ∧ tunnelUp.consumed = requestFrame x.request ∧ Writing toTarget [] [] ∧
      fromTarget.consumed = [] ∧ Writing tunnelDown [] []
  | .connecting request target =>
    request = x.request ∧ target = x.target ∧ tunnelUp.consumed = requestFrame x.request ∧
      Writing toTarget [] [] ∧ fromTarget.consumed = [] ∧ Writing tunnelDown [] []
  | .responding request todo =>
    request = x.request ∧ tunnelUp.consumed = requestFrame x.request ∧ Writing toTarget [] [] ∧
      fromTarget.consumed = [] ∧ Writing tunnelDown todo (writeResponse .succeeded)
  | .relay request up down =>
    request = x.request ∧ Pumping up (requestFrame x.request) [] tunnelUp toTarget ∧
      Pumping down [] (writeResponse .succeeded) fromTarget tunnelDown
  | .answering _ => False
  | .closed => False

variable {x}

theorem client_frame {fromApp tunnelUp tunnelDown toApp fromApp' tunnelUp' tunnelDown' toApp' :
    Channel} {phase : ClientPhase} (inv : ClientInv x fromApp tunnelUp tunnelDown toApp phase)
    (app : fromApp.Fed fromApp') (up : tunnelUp.Drawn tunnelUp')
    (down : tunnelDown.Fed tunnelDown') (out : toApp.Drawn toApp') :
    ClientInv x fromApp' tunnelUp' tunnelDown' toApp' phase := by
  cases phase with
  | handshake r =>
    obtain ⟨reading, sent, taken, put⟩ := inv
    exact ⟨reading_same reading app, writing_same sent up, by rw [down.consumed, taken],
      writing_same put out⟩
  | selecting todo result =>
    obtain ⟨accepted, taken, sent, idle, put⟩ := inv
    exact ⟨accepted, by rw [app.consumed, taken], writing_same sent up,
      by rw [down.consumed, idle], writing_same put out⟩
  | request r =>
    obtain ⟨reading, sent, taken, put⟩ := inv
    exact ⟨reading_same reading app, writing_same sent up, by rw [down.consumed, taken],
      writing_same put out⟩
  | sending todo result =>
    obtain ⟨accepted, taken, sent, idle, put⟩ := inv
    exact ⟨accepted, by rw [app.consumed, taken], writing_same sent up,
      by rw [down.consumed, idle], writing_same put out⟩
  | awaiting r =>
    obtain ⟨taken, sent, reading, put⟩ := inv
    exact ⟨by rw [app.consumed, taken], writing_same sent up, reading_same reading down,
      writing_same put out⟩
  | replying todo status =>
    obtain ⟨accepted, taken, sent, read, put⟩ := inv
    exact ⟨accepted, by rw [app.consumed, taken], writing_same sent up,
      by rw [down.consumed, read], writing_same put out⟩
  | relay upward downward =>
    obtain ⟨pumpingUp, pumpingDown⟩ := inv
    exact ⟨pumping_frame pumpingUp app up, pumping_frame pumpingDown down out⟩
  | refusing todo => exact inv.elim
  | closed => exact inv.elim

theorem server_frame {tunnelUp toTarget fromTarget tunnelDown tunnelUp' toTarget' fromTarget'
    tunnelDown' : Channel} {phase : ServerPhase}
    (inv : ServerInv x tunnelUp toTarget fromTarget tunnelDown phase)
    (up : tunnelUp.Fed tunnelUp') (out : toTarget.Drawn toTarget')
    (reply : fromTarget.Fed fromTarget') (down : tunnelDown.Drawn tunnelDown') :
    ServerInv x tunnelUp' toTarget' fromTarget' tunnelDown' phase := by
  cases phase with
  | reading r =>
    obtain ⟨reading, put, taken, sent⟩ := inv
    exact ⟨reading_same reading up, writing_same put out, by rw [reply.consumed, taken],
      writing_same sent down⟩
  | resolving request =>
    obtain ⟨same, read, put, taken, sent⟩ := inv
    exact ⟨same, by rw [up.consumed, read], writing_same put out, by rw [reply.consumed, taken],
      writing_same sent down⟩
  | connecting request target =>
    obtain ⟨same, chosen, read, put, taken, sent⟩ := inv
    exact ⟨same, chosen, by rw [up.consumed, read], writing_same put out,
      by rw [reply.consumed, taken], writing_same sent down⟩
  | responding request todo =>
    obtain ⟨same, read, put, taken, sent⟩ := inv
    exact ⟨same, by rw [up.consumed, read], writing_same put out, by rw [reply.consumed, taken],
      writing_same sent down⟩
  | relay request upward downward =>
    obtain ⟨same, pumpingUp, pumpingDown⟩ := inv
    exact ⟨same, pumping_frame pumpingUp up out, pumping_frame pumpingDown reply down⟩
  | answering todo => exact inv.elim
  | closed => exact inv.elim

theorem client_carries_up {fromApp tunnelUp tunnelDown toApp : Channel} {phase : ClientPhase}
    (inv : ClientInv x fromApp tunnelUp tunnelDown toApp phase)
    (app : fromApp.Carries x.appStream) :
    tunnelUp.Carries (requestFrame x.request ++ x.payload) := by
  cases phase with
  | handshake r => exact writing_carries inv.2.1 List.nil_prefix
  | selecting todo result => exact writing_carries inv.2.2.1 List.nil_prefix
  | request r => exact writing_carries inv.2.1 List.nil_prefix
  | sending todo result => exact writing_carries inv.2.2.1 (List.prefix_append _ _)
  | awaiting r => exact writing_carries inv.2.1 (List.prefix_append _ _)
  | replying todo status => exact writing_carries inv.2.2.1 (List.prefix_append _ _)
  | relay up down => exact pumping_carries inv.1 app
  | refusing todo => exact inv.elim
  | closed => exact inv.elim

theorem client_carries_down {fromApp tunnelUp tunnelDown toApp : Channel} {phase : ClientPhase}
    (inv : ClientInv x fromApp tunnelUp tunnelDown toApp phase)
    (down : tunnelDown.Carries (writeResponse .succeeded ++ x.reply)) :
    toApp.Carries (answers ++ x.reply) := by
  have selection : ([0x05, 0x00] : Bytes) <+: answers ++ x.reply := by
    rw [answers, List.append_assoc]
    exact List.prefix_append _ _
  cases phase with
  | handshake r => exact writing_carries inv.2.2.2 List.nil_prefix
  | selecting todo result => exact writing_carries inv.2.2.2.2 selection
  | request r => exact writing_carries inv.2.2.2 selection
  | sending todo result => exact writing_carries inv.2.2.2.2 selection
  | awaiting r => exact writing_carries inv.2.2.2 selection
  | replying todo status => exact writing_carries inv.2.2.2.2 (List.prefix_append _ _)
  | relay upward downward => exact pumping_carries inv.2 down
  | refusing todo => exact inv.elim
  | closed => exact inv.elim

theorem server_carries_up {tunnelUp toTarget fromTarget tunnelDown : Channel}
    {phase : ServerPhase} (inv : ServerInv x tunnelUp toTarget fromTarget tunnelDown phase)
    (up : tunnelUp.Carries (requestFrame x.request ++ x.payload)) :
    toTarget.Carries x.payload := by
  cases phase with
  | reading r => exact writing_carries inv.2.1 List.nil_prefix
  | resolving request => exact writing_carries inv.2.2.1 List.nil_prefix
  | connecting request target => exact writing_carries inv.2.2.2.1 List.nil_prefix
  | responding request todo => exact writing_carries inv.2.2.1 List.nil_prefix
  | relay request upward downward => exact pumping_carries inv.2.1 up
  | answering todo => exact inv.elim
  | closed => exact inv.elim

theorem server_carries_down {tunnelUp toTarget fromTarget tunnelDown : Channel}
    {phase : ServerPhase} (inv : ServerInv x tunnelUp toTarget fromTarget tunnelDown phase)
    (target : fromTarget.Carries x.reply) :
    tunnelDown.Carries (writeResponse .succeeded ++ x.reply) := by
  cases phase with
  | reading r => exact writing_carries inv.2.2.2 List.nil_prefix
  | resolving request => exact writing_carries inv.2.2.2.2 List.nil_prefix
  | connecting request target => exact writing_carries inv.2.2.2.2.2 List.nil_prefix
  | responding request todo => exact writing_carries inv.2.2.2.2 (List.prefix_append _ _)
  | relay request upward downward => exact pumping_carries inv.2.2 target
  | answering todo => exact inv.elim
  | closed => exact inv.elim

structure ClientMoves (x : Session) (s t : State) : Prop where
  inv : ClientInv x t.fromApp t.tunnelUp t.tunnelDown t.toApp t.client
  fromApp : s.fromApp.Drawn t.fromApp := by simp
  tunnelUp : s.tunnelUp.Fed t.tunnelUp := by simp
  tunnelDown : s.tunnelDown.Drawn t.tunnelDown := by simp
  toApp : s.toApp.Fed t.toApp := by simp
  rest : ∃ phase a u d o, t =
    { s with client := phase, fromApp := a, tunnelUp := u, tunnelDown := d, toApp := o }

theorem client_step_moves {n : Nat} {s t : State} (h : clientStep n s = some t)
    (inv : ClientInv x s.fromApp s.tunnelUp s.tunnelDown s.toApp s.client)
    (app : s.fromApp.Carries x.appStream)
    (down : s.tunnelDown.Carries (writeResponse .succeeded ++ x.reply)) : ClientMoves x s t := by
  unfold clientStep at h
  cases phase : s.client with
  | handshake r =>
    simp only [phase, Option.map_eq_some_iff] at h
    rw [phase] at inv
    obtain ⟨reading, sent, taken, put⟩ := inv
    obtain ⟨next, moved, rfl⟩ := h
    have carried : s.fromApp.Carries ([] ++ x.greeting ++ (x.connectFrame ++ x.payload)) := by
      simpa [Session.appStream] using app
    rcases reading_outcome reading (greeting_after x) carried moved with
      ⟨r, c, rfl⟩ | ⟨rfl, consumed⟩
    · obtain ⟨reading, drawn⟩ := reading_more reading moved
      exact { inv := ⟨reading, sent, taken, put⟩, fromApp := drawn, rest := ⟨_, _, _, _, _, rfl⟩ }
    · exact { inv := ⟨rfl, consumed, sent, taken, writing_next put _⟩,
              rest := ⟨_, _, _, _, _, rfl⟩ }
  | selecting todo result =>
    rw [phase] at inv
    obtain ⟨rfl, consumed, sent, taken, put⟩ := inv
    cases todo with
    | nil =>
      simp only [phase, Option.some.injEq] at h
      subst h
      exact { inv := ⟨reading_start _ consumed, sent, taken, put⟩, rest := ⟨_, _, _, _, _, rfl⟩ }
    | cons b todo =>
      simp only [phase, Option.map_eq_some_iff] at h
      obtain ⟨⟨left, c⟩, part, rfl⟩ := h
      obtain ⟨put, fed⟩ := writing_part put part
      exact { inv := ⟨rfl, consumed, sent, taken, put⟩, toApp := fed,
              rest := ⟨_, _, _, _, _, rfl⟩ }
  | request r =>
    simp only [phase, Option.map_eq_some_iff] at h
    rw [phase] at inv
    obtain ⟨reading, sent, taken, put⟩ := inv
    obtain ⟨next, moved, rfl⟩ := h
    rcases reading_outcome reading (connect_frame_after x) app moved with
      ⟨r, c, rfl⟩ | ⟨rfl, consumed⟩
    · obtain ⟨reading, drawn⟩ := reading_more reading moved
      exact { inv := ⟨reading, sent, taken, put⟩, fromApp := drawn, rest := ⟨_, _, _, _, _, rfl⟩ }
    · have encoded := write_request_encodable (request_encodable x)
      have frame : Writing s.tunnelUp (writeRequest x.request).1 (requestFrame x.request) := by
        rw [encoded]
        exact writing_next sent _
      exact { inv := ⟨by rw [encoded], consumed, frame, taken, put⟩,
              rest := ⟨_, _, _, _, _, rfl⟩ }
  | sending todo result =>
    rw [phase] at inv
    obtain ⟨rfl, consumed, sent, taken, put⟩ := inv
    cases todo with
    | nil =>
      simp only [phase, Option.some.injEq] at h
      subst h
      exact { inv := ⟨consumed, sent, reading_start _ taken, put⟩, rest := ⟨_, _, _, _, _, rfl⟩ }
    | cons b todo =>
      simp only [phase, Option.map_eq_some_iff] at h
      obtain ⟨⟨left, c⟩, part, rfl⟩ := h
      obtain ⟨sent, fed⟩ := writing_part sent part
      exact { inv := ⟨rfl, consumed, sent, taken, put⟩, tunnelUp := fed,
              rest := ⟨_, _, _, _, _, rfl⟩ }
  | awaiting r =>
    simp only [phase, Option.map_eq_some_iff] at h
    rw [phase] at inv
    obtain ⟨consumed, sent, reading, put⟩ := inv
    obtain ⟨next, moved, rfl⟩ := h
    rcases reading_outcome reading (response_after .succeeded) down moved with
      ⟨r, c, rfl⟩ | ⟨rfl, taken⟩
    · obtain ⟨reading, drawn⟩ := reading_more reading moved
      exact { inv := ⟨consumed, sent, reading, put⟩, tunnelDown := drawn,
              rest := ⟨_, _, _, _, _, rfl⟩ }
    · exact { inv := ⟨rfl, consumed, sent, taken, writing_next put _⟩,
              rest := ⟨_, _, _, _, _, rfl⟩ }
  | replying todo status =>
    rw [phase] at inv
    obtain ⟨rfl, consumed, sent, taken, put⟩ := inv
    cases todo with
    | nil =>
      simp only [phase, if_true, Option.some.injEq] at h
      subst h
      exact { inv := ⟨pumping_start consumed sent, pumping_start taken put⟩,
              rest := ⟨_, _, _, _, _, rfl⟩ }
    | cons b todo =>
      simp only [phase, Option.map_eq_some_iff] at h
      obtain ⟨⟨left, c⟩, part, rfl⟩ := h
      obtain ⟨put, fed⟩ := writing_part put part
      exact { inv := ⟨rfl, consumed, sent, taken, put⟩, toApp := fed,
              rest := ⟨_, _, _, _, _, rfl⟩ }
  | relay up down => simp [phase] at h
  | refusing todo =>
    rw [phase] at inv
    exact inv.elim
  | closed => simp [phase] at h

theorem client_up_moves {e : PumpEvent} {s t : State}
    (h : SocksTunnel.step x.world x.config s (.clientUp e) = some t)
    (inv : ClientInv x s.fromApp s.tunnelUp s.tunnelDown s.toApp s.client) :
    ClientMoves x s t := by
  simp only [SocksTunnel.step] at h
  split at h
  · rename_i up down phase
    rw [phase] at inv
    obtain ⟨pumpingUp, pumpingDown⟩ := inv
    rw [Option.map_eq_some_iff] at h
    obtain ⟨⟨up', input, output⟩, moved, rfl⟩ := h
    obtain ⟨drawn, fed⟩ := pump_step_frame pumpingUp moved
    exact { inv := ⟨pumping_step pumpingUp moved, pumpingDown⟩, fromApp := drawn, tunnelUp := fed,
            rest := ⟨_, _, _, _, _, rfl⟩ }
  · contradiction

theorem client_down_moves {e : PumpEvent} {s t : State}
    (h : SocksTunnel.step x.world x.config s (.clientDown e) = some t)
    (inv : ClientInv x s.fromApp s.tunnelUp s.tunnelDown s.toApp s.client) :
    ClientMoves x s t := by
  simp only [SocksTunnel.step] at h
  split at h
  · rename_i up down phase
    rw [phase] at inv
    obtain ⟨pumpingUp, pumpingDown⟩ := inv
    rw [Option.map_eq_some_iff] at h
    obtain ⟨⟨down', input, output⟩, moved, rfl⟩ := h
    obtain ⟨drawn, fed⟩ := pump_step_frame pumpingDown moved
    exact { inv := ⟨pumpingUp, pumping_step pumpingDown moved⟩, tunnelDown := drawn, toApp := fed,
            rest := ⟨_, _, _, _, _, rfl⟩ }
  · contradiction

structure ServerMoves (x : Session) (s t : State) : Prop where
  inv : ServerInv x t.tunnelUp t.toTarget t.fromTarget t.tunnelDown t.server
  tunnelUp : s.tunnelUp.Drawn t.tunnelUp := by simp
  toTarget : s.toTarget.Fed t.toTarget := by simp
  fromTarget : s.fromTarget.Drawn t.fromTarget := by simp
  tunnelDown : s.tunnelDown.Fed t.tunnelDown := by simp
  rest : ∃ phase u o i d, t =
    { s with server := phase, tunnelUp := u, toTarget := o, fromTarget := i, tunnelDown := d }

theorem server_step_moves {n : Nat} {s t : State}
    (h : serverStep x.world x.config n s = some t)
    (inv : ServerInv x s.tunnelUp s.toTarget s.fromTarget s.tunnelDown s.server)
    (up : s.tunnelUp.Carries (requestFrame x.request ++ x.payload)) : ServerMoves x s t := by
  unfold serverStep at h
  cases phase : s.server with
  | reading r =>
    simp only [phase, Option.map_eq_some_iff] at h
    rw [phase] at inv
    obtain ⟨reading, put, taken, sent⟩ := inv
    obtain ⟨next, moved, rfl⟩ := h
    rcases reading_outcome reading (request_frame_after x) up moved with
      ⟨r, c, rfl⟩ | ⟨rfl, consumed⟩
    · obtain ⟨reading, drawn⟩ := reading_more reading moved
      exact { inv := ⟨reading, put, taken, sent⟩, tunnelUp := drawn,
              rest := ⟨_, _, _, _, _, rfl⟩ }
    · exact { inv := ⟨rfl, consumed, put, taken, sent⟩, rest := ⟨_, _, _, _, _, rfl⟩ }
  | resolving request =>
    rw [phase] at inv
    obtain ⟨rfl, consumed, put, taken, sent⟩ := inv
    simp only [phase, x.allowed, Option.some.injEq] at h
    subst h
    exact { inv := ⟨rfl, rfl, consumed, put, taken, sent⟩, rest := ⟨_, _, _, _, _, rfl⟩ }
  | connecting request target =>
    rw [phase] at inv
    obtain ⟨rfl, rfl, consumed, put, taken, sent⟩ := inv
    simp only [phase, x.reached, if_true, Option.some.injEq] at h
    subst h
    exact { inv := ⟨rfl, consumed, put, taken, writing_next sent _⟩,
            rest := ⟨_, _, _, _, _, rfl⟩ }
  | responding request todo =>
    rw [phase] at inv
    obtain ⟨rfl, consumed, put, taken, sent⟩ := inv
    cases todo with
    | nil =>
      simp only [phase, Option.some.injEq] at h
      subst h
      exact { inv := ⟨rfl, pumping_start consumed put, pumping_start taken sent⟩,
              rest := ⟨_, _, _, _, _, rfl⟩ }
    | cons b todo =>
      simp only [phase, Option.map_eq_some_iff] at h
      obtain ⟨⟨left, c⟩, part, rfl⟩ := h
      obtain ⟨sent, fed⟩ := writing_part sent part
      exact { inv := ⟨rfl, consumed, put, taken, sent⟩, tunnelDown := fed,
              rest := ⟨_, _, _, _, _, rfl⟩ }
  | relay request up down => simp [phase] at h
  | answering todo =>
    rw [phase] at inv
    exact inv.elim
  | closed => simp [phase] at h

theorem server_up_moves {e : PumpEvent} {s t : State}
    (h : SocksTunnel.step x.world x.config s (.serverUp e) = some t)
    (inv : ServerInv x s.tunnelUp s.toTarget s.fromTarget s.tunnelDown s.server) :
    ServerMoves x s t := by
  simp only [SocksTunnel.step] at h
  split at h
  · rename_i request up down phase
    rw [phase] at inv
    obtain ⟨same, pumpingUp, pumpingDown⟩ := inv
    rw [Option.map_eq_some_iff] at h
    obtain ⟨⟨up', input, output⟩, moved, rfl⟩ := h
    obtain ⟨drawn, fed⟩ := pump_step_frame pumpingUp moved
    exact { inv := ⟨same, pumping_step pumpingUp moved, pumpingDown⟩, tunnelUp := drawn,
            toTarget := fed, rest := ⟨_, _, _, _, _, rfl⟩ }
  · contradiction

theorem server_down_moves {e : PumpEvent} {s t : State}
    (h : SocksTunnel.step x.world x.config s (.serverDown e) = some t)
    (inv : ServerInv x s.tunnelUp s.toTarget s.fromTarget s.tunnelDown s.server) :
    ServerMoves x s t := by
  simp only [SocksTunnel.step] at h
  split at h
  · rename_i request up down phase
    rw [phase] at inv
    obtain ⟨same, pumpingUp, pumpingDown⟩ := inv
    rw [Option.map_eq_some_iff] at h
    obtain ⟨⟨down', input, output⟩, moved, rfl⟩ := h
    obtain ⟨drawn, fed⟩ := pump_step_frame pumpingDown moved
    exact { inv := ⟨same, pumpingUp, pumping_step pumpingDown moved⟩, fromTarget := drawn,
            tunnelDown := fed, rest := ⟨_, _, _, _, _, rfl⟩ }
  · contradiction

/-- What holds in every state of a session. The two programs outside the tunnel
    write their streams and end them last. -/
structure Inv (x : Session) (s : State) : Prop where
  app : s.fromApp.written ++ s.appUnsent = x.appStream
  appEnd : s.fromApp.ended = true → s.appUnsent = []
  target : s.fromTarget.written ++ s.targetUnsent = x.reply
  targetEnd : s.fromTarget.ended = true → s.targetUnsent = []
  client : ClientInv x s.fromApp s.tunnelUp s.tunnelDown s.toApp s.client
  server : ServerInv x s.tunnelUp s.toTarget s.fromTarget s.tunnelDown s.server

theorem inv_from_app {s : State} (inv : Inv x s) : s.fromApp.Carries x.appStream :=
  carries_unsent inv.app inv.appEnd

theorem inv_from_target {s : State} (inv : Inv x s) : s.fromTarget.Carries x.reply :=
  carries_unsent inv.target inv.targetEnd

theorem inv_tunnel_up {s : State} (inv : Inv x s) :
    s.tunnelUp.Carries (requestFrame x.request ++ x.payload) :=
  client_carries_up inv.client (inv_from_app inv)

theorem inv_tunnel_down {s : State} (inv : Inv x s) :
    s.tunnelDown.Carries (writeResponse .succeeded ++ x.reply) :=
  server_carries_down inv.server (inv_from_target inv)

theorem inv_to_target {s : State} (inv : Inv x s) : s.toTarget.Carries x.payload :=
  server_carries_up inv.server (inv_tunnel_up inv)

theorem inv_to_app {s : State} (inv : Inv x s) : s.toApp.Carries (answers ++ x.reply) :=
  client_carries_down inv.client (inv_tunnel_down inv)

theorem inv_start : Inv x x.tunnel.init where
  app := rfl
  appEnd := by simp [Session.tunnel, SocksTunnel.tunnel, start, Channel.fresh]
  target := rfl
  targetEnd := by simp [Session.tunnel, SocksTunnel.tunnel, start, Channel.fresh]
  client := ⟨reading_start _ rfl, ⟨rfl, rfl⟩, rfl, ⟨rfl, rfl⟩⟩
  server := ⟨reading_start _ rfl, ⟨rfl, rfl⟩, rfl, ⟨rfl, rfl⟩⟩

theorem inv_client_moves {s t : State} (inv : Inv x s) (moves : ClientMoves x s t) : Inv x t := by
  obtain ⟨client, fromApp, tunnelUp, tunnelDown, _, phase, a, u, d, o, rfl⟩ := moves
  exact {
    app := by rw [fromApp.written]; exact inv.app
    appEnd := by rw [fromApp.ended]; exact inv.appEnd
    target := inv.target
    targetEnd := inv.targetEnd
    client := client
    server := server_frame inv.server tunnelUp (drawn_refl _) (fed_refl _) tunnelDown }

theorem inv_server_moves {s t : State} (inv : Inv x s) (moves : ServerMoves x s t) : Inv x t := by
  obtain ⟨server, tunnelUp, _, fromTarget, tunnelDown, phase, u, o, i, d, rfl⟩ := moves
  exact {
    app := inv.app
    appEnd := inv.appEnd
    target := by rw [fromTarget.written]; exact inv.target
    targetEnd := by rw [fromTarget.ended]; exact inv.targetEnd
    client := client_frame inv.client (fed_refl _) tunnelUp tunnelDown (drawn_refl _)
    server := server }

theorem inv_app_moves {s : State} {left : Bytes} {c : Channel} (inv : Inv x s)
    (fed : s.fromApp.Fed c) (split : c.written ++ left = x.appStream)
    (last : c.ended = true → left = []) : Inv x { s with appUnsent := left, fromApp := c } where
  app := split
  appEnd := last
  target := inv.target
  targetEnd := inv.targetEnd
  client := client_frame inv.client fed (drawn_refl _) (fed_refl _) (drawn_refl _)
  server := inv.server

theorem inv_target_moves {s : State} {left : Bytes} {c : Channel} (inv : Inv x s)
    (fed : s.fromTarget.Fed c) (split : c.written ++ left = x.reply)
    (last : c.ended = true → left = []) :
    Inv x { s with targetUnsent := left, fromTarget := c } where
  app := inv.app
  appEnd := inv.appEnd
  target := split
  targetEnd := last
  client := inv.client
  server := server_frame inv.server (fed_refl _) (drawn_refl _) fed (drawn_refl _)

theorem inv_step {s t : State} {e : SocksTunnel.Event} (inv : Inv x s)
    (h : x.tunnel.step s e = some t) : Inv x t := by
  cases e with
  | appSend n =>
    simp only [Session.tunnel, SocksTunnel.tunnel, SocksTunnel.step] at h
    split at h
    · contradiction
    · rename_i opened
      rw [Bool.not_eq_true] at opened
      rw [Option.map_eq_some_iff] at h
      obtain ⟨⟨left, c⟩, part, rfl⟩ := h
      have unsent : Writing s.fromApp s.appUnsent x.appStream := ⟨inv.app, opened⟩
      obtain ⟨unsent, fed⟩ := writing_part unsent part
      exact inv_app_moves inv fed unsent.split (by simp [unsent.opened])
  | appEnd =>
    simp only [Session.tunnel, SocksTunnel.tunnel, SocksTunnel.step] at h
    split at h
    · rename_i last
      rw [Option.some.injEq] at h
      subst h
      exact inv_app_moves inv (fed_finish last.2) inv.app fun _ => last.1
    · contradiction
  | targetSend n =>
    simp only [Session.tunnel, SocksTunnel.tunnel, SocksTunnel.step] at h
    split at h
    · contradiction
    · rename_i opened
      rw [Bool.not_eq_true] at opened
      rw [Option.map_eq_some_iff] at h
      obtain ⟨⟨left, c⟩, part, rfl⟩ := h
      have unsent : Writing s.fromTarget s.targetUnsent x.reply := ⟨inv.target, opened⟩
      obtain ⟨unsent, fed⟩ := writing_part unsent part
      exact inv_target_moves inv fed unsent.split (by simp [unsent.opened])
  | targetEnd =>
    simp only [Session.tunnel, SocksTunnel.tunnel, SocksTunnel.step] at h
    split at h
    · rename_i last
      rw [Option.some.injEq] at h
      subst h
      exact inv_target_moves inv (fed_finish last.2) inv.target fun _ => last.1
    · contradiction
  | client n =>
    exact inv_client_moves inv
      (client_step_moves h inv.client (inv_from_app inv) (inv_tunnel_down inv))
  | clientUp e => exact inv_client_moves inv (client_up_moves h inv.client)
  | clientDown e => exact inv_client_moves inv (client_down_moves h inv.client)
  | server n =>
    exact inv_server_moves inv (server_step_moves h inv.server (inv_tunnel_up inv))
  | serverUp e => exact inv_server_moves inv (server_up_moves h inv.server)
  | serverDown e => exact inv_server_moves inv (server_down_moves h inv.server)

theorem inv_run {s : State} (reached : x.tunnel.Reachable s) : Inv x s :=
  state_invariant (Inv x) inv_start (fun _ _ _ inv last => inv_step inv last) s reached

theorem inv_decoded {s : State} {request : ConnectRequest} (inv : Inv x s)
    (decoded : s.server.decoded = some request) : request = x.request := by
  have server := inv.server
  cases phase : s.server with
  | reading r => simp [phase, ServerPhase.decoded] at decoded
  | resolving other =>
    rw [phase] at server decoded
    exact (Option.some.inj decoded).symm.trans server.1
  | connecting other target =>
    rw [phase] at server decoded
    exact (Option.some.inj decoded).symm.trans server.1
  | responding other todo =>
    rw [phase] at server decoded
    exact (Option.some.inj decoded).symm.trans server.1
  | relay other up down =>
    rw [phase] at server decoded
    exact (Option.some.inj decoded).symm.trans server.1
  | answering todo => simp [phase, ServerPhase.decoded] at decoded
  | closed => simp [phase, ServerPhase.decoded] at decoded

section Stuck
variable {s : State}

theorem app_stuck (stuck : ∀ e, SocksTunnel.step x.world x.config s e = none) :
    s.fromApp.ended = true := by
  have send := stuck (.appSend 1)
  have last := stuck .appEnd
  simp only [SocksTunnel.step] at send last
  cases ended : s.fromApp.ended with
  | true => rfl
  | false =>
    by_cases empty : s.appUnsent = []
    · simp [empty, ended] at last
    · simp [ended, write_part_enabled s.fromApp empty] at send

theorem target_stuck (stuck : ∀ e, SocksTunnel.step x.world x.config s e = none) :
    s.fromTarget.ended = true := by
  have send := stuck (.targetSend 1)
  have last := stuck .targetEnd
  simp only [SocksTunnel.step] at send last
  cases ended : s.fromTarget.ended with
  | true => rfl
  | false =>
    by_cases empty : s.targetUnsent = []
    · simp [empty, ended] at last
    · simp [ended, write_part_enabled s.fromTarget empty] at send

/-- Once the request frame is in the tunnel, only a relay can block the server. -/
theorem server_stuck (inv : Inv x s)
    (stuck : ∀ e, SocksTunnel.step x.world x.config s e = none)
    (sent : requestFrame x.request <+: s.tunnelUp.written) :
    ∃ up down, s.server = .relay x.request up down := by
  have blocked := stuck (.server 1)
  have server := inv.server
  simp only [SocksTunnel.step, serverStep] at blocked
  cases phase : s.server with
  | reading r =>
    rw [phase] at server
    simp only [phase, Option.map_eq_none_iff] at blocked
    exact absurd blocked
      (reading_enabled server.1 (request_frame_after x) (inv_tunnel_up inv) sent)
  | resolving request =>
    simp only [phase] at blocked
    split at blocked <;> contradiction
  | connecting request target =>
    simp only [phase] at blocked
    split at blocked <;> contradiction
  | responding request todo =>
    cases todo with
    | nil => simp [phase] at blocked
    | cons b todo =>
      simp only [phase, Option.map_eq_none_iff] at blocked
      exact absurd blocked (write_part_enabled _ (by simp))
  | relay request up down =>
    rw [phase] at server
    exact ⟨up, down, by rw [server.1]⟩
  | answering todo =>
    rw [phase] at server
    exact server.elim
  | closed =>
    rw [phase] at server
    exact server.elim

theorem client_stuck (inv : Inv x s)
    (stuck : ∀ e, SocksTunnel.step x.world x.config s e = none) :
    ∃ up down, s.client = .relay up down := by
  have blocked := stuck (.client 1)
  have client := inv.client
  have app := inv_from_app inv
  have all := app.complete (app_stuck stuck)
  simp only [SocksTunnel.step, clientStep] at blocked
  cases phase : s.client with
  | handshake r =>
    rw [phase] at client
    simp only [phase, Option.map_eq_none_iff] at blocked
    have carried : s.fromApp.Carries ([] ++ x.greeting ++ (x.connectFrame ++ x.payload)) := by
      simpa [Session.appStream] using app
    have whole : [] ++ x.greeting <+: s.fromApp.written := by
      rw [all, Session.appStream, List.append_assoc]
      exact List.prefix_append _ _
    exact absurd blocked (reading_enabled client.1 (greeting_after x) carried whole)
  | selecting todo result =>
    rw [phase] at client
    cases todo with
    | nil =>
      cases result with
      | ok done => simp [phase] at blocked
      | error err => exact absurd client.1 (by simp)
    | cons b todo =>
      simp only [phase, Option.map_eq_none_iff] at blocked
      exact absurd blocked (write_part_enabled _ (by simp))
  | request r =>
    rw [phase] at client
    simp only [phase, Option.map_eq_none_iff] at blocked
    have whole : x.greeting ++ x.connectFrame <+: s.fromApp.written := by
      rw [all, Session.appStream]
      exact List.prefix_append _ _
    exact absurd blocked (reading_enabled client.1 (connect_frame_after x) app whole)
  | sending todo result =>
    cases todo with
    | nil => cases result <;> simp [phase] at blocked
    | cons b todo =>
      simp only [phase, Option.map_eq_none_iff] at blocked
      exact absurd blocked (write_part_enabled _ (by simp))
  | awaiting r =>
    rw [phase] at client
    obtain ⟨_, sent, reading, _⟩ := client
    simp only [phase, Option.map_eq_none_iff] at blocked
    have frame : requestFrame x.request <+: s.tunnelUp.written := by
      have whole := sent.split
      rw [List.append_nil] at whole
      exact whole ▸ List.prefix_rfl
    obtain ⟨up, down, relaying⟩ := server_stuck inv stuck frame
    have server := inv.server
    rw [relaying] at server
    obtain ⟨moved, _, put⟩ := server.2.2.copied
    have whole : [] ++ writeResponse .succeeded <+: s.tunnelDown.written := by
      rw [put]
      exact List.prefix_append _ _
    exact absurd blocked
      (reading_enabled reading (response_after .succeeded) (inv_tunnel_down inv) whole)
  | replying todo status =>
    cases todo with
    | nil =>
      simp only [phase] at blocked
      split at blocked <;> contradiction
    | cons b todo =>
      simp only [phase, Option.map_eq_none_iff] at blocked
      exact absurd blocked (write_part_enabled _ (by simp))
  | relay up down => exact ⟨up, down, rfl⟩
  | refusing todo =>
    rw [phase] at client
    exact client.elim
  | closed =>
    rw [phase] at client
    exact client.elim

theorem stuck_delivered (inv : Inv x s)
    (stuck : ∀ e, SocksTunnel.step x.world x.config s e = none) :
    s.server.decoded = some x.request ∧ s.toTarget.ended = true ∧ s.toApp.ended = true := by
  have client := inv.client
  have server := inv.server
  obtain ⟨clientUp, clientDown, relaying⟩ := client_stuck inv stuck
  rw [relaying] at client
  have sent : requestFrame x.request <+: s.tunnelUp.written := by
    obtain ⟨moved, _, put⟩ := client.1.copied
    rw [put]
    exact List.prefix_append _ _
  obtain ⟨serverUp, serverDown, serving⟩ := server_stuck inv stuck sent
  rw [serving] at server
  have up : s.tunnelUp.ended = true := by
    rw [client.1.ends]
    refine pump_stuck s.tunnelUp (app_stuck stuck) fun e => ?_
    simpa [SocksTunnel.step, relaying] using stuck (.clientUp e)
  have toTarget : s.toTarget.ended = true := by
    rw [server.2.1.ends]
    refine pump_stuck s.toTarget up fun e => ?_
    simpa [SocksTunnel.step, serving] using stuck (.serverUp e)
  have down : s.tunnelDown.ended = true := by
    rw [server.2.2.ends]
    refine pump_stuck s.tunnelDown (target_stuck stuck) fun e => ?_
    simpa [SocksTunnel.step, serving] using stuck (.serverDown e)
  have toApp : s.toApp.ended = true := by
    rw [client.2.ends]
    refine pump_stuck s.toApp down fun e => ?_
    simpa [SocksTunnel.step, relaying] using stuck (.clientDown e)
  exact ⟨by rw [serving]; rfl, toTarget, toApp⟩

end Stuck

/-- A session is transparent at every moment of every run, no run goes on for
    ever, and a run that has come to a rest has delivered everything. -/
theorem socks_tunnel_transparent {events : List SocksTunnel.Event} {s : State}
    (run : x.tunnel.replay events = some s) :
    (writeRequest x.request).2 = .ok () ∧
      (∀ request, s.server.decoded = some request → request = x.request) ∧
      s.toTarget.written <+: x.payload ∧
      s.toApp.written <+: [0x05, 0x00] ++ writeReply .succeeded ++ x.reply ∧
      (s.toTarget.ended = true → s.toTarget.written = x.payload) ∧
      (s.toApp.ended = true →
        s.toApp.written = [0x05, 0x00] ++ writeReply .succeeded ++ x.reply) ∧
      events.length ≤ 5 * x.appStream.length + 5 * x.reply.length + 932 ∧
      ((∀ e, x.tunnel.step s e = none) →
        s.server.decoded = some x.request ∧
        s.toTarget.written = x.payload ∧ s.toTarget.ended = true ∧
        s.toApp.written = [0x05, 0x00] ++ writeReply .succeeded ++ x.reply ∧
        s.toApp.ended = true) := by
  have inv := inv_run ⟨events, run⟩
  have toTarget := inv_to_target inv
  have toApp := inv_to_app inv
  refine ⟨by rw [write_request_encodable (request_encodable x)], fun _ => inv_decoded inv,
    toTarget.begins, toApp.begins, toTarget.complete, toApp.complete, tunnel_run_bounded run, ?_⟩
  intro stuck
  obtain ⟨decoded, targetEnded, appEnded⟩ := stuck_delivered inv stuck
  exact ⟨decoded, toTarget.complete targetEnded, targetEnded, toApp.complete appEnded, appEnded⟩

def exampleSession : Session where
  world := ⟨fun _ _ => .elapsed, fun _ => .finished (.ok ()), fun _ => true, true⟩
  config := ⟨false⟩
  methods := [0x02, 0x00]
  countable := by decide
  offered := by decide
  connectFrame := [0x05, 0x01, 0x00, 0x01, 8, 8, 8, 8, 0, 80]
  request := ⟨.ip (.v4 ⟨⟨[8, 8, 8, 8], rfl⟩⟩), 80⟩
  accepted := by rfl
  payload := [1, 2, 3]
  reply := [4, 5]
  target := ⟨.v4 ⟨⟨[8, 8, 8, 8], rfl⟩⟩, 80⟩
  allowed := by rfl
  reached := by rfl

def exampleRun : List SocksTunnel.Event :=
  [SocksTunnel.Event.targetSend 2, .targetEnd, .appSend 10, .appSend 7, .appEnd] ++
  List.replicate 5 (SocksTunnel.Event.client 1) ++ [SocksTunnel.Event.client 2, .client 1] ++
  List.replicate 11 (SocksTunnel.Event.client 1) ++ [SocksTunnel.Event.client 13, .client 1] ++
  List.replicate 16 (SocksTunnel.Event.server 1) ++ [SocksTunnel.Event.server 8, .server 1] ++
  List.replicate 9 (SocksTunnel.Event.client 1) ++ [SocksTunnel.Event.client 10, .client 1] ++
  [SocksTunnel.Event.clientUp (.read 3), .clientUp (.write 2), .clientUp (.write 1),
    .clientUp .close] ++
  [SocksTunnel.Event.serverUp (.read 3), .serverUp (.write 3), .serverUp .close] ++
  [SocksTunnel.Event.serverDown (.read 2), .serverDown (.write 2), .serverDown .close] ++
  [SocksTunnel.Event.clientDown (.read 2), .clientDown (.write 2), .clientDown .close]

theorem socks_tunnel_transparent_example :
    ∃ s, exampleSession.tunnel.replay exampleRun = some s ∧ s.toTarget.written = [1, 2, 3] ∧
      s.toApp.written = [5, 0] ++ writeReply .succeeded ++ [4, 5] := by
  have whole : (exampleSession.tunnel.replay exampleRun).map
      (fun s => (s.toTarget.ended, s.toApp.ended)) = some (true, true) := by decide
  rw [Option.map_eq_some_iff] at whole
  obtain ⟨s, run, ended⟩ := whole
  rw [Prod.mk.injEq] at ended
  have transparent := socks_tunnel_transparent run
  exact ⟨s, run, transparent.2.2.2.2.1 ended.1, transparent.2.2.2.2.2.1 ended.2⟩

end SocksTransparency
