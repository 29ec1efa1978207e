import TunnelAI.SocksClient
import TunnelAI.SocksConversation
import TunnelAI.SocksTransparency

/-!
The whole SOCKS proxy as a function. Four processes and six streams come, in
whatever order they move and however reads and writes cut the bytes, to what the
parsers and the policy make of the application's bytes and the target's: what is
delivered is a beginning of that at every moment, and all of it once nobody moves.
-/
namespace SocksProxy
open StreamReader Channels TransitionRuns TracedEffects StdNet Socks5 TunnelCodec ExitPolicy
open SocksTunnel SocksConversation
open SocksClient (decision decision_succeeded)

def told (world : World) (config : ServerConfig) (application : Bytes) : Bytes :=
  match outcome application with
  | .silent => []
  | .unselected => [0x05, 0xff]
  | .refused code => [0x05, 0x00] ++ writeReply code
  | .requested request _ => [0x05, 0x00] ++ writeReply (decision world config request)

structure Delivered where
  toApplication : Bytes
  toTarget : Bytes

/-- What the proxy is for. -/
def proxied (world : World) (config : ServerConfig) (application reply : Bytes) : Delivered :=
  match outcome application with
  | .requested request payload =>
    if decision world config request = .succeeded then
      ⟨told world config application ++ reply, payload⟩
    else ⟨told world config application, []⟩
  | _ => ⟨told world config application, []⟩

/-- Nothing is relayed for this application. -/
def Declined (world : World) (config : ServerConfig) (application : Bytes) : Prop :=
  ∀ request payload, outcome application = .requested request payload →
    decision world config request ≠ .succeeded

variable {world : World} {config : ServerConfig} {application reply : Bytes}

theorem proxied_declined (declined : Declined world config application) :
    proxied world config application reply = ⟨told world config application, []⟩ := by
  unfold proxied
  split
  · rename_i request payload requested
    rw [if_neg (declined request payload requested)]
  · rfl

theorem declined_or_served (world : World) (config : ServerConfig) (application : Bytes) :
    Declined world config application ∨ ∃ request payload,
      outcome application = .requested request payload ∧
        decision world config request = .succeeded := by
  by_cases served : ∃ request payload, outcome application = .requested request payload ∧
      decision world config request = .succeeded
  · exact Or.inr served
  · refine Or.inl ?_
    intro request payload requested succeeded
    exact served ⟨request, payload, requested, succeeded⟩

def upward (application : Bytes) : Bytes :=
  match outcome application with
  | .requested request _ => requestFrame request
  | _ => []

def downward (world : World) (config : ServerConfig) (application : Bytes) : Bytes :=
  match outcome application with
  | .requested request _ => writeResponse (decision world config request)
  | _ => []

section Requested
variable {request : ConnectRequest} {payload : Bytes}
  (requested : outcome application = .requested request payload)
include requested

theorem told_requested : told world config application =
    [0x05, 0x00] ++ writeReply (decision world config request) := by
  rw [told, requested]

theorem upward_requested : upward application = requestFrame request := by
  rw [upward, requested]

theorem downward_requested : downward world config application =
    writeResponse (decision world config request) := by
  rw [downward, requested]

theorem requested_encodable : request.target.Encodable := by
  obtain ⟨_, _, _, _, spells, _⟩ := (outcome_requested_iff _ _ _).mp requested
  exact (ConnectGrammar.spells_iff.mp spells).1

end Requested

section Declining
variable (world : World) (config : ServerConfig) (application : Bytes)

def ClientInv (fromApp tunnelUp tunnelDown toApp : Channel) : ClientPhase → Prop
  | .handshake r =>
    Reading negotiateNoAuth r [] fromApp ∧ Writing tunnelUp [] [] ∧ tunnelDown.consumed = [] ∧
      Writing toApp [] []
  | .selecting todo result =>
    ∃ methods rest, methods.length ≤ 255 ∧ application = greetingBytes methods ++ rest ∧
      result = (selection methods).2 ∧ fromApp.consumed = greetingBytes methods ∧
      Writing tunnelUp [] [] ∧ tunnelDown.consumed = [] ∧
      Writing toApp todo (selection methods).1.1
  | .request r =>
    ∃ methods rest, methods.length ≤ 255 ∧ application = greetingBytes methods ++ rest ∧
      0x00 ∈ methods ∧ Reading readConnectRequest r (greetingBytes methods) fromApp ∧
      Writing tunnelUp [] [] ∧ tunnelDown.consumed = [] ∧ Writing toApp [] [0x05, 0x00]
  | .sending todo result =>
    ∃ request payload, outcome application = .requested request payload ∧ result = .ok () ∧
      Writing tunnelUp todo (requestFrame request) ∧ tunnelDown.consumed = [] ∧
      Writing toApp [] [0x05, 0x00]
  | .awaiting r =>
    ∃ request payload, outcome application = .requested request payload ∧
      Writing tunnelUp [] (requestFrame request) ∧ Reading readResponse r [] tunnelDown ∧
      Writing toApp [] [0x05, 0x00]
  | .replying todo status =>
    ∃ request payload, outcome application = .requested request payload ∧
      status = decision world config request ∧ Writing tunnelUp [] (requestFrame request) ∧
      Writing toApp todo (told world config application)
  | .refusing todo =>
    Writing tunnelUp [] [] ∧ Writing toApp todo (told world config application)
  | .relay _ _ => False
  | .closed =>
    tunnelUp.Carries (upward application) ∧ toApp.written = told world config application

def ServerInv (tunnelUp tunnelDown : Channel) : ServerPhase → Prop
  | .reading r => Reading readRequest r [] tunnelUp ∧ Writing tunnelDown [] []
  | .resolving request =>
    (∃ payload, outcome application = .requested request payload) ∧ Writing tunnelDown [] []
  | .connecting request target =>
    (∃ payload, outcome application = .requested request payload) ∧
      verdict world config request = .finished (.ok target) ∧ Writing tunnelDown [] []
  | .answering todo =>
    ∃ request payload, outcome application = .requested request payload ∧
      Writing tunnelDown todo (writeResponse (decision world config request))
  | .closed => tunnelDown.written = downward world config application
  | .responding _ _ => False
  | .relay _ _ _ => False

end Declining

theorem client_frame {fromApp tunnelUp tunnelDown toApp fromApp' tunnelUp' tunnelDown' : Channel}
    {phase : ClientPhase}
    (inv : ClientInv world config application fromApp tunnelUp tunnelDown toApp phase)
    (app : fromApp.Fed fromApp') (up : tunnelUp.Drawn tunnelUp')
    (down : tunnelDown.Fed tunnelDown') :
    ClientInv world config application fromApp' tunnelUp' tunnelDown' toApp phase := by
  cases phase with
  | handshake r =>
    obtain ⟨reading, sent, taken, put⟩ := inv
    exact ⟨reading_same reading app, writing_same sent up, by rw [down.consumed, taken], put⟩
  | selecting todo result =>
    obtain ⟨methods, rest, small, split, chosen, taken, sent, idle, put⟩ := inv
    exact ⟨methods, rest, small, split, chosen, by rw [app.consumed, taken],
      writing_same sent up, by rw [down.consumed, idle], put⟩
  | request r =>
    obtain ⟨methods, rest, small, split, offered, reading, sent, idle, put⟩ := inv
    exact ⟨methods, rest, small, split, offered, reading_same reading app,
      writing_same sent up, by rw [down.consumed, idle], put⟩
  | sending todo result =>
    obtain ⟨request, payload, requested, fine, sent, idle, put⟩ := inv
    exact ⟨request, payload, requested, fine, writing_same sent up,
      by rw [down.consumed, idle], put⟩
  | awaiting r =>
    obtain ⟨request, payload, requested, sent, reading, put⟩ := inv
    exact ⟨request, payload, requested, writing_same sent up, reading_same reading down, put⟩
  | replying todo status =>
    obtain ⟨request, payload, requested, decided, sent, put⟩ := inv
    exact ⟨request, payload, requested, decided, writing_same sent up, put⟩
  | relay upwards downwards => exact inv.elim
  | refusing todo =>
    obtain ⟨sent, put⟩ := inv
    exact ⟨writing_same sent up, put⟩
  | closed =>
    obtain ⟨sent, put⟩ := inv
    exact ⟨⟨by rw [up.written]; exact sent.begins,
      by rw [up.written, up.ended]; exact sent.complete⟩, put⟩

theorem server_frame {tunnelUp tunnelDown tunnelUp' tunnelDown' : Channel} {phase : ServerPhase}
    (inv : ServerInv world config application tunnelUp tunnelDown phase)
    (up : tunnelUp.Fed tunnelUp') (down : tunnelDown.Drawn tunnelDown') :
    ServerInv world config application tunnelUp' tunnelDown' phase := by
  cases phase with
  | reading r => exact ⟨reading_same inv.1 up, writing_same inv.2 down⟩
  | resolving request => exact ⟨inv.1, writing_same inv.2 down⟩
  | connecting request target => exact ⟨inv.1, inv.2.1, writing_same inv.2.2 down⟩
  | answering todo =>
    obtain ⟨request, payload, requested, sent⟩ := inv
    exact ⟨request, payload, requested, writing_same sent down⟩
  | closed => exact down.written.trans inv
  | responding request todo => exact inv.elim
  | relay request upwards downwards => exact inv.elim

theorem client_carries_up {fromApp tunnelUp tunnelDown toApp : Channel} {phase : ClientPhase}
    (inv : ClientInv world config application fromApp tunnelUp tunnelDown toApp phase) :
    tunnelUp.Carries (upward application) := by
  cases phase with
  | handshake r => exact writing_carries inv.2.1 List.nil_prefix
  | selecting todo result =>
    obtain ⟨_, _, _, _, _, _, sent, _⟩ := inv
    exact writing_carries sent List.nil_prefix
  | request r =>
    obtain ⟨_, _, _, _, _, _, sent, _⟩ := inv
    exact writing_carries sent List.nil_prefix
  | sending todo result =>
    obtain ⟨request, payload, requested, _, sent, _⟩ := inv
    rw [upward_requested requested]
    exact writing_carries sent List.prefix_rfl
  | awaiting r =>
    obtain ⟨request, payload, requested, sent, _⟩ := inv
    rw [upward_requested requested]
    exact writing_carries sent List.prefix_rfl
  | replying todo status =>
    obtain ⟨request, payload, requested, _, sent, _⟩ := inv
    rw [upward_requested requested]
    exact writing_carries sent List.prefix_rfl
  | relay upwards downwards => exact inv.elim
  | refusing todo => exact writing_carries inv.1 List.nil_prefix
  | closed => exact inv.1

theorem server_carries_down {tunnelUp tunnelDown : Channel} {phase : ServerPhase}
    (inv : ServerInv world config application tunnelUp tunnelDown phase) :
    tunnelDown.Carries (downward world config application) := by
  cases phase with
  | reading r => exact writing_carries inv.2 List.nil_prefix
  | resolving request => exact writing_carries inv.2 List.nil_prefix
  | connecting request target => exact writing_carries inv.2.2 List.nil_prefix
  | answering todo =>
    obtain ⟨request, payload, requested, sent⟩ := inv
    rw [downward_requested requested]
    exact writing_carries sent List.prefix_rfl
  | closed => exact carries_whole inv
  | responding request todo => exact inv.elim
  | relay request upwards downwards => exact inv.elim

/-- What a step of the client keeps and what it leaves to the others. -/
structure ClientMoves (world : World) (config : ServerConfig) (application : Bytes)
    (s t : State) : Prop where
  inv : ClientInv world config application t.fromApp t.tunnelUp t.tunnelDown t.toApp t.client
  fromApp : s.fromApp.Drawn t.fromApp := by simp
  tunnelUp : s.tunnelUp.Fed t.tunnelUp := by simp
  tunnelDown : s.tunnelDown.Drawn t.tunnelDown := by simp
  rest : ∃ phase a u d o, t =
    { s with client := phase, fromApp := a, tunnelUp := u, tunnelDown := d, toApp := o }

theorem handshake_moves {r : Reader SocksError (Octets 2 × Except SocksError Unit)} {n : Nat}
    {s t : State} (phase : s.client = .handshake r) (h : clientStep n s = some t)
    (inv : ClientInv world config application s.fromApp s.tunnelUp s.tunnelDown s.toApp s.client)
    (app : s.fromApp.Carries application) : ClientMoves world config application s t := by
  simp only [clientStep, phase, Option.map_eq_some_iff] at h
  rw [phase] at inv
  obtain ⟨reading, sent, taken, put⟩ := inv
  obtain ⟨next, moved, rfl⟩ := h
  cases next with
  | more r c =>
    obtain ⟨reading, drawn⟩ := reading_more reading moved
    exact { inv := ⟨reading, sent, taken, put⟩, fromApp := drawn, rest := ⟨_, _, _, _, _, rfl⟩ }
  | returned found =>
    obtain ⟨rest, agreed, split⟩ := reading_returned reading app moved
    obtain ⟨methods, small, greeting, rfl⟩ := negotiate_iff.mp agreed
    rw [List.nil_append, greeting, List.append_cancel_right_eq] at split
    exact { inv := ⟨methods, rest, small, greeting, rfl, split, sent, taken, writing_next put _⟩,
            rest := ⟨_, _, _, _, _, rfl⟩ }
  | failed e =>
    have broken := reading_failed reading app moved
    have silent : outcome application = .silent := by rw [outcome, broken]
    have nothing : s.toApp.written = told world config application := by
      have written := put.split
      rw [List.append_nil] at written
      rw [written, told, silent]
    exact { inv := ⟨writing_carries sent List.nil_prefix, nothing⟩,
            rest := ⟨_, _, _, _, _, rfl⟩ }

theorem selecting_moves {todo : Bytes} {result : Except SocksError Unit} {n : Nat} {s t : State}
    (phase : s.client = .selecting todo result) (h : clientStep n s = some t)
    (inv : ClientInv world config application s.fromApp s.tunnelUp s.tunnelDown s.toApp s.client) :
    ClientMoves world config application s t := by
  rw [phase] at inv
  obtain ⟨methods, rest, small, greeting, chosen, consumed, sent, taken, put⟩ := inv
  cases todo with
  | cons b todo =>
    simp only [clientStep, phase, Option.map_eq_some_iff] at h
    obtain ⟨⟨left, c⟩, part, rfl⟩ := h
    obtain ⟨put, _⟩ := writing_part put part
    exact { inv := ⟨methods, rest, small, greeting, chosen, consumed, sent, taken, put⟩,
            rest := ⟨_, _, _, _, _, rfl⟩ }
  | nil =>
    by_cases offered : 0x00 ∈ methods
    · rw [selection_offered offered] at chosen put
      subst chosen
      simp only [clientStep, phase, Option.some.injEq] at h
      subst h
      exact { inv := ⟨methods, rest, small, greeting, offered, reading_start _ consumed, sent,
                taken, put⟩,
              rest := ⟨_, _, _, _, _, rfl⟩ }
    · rw [selection_missing offered] at chosen put
      subst chosen
      simp only [clientStep, phase, Option.some.injEq] at h
      subst h
      have unselected : outcome application = .unselected :=
        (outcome_unselected_iff _).mpr ⟨methods, rest, small, greeting, offered⟩
      have written := put.split
      rw [List.append_nil] at written
      exact { inv := ⟨writing_carries sent List.nil_prefix, by rw [written, told, unselected]⟩,
              rest := ⟨_, _, _, _, _, rfl⟩ }

theorem request_moves {r : Reader SocksError ConnectRequest} {n : Nat} {s t : State}
    (phase : s.client = .request r) (h : clientStep n s = some t)
    (inv : ClientInv world config application s.fromApp s.tunnelUp s.tunnelDown s.toApp s.client)
    (app : s.fromApp.Carries application) : ClientMoves world config application s t := by
  simp only [clientStep, phase, Option.map_eq_some_iff] at h
  rw [phase] at inv
  obtain ⟨methods, rest, small, greeting, offered, reading, sent, taken, put⟩ := inv
  obtain ⟨next, moved, rfl⟩ := h
  rw [greeting] at app
  have behind := @outcome_greeting methods rest small
  rw [← greeting, if_pos offered] at behind
  cases next with
  | more r c =>
    obtain ⟨reading, drawn⟩ := reading_more reading moved
    exact { inv := ⟨methods, rest, small, greeting, offered, reading, sent, taken, put⟩,
            fromApp := drawn, rest := ⟨_, _, _, _, _, rfl⟩ }
  | returned request =>
    obtain ⟨payload, read, _⟩ := reading_returned reading app moved
    rw [read] at behind
    have encoded := write_request_encodable (requested_encodable behind)
    have frame : Writing s.tunnelUp (writeRequest request).1 (requestFrame request) := by
      rw [encoded]
      exact writing_next sent _
    exact { inv := ⟨request, payload, behind, by rw [encoded], frame, taken, put⟩,
            rest := ⟨_, _, _, _, _, rfl⟩ }
  | failed e =>
    rw [reading_failed reading app moved] at behind
    have goal : told world config application = [0x05, 0x00] ++ writeReply e.replyCode := by
      rw [told, behind]
    exact { inv := ⟨sent, by rw [goal]; exact writing_next put _⟩,
            rest := ⟨_, _, _, _, _, rfl⟩ }

theorem client_step_moves {n : Nat} {s t : State} (declined : Declined world config application)
    (h : clientStep n s = some t)
    (inv : ClientInv world config application s.fromApp s.tunnelUp s.tunnelDown s.toApp s.client)
    (app : s.fromApp.Carries application)
    (down : s.tunnelDown.Carries (downward world config application)) :
    ClientMoves world config application s t := by
  cases phase : s.client with
  | handshake r => exact handshake_moves phase h inv app
  | selecting todo result => exact selecting_moves phase h inv
  | request r => exact request_moves phase h inv app
  | sending todo result =>
    rw [phase] at inv
    obtain ⟨request, payload, requested, rfl, sent, taken, put⟩ := inv
    cases todo with
    | nil =>
      simp only [clientStep, phase, Option.some.injEq] at h
      subst h
      exact { inv := ⟨request, payload, requested, sent, reading_start _ taken, put⟩,
              rest := ⟨_, _, _, _, _, rfl⟩ }
    | cons b todo =>
      simp only [clientStep, phase, Option.map_eq_some_iff] at h
      obtain ⟨⟨left, c⟩, part, rfl⟩ := h
      obtain ⟨sent, fed⟩ := writing_part sent part
      exact { inv := ⟨request, payload, requested, rfl, sent, taken, put⟩, tunnelUp := fed,
              rest := ⟨_, _, _, _, _, rfl⟩ }
  | awaiting r =>
    simp only [clientStep, phase, Option.map_eq_some_iff] at h
    rw [phase] at inv
    obtain ⟨request, payload, requested, sent, reading, put⟩ := inv
    obtain ⟨next, moved, rfl⟩ := h
    have carried : s.tunnelDown.Carries
        ([] ++ writeResponse (decision world config request) ++ []) := by
      rw [downward_requested requested] at down
      simpa using down
    rcases reading_outcome reading (SocksTransparency.response_after _) carried moved with
      ⟨r, c, rfl⟩ | ⟨rfl, taken⟩
    · obtain ⟨reading, drawn⟩ := reading_more reading moved
      exact { inv := ⟨request, payload, requested, sent, reading, put⟩, tunnelDown := drawn,
              rest := ⟨_, _, _, _, _, rfl⟩ }
    · have replying : Writing s.toApp (writeReply (decision world config request))
          (told world config application) := by
        rw [told_requested requested]
        exact writing_next put _
      exact { inv := ⟨request, payload, requested, rfl, sent, replying⟩,
              rest := ⟨_, _, _, _, _, rfl⟩ }
  | replying todo status =>
    rw [phase] at inv
    obtain ⟨request, payload, requested, rfl, sent, put⟩ := inv
    cases todo with
    | nil =>
      simp only [clientStep, phase, if_neg (declined request payload requested),
        Option.some.injEq] at h
      subst h
      have frame := sent.split
      have written := put.split
      rw [List.append_nil] at frame written
      have carries : s.tunnelUp.finish.Carries (upward application) := by
        rw [upward_requested requested]
        exact carries_whole frame
      exact { inv := ⟨carries, written⟩, tunnelUp := fed_finish sent.opened,
              rest := ⟨_, _, _, _, _, rfl⟩ }
    | cons b todo =>
      simp only [clientStep, phase, Option.map_eq_some_iff] at h
      obtain ⟨⟨left, c⟩, part, rfl⟩ := h
      obtain ⟨put, _⟩ := writing_part put part
      exact { inv := ⟨request, payload, requested, rfl, sent, put⟩,
              rest := ⟨_, _, _, _, _, rfl⟩ }
  | relay up down => simp [clientStep, phase] at h
  | refusing todo =>
    rw [phase] at inv
    obtain ⟨sent, put⟩ := inv
    cases todo with
    | nil =>
      simp only [clientStep, phase, Option.some.injEq] at h
      subst h
      have written := put.split
      rw [List.append_nil] at written
      exact { inv := ⟨writing_carries sent List.nil_prefix, written⟩,
              rest := ⟨_, _, _, _, _, rfl⟩ }
    | cons b todo =>
      simp only [clientStep, phase, Option.map_eq_some_iff] at h
      obtain ⟨⟨left, c⟩, part, rfl⟩ := h
      obtain ⟨put, _⟩ := writing_part put part
      exact { inv := ⟨sent, put⟩, rest := ⟨_, _, _, _, _, rfl⟩ }
  | closed => simp [clientStep, phase] at h

structure ServerMoves (world : World) (config : ServerConfig) (application : Bytes)
    (s t : State) : Prop where
  inv : ServerInv world config application t.tunnelUp t.tunnelDown t.server
  tunnelUp : s.tunnelUp.Drawn t.tunnelUp := by simp
  tunnelDown : s.tunnelDown.Fed t.tunnelDown := by simp
  rest : ∃ phase u d, t = { s with server := phase, tunnelUp := u, tunnelDown := d }

theorem decision_refused {request : ConnectRequest} {code : ReplyCode}
    (refused : verdict world config request = .finished (.error code)) :
    decision world config request = code := by
  rw [decision, refused]

theorem decision_elapsed {request : ConnectRequest}
    (elapsed : verdict world config request = .elapsed) :
    decision world config request = .ttlExpired := by
  rw [decision, elapsed]

theorem decision_attempted {request : ConnectRequest} {target : SocketAddr}
    (allowed : verdict world config request = .finished (.ok target)) :
    decision world config request = connectAnswer (world.connect target) := by
  rw [decision, allowed]

theorem answering_decided {request : ConnectRequest} {code : ReplyCode} {c : Channel}
    (decided : decision world config request = code) (sent : Writing c [] []) :
    Writing c (writeResponse code) (writeResponse (decision world config request)) := by
  rw [decided]
  exact writing_next sent _

theorem upward_read {request : ConnectRequest} {rest : Bytes}
    (read : readRequest.run .io (upward application) = .ok (request, rest)) :
    ∃ payload, outcome application = .requested request payload := by
  unfold upward at read
  split at read
  · rename_i own payload requested
    have frame := read_request_frame (requested_encodable requested) []
    rw [List.append_nil, read, Except.ok.injEq, Prod.mk.injEq] at frame
    exact ⟨payload, by rw [requested, frame.1]⟩
  · contradiction

theorem upward_unread {e : TunnelError}
    (failed : readRequest.run .io (upward application) = .error e) :
    downward world config application = [] := by
  unfold upward at failed
  split at failed
  · rename_i own payload requested
    have frame := read_request_frame (requested_encodable requested) []
    rw [List.append_nil, failed] at frame
    contradiction
  · rename_i other
    unfold downward
    split
    · rename_i request payload requested
      exact absurd requested (other request payload)
    · rfl

theorem server_step_moves {n : Nat} {s t : State} (declined : Declined world config application)
    (h : serverStep world config n s = some t)
    (inv : ServerInv world config application s.tunnelUp s.tunnelDown s.server)
    (up : s.tunnelUp.Carries (upward application)) :
    ServerMoves world config application s t := by
  cases phase : s.server with
  | reading r =>
    simp only [serverStep, phase, Option.map_eq_some_iff] at h
    rw [phase] at inv
    obtain ⟨reading, sent⟩ := inv
    obtain ⟨next, moved, rfl⟩ := h
    cases next with
    | more r c =>
      obtain ⟨reading, drawn⟩ := reading_more reading moved
      exact { inv := ⟨reading, sent⟩, tunnelUp := drawn, rest := ⟨_, _, _, rfl⟩ }
    | returned request =>
      obtain ⟨rest, read, _⟩ := reading_returned reading up moved
      exact { inv := ⟨upward_read read, sent⟩, rest := ⟨_, _, _, rfl⟩ }
    | failed e =>
      have nothing : downward world config application = [] :=
        upward_unread (reading_failed reading up moved)
      have written := sent.split
      rw [List.append_nil] at written
      exact { inv := written.trans nothing.symm, rest := ⟨_, _, _, rfl⟩ }
  | resolving request =>
    rw [phase] at inv
    obtain ⟨⟨payload, requested⟩, sent⟩ := inv
    simp only [serverStep, phase] at h
    split at h
    · rename_i target allowed
      rw [Option.some.injEq] at h
      subst h
      exact { inv := ⟨⟨payload, requested⟩, allowed, sent⟩, rest := ⟨_, _, _, rfl⟩ }
    · rename_i code refused
      rw [Option.some.injEq] at h
      subst h
      exact { inv := ⟨request, payload, requested,
                answering_decided (decision_refused refused) sent⟩,
              rest := ⟨_, _, _, rfl⟩ }
    · rename_i elapsed
      rw [Option.some.injEq] at h
      subst h
      exact { inv := ⟨request, payload, requested,
                answering_decided (decision_elapsed elapsed) sent⟩,
              rest := ⟨_, _, _, rfl⟩ }
  | connecting request target =>
    rw [phase] at inv
    obtain ⟨⟨payload, requested⟩, allowed, sent⟩ := inv
    have failed := declined request payload requested
    rw [decision_attempted allowed] at failed
    simp only [serverStep, phase, if_neg failed, Option.some.injEq] at h
    subst h
    exact { inv := ⟨request, payload, requested,
              answering_decided (decision_attempted allowed) sent⟩,
            rest := ⟨_, _, _, rfl⟩ }
  | answering todo =>
    rw [phase] at inv
    obtain ⟨request, payload, requested, sent⟩ := inv
    cases todo with
    | nil =>
      simp only [serverStep, phase, Option.some.injEq] at h
      subst h
      have written := sent.split
      rw [List.append_nil] at written
      rw [← downward_requested requested] at written
      exact { inv := written,
              tunnelDown := fed_finish sent.opened, rest := ⟨_, _, _, rfl⟩ }
    | cons b todo =>
      simp only [serverStep, phase, Option.map_eq_some_iff] at h
      obtain ⟨⟨left, c⟩, part, rfl⟩ := h
      obtain ⟨sent, fed⟩ := writing_part sent part
      exact { inv := ⟨request, payload, requested, sent⟩, tunnelDown := fed,
              rest := ⟨_, _, _, rfl⟩ }
  | responding request todo =>
    rw [phase] at inv
    exact inv.elim
  | relay request up down => simp [serverStep, phase] at h
  | closed => simp [serverStep, phase] at h

/-- What holds in every state while nothing is relayed. The target is not touched. -/
structure Inv (world : World) (config : ServerConfig) (application : Bytes) (s : State) :
    Prop where
  app : s.fromApp.written ++ s.appUnsent = application
  appEnd : s.fromApp.ended = true → s.appUnsent = []
  client : ClientInv world config application s.fromApp s.tunnelUp s.tunnelDown s.toApp s.client
  server : ServerInv world config application s.tunnelUp s.tunnelDown s.server
  target : s.toTarget = Channel.fresh

theorem inv_start : Inv world config application (start application reply) where
  app := rfl
  appEnd := by simp [start, Channel.fresh]
  client := ⟨reading_start _ rfl, ⟨rfl, rfl⟩, rfl, ⟨rfl, rfl⟩⟩
  server := ⟨reading_start _ rfl, ⟨rfl, rfl⟩⟩
  target := rfl

theorem inv_client_moves {s t : State} (inv : Inv world config application s)
    (moves : ClientMoves world config application s t) : Inv world config application t := by
  obtain ⟨client, fromApp, tunnelUp, tunnelDown, phase, a, u, d, o, rfl⟩ := moves
  exact {
    app := by rw [fromApp.written]; exact inv.app
    appEnd := by rw [fromApp.ended]; exact inv.appEnd
    client := client
    server := server_frame inv.server tunnelUp tunnelDown
    target := inv.target }

theorem inv_server_moves {s t : State} (inv : Inv world config application s)
    (moves : ServerMoves world config application s t) : Inv world config application t := by
  obtain ⟨server, tunnelUp, tunnelDown, phase, u, d, rfl⟩ := moves
  exact {
    app := inv.app
    appEnd := inv.appEnd
    client := client_frame inv.client (fed_refl _) tunnelUp tunnelDown
    server := server
    target := inv.target }

theorem inv_app_moves {s : State} {left : Bytes} {c : Channel}
    (inv : Inv world config application s) (fed : s.fromApp.Fed c)
    (split : c.written ++ left = application) (last : c.ended = true → left = []) :
    Inv world config application { s with appUnsent := left, fromApp := c } where
  app := split
  appEnd := last
  client := client_frame inv.client fed (drawn_refl _) (fed_refl _)
  server := inv.server
  target := inv.target

theorem inv_step {s t : State} {e : SocksTunnel.Event}
    (declined : Declined world config application) (inv : Inv world config application s)
    (h : SocksTunnel.step world config s e = some t) : Inv world config application t := by
  have up := client_carries_up inv.client
  have down := server_carries_down inv.server
  cases e with
  | appSend n =>
    simp only [SocksTunnel.step] at h
    split at h
    · contradiction
    · rename_i opened
      rw [Bool.not_eq_true] at opened
      rw [Option.map_eq_some_iff] at h
      obtain ⟨⟨left, c⟩, part, rfl⟩ := h
      have unsent : Writing s.fromApp s.appUnsent application := ⟨inv.app, opened⟩
      obtain ⟨unsent, fed⟩ := writing_part unsent part
      exact inv_app_moves inv fed unsent.split (by simp [unsent.opened])
  | appEnd =>
    simp only [SocksTunnel.step] at h
    split at h
    · rename_i last
      rw [Option.some.injEq] at h
      subst h
      exact inv_app_moves inv (fed_finish last.2) inv.app fun _ => last.1
    · contradiction
  | targetSend n =>
    simp only [SocksTunnel.step] at h
    split at h
    · contradiction
    · rw [Option.map_eq_some_iff] at h
      obtain ⟨⟨left, c⟩, part, rfl⟩ := h
      exact ⟨inv.app, inv.appEnd, inv.client, inv.server, inv.target⟩
  | targetEnd =>
    simp only [SocksTunnel.step] at h
    split at h
    · rw [Option.some.injEq] at h
      subst h
      exact ⟨inv.app, inv.appEnd, inv.client, inv.server, inv.target⟩
    · contradiction
  | client n =>
    exact inv_client_moves inv
      (client_step_moves declined h inv.client (carries_unsent inv.app inv.appEnd) down)
  | server n => exact inv_server_moves inv (server_step_moves declined h inv.server up)
  | clientUp e =>
    have client := inv.client
    simp only [SocksTunnel.step] at h
    split at h
    · rename_i relaying
      rw [relaying] at client
      exact client.elim
    · contradiction
  | clientDown e =>
    have client := inv.client
    simp only [SocksTunnel.step] at h
    split at h
    · rename_i relaying
      rw [relaying] at client
      exact client.elim
    · contradiction
  | serverUp e =>
    have server := inv.server
    simp only [SocksTunnel.step] at h
    split at h
    · rename_i relaying
      rw [relaying] at server
      exact server.elim
    · contradiction
  | serverDown e =>
    have server := inv.server
    simp only [SocksTunnel.step] at h
    split at h
    · rename_i relaying
      rw [relaying] at server
      exact server.elim
    · contradiction

theorem inv_run {s : State} (declined : Declined world config application)
    (reached : (tunnel world config application reply).Reachable s) :
    Inv world config application s :=
  state_invariant (Inv world config application) inv_start
    (fun _ _ _ inv last => inv_step declined inv last) s reached

theorem inv_decoded {s : State} {request : ConnectRequest}
    (inv : Inv world config application s) (decoded : s.server.decoded = some request) :
    ∃ payload, outcome application = .requested request payload := by
  have server := inv.server
  cases phase : s.server with
  | resolving other =>
    rw [phase] at server decoded
    rw [← Option.some.inj decoded]
    exact server.1
  | connecting other target =>
    rw [phase] at server decoded
    rw [← Option.some.inj decoded]
    exact server.1
  | responding other todo =>
    rw [phase] at server
    exact server.elim
  | relay other up down =>
    rw [phase] at server
    exact server.elim
  | reading r => simp [phase, ServerPhase.decoded] at decoded
  | answering todo => simp [phase, ServerPhase.decoded] at decoded
  | closed => simp [phase, ServerPhase.decoded] at decoded

theorem offered_told {methods rest : Bytes} (small : methods.length ≤ 255)
    (greeting : application = greetingBytes methods ++ rest) (offered : 0x00 ∈ methods) :
    [0x05, 0x00] <+: told world config application := by
  have behind := @outcome_greeting methods rest small
  rw [← greeting, if_pos offered] at behind
  unfold told
  rw [behind]
  split
  · rename_i silent
    split at silent
    · contradiction
    · contradiction
  · rename_i unselected
    split at unselected
    · contradiction
    · contradiction
  · exact List.prefix_append _ _
  · exact List.prefix_append _ _

theorem selection_told {methods rest : Bytes} (small : methods.length ≤ 255)
    (greeting : application = greetingBytes methods ++ rest) :
    (selection methods).1.1 <+: told world config application := by
  by_cases offered : 0x00 ∈ methods
  · rw [selection_offered offered]
    exact offered_told small greeting offered
  · have unselected : outcome application = .unselected :=
      (outcome_unselected_iff _).mpr ⟨methods, rest, small, greeting, offered⟩
    have said : told world config application = [0x05, 0xff] := by rw [told, unselected]
    have chosen : (selection methods).1.1 = [0x05, 0xff] := by rw [selection_missing offered]
    exact ⟨[], by rw [List.append_nil, chosen, said]⟩

theorem inv_told {s : State} (inv : Inv world config application s) :
    s.toApp.written <+: told world config application := by
  have client := inv.client
  cases phase : s.client with
  | handshake r =>
    rw [phase] at client
    exact (writing_carries client.2.2.2 List.nil_prefix).begins
  | selecting todo result =>
    rw [phase] at client
    obtain ⟨_, _, small, greeting, _, _, _, _, put⟩ := client
    exact (writing_carries put (selection_told small greeting)).begins
  | request r =>
    rw [phase] at client
    obtain ⟨_, _, small, greeting, offered, _, _, _, put⟩ := client
    exact (writing_carries put (offered_told small greeting offered)).begins
  | sending todo result =>
    rw [phase] at client
    obtain ⟨_, _, requested, _, _, _, put⟩ := client
    rw [told_requested requested]
    exact (writing_carries put (List.prefix_append _ _)).begins
  | awaiting r =>
    rw [phase] at client
    obtain ⟨_, _, requested, _, _, put⟩ := client
    rw [told_requested requested]
    exact (writing_carries put (List.prefix_append _ _)).begins
  | replying todo status =>
    rw [phase] at client
    obtain ⟨_, _, _, _, _, put⟩ := client
    exact (writing_carries put List.prefix_rfl).begins
  | relay up down =>
    rw [phase] at client
    exact client.elim
  | refusing todo =>
    rw [phase] at client
    exact (writing_carries client.2 List.prefix_rfl).begins
  | closed =>
    rw [phase] at client
    exact (carries_whole client.2).begins

section Stuck
variable {s : State}

theorem application_sent (stuck : ∀ e, SocksTunnel.step world config s e = none) :
    s.fromApp.ended = true := by
  have send := stuck (.appSend 1)
  have last := stuck .appEnd
  simp only [SocksTunnel.step] at send last
  cases ended : s.fromApp.ended with
  | true => rfl
  | false =>
    by_cases empty : s.appUnsent = []
    · simp [empty, ended] at last
    · simp [ended, write_part_enabled s.fromApp empty] at send

theorem server_answered (inv : Inv world config application s)
    (stuck : ∀ e, SocksTunnel.step world config s e = none)
    (sent : s.tunnelUp.written = upward application) {request : ConnectRequest} {payload : Bytes}
    (requested : outcome application = .requested request payload) :
    s.tunnelDown.written = downward world config application := by
  have blocked := stuck (.server 1)
  have server := inv.server
  simp only [SocksTunnel.step, serverStep] at blocked
  cases phase : s.server with
  | reading r =>
    rw [phase] at server
    simp only [phase, Option.map_eq_none_iff] at blocked
    rw [upward_requested requested] at sent
    have frame : readRequest.after (requestFrame request) = some (.done request) := by
      apply after_of_run .io
      have whole := read_request_frame (requested_encodable requested) []
      rwa [List.append_nil] at whole
    exact absurd blocked (reading_whole server.1 frame sent)
  | resolving request =>
    simp only [phase] at blocked
    split at blocked <;> contradiction
  | connecting request target =>
    simp only [phase] at blocked
    split at blocked <;> contradiction
  | answering todo =>
    cases todo with
    | nil => simp [phase] at blocked
    | cons b todo =>
      simp only [phase, Option.map_eq_none_iff] at blocked
      exact absurd blocked (write_part_enabled _ (by simp))
  | closed =>
    rw [phase] at server
    exact server
  | responding request todo =>
    rw [phase] at server
    exact server.elim
  | relay request up down =>
    rw [phase] at server
    exact server.elim

theorem client_closed (inv : Inv world config application s)
    (stuck : ∀ e, SocksTunnel.step world config s e = none) : s.client = .closed := by
  have blocked := stuck (.client 1)
  have client := inv.client
  have ended := application_sent stuck
  simp only [SocksTunnel.step, clientStep] at blocked
  cases phase : s.client with
  | handshake r =>
    simp only [phase, Option.map_eq_none_iff] at blocked
    simp [(progress_blocked blocked).2] at ended
  | selecting todo result =>
    cases todo with
    | nil => cases result <;> simp [phase] at blocked
    | cons b todo =>
      simp only [phase, Option.map_eq_none_iff] at blocked
      exact absurd blocked (write_part_enabled _ (by simp))
  | request r =>
    simp only [phase, Option.map_eq_none_iff] at blocked
    simp [(progress_blocked blocked).2] at ended
  | sending todo result =>
    cases todo with
    | nil => cases result <;> simp [phase] at blocked
    | cons b todo =>
      simp only [phase, Option.map_eq_none_iff] at blocked
      exact absurd blocked (write_part_enabled _ (by simp))
  | awaiting r =>
    rw [phase] at client
    obtain ⟨request, payload, requested, sent, reading, _⟩ := client
    simp only [phase, Option.map_eq_none_iff] at blocked
    have frame := sent.split
    rw [List.append_nil, ← upward_requested requested] at frame
    have answered := server_answered inv stuck frame requested
    rw [downward_requested requested] at answered
    exact absurd blocked (reading_whole reading (SocksTransparency.response_after _) answered)
  | replying todo status =>
    cases todo with
    | nil =>
      simp only [phase] at blocked
      split at blocked <;> contradiction
    | cons b todo =>
      simp only [phase, Option.map_eq_none_iff] at blocked
      exact absurd blocked (write_part_enabled _ (by simp))
  | relay up down =>
    rw [phase] at client
    exact client.elim
  | refusing todo =>
    cases todo with
    | nil => simp [phase] at blocked
    | cons b todo =>
      simp only [phase, Option.map_eq_none_iff] at blocked
      exact absurd blocked (write_part_enabled _ (by simp))
  | closed => rfl

end Stuck

section Serving
variable {request : ConnectRequest} {payload : Bytes}

theorem served_session (requested : outcome application = .requested request payload)
    (succeeded : decision world config request = .succeeded) (reply : Bytes) :
    ∃ x : SocksTransparency.Session, x.tunnel = tunnel world config application reply ∧
      x.request = request ∧ x.payload = payload ∧ x.reply = reply ∧
      x.world = world ∧ x.config = config := by
  obtain ⟨methods, frame, small, offered, spells, rfl⟩ :=
    (outcome_requested_iff _ _ _).mp requested
  obtain ⟨fits, rfl⟩ := ConnectGrammar.spells_iff.mp spells
  obtain ⟨target, allowed, connected⟩ := decision_succeeded succeeded
  have accepted := ConnectGrammar.read_request_bytes fits []
  rw [List.append_nil] at accepted
  exact ⟨{
    world := world
    config := config
    methods := methods
    countable := small
    offered := List.contains_iff_mem.mpr offered
    connectFrame := ConnectGrammar.requestBytes request
    request := request
    accepted := accepted
    payload := payload
    reply := reply
    target := target
    allowed := allowed
    reached := by rw [connected]; rfl }, rfl, rfl, rfl, rfl, rfl, rfl⟩

theorem proxied_served (requested : outcome application = .requested request payload)
    (succeeded : decision world config request = .succeeded) :
    proxied world config application reply =
      ⟨[0x05, 0x00] ++ writeReply .succeeded ++ reply, payload⟩ := by
  rw [proxied, requested, told_requested requested]
  simp only [succeeded, if_true]

end Serving

/-- In every run on any bytes the application and the target have got a beginning of what
    the function gives them, the server has decoded nothing but the application's own
    request, and no run goes on for ever; a run in which nobody can move has delivered
    exactly what the function says, so the order of the steps and the cuts do not show. -/
theorem socks_proxy_refines {events : List SocksTunnel.Event} {s : State}
    (run : (tunnel world config application reply).replay events = some s) :
    s.toApp.written <+: (proxied world config application reply).toApplication ∧
      s.toTarget.written <+: (proxied world config application reply).toTarget ∧
      (∀ request, s.server.decoded = some request →
        ∃ payload, outcome application = .requested request payload) ∧
      events.length ≤ 5 * application.length + 5 * reply.length + 932 ∧
      ((∀ e, SocksTunnel.step world config s e = none) →
        s.toApp.written = (proxied world config application reply).toApplication ∧
        s.toTarget.written = (proxied world config application reply).toTarget) := by
  rcases declined_or_served world config application with
    declined | ⟨request, payload, requested, succeeded⟩
  · have inv := inv_run declined ⟨events, run⟩
    rw [proxied_declined declined, inv.target]
    refine ⟨inv_told inv, List.nil_prefix, fun _ => inv_decoded inv, tunnel_run_bounded run, ?_⟩
    intro stuck
    have client := inv.client
    rw [client_closed inv stuck] at client
    exact ⟨client.2, rfl⟩
  · obtain ⟨x, same, rfl, rfl, rfl, rfl, rfl⟩ := served_session requested succeeded reply
    have inv := SocksTransparency.inv_run ⟨events, same ▸ run⟩
    have toTarget := SocksTransparency.inv_to_target inv
    have toApp := SocksTransparency.inv_to_app inv
    rw [proxied_served requested succeeded]
    refine ⟨toApp.begins, toTarget.begins, ?_, tunnel_run_bounded run, ?_⟩
    · intro request decoded
      rw [SocksTransparency.inv_decoded inv decoded]
      exact ⟨_, requested⟩
    · intro stuck
      obtain ⟨_, targetEnded, appEnded⟩ := SocksTransparency.stuck_delivered inv stuck
      exact ⟨toApp.complete appEnded, toTarget.complete targetEnded⟩

def exampleApplication : Bytes := [5, 1, 0, 5, 1, 0, 1, 10, 0, 0, 1, 0, 80, 7, 7]

def exampleWorld : World :=
  ⟨fun _ _ => .elapsed, fun _ => .finished (.ok ()), fun _ => true, true⟩

def exampleRun : List SocksTunnel.Event :=
  [SocksTunnel.Event.targetEnd, .appSend 15, .appEnd] ++
  List.replicate 4 (SocksTunnel.Event.client 1) ++ [SocksTunnel.Event.client 2, .client 1] ++
  List.replicate 11 (SocksTunnel.Event.client 1) ++ [SocksTunnel.Event.client 13, .client 1] ++
  List.replicate 15 (SocksTunnel.Event.server 1) ++ [SocksTunnel.Event.server 8, .server 1] ++
  List.replicate 9 (SocksTunnel.Event.client 1) ++ [SocksTunnel.Event.client 10, .client 1]

def exampleEnd : State where
  appUnsent := []
  targetUnsent := []
  fromApp := ⟨[5, 1, 0, 5, 1, 0, 1, 10, 0, 0, 1, 0, 80], [7, 7], true⟩
  toApp := ⟨[], [5, 0] ++ writeReply .connectionNotAllowed, false⟩
  tunnelUp := ⟨[73, 82, 80, 88, 1, 1, 1, 0, 80, 10, 0, 0, 1], [], true⟩
  tunnelDown := ⟨writeResponse .connectionNotAllowed, [], true⟩
  fromTarget := ⟨[], [], true⟩
  toTarget := Channel.fresh
  client := .closed
  server := .closed

theorem example_run :
    (tunnel exampleWorld ⟨false⟩ exampleApplication []).replay exampleRun = some exampleEnd := by
  rfl

theorem example_stuck (e : SocksTunnel.Event) :
    SocksTunnel.step exampleWorld ⟨false⟩ exampleEnd e = none := by
  cases e <;> rfl

theorem socks_proxy_refines_example : [5, 0] ++ writeReply .connectionNotAllowed =
    (proxied exampleWorld ⟨false⟩ exampleApplication []).toApplication :=
  ((socks_proxy_refines example_run).2.2.2.2 example_stuck).1

section InTurn
open SocksClient hiding World decision decision_succeeded

def quiet (application response : Bytes) : SocksClient.World where
  application := application
  handshakeInTime := true
  selectionWritten := true
  requestInTime := true
  opened := .finished (.ok ())
  sending := .finished (.ok ())
  sentPart := 0
  response := .finished response
  replyWritten := fun _ => true

def shown : ClientEvent → Bytes
  | .selection bytes => bytes
  | .reply code true => writeReply code
  | _ => []

/-- The two handlers one after the other, each on all that the other has written. -/
def inTurn (world : World) (config : ServerConfig) (application : Bytes) : Client Unit :=
  let sent := sentBytes (handleSocksConnection (quiet application []))
  let answered := SocksClient.answers (serverRun world config sent true).events
  handleSocksConnection (quiet application answered)

theorem quiet_silent (response : Bytes) (silent : outcome application = .silent) :
    (handleSocksConnection (quiet application response)).events = [] := by
  unfold outcome at silent
  split at silent
  · rename_i e failed
    simp [handleSocksConnection, performSocksHandshake, quiet, failed, raise]
  · contradiction
  · split at silent
    · contradiction
    · contradiction

theorem quiet_unselected (response : Bytes) (unselected : outcome application = .unselected) :
    (handleSocksConnection (quiet application response)).events = [.selection [0x05, 0xff]] := by
  obtain ⟨methods, rest, small, rfl, missing⟩ := (outcome_unselected_iff _).mp unselected
  have agreed := negotiate_iff.mpr ⟨methods, small, @rfl _ (greetingBytes methods ++ rest), rfl⟩
  rw [selection_missing missing] at agreed
  simp [handleSocksConnection, performSocksHandshake, quiet, agreed, raise, emit]

theorem quiet_refused {code : ReplyCode} (response : Bytes)
    (refused : outcome application = .refused code) :
    (handleSocksConnection (quiet application response)).events =
      [.selection [0x05, 0x00], .reply code true] := by
  obtain ⟨methods, rest, small, offered, rfl, e, failed, rfl⟩ :=
    (outcome_refused_iff _ _).mp refused
  have agreed := negotiate_iff.mpr ⟨methods, small, @rfl _ (greetingBytes methods ++ rest), rfl⟩
  rw [selection_offered offered] at agreed
  simp [handleSocksConnection, performSocksHandshake, readSocksConnectRequest, tryReply, quiet,
    agreed, failed, raise, emit]

section Asked
variable {request : ConnectRequest} {payload : Bytes}

theorem requested_runs (requested : outcome application = .requested request payload) :
    ∃ behind, negotiateNoAuth.run .io application =
        .ok ((⟨[0x05, 0x00], rfl⟩, .ok ()), behind) ∧
      readConnectRequest.run .io behind = .ok (request, payload) ∧
      writeRequest request = (requestFrame request, .ok ()) := by
  have fits := requested_encodable requested
  obtain ⟨methods, frame, small, offered, spells, rfl⟩ :=
    (outcome_requested_iff _ _ _).mp requested
  obtain ⟨_, rfl⟩ := ConnectGrammar.spells_iff.mp spells
  refine ⟨ConnectGrammar.requestBytes request ++ payload, ?_,
    ConnectGrammar.read_request_bytes fits payload, write_request_encodable fits⟩
  rw [← selection_offered offered]
  exact negotiate_iff.mpr ⟨methods, small, List.append_assoc _ _ _, rfl⟩

theorem quiet_unanswered (requested : outcome application = .requested request payload) :
    sentBytes (handleSocksConnection (quiet application [])) = requestFrame request := by
  obtain ⟨behind, agreed, read, encoded⟩ := requested_runs requested
  have none : readResponse.run .io [] = .error .io := rfl
  simp [handleSocksConnection, performSocksHandshake, readSocksConnectRequest, openTunnelStream,
    sendTunnelRequest, readTunnelStatus, tryReply, quiet, agreed, read, encoded, none, raise, emit,
    sentBytes, observe]

theorem quiet_answered (requested : outcome application = .requested request payload)
    {response rest : Bytes} {status : ReplyCode}
    (answered : readResponse.run .io response = .ok (status, rest)) :
    (handleSocksConnection (quiet application response)).events =
      [.selection [0x05, 0x00], .tunnel (requestFrame request), .reply status true,
        if status = .succeeded then .relay else .finish] := by
  obtain ⟨behind, agreed, read, encoded⟩ := requested_runs requested
  by_cases succeeded : status = .succeeded
  · simp [handleSocksConnection, performSocksHandshake, readSocksConnectRequest, openTunnelStream,
      sendTunnelRequest, readTunnelStatus, reportStatus, tryReply, quiet, agreed, read, encoded,
      answered, succeeded, emit]
  · simp [handleSocksConnection, performSocksHandshake, readSocksConnectRequest, openTunnelStream,
      sendTunnelRequest, readTunnelStatus, reportStatus, tryReply, quiet, agreed, read, encoded,
      answered, succeeded, emit]

theorem in_turn_answers (requested : outcome application = .requested request payload) :
    (inTurn world config application).events =
      [.selection [0x05, 0x00], .tunnel (requestFrame request),
        .reply (decision world config request) true,
        if decision world config request = .succeeded then .relay else .finish] := by
  have frame := read_request_frame (requested_encodable requested) []
  rw [List.append_nil] at frame
  have answered := read_response_frame (decision world config request) []
  rw [List.append_nil, ← SocksClient.stream_answers] at answered
  have served : serverRun world config (requestFrame request) true =
      handleTunnelStream world config (.finished (.ok request)) := by
    rw [serverRun, frame]
    rfl
  unfold inTurn
  simp only [quiet_unanswered requested, served]
  exact quiet_answered requested answered

end Asked

/-- The two handlers, written down as programs that run one after the other, say to the
    application what the function says; what they relay comes behind a success alone. -/
theorem handlers_in_turn (world : World) (config : ServerConfig) (application reply : Bytes) :
    observe shown (inTurn world config application) ++
        (if relays (inTurn world config application) = [] then [] else reply) =
      (proxied world config application reply).toApplication := by
  cases made : outcome application with
  | silent =>
    have events : (inTurn world config application).events = [] := quiet_silent _ made
    simp [observe, relays, events, proxied, told, made]
  | unselected =>
    have events : (inTurn world config application).events = [.selection [0x05, 0xff]] :=
      quiet_unselected _ made
    simp [observe, relays, events, proxied, told, made, shown]
  | refused code =>
    have events : (inTurn world config application).events =
        [.selection [0x05, 0x00], .reply code true] := quiet_refused _ made
    simp [observe, relays, events, proxied, told, made, shown]
  | requested request payload =>
    have events := @in_turn_answers world config application request payload made
    by_cases succeeded : decision world config request = .succeeded
    · simp [observe, relays, events, proxied, told, made, shown, succeeded]
    · simp [observe, relays, events, proxied, told, made, shown, succeeded]

end InTurn

end SocksProxy
