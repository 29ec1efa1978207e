import TunnelAI.Library.FailingCopies
import TunnelAI.Library.Runs
import TunnelAI.Library.TaskPools

/-!
A relay between two streams: two copies at work at the same time, and the
`try_join!` over them, which returns when both have ended or as soon as one has
failed. The other ends write and close their streams as they like, and they make room
for what the relay writes. What becomes of the halves of the streams when the call has
returned is not the relay's.
-/
namespace Relay
open StreamReader Channels TransitionRuns FailingCopies
open TaskPools (total total_nil total_snoc)

inductive Direction where
  | leftToRight
  | rightToLeft
  deriving DecidableEq

/-- The four halves that a relay is given; neither output has been shut down. -/
structure Halves where
  leftRead : Channel
  leftWrite : Channel
  rightRead : Channel
  rightWrite : Channel
  leftOpen : leftWrite.ended = false
  rightOpen : rightWrite.ended = false

def Halves.input (h : Halves) : Direction → Channel
  | .leftToRight => h.leftRead
  | .rightToLeft => h.rightRead

def Halves.output (h : Halves) : Direction → Channel
  | .leftToRight => h.rightWrite
  | .rightToLeft => h.leftWrite

structure State where
  leftToRight : Lane
  rightToLeft : Lane
  result : Option (Except (Direction × Fault) (Nat × Nat))
  deriving DecidableEq

def State.lane (s : State) : Direction → Lane
  | .leftToRight => s.leftToRight
  | .rightToLeft => s.rightToLeft

def State.setLane (s : State) (l : Lane) : Direction → State
  | .leftToRight => { s with leftToRight := l }
  | .rightToLeft => { s with rightToLeft := l }

def State.join (s : State) : State :=
  if s.leftToRight.copy.phase = .done ∧ s.rightToLeft.copy.phase = .done then
    { s with result := some (.ok (s.leftToRight.copy.amount, s.rightToLeft.copy.amount)) }
  else s

inductive Event where
  | arrive : Direction → Bytes → Event
  | close : Direction → Event
  | makeRoom : Direction → Nat → Event
  | copy : Direction → CopyEvent → Event
  deriving DecidableEq

def bufferSize : Nat := 8 * 1024

def step (s : State) : Event → Option State
  | .arrive d bytes =>
    if (s.lane d).input.ended then none
    else some (s.setLane { s.lane d with input := (s.lane d).input.put bytes } d)
  | .close d =>
    if (s.lane d).input.ended then none
    else some (s.setLane { s.lane d with input := (s.lane d).input.finish } d)
  | .makeRoom d n => some (s.setLane { s.lane d with room := (s.lane d).room + n } d)
  | .copy d e =>
    if s.result = none then
      (laneStep bufferSize e (s.lane d)).map fun
        | .ok l => (s.setLane l d).join
        | .error fault => { s with result := some (.error (d, fault)) }
    else none

def Halves.start (h : Halves) : State :=
  ⟨Lane.start h.leftRead h.rightWrite, Lane.start h.rightRead h.leftWrite, none⟩

def pumpBidirectional (h : Halves) : System State Event := ⟨h.start, step⟩

def relaySocksTunnel (localRead localWrite recv send : Channel)
    (localOpen : localWrite.ended = false) (sendOpen : send.ended = false) :
    System State Event :=
  pumpBidirectional ⟨localRead, localWrite, recv, send, localOpen, sendOpen⟩

def relayTunnelToTcp (recv send tcpRead tcpWrite : Channel) (sendOpen : send.ended = false)
    (tcpOpen : tcpWrite.ended = false) : System State Event :=
  pumpBidirectional ⟨recv, send, tcpRead, tcpWrite, sendOpen, tcpOpen⟩

@[simp] theorem set_lane_same (s : State) (l : Lane) (d : Direction) :
    (s.setLane l d).lane d = l := by
  cases d <;> rfl

theorem set_lane_cases (s : State) (l : Lane) (d d' : Direction) :
    (s.setLane l d).lane d' = if d' = d then l else s.lane d' := by
  cases d <;> cases d' <;> rfl

@[simp] theorem set_lane_result (s : State) (l : Lane) (d : Direction) :
    (s.setLane l d).result = s.result := by
  cases d <;> rfl

@[simp] theorem join_lane (s : State) (d : Direction) : s.join.lane d = s.lane d := by
  unfold State.join
  split
  · cases d <;> rfl
  · rfl

def State.Ended (s : State) : Prop := ∀ d, (s.lane d).copy.phase = .done

def State.amounts (s : State) : Nat × Nat :=
  ((s.lane .leftToRight).copy.amount, (s.lane .rightToLeft).copy.amount)

theorem join_result (s : State) :
    s.Ended ∧ s.join.result = some (.ok s.amounts) ∨ ¬ s.Ended ∧ s.join.result = s.result := by
  unfold State.join
  split
  · rename_i both
    left
    refine ⟨?_, rfl⟩
    intro d
    cases d
    · exact both.1
    · exact both.2
  · rename_i one
    right
    refine ⟨?_, rfl⟩
    intro ended
    exact one ⟨ended .leftToRight, ended .rightToLeft⟩

theorem copy_step_cases {s t : State} {d : Direction} {e : CopyEvent}
    (h : step s (.copy d e) = some t) :
    s.result = none ∧
      ((∃ l, laneStep bufferSize e (s.lane d) = some (.ok l) ∧ t = (s.setLane l d).join) ∨
        ∃ fault, laneStep bufferSize e (s.lane d) = some (.error fault) ∧
          t = { s with result := some (.error (d, fault)) }) := by
  rw [step, Option.ite_none_right_eq_some] at h
  obtain ⟨running, h⟩ := h
  rw [Option.map_eq_some_iff] at h
  obtain ⟨outcome, moved, rfl⟩ := h
  refine ⟨running, ?_⟩
  cases outcome with
  | ok l => exact Or.inl ⟨l, moved, rfl⟩
  | error fault => exact Or.inr ⟨fault, moved, rfl⟩

theorem environment_step_cases {s t : State} {e : Event} (h : step s e = some t)
    (other : ∀ d c, e ≠ .copy d c) :
    ∃ d input room, (s.lane d).input.Fed input ∧
      t = s.setLane ⟨(s.lane d).copy, input, (s.lane d).output, room⟩ d := by
  cases e with
  | arrive d bytes =>
    rw [step, Option.ite_none_left_eq_some] at h
    obtain ⟨opened, h⟩ := h
    exact ⟨d, _, _, fed_put (by simpa using opened) bytes, (Option.some.inj h).symm⟩
  | close d =>
    rw [step, Option.ite_none_left_eq_some] at h
    obtain ⟨opened, h⟩ := h
    exact ⟨d, _, _, fed_finish (by simpa using opened), (Option.some.inj h).symm⟩
  | makeRoom d n => exact ⟨d, _, _, fed_refl _, (Option.some.inj h).symm⟩
  | copy d c => exact absurd rfl (other d c)

/-- Each lane has pumped since the start, and the call has returned amounts when, and
    only when, both copies have ended. -/
structure Relaying (h : Halves) (s : State) : Prop where
  copying : ∀ d, Copying (h.input d).consumed (h.output d).written (s.lane d)
  joined : s.Ended → s.result = some (.ok s.amounts)
  returned : ∀ amounts, s.result = some (.ok amounts) → s.Ended

theorem relaying_start (h : Halves) : Relaying h h.start where
  copying := by
    intro d
    cases d
    · exact copying_start h.rightOpen
    · exact copying_start h.leftOpen
  joined := by
    intro ended
    exact absurd (ended .leftToRight) (by simp [Halves.start, State.lane, Lane.start, Copy.fresh])
  returned := by simp [Halves.start]

theorem relaying_step {h : Halves} {s t : State} {e : Event} (relaying : Relaying h s)
    (moved : step s e = some t) : Relaying h t := by
  by_cases own : ∃ d c, e = .copy d c
  · obtain ⟨d, c, rfl⟩ := own
    obtain ⟨running, ⟨l, stepped, rfl⟩ | ⟨fault, _, rfl⟩⟩ := copy_step_cases moved
    · refine ⟨?_, ?_, ?_⟩
      · intro d'
        rw [join_lane, set_lane_cases]
        split
        · rename_i same
          subst same
          exact copying_step (relaying.copying d') stepped
        · exact relaying.copying d'
      · intro ended
        have before : (s.setLane l d).Ended := fun d' => join_lane (s.setLane l d) d' ▸ ended d'
        rcases join_result (s.setLane l d) with ⟨_, result⟩ | ⟨one, _⟩
        · rw [result, State.amounts, State.amounts, join_lane, join_lane]
        · exact absurd before one
      · intro amounts returned d'
        rw [join_lane]
        rcases join_result (s.setLane l d) with ⟨ended, _⟩ | ⟨_, result⟩
        · exact ended d'
        · rw [result, set_lane_result, running] at returned
          contradiction
    · refine ⟨fun d' => ?_, fun ended => ?_, fun amounts returned => ?_⟩
      · have copying := relaying.copying d'
        cases d' <;> exact copying
      · have returned := relaying.joined fun d' => by
          have done := ended d'
          cases d' <;> exact done
        rw [running] at returned
        contradiction
      · simp at returned
  · obtain ⟨d, input, room, fed, rfl⟩ :=
      environment_step_cases moved fun d c same => own ⟨d, c, same⟩
    have copies : ∀ d', ((s.setLane ⟨(s.lane d).copy, input, (s.lane d).output, room⟩ d).lane
        d').copy = (s.lane d').copy := by
      intro d'
      rw [set_lane_cases]
      split
      · rename_i same
        subst same
        rfl
      · rfl
    refine ⟨?_, ?_, ?_⟩
    · intro d'
      rw [set_lane_cases]
      split
      · rename_i same
        subst same
        exact copying_frame (relaying.copying d') fed (drawn_refl _) room
      · exact relaying.copying d'
    · intro ended
      rw [set_lane_result, State.amounts, copies, copies]
      exact relaying.joined fun d' => copies d' ▸ ended d'
    · intro amounts returned d'
      rw [set_lane_result] at returned
      rw [copies]
      exact relaying.returned amounts returned d'

theorem relaying_run {h : Halves} {s : State} (reached : (pumpBidirectional h).Reachable s) :
    Relaying h s := by
  apply state_invariant (Relaying h) (relaying_start h) _ s reached
  intro s e t relaying moved
  exact relaying_step relaying moved

theorem lane_delivers {base start : Bytes} {l : Lane} (copying : Copying base start l) :
    ∃ moved, l.output.written = start ++ moved ∧ base ++ moved <+: l.input.written ∧
      (l.output.ended = true → l.input.ended = true ∧ base ++ moved = l.input.written) := by
  obtain ⟨moved, taken, put⟩ := copying.pumping.copied
  refine ⟨moved, put, ?_, ?_⟩
  · rw [Channel.written, taken, List.append_assoc]
    exact List.prefix_append (base ++ moved) (l.copy.pump.held ++ l.input.flight)
  · intro ended
    obtain ⟨held, flight, last⟩ :=
      copying.pumping.drained (copying.pumping.ends ▸ ended)
    refine ⟨last, ?_⟩
    rw [Channel.written, taken, held, flight, List.append_nil, List.append_nil]

theorem lane_ended_iff {base start : Bytes} {l : Lane} (copying : Copying base start l) :
    l.output.ended = true ↔ l.copy.phase = .done := by
  rw [copying.pumping.ends, Copy.pump, beq_iff_eq]

theorem returned_step {s t : State} {e : Event} {r : Except (Direction × Fault) (Nat × Nat)}
    (returned : s.result = some r) (moved : step s e = some t) :
    t.result = some r ∧ ∀ d, (t.lane d).output = (s.lane d).output := by
  have other : ∀ d c, e ≠ .copy d c := by
    rintro d c rfl
    have running := (copy_step_cases moved).1
    rw [returned] at running
    contradiction
  obtain ⟨d, input, room, _, rfl⟩ := environment_step_cases moved other
  refine ⟨by rw [set_lane_result, returned], fun d' => ?_⟩
  rw [set_lane_cases]
  split
  · rename_i same
    rw [same]
  · rfl

theorem returned_run {s t : State} {r : Except (Direction × Fault) (Nat × Nat)}
    (returned : s.result = some r) {more : List Event} (run : more.foldlM step s = some t) :
    t.result = some r ∧ ∀ d, (t.lane d).output = (s.lane d).output := by
  induction more generalizing s with
  | nil =>
    simp only [List.foldlM_nil, Option.pure_def, Option.some.injEq] at run
    subst run
    exact ⟨returned, fun _ => rfl⟩
  | cons e more ih =>
    simp only [List.foldlM_cons, Option.bind_eq_bind, Option.bind_eq_some_iff] at run
    obtain ⟨next, moved, run⟩ := run
    obtain ⟨result, outputs⟩ := returned_step returned moved
    obtain ⟨last, same⟩ := ih result run
    exact ⟨last, fun d => (same d).trans (outputs d)⟩

/-- In every run, each output holds a beginning of what its input brought, and is shut
    down only behind the whole of it. The call returns the two lengths exactly when both
    outputs have been shut down, and nothing is written once it has returned. -/
theorem relay_faithful {h : Halves} {s : State} (reached : (pumpBidirectional h).Reachable s) :
    (∀ d, ∃ moved, (s.lane d).output.written = (h.output d).written ++ moved ∧
        (h.input d).consumed ++ moved <+: (s.lane d).input.written ∧
        ((s.lane d).output.ended = true → (s.lane d).input.ended = true ∧
          (h.input d).consumed ++ moved = (s.lane d).input.written)) ∧
      (∀ n m, s.result = some (.ok (n, m)) ↔
        (∀ d, (s.lane d).output.ended = true) ∧
          (s.lane .leftToRight).output.written.length = h.rightWrite.written.length + n ∧
          (s.lane .rightToLeft).output.written.length = h.leftWrite.written.length + m) ∧
      ∀ r (more : List Event) (t : State), s.result = some r → more.foldlM step s = some t →
        t.result = some r ∧ ∀ d, (t.lane d).output = (s.lane d).output := by
  have relaying := relaying_run reached
  refine ⟨fun d => lane_delivers (relaying.copying d), ?_, fun r more t returned run =>
    returned_run returned run⟩
  intro n m
  have first := (relaying.copying .leftToRight).amount
  have second := (relaying.copying .rightToLeft).amount
  rw [show h.output .leftToRight = h.rightWrite from rfl] at first
  rw [show h.output .rightToLeft = h.leftWrite from rfl] at second
  rw [first, second]
  constructor
  · intro returned
    have ended := relaying.returned _ returned
    have result := relaying.joined ended
    rw [returned, Option.some.injEq, Except.ok.injEq, State.amounts, Prod.mk.injEq] at result
    refine ⟨fun d => (lane_ended_iff (relaying.copying d)).mpr (ended d), ?_, ?_⟩
    · rw [result.1]
    · rw [result.2]
  · intro shut
    obtain ⟨shut, sizes⟩ := shut
    rw [relaying.joined fun d => (lane_ended_iff (relaying.copying d)).mp (shut d), State.amounts]
    have left : (s.lane .leftToRight).copy.amount = n := by omega
    have right : (s.lane .rightToLeft).copy.amount = m := by omega
    rw [left, right]

def Event.isCopy : Event → Nat
  | .copy _ _ => 1
  | _ => 0

def Event.arrives : Event → Nat
  | .arrive _ bytes => bytes.length
  | _ => 0

def State.pending (s : State) : Nat :=
  match s.result with
  | none => 1
  | some _ => 0

def State.rank (s : State) : Nat := s.leftToRight.rank + s.rightToLeft.rank + s.pending

theorem set_lane_rank (s : State) (l : Lane) (d : Direction) :
    (s.setLane l d).rank + (s.lane d).rank = s.rank + l.rank := by
  cases d with
  | leftToRight =>
    simp only [State.setLane, State.lane, State.rank, State.pending]
    omega
  | rightToLeft =>
    simp only [State.setLane, State.lane, State.rank, State.pending]
    omega

theorem join_rank (s : State) : s.join.rank ≤ s.rank := by
  unfold State.join
  split
  · exact Nat.add_le_add_left (Nat.zero_le _) _
  · exact Nat.le_refl _

theorem relay_step_rank {s t : State} {e : Event} (moved : step s e = some t) :
    t.rank + e.isCopy ≤ s.rank + 2 * e.arrives := by
  cases e with
  | arrive d bytes =>
    rw [step, Option.ite_none_left_eq_some, Option.some.injEq] at moved
    obtain ⟨_, rfl⟩ := moved
    have change := set_lane_rank s
      ⟨(s.lane d).copy, (s.lane d).input.put bytes, (s.lane d).output, (s.lane d).room⟩ d
    have more : Lane.rank ⟨(s.lane d).copy, (s.lane d).input.put bytes, (s.lane d).output,
        (s.lane d).room⟩ = (s.lane d).rank + 2 * bytes.length := by
      simp only [Lane.rank, Channel.put, List.length_append]
      omega
    simp only [Event.isCopy, Event.arrives]
    omega
  | close d =>
    rw [step, Option.ite_none_left_eq_some, Option.some.injEq] at moved
    obtain ⟨_, rfl⟩ := moved
    have change := set_lane_rank s
      ⟨(s.lane d).copy, (s.lane d).input.finish, (s.lane d).output, (s.lane d).room⟩ d
    have same : Lane.rank ⟨(s.lane d).copy, (s.lane d).input.finish, (s.lane d).output,
        (s.lane d).room⟩ = (s.lane d).rank := rfl
    simp only [Event.isCopy, Event.arrives]
    omega
  | makeRoom d n =>
    rw [step, Option.some.injEq] at moved
    subst moved
    have change := set_lane_rank s
      ⟨(s.lane d).copy, (s.lane d).input, (s.lane d).output, (s.lane d).room + n⟩ d
    have same : Lane.rank ⟨(s.lane d).copy, (s.lane d).input, (s.lane d).output,
        (s.lane d).room + n⟩ = (s.lane d).rank := rfl
    simp only [Event.isCopy, Event.arrives]
    omega
  | copy d c =>
    obtain ⟨running, ⟨l, stepped, rfl⟩ | ⟨fault, _, rfl⟩⟩ := copy_step_cases moved
    · have change := set_lane_rank s l d
      have less := lane_step_rank stepped
      have joined := join_rank (s.setLane l d)
      simp only [Event.isCopy, Event.arrives]
      omega
    · simp only [State.rank, State.pending, running, Event.isCopy, Event.arrives]
      omega

theorem relay_run_rank {h : Halves} {events : List Event} {s : State}
    (run : (pumpBidirectional h).replay events = some s) :
    s.rank + total Event.isCopy events ≤ h.start.rank + 2 * total Event.arrives events := by
  apply run_invariant (fun events s => s.rank + total Event.isCopy events ≤
    h.start.rank + 2 * total Event.arrives events) _ _ events s run
  · simp [pumpBidirectional]
  · intro events s e t bound moved
    have less := relay_step_rank moved
    rw [total_snoc, total_snoc]
    omega

/-- The relay takes no more steps than twice the bytes that have arrived and five, and
    while it runs, a direction that has not ended can go on, whatever the other one
    does, or waits for bytes of its input, or for room in its output for what it holds. -/
theorem relay_live {h : Halves} {events : List Event} {s : State}
    (run : (pumpBidirectional h).replay events = some s) :
    total Event.isCopy events ≤
        2 * (h.leftRead.flight.length + h.rightRead.flight.length +
          total Event.arrives events) + 5 ∧
      (s.result = none → ∀ d, (s.lane d).output.ended = true ∨
        ((s.lane d).input.flight = [] ∧ (s.lane d).input.ended = false) ∨
        ((s.lane d).copy.held ≠ [] ∧ (s.lane d).room = 0) ∨
        ∃ e t, (∀ fault, e ≠ .fail fault) ∧ step s (.copy d e) = some t) := by
  constructor
  · have bound := relay_run_rank run
    have start : h.start.rank =
        2 * h.leftRead.flight.length + 2 + (2 * h.rightRead.flight.length + 2) + 1 := rfl
    omega
  · intro running d
    have relaying := relaying_run ⟨events, run⟩
    by_cases stuck : ∀ e l, laneStep bufferSize e (s.lane d) ≠ some (.ok l)
    · rcases lane_stuck (by decide) stuck with done | ⟨_, waiting⟩ | full
      · exact Or.inl ((lane_ended_iff (relaying.copying d)).mpr done)
      · exact Or.inr (Or.inl waiting)
      · exact Or.inr (Or.inr (Or.inl full))
    · right
      right
      right
      simp only [not_forall, Classical.not_not] at stuck
      obtain ⟨e, l, moved⟩ := stuck
      refine ⟨e, (s.setLane l d).join, ?_, ?_⟩
      · rintro fault rfl
        simp only [laneStep] at moved
        split at moved <;> simp at moved
      · rw [step, if_pos running, moved]
        rfl

def exampleHalves : Halves :=
  ⟨Channel.fresh, Channel.fresh, Channel.fresh, Channel.fresh, rfl, rfl⟩

def exampleEvents : List Event :=
  [.arrive .leftToRight [1, 2, 3], .copy .leftToRight (.read 3), .makeRoom .leftToRight 2,
    .arrive .rightToLeft [9], .copy .leftToRight (.write 2), .close .leftToRight,
    .copy .rightToLeft (.read 1), .makeRoom .leftToRight 4, .copy .leftToRight (.write 1),
    .copy .leftToRight .flush, .copy .leftToRight .shutdown, .makeRoom .rightToLeft 1,
    .copy .rightToLeft (.write 1), .close .rightToLeft, .copy .rightToLeft .flush,
    .copy .rightToLeft .shutdown]

def exampleEnd : State where
  leftToRight := ⟨⟨[], 3, .done⟩, ⟨[1, 2, 3], [], true⟩, ⟨[], [1, 2, 3], true⟩, 3⟩
  rightToLeft := ⟨⟨[], 1, .done⟩, ⟨[9], [], true⟩, ⟨[], [9], true⟩, 0⟩
  result := some (.ok (3, 1))

theorem example_run : (pumpBidirectional exampleHalves).replay exampleEvents = some exampleEnd := by
  decide

theorem relay_faithful_example : (pumpBidirectional exampleHalves).Reachable exampleEnd ∧
    (∀ d, (exampleEnd.lane d).output.ended = true) ∧
      (exampleEnd.lane .leftToRight).output.written.length = 3 := by
  obtain ⟨ended, forward, _⟩ :=
    ((relay_faithful ⟨exampleEvents, example_run⟩).2.1 3 1).mp rfl
  exact ⟨⟨exampleEvents, example_run⟩, ended, forward⟩

theorem relay_live_example : total Event.isCopy exampleEvents ≤
    2 * (0 + 0 + total Event.arrives exampleEvents) + 5 :=
  (relay_live example_run).1

end Relay
