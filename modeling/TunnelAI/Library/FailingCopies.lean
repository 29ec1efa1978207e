import TunnelAI.Library.Channels

/-!
A copy of one stream to another in which every call can fail. It reads into a
buffer of a fixed size, counts what it has written, flushes when the input has
ended and then shuts the output down. A write waits until the output has room;
a flush and a shutdown do not wait. Without a failure a copy is a pump.
-/
namespace FailingCopies
open StreamReader Channels

inductive CopyPhase where
  | copying
  | closing
  | done
  deriving DecidableEq

structure Copy where
  held : Bytes
  amount : Nat
  phase : CopyPhase
  deriving DecidableEq

def Copy.fresh : Copy := ⟨[], 0, .copying⟩

inductive Fault where
  | read
  | write
  | flush
  | shutdown
  deriving DecidableEq

inductive CopyEvent where
  | read : Nat → CopyEvent
  | write : Nat → CopyEvent
  | flush
  | shutdown
  | fail : Fault → CopyEvent
  deriving DecidableEq

def CopyPhase.canFail : CopyPhase → Fault → Bool
  | .copying, .shutdown => false
  | .copying, _ => true
  | .closing, .shutdown => true
  | .closing, _ => false
  | .done, _ => false

/-- A copy and the streams that it works on; the output takes `room` more bytes. -/
structure Lane where
  copy : Copy
  input : Channel
  output : Channel
  room : Nat
  deriving DecidableEq

def Lane.start (input output : Channel) : Lane := ⟨Copy.fresh, input, output, 0⟩

variable (capacity : Nat)

def laneStep (e : CopyEvent) (l : Lane) : Option (Except Fault Lane) :=
  match e, l.copy.phase with
  | .read n, .copying =>
    if 0 < n ∧ n ≤ l.input.flight.length ∧ l.copy.held.length + n ≤ capacity then
      some (.ok { l with
        copy := { l.copy with held := l.copy.held ++ l.input.flight.take n }
        input := l.input.take n })
    else none
  | .write n, .copying =>
    if n ≤ l.room then
      (writePart n l.copy.held l.output).map fun next => .ok { l with
        copy := ⟨next.1, l.copy.amount + n, .copying⟩
        output := next.2
        room := l.room - n }
    else none
  | .flush, .copying =>
    if l.copy.held = [] ∧ l.input.flight = [] ∧ l.input.ended = true then
      some (.ok { l with copy := { l.copy with phase := .closing } })
    else none
  | .shutdown, .closing =>
    some (.ok { l with copy := { l.copy with phase := .done }, output := l.output.finish })
  | .fail fault, phase => if phase.canFail fault then some (.error fault) else none
  | _, _ => none

def Copy.pump (c : Copy) : Pump := ⟨c.held, c.phase == .done⟩

variable {capacity : Nat}

theorem lane_step_cases {e : CopyEvent} {l l' : Lane}
    (h : laneStep capacity e l = some (.ok l')) :
    (∃ n, 0 < n ∧ n ≤ l.input.flight.length ∧ l.copy.phase = .copying ∧
      l' = ⟨⟨l.copy.held ++ l.input.flight.take n, l.copy.amount, .copying⟩, l.input.take n,
        l.output, l.room⟩) ∨
    (∃ n, 0 < n ∧ n ≤ l.copy.held.length ∧ n ≤ l.room ∧ l.copy.phase = .copying ∧
      l' = ⟨⟨l.copy.held.drop n, l.copy.amount + n, .copying⟩, l.input,
        l.output.put (l.copy.held.take n), l.room - n⟩) ∨
    (l.copy.held = [] ∧ l.input.flight = [] ∧ l.input.ended = true ∧ l.copy.phase = .copying ∧
      l' = ⟨⟨[], l.copy.amount, .closing⟩, l.input, l.output, l.room⟩) ∨
    (l.copy.phase = .closing ∧
      l' = ⟨⟨l.copy.held, l.copy.amount, .done⟩, l.input, l.output.finish, l.room⟩) := by
  obtain ⟨⟨held, amount, phase⟩, input, output, room⟩ := l
  cases e with
  | read n =>
    cases phase with
    | copying =>
      simp only [laneStep, Option.ite_none_right_eq_some, Option.some.injEq,
        Except.ok.injEq] at h
      obtain ⟨⟨pos, size, _⟩, rfl⟩ := h
      exact Or.inl ⟨n, pos, size, rfl, rfl⟩
    | closing => simp [laneStep] at h
    | done => simp [laneStep] at h
  | write n =>
    cases phase with
    | copying =>
      simp only [laneStep, Option.ite_none_right_eq_some, Option.map_eq_some_iff,
        Except.ok.injEq] at h
      obtain ⟨fits, ⟨left, out⟩, part, rfl⟩ := h
      obtain ⟨size, rfl, rfl⟩ := write_part_iff.mp part
      exact Or.inr (Or.inl ⟨n, size.1, size.2, fits, rfl, rfl⟩)
    | closing => simp [laneStep] at h
    | done => simp [laneStep] at h
  | flush =>
    cases phase with
    | copying =>
      simp only [laneStep, Option.ite_none_right_eq_some, Option.some.injEq,
        Except.ok.injEq] at h
      obtain ⟨⟨empty, drained, ended⟩, rfl⟩ := h
      exact Or.inr (Or.inr (Or.inl ⟨empty, drained, ended, rfl, by rw [empty]⟩))
    | closing => simp [laneStep] at h
    | done => simp [laneStep] at h
  | shutdown =>
    cases phase with
    | copying => simp [laneStep] at h
    | closing =>
      simp only [laneStep, Option.some.injEq, Except.ok.injEq] at h
      exact Or.inr (Or.inr (Or.inr ⟨rfl, h.symm⟩))
    | done => simp [laneStep] at h
  | fail fault =>
    cases phase <;> cases fault <;> simp [laneStep, CopyPhase.canFail] at h

/-- What holds of a lane that began where the input was taken up to `base` and the
    output held `start`: it has pumped, it knows how much, and it closes last. -/
structure Copying (base start : Bytes) (l : Lane) : Prop where
  pumping : Pumping l.copy.pump base start l.input l.output
  amount : l.output.written.length = start.length + l.copy.amount
  drained : l.copy.phase ≠ .copying →
    l.copy.held = [] ∧ l.input.flight = [] ∧ l.input.ended = true

theorem copying_start {input output : Channel} (opened : output.ended = false) :
    Copying input.consumed output.written (Lane.start input output) where
  pumping := pumping_start rfl ⟨List.append_nil _, opened⟩
  amount := rfl
  drained := fun other => absurd rfl other

theorem lane_step_pump {e : CopyEvent} {base start : Bytes} {l l' : Lane}
    (copying : Copying base start l) (h : laneStep capacity e l = some (.ok l')) :
    (l'.copy.pump = l.copy.pump ∧ l'.input = l.input ∧ l'.output = l.output) ∨
      ∃ p, pumpStep p l.copy.pump l.input l.output = some (l'.copy.pump, l'.input, l'.output) := by
  obtain ⟨⟨held, amount, phase⟩, input, output, room⟩ := l
  rcases lane_step_cases h with ⟨n, pos, size, copies, rfl⟩ | ⟨n, pos, size, fits, copies, rfl⟩ |
    ⟨empty, drained, ended, copies, rfl⟩ | ⟨closes, rfl⟩
  · right
    refine ⟨.read n, ?_⟩
    simp only at copies size
    simp [pumpStep, Copy.pump, copies, pos, size]
  · right
    refine ⟨.write n, ?_⟩
    simp only at copies size
    have part := (@write_part_iff n held _ output _).mpr ⟨⟨pos, size⟩, rfl, rfl⟩
    simp [pumpStep, Copy.pump, copies, part]
  · left
    simp only at copies empty
    simp [Copy.pump, copies, empty]
  · right
    refine ⟨.close, ?_⟩
    obtain ⟨empty, drained, ended⟩ := copying.drained (by rw [closes]; decide)
    simp only at closes empty drained ended
    simp [pumpStep, Copy.pump, closes, empty, drained, ended]

theorem copying_step {e : CopyEvent} {base start : Bytes} {l l' : Lane}
    (copying : Copying base start l) (h : laneStep capacity e l = some (.ok l')) :
    Copying base start l' := by
  have pumping : Pumping l'.copy.pump base start l'.input l'.output := by
    rcases lane_step_pump copying h with ⟨same, input, output⟩ | ⟨p, moved⟩
    · rw [same, input, output]
      exact copying.pumping
    · exact pumping_step copying.pumping moved
  have amount := copying.amount
  rcases lane_step_cases h with ⟨n, pos, size, copies, rfl⟩ | ⟨n, pos, size, fits, copies, rfl⟩ |
    ⟨empty, drained, ended, copies, rfl⟩ | ⟨closes, rfl⟩
  · exact ⟨pumping, amount, fun other => absurd rfl other⟩
  · refine ⟨pumping, ?_, fun other => absurd rfl other⟩
    rw [put_written, List.length_append, amount, List.length_take]
    simp only
    omega
  · exact ⟨pumping, amount, fun _ => ⟨rfl, drained, ended⟩⟩
  · exact ⟨pumping, amount, fun _ => copying.drained (by rw [closes]; decide)⟩

theorem copying_frame {base start : Bytes} {l : Lane} {input output : Channel}
    (copying : Copying base start l) (fed : l.input.Fed input) (drawn : l.output.Drawn output)
    (room : Nat) : Copying base start ⟨l.copy, input, output, room⟩ where
  pumping := pumping_frame copying.pumping fed drawn
  amount := by rw [drawn.written]; exact copying.amount
  drained := by
    intro other
    have drained := copying.drained other
    rw [fed.ended drained.2.2]
    exact drained

def Lane.rank (l : Lane) : Nat :=
  2 * l.input.flight.length + l.copy.held.length +
    match l.copy.phase with
    | .copying => 2
    | .closing => 1
    | .done => 0

theorem lane_step_rank {e : CopyEvent} {l l' : Lane}
    (h : laneStep capacity e l = some (.ok l')) : l'.rank < l.rank := by
  rcases lane_step_cases h with ⟨n, pos, size, copies, rfl⟩ | ⟨n, pos, size, fits, copies, rfl⟩ |
    ⟨empty, drained, ended, copies, rfl⟩ | ⟨closes, rfl⟩
  · simp only [Lane.rank, Channel.take, List.length_append, List.length_take, List.length_drop,
      copies]
    omega
  · simp only [Lane.rank, List.length_drop, copies]
    omega
  · simp only [Lane.rank, copies, empty]
    omega
  · simp only [Lane.rank, closes]
    omega

/-- A lane that can do nothing but fail is done, or it waits for its input or for room
    in its output. -/
theorem lane_stuck (buffered : 0 < capacity) {l : Lane}
    (stuck : ∀ e l', laneStep capacity e l ≠ some (.ok l')) :
    l.copy.phase = .done ∨
      (l.copy.held = [] ∧ l.input.flight = [] ∧ l.input.ended = false) ∨
      l.copy.held ≠ [] ∧ l.room = 0 := by
  obtain ⟨⟨held, amount, phase⟩, input, output, room⟩ := l
  cases phase with
  | done => exact Or.inl rfl
  | closing => exact absurd rfl (stuck .shutdown _)
  | copying =>
    right
    by_cases empty : held = []
    · left
      subst empty
      by_cases drained : input.flight = []
      · refine ⟨rfl, drained, ?_⟩
        rw [Bool.eq_false_iff]
        intro ended
        have := stuck .flush ⟨⟨[], amount, .closing⟩, input, output, room⟩
        simp only at ended
        simp [laneStep, drained, ended] at this
      · have some := List.length_pos_iff.mpr drained
        have enough : 1 ≤ input.flight.length := some
        have := stuck (.read 1)
          ⟨⟨[] ++ input.flight.take 1, amount, .copying⟩, input.take 1, output, room⟩
        have fits : 1 ≤ capacity := buffered
        simp [laneStep, enough, fits] at this
    · right
      refine ⟨empty, ?_⟩
      by_contra open'
      have fits : 1 ≤ room := Nat.one_le_iff_ne_zero.mpr open'
      have some := List.length_pos_iff.mpr empty
      have part := (@write_part_iff 1 held _ output _).mpr ⟨⟨Nat.one_pos, some⟩, rfl, rfl⟩
      have := stuck (.write 1)
        ⟨⟨held.drop 1, amount + 1, .copying⟩, input, output.put (held.take 1), room - 1⟩
      simp [laneStep, part, fits] at this

end FailingCopies
