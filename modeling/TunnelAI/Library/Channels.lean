import TunnelAI.Library.StreamReader

/-!
Reliable ordered byte streams with a half-close, and the two ways a process
works on them: a reader that takes bytes as they come, and a pump that copies
one stream to another and passes the end on. A stream keeps what has been taken
from it, so that an invariant can speak of everything ever written.
-/
namespace Channels
open StreamReader
variable {ε α : Type}

structure Channel where
  consumed : Bytes
  flight : Bytes
  ended : Bool
  deriving DecidableEq

def Channel.fresh : Channel := ⟨[], [], false⟩

def Channel.written (c : Channel) : Bytes := c.consumed ++ c.flight

def Channel.put (c : Channel) (bytes : Bytes) : Channel :=
  { c with flight := c.flight ++ bytes }

def Channel.take (c : Channel) (n : Nat) : Channel :=
  { c with consumed := c.consumed ++ c.flight.take n, flight := c.flight.drop n }

def Channel.finish (c : Channel) : Channel := { c with ended := true }

@[simp] theorem fresh_written : Channel.fresh.written = [] := rfl

@[simp] theorem put_written (c : Channel) (bytes : Bytes) :
    (c.put bytes).written = c.written ++ bytes := by
  simp [Channel.put, Channel.written]

@[simp] theorem put_consumed (c : Channel) (bytes : Bytes) :
    (c.put bytes).consumed = c.consumed := rfl

@[simp] theorem put_ended (c : Channel) (bytes : Bytes) : (c.put bytes).ended = c.ended := rfl

@[simp] theorem take_written (c : Channel) (n : Nat) : (c.take n).written = c.written := by
  simp [Channel.take, Channel.written]

@[simp] theorem take_ended (c : Channel) (n : Nat) : (c.take n).ended = c.ended := rfl

@[simp] theorem finish_written (c : Channel) : c.finish.written = c.written := rfl

@[simp] theorem finish_consumed (c : Channel) : c.finish.consumed = c.consumed := rfl

@[simp] theorem finish_ended (c : Channel) : c.finish.ended = true := rfl

structure Channel.Fed (c d : Channel) : Prop where
  consumed : d.consumed = c.consumed
  ended : c.ended = true → d = c

structure Channel.Drawn (c d : Channel) : Prop where
  written : d.written = c.written
  ended : d.ended = c.ended

@[simp] theorem fed_refl (c : Channel) : c.Fed c := ⟨rfl, fun _ => rfl⟩

@[simp] theorem drawn_refl (c : Channel) : c.Drawn c := ⟨rfl, rfl⟩

theorem fed_put {c : Channel} (opened : c.ended = false) (bytes : Bytes) :
    c.Fed (c.put bytes) where
  consumed := rfl
  ended := by simp [opened]

theorem fed_finish {c : Channel} (opened : c.ended = false) : c.Fed c.finish where
  consumed := rfl
  ended := by simp [opened]

theorem drawn_take (c : Channel) (n : Nat) : c.Drawn (c.take n) :=
  ⟨take_written c n, rfl⟩

/-- Nothing but a beginning of `whole` has been written, and the end comes after
    all of it. -/
structure Channel.Carries (c : Channel) (whole : Bytes) : Prop where
  begins : c.written <+: whole
  complete : c.ended = true → c.written = whole

theorem carries_open {c : Channel} {whole : Bytes} (begins : c.written <+: whole)
    (opened : c.ended = false) : c.Carries whole where
  begins := begins
  complete := by simp [opened]

theorem carries_whole {c : Channel} {whole : Bytes} (written : c.written = whole) :
    c.Carries whole where
  begins := ⟨[], by rw [List.append_nil, written]⟩
  complete := fun _ => written

theorem carries_unsent {c : Channel} {unsent whole : Bytes} (split : c.written ++ unsent = whole)
    (last : c.ended = true → unsent = []) : c.Carries whole where
  begins := by rw [← split]; exact List.prefix_append c.written unsent
  complete := by
    intro ended
    rw [← split, last ended, List.append_nil]

def writePart (n : Nat) (todo : Bytes) (c : Channel) : Option (Bytes × Channel) :=
  if 0 < n ∧ n ≤ todo.length then some (todo.drop n, c.put (todo.take n)) else none

theorem write_part_iff {n : Nat} {todo left : Bytes} {c d : Channel} :
    writePart n todo c = some (left, d) ↔
      (0 < n ∧ n ≤ todo.length) ∧ left = todo.drop n ∧ d = c.put (todo.take n) := by
  unfold writePart
  split
  · rename_i size
    simp [size, eq_comm]
  · rename_i size
    simp [size]

theorem write_part_length {n : Nat} {todo left : Bytes} {c d : Channel}
    (h : writePart n todo c = some (left, d)) :
    left.length < todo.length ∧
      d.flight.length + left.length = c.flight.length + todo.length := by
  obtain ⟨size, rfl, rfl⟩ := write_part_iff.mp h
  constructor
  · rw [List.length_drop]
    omega
  · simp only [Channel.put, List.length_append, List.length_take, List.length_drop]
    omega

structure Writing (c : Channel) (todo goal : Bytes) : Prop where
  split : c.written ++ todo = goal
  opened : c.ended = false

theorem writing_part {n : Nat} {todo left goal : Bytes} {c d : Channel}
    (writing : Writing c todo goal) (h : writePart n todo c = some (left, d)) :
    Writing d left goal ∧ c.Fed d := by
  obtain ⟨size, rfl, rfl⟩ := write_part_iff.mp h
  exact ⟨⟨by simp [← writing.split], writing.opened⟩, fed_put writing.opened _⟩

theorem writing_same {todo goal : Bytes} {c d : Channel} (writing : Writing c todo goal)
    (drawn : c.Drawn d) : Writing d todo goal where
  split := by rw [drawn.written, writing.split]
  opened := by rw [drawn.ended, writing.opened]

theorem writing_next {goal : Bytes} {c : Channel} (writing : Writing c [] goal)
    (more : Bytes) : Writing c more (goal ++ more) where
  split := by rw [← writing.split, List.append_nil]
  opened := writing.opened

theorem writing_carries {todo goal whole : Bytes} {c : Channel} (writing : Writing c todo goal)
    (begins : goal <+: whole) : c.Carries whole := by
  apply carries_open _ writing.opened
  rw [← writing.split] at begins
  exact (List.prefix_append c.written todo).trans begins

theorem write_part_enabled {todo : Bytes} (c : Channel) (some_left : todo ≠ []) :
    writePart 1 todo c ≠ none := by
  have := List.length_pos_iff.mpr some_left
  unfold writePart
  rw [if_pos (by omega)]
  simp

inductive Progress (ε α : Type) where
  | more : Reader ε α → Channel → Progress ε α
  | returned : α → Progress ε α
  | failed : ε → Progress ε α

def progress (eof : ε) (r : Reader ε α) (c : Channel) : Option (Progress ε α) :=
  match r with
  | .done a => some (.returned a)
  | .fail e => some (.failed e)
  | .byte k =>
    match c.flight with
    | b :: _ => some (.more (k b) (c.take 1))
    | [] => if c.ended then some (.failed eof) else none

/-- The reader `now` is what is left of `start`, which began where `base` ends. -/
def Reading (start now : Reader ε α) (base : Bytes) (c : Channel) : Prop :=
  ∃ taken, c.consumed = base ++ taken ∧ start.after taken = some now

theorem reading_same {start now : Reader ε α} {base : Bytes} {c d : Channel}
    (reading : Reading start now base c) (fed : c.Fed d) : Reading start now base d := by
  obtain ⟨taken, consumed, after⟩ := reading
  exact ⟨taken, by rw [fed.consumed, consumed], after⟩

theorem reading_start (start : Reader ε α) {base : Bytes} {c : Channel}
    (h : c.consumed = base) : Reading start start base c :=
  ⟨[], by simp [h], by simp⟩

theorem progress_more {eof : ε} {now next : Reader ε α} {c d : Channel}
    (h : progress eof now c = some (.more next d)) :
    ∃ k b, now = .byte k ∧ next = k b ∧ d = c.take 1 ∧ c.flight.head? = some b := by
  cases now with
  | done a => simp [progress] at h
  | fail e => simp [progress] at h
  | byte k =>
    cases flight : c.flight with
    | nil =>
      simp only [progress, flight] at h
      split at h <;> simp at h
    | cons b rest =>
      simp only [progress, flight, Option.some.injEq, Progress.more.injEq] at h
      exact ⟨k, b, rfl, h.1.symm, h.2.symm, rfl⟩

theorem reading_more {eof : ε} {start now next : Reader ε α} {base : Bytes} {c d : Channel}
    (reading : Reading start now base c) (h : progress eof now c = some (.more next d)) :
    Reading start next base d ∧ c.Drawn d := by
  obtain ⟨taken, consumed, after⟩ := reading
  obtain ⟨k, b, rfl, rfl, rfl, head⟩ := progress_more h
  obtain ⟨flight, shape⟩ : ∃ flight, c.flight = b :: flight := by
    cases rest : c.flight with
    | nil => simp [rest] at head
    | cons x flight =>
      rw [rest, List.head?_cons, Option.some.injEq] at head
      exact ⟨flight, by rw [head]⟩
  refine ⟨⟨taken ++ [b], ?_, ?_⟩, drawn_take c 1⟩
  · simp [Channel.take, consumed, shape]
  · rw [after_append, after, Option.bind_some, after_byte_cons, after_nil]

theorem progress_length {eof : ε} {now next : Reader ε α} {c d : Channel}
    (h : progress eof now c = some (.more next d)) : d.flight.length < c.flight.length := by
  obtain ⟨k, b, _, _, rfl, head⟩ := progress_more h
  cases flight : c.flight with
  | nil => simp [flight] at head
  | cons x rest => simp [Channel.take, flight]

/-- On a stream that starts with a frame the reader is either done with exactly
    that frame or inside it; it does not fail and does not run past the frame. -/
theorem reading_frame {start now : Reader ε α} {base frame rest : Bytes} {c : Channel} {a : α}
    (reading : Reading start now base c) (accepts : start.after frame = some (.done a))
    (within : c.written <+: base ++ frame ++ rest) :
    (now = .done a ∧ c.consumed = base ++ frame) ∨
      (∃ k, now = .byte k ∧ ∃ more, more ≠ [] ∧ base ++ frame = c.consumed ++ more) := by
  obtain ⟨taken, consumed, after⟩ := reading
  have inside : taken <+: frame ++ rest := by
    have start_of : base ++ taken <+: base ++ (frame ++ rest) := by
      rw [← consumed, ← List.append_assoc]
      exact (List.prefix_append c.consumed c.flight).trans within
    exact (List.prefix_append_right_inj base).mp start_of
  rcases List.prefix_or_prefix_of_prefix inside (List.prefix_append frame rest) with short | long
  · obtain ⟨more, rfl⟩ := short
    rw [after_append, after, Option.bind_some] at accepts
    cases now with
    | byte k =>
      refine Or.inr ⟨k, rfl, more, ?_, by simp [consumed]⟩
      intro empty
      simp [empty] at accepts
    | done x =>
      cases more with
      | nil =>
        rw [after_nil, Option.some.injEq] at accepts
        exact Or.inl ⟨accepts, by simp [consumed]⟩
      | cons b more => simp [Reader.after] at accepts
    | fail e => cases more <;> simp [Reader.after] at accepts
  · obtain ⟨more, rfl⟩ := long
    rw [after_append, accepts, Option.bind_some] at after
    cases more with
    | nil =>
      rw [after_nil, Option.some.injEq] at after
      exact Or.inl ⟨after.symm, by simp [consumed]⟩
    | cons b more => simp [Reader.after] at after

theorem reading_outcome {eof : ε} {start now : Reader ε α} {base frame rest : Bytes}
    {c : Channel} {a : α} {p : Progress ε α} (reading : Reading start now base c)
    (accepts : start.after frame = some (.done a)) (carries : c.Carries (base ++ frame ++ rest))
    (h : progress eof now c = some p) :
    (∃ next d, p = .more next d) ∨ (p = .returned a ∧ c.consumed = base ++ frame) := by
  rcases reading_frame reading accepts carries.begins with
    ⟨rfl, consumed⟩ | ⟨k, rfl, more, left, split⟩
  · simp only [progress, Option.some.injEq] at h
    exact Or.inr ⟨h.symm, consumed⟩
  · cases flight : c.flight with
    | cons b tail =>
      simp only [progress, flight, Option.some.injEq] at h
      exact Or.inl ⟨_, _, h.symm⟩
    | nil =>
      simp only [progress, flight] at h
      split at h
      · rename_i ended
        have all := congrArg List.length (carries.complete ended)
        have missing := List.length_pos_iff.mpr left
        rw [split, Channel.written, flight, List.append_nil, List.length_append,
          List.length_append] at all
        omega
      · contradiction

theorem reading_enabled {eof : ε} {start now : Reader ε α} {base frame rest : Bytes}
    {c : Channel} {a : α} (reading : Reading start now base c)
    (accepts : start.after frame = some (.done a)) (carries : c.Carries (base ++ frame ++ rest))
    (whole : base ++ frame <+: c.written) : progress eof now c ≠ none := by
  rcases reading_frame reading accepts carries.begins with ⟨rfl, consumed⟩ | ⟨k, rfl, more, left, split⟩
  · simp [progress]
  · cases flight : c.flight with
    | cons b tail => simp [progress, flight]
    | nil =>
      have all := whole.length_le
      have missing := List.length_pos_iff.mpr left
      rw [split, Channel.written, flight, List.append_nil, List.length_append] at all
      omega

theorem reading_whole {eof : ε} {start now : Reader ε α} {frame : Bytes} {c : Channel} {a : α}
    (reading : Reading start now [] c) (accepts : start.after frame = some (.done a))
    (written : c.written = frame) : progress eof now c ≠ none := by
  have carries : c.Carries ([] ++ frame ++ []) := carries_whole (by simp [written])
  exact reading_enabled reading accepts carries ⟨[], by simp [written]⟩

theorem reading_returned {eof : ε} {start now : Reader ε α} {base whole : Bytes} {c : Channel}
    {a : α} (reading : Reading start now base c) (carries : c.Carries (base ++ whole))
    (h : progress eof now c = some (.returned a)) :
    ∃ rest, start.run eof whole = .ok (a, rest) ∧ c.consumed ++ rest = base ++ whole := by
  obtain ⟨taken, consumed, after⟩ := reading
  have last : now = .done a := by
    cases now with
    | done b => simpa [progress] using h
    | fail e => simp [progress] at h
    | byte k =>
      simp only [progress] at h
      split at h
      · simp at h
      · split at h <;> simp at h
  obtain ⟨rest, split⟩ := (List.prefix_append c.consumed c.flight).trans carries.begins
  refine ⟨rest, ?_, split⟩
  rw [consumed, List.append_assoc, List.append_cancel_left_eq] at split
  rw [← split, run_after eof after, last, run_done]

theorem reading_failed {eof : ε} {start now : Reader ε α} {base whole : Bytes} {c : Channel}
    {e : ε} (reading : Reading start now base c) (carries : c.Carries (base ++ whole))
    (h : progress eof now c = some (.failed e)) : start.run eof whole = .error e := by
  obtain ⟨taken, consumed, after⟩ := reading
  cases now with
  | done b => simp [progress] at h
  | fail e' =>
    obtain ⟨rest, split⟩ := (List.prefix_append c.consumed c.flight).trans carries.begins
    rw [consumed, List.append_assoc, List.append_cancel_left_eq] at split
    simp only [progress, Option.some.injEq, Progress.failed.injEq] at h
    rw [← split, run_after eof after, h, run_fail]
  | byte k =>
    simp only [progress] at h
    split at h
    · simp at h
    · rename_i flight
      split at h
      · rename_i ended
        have all := carries.complete ended
        rw [Channel.written, flight, List.append_nil, consumed, List.append_cancel_left_eq] at all
        simp only [Option.some.injEq, Progress.failed.injEq] at h
        rw [← all, ← List.append_nil taken, run_after eof after, h, run_byte_nil]
      · contradiction

theorem progress_blocked {eof : ε} {now : Reader ε α} {c : Channel}
    (h : progress eof now c = none) : c.flight = [] ∧ c.ended = false := by
  cases now with
  | done a => simp [progress] at h
  | fail e => simp [progress] at h
  | byte k =>
    simp only [progress] at h
    split at h
    · contradiction
    · rename_i flight
      split at h
      · contradiction
      · rename_i opened
        exact ⟨flight, by simpa using opened⟩

/-- A copy of one stream to another: what it holds has been read and not yet
    written. Closing passes the end of the input on to the output. -/
structure Pump where
  held : Bytes
  closed : Bool
  deriving DecidableEq

def Pump.fresh : Pump := ⟨[], false⟩

inductive PumpEvent where
  | read : Nat → PumpEvent
  | write : Nat → PumpEvent
  | close
  deriving DecidableEq

def pumpStep (e : PumpEvent) (p : Pump) (input output : Channel) :
    Option (Pump × Channel × Channel) :=
  if p.closed then none
  else
    match e with
    | .read n =>
      if 0 < n ∧ n ≤ input.flight.length then
        some ({ p with held := p.held ++ input.flight.take n }, input.take n, output)
      else none
    | .write n =>
      (writePart n p.held output).map fun next => ({ p with held := next.1 }, input, next.2)
    | .close =>
      if p.held = [] ∧ input.flight = [] ∧ input.ended = true then
        some ({ p with closed := true }, input, output.finish)
      else none

/-- Everything taken from the input after `base` has been put on the output
    after `start` or is still held, in order, and the end is passed on last. -/
structure Pumping (p : Pump) (base start : Bytes) (input output : Channel) : Prop where
  copied : ∃ moved, input.consumed = base ++ moved ++ p.held ∧ output.written = start ++ moved
  ends : output.ended = p.closed
  drained : p.closed = true → p.held = [] ∧ input.flight = [] ∧ input.ended = true

theorem pumping_start {base start : Bytes} {input output : Channel}
    (taken : input.consumed = base) (writing : Writing output [] start) :
    Pumping Pump.fresh base start input output where
  copied := ⟨[], by simp [taken, Pump.fresh], by simpa using writing.split⟩
  ends := writing.opened
  drained := by simp [Pump.fresh]

theorem pump_step_cases {e : PumpEvent} {p q : Pump} {input input' output output' : Channel}
    (h : pumpStep e p input output = some (q, input', output')) :
    p.closed = false ∧
    ((∃ n, 0 < n ∧ n ≤ input.flight.length ∧ q = ⟨p.held ++ input.flight.take n, false⟩ ∧
        input' = input.take n ∧ output' = output) ∨
      (∃ n, 0 < n ∧ n ≤ p.held.length ∧ q = ⟨p.held.drop n, false⟩ ∧ input' = input ∧
        output' = output.put (p.held.take n)) ∨
      (p.held = [] ∧ input.flight = [] ∧ input.ended = true ∧ q = ⟨[], true⟩ ∧
        input' = input ∧ output' = output.finish)) := by
  obtain ⟨held, closed⟩ := p
  unfold pumpStep at h
  cases closed with
  | true => simp at h
  | false =>
    refine ⟨rfl, ?_⟩
    cases e with
    | read n =>
      by_cases size : 0 < n ∧ n ≤ input.flight.length
      · simp only [size, Bool.false_eq_true, if_false, and_self, if_true, Option.some.injEq,
          Prod.mk.injEq] at h
        obtain ⟨rfl, rfl, rfl⟩ := h
        exact Or.inl ⟨n, size.1, size.2, rfl, rfl, rfl⟩
      · simp [size] at h
    | write n =>
      simp only [Bool.false_eq_true, if_false, Option.map_eq_some_iff, Prod.mk.injEq] at h
      obtain ⟨⟨left, out⟩, part, rfl, rfl, rfl⟩ := h
      obtain ⟨size, rfl, rfl⟩ := write_part_iff.mp part
      exact Or.inr (Or.inl ⟨n, size.1, size.2, rfl, rfl, rfl⟩)
    | close =>
      by_cases drained : held = [] ∧ input.flight = [] ∧ input.ended = true
      · simp only [drained, Bool.false_eq_true, if_false, and_self, if_true, Option.some.injEq,
          Prod.mk.injEq] at h
        obtain ⟨rfl, rfl, rfl⟩ := h
        exact Or.inr (Or.inr ⟨drained.1, drained.2.1, drained.2.2, rfl, rfl, rfl⟩)
      · simp [drained] at h

theorem pumping_step {e : PumpEvent} {p q : Pump} {base start : Bytes}
    {input input' output output' : Channel} (pumping : Pumping p base start input output)
    (h : pumpStep e p input output = some (q, input', output')) :
    Pumping q base start input' output' := by
  obtain ⟨moved, taken, put⟩ := pumping.copied
  have ends := pumping.ends
  obtain ⟨opened, action⟩ := pump_step_cases h
  rw [opened] at ends
  rcases action with ⟨n, _, _, rfl, rfl, rfl⟩ | ⟨n, _, _, rfl, rfl, rfl⟩ |
    ⟨empty, noFlight, ended, rfl, rfl, rfl⟩
  · refine ⟨⟨moved, ?_, put⟩, ends, by simp⟩
    simp [Channel.take, taken]
  · refine ⟨⟨moved ++ p.held.take n, ?_, ?_⟩, ends, by simp⟩
    · simp [taken]
    · simp [put]
  · refine ⟨⟨moved, by simp [taken, empty], by simp [put]⟩, by simp, ?_⟩
    exact fun _ => ⟨rfl, noFlight, ended⟩

theorem pump_step_frame {e : PumpEvent} {p q : Pump} {base start : Bytes}
    {input input' output output' : Channel} (pumping : Pumping p base start input output)
    (h : pumpStep e p input output = some (q, input', output')) :
    input.Drawn input' ∧ output.Fed output' := by
  obtain ⟨opened, action⟩ := pump_step_cases h
  have ends : output.ended = false := by rw [pumping.ends, opened]
  rcases action with ⟨n, _, _, _, rfl, rfl⟩ | ⟨n, _, _, _, rfl, rfl⟩ | ⟨_, _, _, _, rfl, rfl⟩
  · exact ⟨drawn_take _ n, fed_refl _⟩
  · exact ⟨drawn_refl _, fed_put ends _⟩
  · exact ⟨drawn_refl _, fed_finish ends⟩

theorem pumping_frame {p : Pump} {base start : Bytes} {input input' output output' : Channel}
    (pumping : Pumping p base start input output) (fed : input.Fed input')
    (drawn : output.Drawn output') : Pumping p base start input' output' where
  copied := by rw [fed.consumed, drawn.written]; exact pumping.copied
  ends := by rw [drawn.ended]; exact pumping.ends
  drained := by
    intro closed
    have drained := pumping.drained closed
    rw [fed.ended drained.2.2]
    exact drained

def Pump.rank (w : Nat) (p : Pump) : Nat := w * p.held.length + if p.closed then 0 else 1

/-- A byte counts less the further it has come, so a pump lowers the total. -/
theorem pump_step_rank {i w o : Nat} (out : o < w) (taken : w < i) {e : PumpEvent} {p q : Pump}
    {input input' output output' : Channel}
    (h : pumpStep e p input output = some (q, input', output')) :
    i * input'.flight.length + q.rank w + o * output'.flight.length <
      i * input.flight.length + p.rank w + o * output.flight.length := by
  obtain ⟨opened, action⟩ := pump_step_cases h
  rcases action with ⟨n, pos, size, rfl, rfl, rfl⟩ | ⟨n, pos, size, rfl, rfl, rfl⟩ |
    ⟨_, _, _, rfl, rfl, rfl⟩
  · have split : input.flight.length = (input.take n).flight.length + n := by
      simp only [Channel.take, List.length_drop]
      omega
    have held : (input.flight.take n).length = n := by simp [size]
    have less : w * n < i * n := Nat.mul_lt_mul_of_pos_right taken pos
    simp only [Pump.rank, List.length_append, split, held, opened, Nat.mul_add]
    omega
  · have split : p.held.length = (p.held.drop n).length + n := by
      simp only [List.length_drop]
      omega
    have put : (output.put (p.held.take n)).flight.length = output.flight.length + n := by
      simp [Channel.put, size]
    have less : o * n < w * n := Nat.mul_lt_mul_of_pos_right out pos
    simp only [Pump.rank, split, put, opened, Nat.mul_add]
    omega
  · simp [Pump.rank, Channel.finish, opened]

theorem pumping_carries {p : Pump} {base start all : Bytes} {input output : Channel}
    (pumping : Pumping p base start input output) (carries : input.Carries (base ++ all)) :
    output.Carries (start ++ all) := by
  obtain ⟨moved, taken, put⟩ := pumping.copied
  constructor
  · have inside : base ++ (moved ++ p.held) <+: base ++ all := by
      rw [← List.append_assoc, ← taken]
      exact (List.prefix_append input.consumed input.flight).trans carries.begins
    rw [put]
    apply (List.prefix_append_right_inj start).mpr
    exact (List.prefix_append moved p.held).trans ((List.prefix_append_right_inj base).mp inside)
  · intro ended
    obtain ⟨held, flight, last⟩ := pumping.drained (pumping.ends ▸ ended)
    have whole := carries.complete last
    rw [Channel.written, taken, held, flight, List.append_nil, List.append_nil,
      List.append_cancel_left_eq] at whole
    rw [put, whole]

theorem pump_stuck {p : Pump} {input : Channel} (output : Channel) (ended : input.ended = true)
    (stuck : ∀ e, pumpStep e p input output = none) : p.closed = true := by
  obtain ⟨held, closed⟩ := p
  cases closed with
  | true => rfl
  | false =>
    exfalso
    by_cases flight : input.flight = []
    · by_cases empty : held = []
      · have := stuck .close
        simp [pumpStep, flight, empty, ended] at this
      · have := stuck (.write 1)
        simp [pumpStep, write_part_enabled output empty] at this
    · have size := List.length_pos_iff.mpr flight
      have := stuck (.read 1)
      have enough : 1 ≤ input.flight.length := size
      simp [pumpStep, enough] at this

end Channels
