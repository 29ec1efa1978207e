import TunnelAI.Library.StreamReader

/-!
The lines of a byte string. A line includes its newline; only the last line of
a string may be without one.
-/
namespace Lines
open StreamReader

def newline : UInt8 := 0x0a

def lineLength (s : Bytes) : Nat :=
  match s.findIdx? (· == newline) with
  | some position => position + 1
  | none => s.length

def lines : Bytes → List Bytes
  | [] => []
  | b :: s =>
    if b = newline then [b] :: lines s
    else
      match lines s with
      | [] => [[b]]
      | line :: rest => (b :: line) :: rest

theorem lines_newline (s : Bytes) : lines (newline :: s) = [newline] :: lines s := by
  simp [lines]

theorem lines_join (s : Bytes) : (lines s).flatten = s := by
  induction s with
  | nil => rfl
  | cons b s ih =>
    unfold lines
    split
    · simp [ih]
    · cases rest : lines s with
      | nil =>
        rw [rest] at ih
        simp at ih
        simp [ih]
      | cons line rest' =>
        rw [rest] at ih
        simpa using ih

theorem lines_empty {s : Bytes} : lines s = [] ↔ s = [] := by
  constructor
  · intro none
    have join := lines_join s
    rw [none] at join
    exact join.symm
  · intro empty
    rw [empty, lines]

theorem line_nonempty {s line : Bytes} (member : line ∈ lines s) : line ≠ [] := by
  induction s generalizing line with
  | nil => simp [lines] at member
  | cons b s ih =>
    unfold lines at member
    split at member
    · rcases List.mem_cons.mp member with rfl | member
      · simp
      · exact ih member
    · cases rest : lines s with
      | nil =>
        rw [rest] at member
        simp_all
      | cons first rest' =>
        rw [rest] at member
        rcases List.mem_cons.mp member with rfl | member
        · simp
        · exact ih (by rw [rest]; exact List.mem_cons_of_mem first member)

theorem lines_terminated {before : Bytes} (whole : newline ∉ before) (rest : Bytes) :
    lines (before ++ newline :: rest) = (before ++ [newline]) :: lines rest := by
  induction before with
  | nil => exact lines_newline rest
  | cons b before ih =>
    rw [List.mem_cons, not_or] at whole
    obtain ⟨other, whole⟩ := whole
    rw [List.cons_append, lines, if_neg (Ne.symm other), ih whole]
    rfl

theorem lines_unfinished {before : Bytes} (some : before ≠ []) (whole : newline ∉ before)
    (rest : Bytes) :
    lines (before ++ rest) =
      match lines rest with
      | [] => [before]
      | line :: more => (before ++ line) :: more := by
  induction before with
  | nil => contradiction
  | cons b before ih =>
    rw [List.mem_cons, not_or] at whole
    obtain ⟨other, whole⟩ := whole
    rw [List.cons_append, lines, if_neg (Ne.symm other)]
    by_cases empty : before = []
    · subst empty
      rw [List.nil_append]
      cases lines rest <;> rfl
    · rw [ih empty whole]
      cases lines rest <;> rfl

/-- Whole lines in front do not change how the rest is divided. -/
theorem lines_append {s : Bytes} (ends : s = [] ∨ s.getLast? = some newline) (rest : Bytes) :
    lines (s ++ rest) = lines s ++ lines rest := by
  induction s with
  | nil => rfl
  | cons b s ih =>
    rcases ends with empty | last
    · contradiction
    · by_cases empty : s = []
      · subst empty
        simp only [List.getLast?_singleton, Option.some.injEq] at last
        subst last
        simp [lines]
      · have tail : s.getLast? = some newline := by
          obtain ⟨c, s', rfl⟩ := List.exists_cons_of_ne_nil empty
          simpa using last
        have step := ih (Or.inr tail)
        have found : lines s ≠ [] := fun none => empty (lines_empty.mp none)
        rw [List.cons_append, lines, lines, step]
        split
        · rfl
        · obtain ⟨line, more, shape⟩ := List.exists_cons_of_ne_nil found
          rw [shape]
          rfl

theorem newline_cases (s : Bytes) :
    (∃ before rest, s = before ++ newline :: rest ∧ newline ∉ before) ∨ newline ∉ s := by
  by_cases member : newline ∈ s
  · exact Or.inl (List.eq_append_cons_of_mem member)
  · exact Or.inr member

theorem lines_cons {s line : Bytes} {more : List Bytes} (h : lines s = line :: more) :
    (∃ before rest, line = before ++ [newline] ∧ newline ∉ before ∧ more = lines rest) ∨
      (newline ∉ line ∧ more = []) := by
  rcases newline_cases s with ⟨before, rest, rfl, whole⟩ | whole
  · rw [lines_terminated whole, List.cons.injEq] at h
    exact Or.inl ⟨before, rest, h.1.symm, whole, h.2.symm⟩
  · have some : s ≠ [] := by
      intro empty
      rw [empty, lines] at h
      contradiction
    have one := lines_unfinished some whole []
    rw [List.append_nil, h, lines, List.cons.injEq] at one
    exact Or.inr ⟨by rw [one.1]; exact whole, one.2⟩

theorem lines_drop {s : Bytes} {before more : List Bytes} (h : lines s = before ++ more) :
    lines more.flatten = more := by
  induction before generalizing s with
  | nil => rw [← List.nil_append more, ← h, lines_join]
  | cons line before ih =>
    rcases lines_cons h with ⟨_, rest, _, _, tail⟩ | ⟨_, tail⟩
    · exact ih tail.symm
    · rw [(List.append_eq_nil_iff.mp tail).2]
      rfl

theorem lines_take {s : Bytes} {before more : List Bytes} (h : lines s = before ++ more) :
    lines before.flatten = before := by
  induction before generalizing s with
  | nil => rfl
  | cons line before ih =>
    rcases lines_cons h with ⟨first, rest, rfl, whole, tail⟩ | ⟨whole, tail⟩
    · rw [List.flatten_cons, List.append_assoc, List.singleton_append, lines_terminated whole,
        ih tail.symm]
    · have some : line ≠ [] := line_nonempty (by rw [h]; exact List.mem_cons_self)
      have one := lines_unfinished some whole []
      rw [(List.append_eq_nil_iff.mp tail).1, List.flatten_cons, List.flatten_nil, one]
      rfl

theorem line_length_cases (s : Bytes) :
    (∃ before rest, s = before ++ newline :: rest ∧ newline ∉ before ∧
        lineLength s = before.length + 1) ∨
      (newline ∉ s ∧ lineLength s = s.length) := by
  unfold lineLength
  cases found : s.findIdx? (· == newline) with
  | none =>
    refine Or.inr ⟨?_, rfl⟩
    rw [List.findIdx?_eq_none_iff] at found
    intro member
    have := found newline member
    simp at this
  | some position =>
    rw [List.findIdx?_eq_some_iff_getElem] at found
    obtain ⟨inside, here, before⟩ := found
    have here : s[position] = newline := by simpa using here
    refine Or.inl ⟨s.take position, s.drop (position + 1), ?_, ?_, ?_⟩
    · rw [← here, List.getElem_cons_drop, List.take_append_drop]
    · intro member
      obtain ⟨i, short, same⟩ := List.getElem_of_mem member
      rw [List.length_take] at short
      have := before i (by omega)
      rw [List.getElem_take] at same
      simp [same] at this
    · simp only [List.length_take]
      omega

theorem line_length_pos {s : Bytes} (some : s ≠ []) : 0 < lineLength s := by
  rcases line_length_cases s with ⟨_, _, _, _, length⟩ | ⟨_, length⟩
  · omega
  · exact length ▸ List.length_pos_iff.mpr some

end Lines
