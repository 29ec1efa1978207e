import TunnelAI.Library.StreamReader

/-!
A buffered reader over a stream that arrives in pieces. How the stream is cut
is part of the reader's state; what it will ever deliver is its contents, and
the laws here say what each operation does to them. A read that wants at least
as much as the buffer holds goes past an empty buffer.
-/
namespace BufferedReader
open StreamReader

/-- What one read of the stream brings. Only the end of the stream brings nothing. -/
abbrev Piece := {bytes : Bytes // bytes ≠ []}

def pieceBytes (pieces : List Piece) : Bytes := pieces.flatMap (·.1)

theorem piece_bytes_empty {pieces : List Piece} : pieceBytes pieces = [] ↔ pieces = [] := by
  cases pieces with
  | nil => simp [pieceBytes]
  | cons piece pieces => simp [pieceBytes, piece.2]

theorem piece_bytes_append (front back : List Piece) :
    pieceBytes (front ++ back) = pieceBytes front ++ pieceBytes back :=
  List.flatMap_append

def bytewise (s : Bytes) : List Piece := s.map fun byte => ⟨[byte], List.cons_ne_nil byte []⟩

theorem bytewise_bytes (s : Bytes) : pieceBytes (bytewise s) = s := by
  induction s with
  | nil => rfl
  | cons byte s ih =>
    have first : pieceBytes (bytewise (byte :: s)) = [byte] ++ pieceBytes (bytewise s) := rfl
    rw [first, ih]
    rfl

def readPiece (n : Nat) : List Piece → Bytes × List Piece
  | [] => ([], [])
  | piece :: pieces =>
    if left : piece.1.drop n ≠ [] then (piece.1.take n, ⟨piece.1.drop n, left⟩ :: pieces)
    else (piece.1, pieces)

theorem read_piece_bytes (n : Nat) (pieces : List Piece) :
    (readPiece n pieces).1 ++ pieceBytes (readPiece n pieces).2 = pieceBytes pieces := by
  cases pieces with
  | nil => rfl
  | cons piece pieces =>
    simp only [readPiece]
    split
    · simp only [pieceBytes, List.flatMap_cons, ← List.append_assoc, List.take_append_drop]
    · simp only [pieceBytes, List.flatMap_cons]

theorem read_piece_size (n : Nat) (pieces : List Piece) :
    (readPiece n pieces).1.length ≤ n := by
  cases pieces with
  | nil => exact Nat.zero_le n
  | cons piece pieces =>
    simp only [readPiece]
    split
    · exact List.length_take_le n _
    · rename_i all
      simpa using all

theorem read_piece_empty {n : Nat} (room : 0 < n) (pieces : List Piece) :
    (readPiece n pieces).1 = [] ↔ pieceBytes pieces = [] := by
  cases pieces with
  | nil => simp [readPiece, pieceBytes]
  | cons piece pieces =>
    have some := piece.2
    have positive : n ≠ 0 := by omega
    have whole : pieceBytes (piece :: pieces) ≠ [] := by simp [pieceBytes, some]
    simp only [readPiece]
    split
    · simp [whole, some, positive]
    · simp [whole, some]

structure BufReader where
  capacity : Nat
  positive : 0 < capacity
  buffer : Bytes
  source : List Piece

def defaultCapacity : Nat := 8 * 1024

def BufReader.new (pieces : List Piece) : BufReader :=
  ⟨defaultCapacity, by decide, [], pieces⟩

def BufReader.contents (r : BufReader) : Bytes := r.buffer ++ pieceBytes r.source

def BufReader.fillBuf (r : BufReader) : BufReader :=
  if r.buffer = [] then
    { r with
      buffer := (readPiece r.capacity r.source).1
      source := (readPiece r.capacity r.source).2 }
  else r

def BufReader.consume (r : BufReader) (n : Nat) : BufReader :=
  { r with buffer := r.buffer.drop n }

def BufReader.pollRead (r : BufReader) (n : Nat) : Bytes × BufReader :=
  if r.buffer = [] ∧ r.capacity ≤ n then
    ((readPiece n r.source).1, { r with source := (readPiece n r.source).2 })
  else (r.fillBuf.buffer.take n, r.fillBuf.consume n)

theorem new_contents (pieces : List Piece) : (BufReader.new pieces).contents = pieceBytes pieces :=
  rfl

@[simp] theorem fill_buf_contents (r : BufReader) : r.fillBuf.contents = r.contents := by
  unfold BufReader.fillBuf
  split
  · rename_i empty
    simp only [BufReader.contents, read_piece_bytes, empty, List.nil_append]
  · rfl

theorem fill_buf_empty (r : BufReader) : r.fillBuf.buffer = [] ↔ r.contents = [] := by
  unfold BufReader.fillBuf
  split
  · rename_i empty
    simp [BufReader.contents, empty, read_piece_empty r.positive]
  · rename_i some
    simp [BufReader.contents, some]

theorem consume_contents (r : BufReader) (n : Nat) :
    r.contents = r.buffer.take n ++ (r.consume n).contents := by
  simp only [BufReader.contents, BufReader.consume, ← List.append_assoc, List.take_append_drop]

theorem poll_read_contents (r : BufReader) (n : Nat) :
    r.contents = (r.pollRead n).1 ++ (r.pollRead n).2.contents := by
  unfold BufReader.pollRead
  split
  · rename_i direct
    simp only [BufReader.contents, direct.1, List.nil_append, read_piece_bytes]
  · rw [← fill_buf_contents r]
    simp only [BufReader.contents, BufReader.consume, ← List.append_assoc, List.take_append_drop]

theorem poll_read_size (r : BufReader) (n : Nat) : (r.pollRead n).1.length ≤ n := by
  unfold BufReader.pollRead
  split
  · exact read_piece_size n r.source
  · exact List.length_take_le n _

theorem poll_read_empty {n : Nat} (room : 0 < n) (r : BufReader) :
    (r.pollRead n).1 = [] ↔ r.contents = [] := by
  unfold BufReader.pollRead
  split
  · rename_i direct
    simp [BufReader.contents, direct.1, read_piece_empty room]
  · have positive : n ≠ 0 := by omega
    simp [positive, fill_buf_empty]

def BufReader.readExact (r : BufReader) (n : Nat) : Option (Bytes × BufReader) :=
  if n = 0 then some ([], r)
  else if (r.pollRead n).1 = [] then none
  else
    ((r.pollRead n).2.readExact (n - (r.pollRead n).1.length)).map
      fun rest => ((r.pollRead n).1 ++ rest.1, rest.2)
termination_by n
decreasing_by
  rename_i more
  have got := List.length_pos_iff.mpr more
  omega

theorem read_exact_some {r r' : BufReader} {n : Nat} {bytes : Bytes}
    (h : r.readExact n = some (bytes, r')) :
    bytes.length = n ∧ r.contents = bytes ++ r'.contents := by
  induction n using Nat.strongRecOn generalizing r bytes with
  | ind n ih =>
    unfold BufReader.readExact at h
    split at h
    · rename_i done
      simp only [Option.some.injEq, Prod.mk.injEq] at h
      obtain ⟨rfl, rfl⟩ := h
      simp [done]
    · split at h
      · contradiction
      · rename_i positive more
        have got := List.length_pos_iff.mpr more
        have size := poll_read_size r n
        rw [Option.map_eq_some_iff] at h
        obtain ⟨⟨rest, last⟩, read, found⟩ := h
        rw [Prod.mk.injEq] at found
        obtain ⟨rfl, rfl⟩ := found
        obtain ⟨length, split⟩ := ih _ (by omega) read
        refine ⟨?_, ?_⟩
        · rw [List.length_append, length]
          omega
        · rw [poll_read_contents r n, split, List.append_assoc]

theorem read_exact_none {r : BufReader} {n : Nat} :
    r.readExact n = none ↔ r.contents.length < n := by
  induction n using Nat.strongRecOn generalizing r with
  | ind n ih =>
    unfold BufReader.readExact
    split
    · rename_i done
      simp [done]
    · rename_i positive
      have room : 0 < n := by omega
      split
      · rename_i ended
        simp [(poll_read_empty room r).mp ended, room]
      · rename_i more
        have got := List.length_pos_iff.mpr more
        have size := poll_read_size r n
        rw [Option.map_eq_none_iff, ih _ (by omega), poll_read_contents r n, List.length_append]
        omega

/-- The reader delivers its contents in order, however they are cut. -/
theorem read_exact_prefix {r : BufReader} {n : Nat} (enough : n ≤ r.contents.length) :
    ∃ r', r.readExact n = some (r.contents.take n, r') ∧ r'.contents = r.contents.drop n := by
  cases found : r.readExact n with
  | none =>
    have short := read_exact_none.mp found
    omega
  | some read =>
    obtain ⟨bytes, r'⟩ := read
    obtain ⟨rfl, split⟩ := read_exact_some found
    exact ⟨r', by rw [split, List.take_left], by rw [split, List.drop_left]⟩

theorem read_piece_tail (n : Nat) (piece : Piece) (pieces : List Piece) :
    pieces <:+ (readPiece n (piece :: pieces)).2 := by
  simp only [readPiece]
  split
  · exact List.suffix_cons _ _
  · exact List.suffix_rfl

theorem read_piece_suffix {front back : List Piece} (n : Nat) (some : front ≠ []) :
    back <:+ (readPiece n (front ++ back)).2 := by
  cases front with
  | nil => contradiction
  | cons piece front =>
    exact (List.suffix_append front back).trans (read_piece_tail n piece (front ++ back))

theorem read_piece_whole {n : Nat} {piece : Piece} (room : piece.1.length ≤ n)
    (pieces : List Piece) : readPiece n (piece :: pieces) = (piece.1, pieces) := by
  simp only [readPiece]
  rw [dif_neg (by simp [room])]

theorem contents_unbuffered {r : BufReader} (empty : r.buffer = []) :
    r.contents = pieceBytes r.source := by
  rw [BufReader.contents, empty, List.nil_append]

theorem filled_source {r : BufReader} (some : r.buffer ≠ []) : r.fillBuf = r := by
  rw [BufReader.fillBuf, if_neg some]

theorem refilled_source {r : BufReader} (empty : r.buffer = []) :
    r.fillBuf = { r with
      buffer := (readPiece r.capacity r.source).1
      source := (readPiece r.capacity r.source).2 } := by
  rw [BufReader.fillBuf, if_pos empty]

theorem consume_filled_shorter {r : BufReader} {n : Nat} (room : 0 < n) (more : r.contents ≠ []) :
    (r.fillBuf.consume n).contents.length < r.contents.length := by
  have whole := consume_contents r.fillBuf n
  have some : r.fillBuf.buffer ≠ [] := fun empty => more ((fill_buf_empty r).mp empty)
  have held := List.length_pos_iff.mpr some
  rw [fill_buf_contents] at whole
  rw [whole, List.length_append, List.length_take]
  omega

theorem poll_read_shorter {r : BufReader} {n : Nat} (room : 0 < n) (more : r.contents ≠ []) :
    (r.pollRead n).2.contents.length < r.contents.length := by
  have some : (r.pollRead n).1 ≠ [] := fun empty => more ((poll_read_empty room r).mp empty)
  have taken := List.length_pos_iff.mpr some
  have whole := congrArg List.length (poll_read_contents r n)
  rw [List.length_append] at whole
  omega

@[simp] theorem fill_buf_capacity (r : BufReader) : r.fillBuf.capacity = r.capacity := by
  unfold BufReader.fillBuf
  split <;> rfl

@[simp] theorem consume_capacity (r : BufReader) (n : Nat) :
    (r.consume n).capacity = r.capacity := rfl

theorem poll_read_capacity (r : BufReader) (n : Nat) :
    (r.pollRead n).2.capacity = r.capacity := by
  unfold BufReader.pollRead
  split
  · rfl
  · rw [consume_capacity, fill_buf_capacity]

theorem poll_read_direct {r : BufReader} {n : Nat} (empty : r.buffer = []) (room : r.capacity ≤ n) :
    (r.pollRead n).2 = { r with source := (readPiece n r.source).2 } := by
  rw [BufReader.pollRead, if_pos ⟨empty, room⟩]

theorem poll_read_filled {r : BufReader} {n : Nat} (buffered : ¬ (r.buffer = [] ∧ r.capacity ≤ n)) :
    (r.pollRead n).2 = r.fillBuf.consume n := by
  rw [BufReader.pollRead, if_neg buffered]

/-- A property of the reader that no read destroys, through the buffer or past it. -/
structure Kept (holds : BufReader → Prop) : Prop where
  filled : ∀ r n, holds r → (r.fillBuf.consume n).contents.length < r.contents.length →
    holds (r.fillBuf.consume n)
  direct : ∀ r n, holds r → r.buffer = [] → r.capacity ≤ n →
    (r.pollRead n).2.contents.length < r.contents.length → holds (r.pollRead n).2
  ended : ∀ r r', holds r → r'.capacity = r.capacity → r'.contents = [] → holds r'

theorem kept_poll_read {holds : BufReader → Prop} (kept : Kept holds) {r : BufReader} {n : Nat}
    (room : 0 < n) (before : holds r) : holds (r.pollRead n).2 := by
  by_cases none : r.contents = []
  · have split := poll_read_contents r n
    rw [none] at split
    exact kept.ended r _ before (poll_read_capacity r n) (List.append_eq_nil_iff.mp split.symm).2
  have shorter := poll_read_shorter room none
  by_cases direct : r.buffer = [] ∧ r.capacity ≤ n
  · exact kept.direct r n before direct.1 direct.2 shorter
  · rw [poll_read_filled direct] at shorter ⊢
    exact kept.filled r n before shorter

theorem kept_read_exact {holds : BufReader → Prop} (kept : Kept holds) {r r' : BufReader} {n : Nat}
    {bytes : Bytes} (before : holds r) (h : r.readExact n = some (bytes, r')) : holds r' := by
  induction n using Nat.strongRecOn generalizing r bytes with
  | ind n ih =>
    unfold BufReader.readExact at h
    split at h
    · simp only [Option.some.injEq, Prod.mk.injEq] at h
      exact h.2 ▸ before
    · rename_i positive
      split at h
      · contradiction
      · rename_i more
        have got := List.length_pos_iff.mpr more
        rw [Option.map_eq_some_iff] at h
        obtain ⟨⟨rest, last⟩, read, found⟩ := h
        rw [Prod.mk.injEq] at found
        obtain ⟨_, rfl⟩ := found
        exact ih _ (by omega) (kept_poll_read kept (by omega) before) read

def Aligned (back : List Piece) (r : BufReader) : Prop :=
  (pieceBytes back).length ≤ r.contents.length → back <:+ r.source

theorem front_unread {r : BufReader} {front back : List Piece} (empty : r.buffer = [])
    (shape : front ++ back = r.source) (more : (pieceBytes back).length < r.contents.length) :
    front ≠ [] := by
  intro none
  rw [contents_unbuffered empty, ← shape, none, List.nil_append] at more
  exact Nat.lt_irrefl _ more

theorem aligned_kept (back : List Piece) : Kept (Aligned back) where
  filled := by
    intro r n before shorter enough
    obtain ⟨front, shape⟩ := before (by omega)
    by_cases empty : r.buffer = []
    · rw [refilled_source empty, ← shape]
      exact read_piece_suffix r.capacity (front_unread empty shape (by omega))
    · rw [filled_source empty]
      exact ⟨front, shape⟩
  direct := by
    intro r n before empty room shorter enough
    obtain ⟨front, shape⟩ := before (by omega)
    rw [poll_read_direct empty room, ← shape]
    exact read_piece_suffix n (front_unread empty shape (by omega))
  ended := by
    intro r r' _ _ none enough
    rw [none] at enough
    have empty : back = [] :=
      piece_bytes_empty.mp (List.length_eq_zero_iff.mp (Nat.le_zero.mp enough))
    exact empty ▸ List.nil_suffix

theorem aligned_drained {back : List Piece} {r : BufReader} (aligned : Aligned back r)
    (left : r.contents = pieceBytes back) : r.buffer = [] := by
  obtain ⟨front, shape⟩ := aligned (Nat.le_of_eq (by rw [left]))
  have whole : r.buffer ++ (pieceBytes front ++ pieceBytes back) = pieceBytes back := by
    rw [← piece_bytes_append, shape]
    exact left
  rw [← List.append_assoc] at whole
  exact (List.append_eq_nil_iff.mp (List.append_left_eq_self.mp whole)).1

/-- While `behind` bytes more than `back` are still to come, either the piece before
    `back` has not been read or an end of this piece, which fits, is in the buffer. -/
def Overlapping (piece : Piece) (behind : Nat) (back : List Piece) (r : BufReader) : Prop :=
  piece.1.length ≤ r.capacity ∧
    (behind + (pieceBytes back).length ≤ r.contents.length →
      piece :: back <:+ r.source ∨ r.buffer ≠ [] ∧ r.source = back)

theorem overlapping_kept (piece : Piece) {behind : Nat} (some : 0 < behind) (back : List Piece) :
    Kept (Overlapping piece behind back) where
  filled := by
    intro r n before shorter
    obtain ⟨small, before⟩ := before
    refine ⟨by simpa using small, ?_⟩
    intro enough
    have left : (r.fillBuf.consume n).source = back → (r.fillBuf.consume n).buffer ≠ [] := by
      intro source empty
      rw [contents_unbuffered empty, source] at enough
      omega
    by_cases empty : r.buffer = []
    · rcases before (by omega) with ⟨front, shape⟩ | ⟨held, _⟩
      · cases front with
        | nil =>
          have source : (r.fillBuf.consume n).source = back := by
            rw [refilled_source empty, ← shape]
            exact congrArg Prod.snd (read_piece_whole small back)
          exact Or.inr ⟨left source, source⟩
        | cons first front =>
          left
          rw [refilled_source empty, ← shape]
          exact read_piece_suffix r.capacity (List.cons_ne_nil first front)
      · contradiction
    · have source : (r.fillBuf.consume n).source = r.source := by
        rw [filled_source empty]
        rfl
      rcases before (by omega) with unread | ⟨_, read⟩
      · exact Or.inl (source ▸ unread)
      · exact Or.inr ⟨left (source.trans read), source.trans read⟩
  direct := by
    intro r n before empty room shorter
    obtain ⟨small, before⟩ := before
    refine ⟨by rwa [poll_read_capacity], ?_⟩
    intro enough
    have after := poll_read_direct empty room
    rcases before (by omega) with ⟨front, shape⟩ | ⟨held, _⟩
    · cases front with
      | nil =>
        have read : readPiece n r.source = (piece.1, back) := by
          rw [← shape]
          exact read_piece_whole (Nat.le_trans small room) back
        have drained : (r.pollRead n).2.contents = pieceBytes back := by
          rw [after, read, BufReader.contents, empty, List.nil_append]
        rw [drained] at enough
        omega
      | cons first front =>
        left
        rw [after, ← shape]
        exact read_piece_suffix n (List.cons_ne_nil first front)
    · contradiction
  ended := by
    intro r r' before capacity none
    refine ⟨by rw [capacity]; exact before.1, ?_⟩
    intro enough
    rw [none, List.length_nil] at enough
    omega

theorem overlapping_held {piece : Piece} {rest : Bytes} {back : List Piece} {r : BufReader}
    (overlapping : Overlapping piece rest.length back r)
    (begun : rest.length < piece.1.length) (left : r.contents = rest ++ pieceBytes back) :
    r.buffer ≠ [] := by
  have length : rest.length + (pieceBytes back).length = r.contents.length := by
    rw [left, List.length_append]
  rcases overlapping.2 (Nat.le_of_eq length) with ⟨front, shape⟩ | ⟨held, _⟩
  · exfalso
    rw [BufReader.contents, ← shape, piece_bytes_append] at length
    simp only [pieceBytes, List.flatMap_cons, List.length_append] at length
    omega
  · exact held

end BufferedReader
