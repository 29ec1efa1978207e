import TunnelAI.HttpReaders

/-!
What `read_http_head` computes, said of the lines of the stream alone: which
prefix is the head, and which error stands for which stream. How the stream is
cut into pieces does not occur.
-/
namespace HeadLimits
open StreamReader BufferedReader Lines HttpHead HttpReaders

def upToBlank (ls : List Bytes) : List Bytes :=
  ls.takeWhile (fun line => !isEnd line) ++ (ls.dropWhile fun line => !isEnd line).take 1

def behindBlank (ls : List Bytes) : Option (List Bytes) :=
  match ls.dropWhile fun line => !isEnd line with
  | [] => none
  | _ :: after => some after

theorem up_to_blank_end {line : Bytes} (blank : isEnd line = true) (rest : List Bytes) :
    upToBlank (line :: rest) = [line] ∧ behindBlank (line :: rest) = some rest := by
  simp [upToBlank, behindBlank, blank]

theorem up_to_blank_cons {line : Bytes} (header : isEnd line = false) (rest : List Bytes) :
    upToBlank (line :: rest) = line :: upToBlank rest ∧
      behindBlank (line :: rest) = behindBlank rest := by
  simp [upToBlank, behindBlank, header]

theorem blank_split {headers : List Bytes} {last : Bytes}
    (others : ∀ line ∈ headers, isEnd line = false) (blank : isEnd last = true)
    (after : List Bytes) :
    upToBlank (headers ++ last :: after) = headers ++ [last] ∧
      behindBlank (headers ++ last :: after) = some after := by
  induction headers with
  | nil => exact up_to_blank_end blank after
  | cons header headers ih =>
    obtain ⟨upTo, behind⟩ := up_to_blank_cons (others header List.mem_cons_self)
      (headers ++ last :: after)
    obtain ⟨upTo', behind'⟩ :=
      ih fun line member => others line (List.mem_cons_of_mem header member)
    rw [List.cons_append, upTo, behind, upTo', behind']
    exact ⟨rfl, rfl⟩

theorem blank_cases (ls : List Bytes) :
    (∃ headers last after, ls = headers ++ last :: after ∧
      (∀ line ∈ headers, isEnd line = false) ∧ isEnd last = true) ∨
      (∀ line ∈ ls, isEnd line = false) ∧ upToBlank ls = ls ∧ behindBlank ls = none := by
  induction ls with
  | nil => exact Or.inr ⟨by simp, rfl, rfl⟩
  | cons line rest ih =>
    cases blank : isEnd line with
    | true => exact Or.inl ⟨[], line, rest, rfl, by simp, blank⟩
    | false =>
      have first : ∀ ls, (∀ other ∈ ls, isEnd other = false) →
          ∀ other ∈ line :: ls, isEnd other = false := by
        intro ls others other member
        rcases List.mem_cons.mp member with rfl | member
        · exact blank
        · exact others other member
      rcases ih with ⟨headers, last, after, rfl, others, final⟩ | ⟨others, upTo, behind⟩
      · exact Or.inl ⟨line :: headers, last, after, rfl, first headers others, final⟩
      · obtain ⟨upTo', behind'⟩ := up_to_blank_cons blank rest
        exact Or.inr ⟨first rest others, by rw [upTo', upTo], by rw [behind', behind]⟩

theorem flat_header_lines_eq {head : Bytes} {headerBytes : Nat}
    (counted : headerBytes ≤ maxHeaderBytes) (ls : List Bytes) :
    flatHeaderLines head headerBytes ls =
      if headerBytes + (upToBlank ls).flatten.length > maxHeaderBytes then .error .headersTooLarge
      else match behindBlank ls with
        | none => .error endedEarly
        | some after => .ok (head ++ (upToBlank ls).flatten, after.flatten) := by
  induction ls generalizing head headerBytes with
  | nil =>
    have fits : ¬ headerBytes + (upToBlank []).flatten.length > maxHeaderBytes :=
      Nat.not_lt_of_le counted
    rw [if_neg fits]
    rfl
  | cons line rest ih =>
    rw [flatHeaderLines]
    cases blank : isEnd line with
    | true =>
      obtain ⟨upTo, behind⟩ := up_to_blank_end blank rest
      simp [upTo, behind]
    | false =>
      obtain ⟨upTo, behind⟩ := up_to_blank_cons blank rest
      rw [upTo, behind, List.flatten_cons, List.length_append, ← Nat.add_assoc]
      by_cases long : headerBytes + line.length > maxHeaderBytes
      · rw [if_pos long, if_pos (by omega)]
      · rw [if_neg long, if_neg (by simp), ih (Nat.le_of_not_lt long), List.append_assoc]

/-- The head of a stream and what is behind it. -/
def IsHead (s head rest : Bytes) : Prop :=
  ∃ first headers last after, lines s = first :: (headers ++ last :: after) ∧
    (∀ line ∈ headers, isEnd line = false) ∧ isEnd last = true ∧
    first.length ≤ maxRequestLineBytes ∧ (headers ++ [last]).flatten.length ≤ maxHeaderBytes ∧
    head = first ++ (headers ++ [last]).flatten ∧ rest = after.flatten

/-- The error for a stream without a head, with the reason for it. -/
inductive NoHead (s : Bytes) : HttpRequestError → Prop where
  | empty (nothing : s = []) : NoHead s endedEarly
  | longRequestLine (first ls) (shape : lines s = first :: ls)
      (long : first.length > maxRequestLineBytes) :
      NoHead s (.badRequest "request line too large")
  | longHeaders (first ls) (shape : lines s = first :: ls)
      (short : first.length ≤ maxRequestLineBytes)
      (long : (upToBlank ls).flatten.length > maxHeaderBytes) : NoHead s .headersTooLarge
  | unfinished (first ls) (shape : lines s = first :: ls)
      (short : first.length ≤ maxRequestLineBytes) (others : ∀ line ∈ ls, isEnd line = false)
      (fits : ls.flatten.length ≤ maxHeaderBytes) : NoHead s endedEarly

theorem flat_head_cases (s : Bytes) :
    (∃ head rest, flatHead s = .ok (head, rest) ∧ IsHead s head rest) ∨
      ∃ e, flatHead s = .error e ∧ NoHead s e := by
  unfold flatHead
  cases shape : lines s with
  | nil => exact Or.inr ⟨_, rfl, NoHead.empty (lines_empty.mp shape)⟩
  | cons first ls =>
    simp only
    by_cases long : first.length > maxRequestLineBytes
    · rw [if_pos long]
      exact Or.inr ⟨_, rfl, NoHead.longRequestLine first ls shape long⟩
    have short := Nat.le_of_not_lt long
    rw [if_neg long, flat_header_lines_eq (Nat.zero_le _), Nat.zero_add]
    by_cases large : (upToBlank ls).flatten.length > maxHeaderBytes
    · rw [if_pos large]
      exact Or.inr ⟨_, rfl, NoHead.longHeaders first ls shape short large⟩
    have fits := Nat.le_of_not_lt large
    rw [if_neg large]
    rcases blank_cases ls with ⟨headers, last, after, rfl, others, blank⟩ | ⟨others, upTo, behind⟩
    · obtain ⟨upTo, behind⟩ := blank_split others blank after
      rw [upTo] at fits
      rw [upTo, behind]
      exact Or.inl ⟨_, _, rfl, first, headers, last, after, shape, others, blank, short, fits,
        rfl, rfl⟩
    · rw [upTo] at fits
      rw [behind]
      exact Or.inr ⟨_, rfl, NoHead.unfinished first ls shape short others fits⟩

theorem is_head_flat {s head rest : Bytes} (found : IsHead s head rest) :
    flatHead s = .ok (head, rest) := by
  obtain ⟨first, headers, last, after, shape, others, blank, short, fits, rfl, rfl⟩ := found
  obtain ⟨upTo, behind⟩ := blank_split others blank after
  unfold flatHead
  rw [shape]
  simp only
  rw [if_neg (by omega), flat_header_lines_eq (Nat.zero_le _), upTo, behind, if_neg (by omega)]

theorem no_head_flat {s : Bytes} {e : HttpRequestError} (none : NoHead s e) :
    flatHead s = .error e := by
  unfold flatHead
  cases none with
  | empty nothing =>
    subst nothing
    rfl
  | longRequestLine first ls shape long =>
    rw [shape]
    exact if_pos long
  | longHeaders first ls shape short long =>
    rw [shape]
    simp only
    rw [if_neg (by omega), flat_header_lines_eq (Nat.zero_le _), if_pos (by omega)]
  | unfinished first ls shape short others fits =>
    rcases blank_cases ls with ⟨headers, last, after, split, _, blank⟩ | ⟨_, upTo, behind⟩
    · have member : last ∈ ls := by simp [split]
      rw [others last member] at blank
      contradiction
    · rw [shape]
      simp only
      rw [if_neg (by omega), flat_header_lines_eq (Nat.zero_le _), upTo, behind,
        if_neg (by omega)]

theorem flat_is_head {s head rest : Bytes} (found : flatHead s = .ok (head, rest)) :
    IsHead s head rest := by
  rcases flat_head_cases s with ⟨head', rest', found', isHead⟩ | ⟨e, failed, _⟩
  · rw [found, Except.ok.injEq, Prod.mk.injEq] at found'
    obtain ⟨rfl, rfl⟩ := found'
    exact isHead
  · rw [found] at failed
    contradiction

theorem read_head_no_head {r : BufReader} {e : HttpRequestError}
    (failed : readHttpHead r = .error e) : NoHead r.contents e := by
  have flat := read_http_head_flat r
  rw [failed, flat_error] at flat
  rcases flat_head_cases r.contents with ⟨head, rest, found, _⟩ | ⟨e', found, noHead⟩
  · rw [← flat] at found
    contradiction
  · rw [← flat, Except.error.injEq] at found
    exact found ▸ noHead

/-- `read_http_head` finds the head of what the stream holds and stops behind it,
    or fails for the reason that the stream gives, however it is cut. -/
theorem read_http_head_flat_iff (r : BufReader) :
    (∀ head rest, (∃ r', readHttpHead r = .ok (head, r') ∧ r'.contents = rest) ↔
      IsHead r.contents head rest) ∧
      ∀ e, readHttpHead r = .error e ↔ NoHead r.contents e := by
  constructor
  · intro head rest
    constructor
    · intro read
      obtain ⟨r', read, rfl⟩ := read
      exact flat_is_head (read_head_ok read)
    · intro isHead
      exact read_head_of_flat (is_head_flat isHead)
  · intro e
    constructor
    · exact read_head_no_head
    · intro noHead
      exact read_head_error (no_head_flat noHead)

end HeadLimits
