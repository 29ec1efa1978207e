import Mathlib.Data.List.Basic

/-!
Readers of a byte stream that take one byte at a time and keep no buffer. A
reader is a finite program: it has returned, it has failed, or it waits for a
byte. The same reader is run against a stream that has ended, where an early end
is an error, and resumed byte by byte on a stream that is still arriving.
-/
namespace StreamReader

abbrev Bytes := List UInt8

def text (s : String) : Bytes := s.toUTF8.data.toList

def fromUtf8 (bytes : Bytes) : Option String := String.fromUTF8? ⟨bytes.toArray⟩

abbrev Octets (n : Nat) := {bytes : Bytes // bytes.length = n}

inductive Reader (ε α : Type) where
  | done : α → Reader ε α
  | fail : ε → Reader ε α
  | byte : (UInt8 → Reader ε α) → Reader ε α

variable {ε α β : Type}

def Reader.bind : Reader ε α → (α → Reader ε β) → Reader ε β
  | .done a, f => f a
  | .fail e, _ => .fail e
  | .byte k, f => .byte fun b => (k b).bind f

instance : Monad (Reader ε) where
  pure := .done
  bind := Reader.bind

def Reader.ensure (holds : Prop) [Decidable holds] (otherwise : ε) : Reader ε Unit :=
  if holds then .done () else .fail otherwise

def readU8 : Reader ε UInt8 := .byte .done

def readU16 : Reader ε UInt16 := do
  let high ← readU8
  let low ← readU8
  return UInt16.ofNat (high.toNat * 256 + low.toNat)

def readExact : (n : Nat) → Reader ε (Octets n)
  | 0 => .done ⟨[], rfl⟩
  | n + 1 => .byte fun b =>
      (readExact n).bind fun rest => .done ⟨b :: rest.1, by simp [rest.2]⟩

def Reader.run (eof : ε) : Reader ε α → Bytes → Except ε (α × Bytes)
  | .done a, s => .ok (a, s)
  | .fail e, _ => .error e
  | .byte _, [] => .error eof
  | .byte k, b :: s => (k b).run eof s

/-- What is left of a reader that has taken exactly these bytes. -/
def Reader.after : Reader ε α → Bytes → Option (Reader ε α)
  | r, [] => some r
  | .byte k, b :: s => (k b).after s
  | .done _, _ :: _ => none
  | .fail _, _ :: _ => none

theorem fromUtf8_text (s : String) : fromUtf8 (text s) = some s := by
  unfold fromUtf8 String.fromUTF8?
  have valid : (ByteArray.mk (text s).toArray).IsValidUTF8 := by
    simpa [text] using s.isValidUTF8
  rw [dif_pos valid, Option.some.injEq]
  apply String.toByteArray_inj.mp
  rfl

theorem text_injective {s t : String} (same : text s = text t) : s = t := by
  have one := fromUtf8_text s
  rw [same, fromUtf8_text, Option.some.injEq] at one
  exact one.symm

theorem text_of_fromUtf8 {bytes : Bytes} {s : String} (h : fromUtf8 bytes = some s) :
    text s = bytes := by
  unfold fromUtf8 String.fromUTF8? at h
  split at h
  · rw [Option.some.injEq] at h
    subst h
    rfl
  · contradiction

@[simp] theorem bind_done (a : α) (f : α → Reader ε β) :
    (Reader.done a >>= f) = f a := rfl

@[simp] theorem bind_fail (e : ε) (f : α → Reader ε β) :
    (Reader.fail e >>= f) = .fail e := rfl

@[simp] theorem bind_byte (k : UInt8 → Reader ε α) (f : α → Reader ε β) :
    (Reader.byte k >>= f) = .byte fun b => k b >>= f := rfl

@[simp] theorem pure_done (a : α) : (pure a : Reader ε α) = .done a := rfl

@[simp] theorem run_done (eof : ε) (a : α) (s : Bytes) :
    (Reader.done a : Reader ε α).run eof s = .ok (a, s) := by cases s <;> rfl

@[simp] theorem run_fail (eof e : ε) (s : Bytes) :
    (Reader.fail e : Reader ε α).run eof s = .error e := by cases s <;> rfl

@[simp] theorem run_byte_nil (eof : ε) (k : UInt8 → Reader ε α) :
    (Reader.byte k).run eof [] = .error eof := rfl

@[simp] theorem run_byte_cons (eof : ε) (k : UInt8 → Reader ε α) (b : UInt8) (s : Bytes) :
    (Reader.byte k).run eof (b :: s) = (k b).run eof s := rfl

@[simp] theorem after_nil (r : Reader ε α) : r.after [] = some r := by cases r <;> rfl

@[simp] theorem after_byte_cons (k : UInt8 → Reader ε α) (b : UInt8) (s : Bytes) :
    (Reader.byte k).after (b :: s) = (k b).after s := rfl

theorem run_bind (eof : ε) (r : Reader ε α) (f : α → Reader ε β) (s : Bytes) :
    (r >>= f).run eof s =
      match r.run eof s with
      | .ok (a, rest) => (f a).run eof rest
      | .error e => .error e := by
  induction r generalizing s with
  | done a => simp
  | fail e => simp
  | byte k ih =>
    cases s with
    | nil => rfl
    | cons b s => exact ih b s

theorem run_bind_ok {eof : ε} {r : Reader ε α} {f : α → Reader ε β} {s rest : Bytes} {b : β}
    (h : (r >>= f).run eof s = .ok (b, rest)) :
    ∃ a mid, r.run eof s = .ok (a, mid) ∧ (f a).run eof mid = .ok (b, rest) := by
  rw [run_bind] at h
  cases first : r.run eof s with
  | error e => simp [first] at h
  | ok pair => exact ⟨pair.1, pair.2, rfl, by simpa [first] using h⟩

theorem after_append (r : Reader ε α) (s more : Bytes) :
    r.after (s ++ more) = (r.after s).bind fun rest => rest.after more := by
  induction r generalizing s with
  | done a => cases s <;> simp [Reader.after]
  | fail e => cases s <;> simp [Reader.after]
  | byte k ih =>
    cases s with
    | nil => simp
    | cons b s => exact ih b s

/-- A complete run is a resumed run that takes its bytes one by one and leaves
    the rest of the stream alone. -/
theorem run_ok_iff (eof : ε) (r : Reader ε α) (s rest : Bytes) (a : α) :
    r.run eof s = .ok (a, rest) ↔ ∃ taken, s = taken ++ rest ∧ r.after taken = some (.done a) := by
  induction r generalizing s with
  | done x =>
    constructor
    · intro h
      simp only [run_done, Except.ok.injEq, Prod.mk.injEq] at h
      exact ⟨[], by simp [h.2], by simp [h.1]⟩
    · intro h
      obtain ⟨taken, split, final⟩ := h
      cases taken with
      | nil => simp_all
      | cons b taken => simp [Reader.after] at final
  | fail e =>
    constructor
    · intro h; simp at h
    · intro h
      obtain ⟨taken, _, final⟩ := h
      cases taken <;> simp [Reader.after] at final
  | byte k ih =>
    cases s with
    | nil =>
      constructor
      · intro h; simp at h
      · intro h
        obtain ⟨taken, split, final⟩ := h
        have empty : taken = [] := (List.append_eq_nil_iff.mp split.symm).1
        subst empty
        simp at final
    | cons b s =>
      rw [run_byte_cons, ih b s]
      constructor
      · intro h
        obtain ⟨taken, split, final⟩ := h
        exact ⟨b :: taken, by simp [split], final⟩
      · intro h
        obtain ⟨taken, split, final⟩ := h
        cases taken with
        | nil => simp at final
        | cons c taken =>
          simp only [List.cons_append, List.cons.injEq] at split
          obtain ⟨same, split⟩ := split
          subst same
          exact ⟨taken, split, final⟩

theorem run_after (eof : ε) {r now : Reader ε α} {taken : Bytes} (h : r.after taken = some now)
    (more : Bytes) : r.run eof (taken ++ more) = now.run eof more := by
  induction r generalizing taken with
  | done a =>
    cases taken with
    | nil => rw [after_nil, Option.some.injEq] at h; rw [h, List.nil_append]
    | cons b taken => simp [Reader.after] at h
  | fail e =>
    cases taken with
    | nil => rw [after_nil, Option.some.injEq] at h; rw [h, List.nil_append]
    | cons b taken => simp [Reader.after] at h
  | byte k ih =>
    cases taken with
    | nil => rw [after_nil, Option.some.injEq] at h; rw [h, List.nil_append]
    | cons b taken => exact ih b h

theorem after_of_run (eof : ε) {r : Reader ε α} {s : Bytes} {a : α}
    (h : r.run eof s = .ok (a, [])) : r.after s = some (.done a) := by
  obtain ⟨taken, split, final⟩ := (run_ok_iff eof r s [] a).mp h
  rw [split, List.append_nil]
  exact final

theorem after_nonfinal_run (eof : ε) (r : Reader ε α) (taken : Bytes)
    (k : UInt8 → Reader ε α) (h : r.after taken = some (.byte k)) :
    r.run eof taken = .error eof := by
  induction r generalizing taken with
  | done a => cases taken <;> simp [Reader.after] at h
  | fail e => cases taken <;> simp [Reader.after] at h
  | byte k' ih =>
    cases taken with
    | nil => rfl
    | cons b taken => exact ih b taken h

theorem run_proper_prefix {eof : ε} {r : Reader ε α} {s more : Bytes} {a : α}
    (h : r.run eof (s ++ more) = .ok (a, [])) (proper : more ≠ []) :
    r.run eof s = .error eof := by
  obtain ⟨taken, split, final⟩ := (run_ok_iff eof r _ _ a).mp h
  rw [List.append_nil] at split
  rw [← split, after_append] at final
  cases mid : r.after s with
  | none => simp [mid] at final
  | some rest =>
    rw [mid, Option.bind_some] at final
    cases rest with
    | byte k => exact after_nonfinal_run eof r s k mid
    | done x => cases more with
      | nil => contradiction
      | cons b more => simp [Reader.after] at final
    | fail e => cases more with
      | nil => contradiction
      | cons b more => simp [Reader.after] at final

theorem run_ensure_bind (eof : ε) (holds : Prop) [Decidable holds] (otherwise : ε)
    (r : Unit → Reader ε β) (s : Bytes) :
    (Reader.ensure holds otherwise >>= r).run eof s =
      if holds then (r ()).run eof s else .error otherwise := by
  unfold Reader.ensure
  split <;> simp

@[simp] theorem run_readU8_nil (eof : ε) : (readU8 : Reader ε UInt8).run eof [] = .error eof := rfl

@[simp] theorem run_readU8_cons (eof : ε) (b : UInt8) (s : Bytes) :
    (readU8 : Reader ε UInt8).run eof (b :: s) = .ok (b, s) := by
  simp [readU8]

theorem run_readU8_bind (eof : ε) (r : UInt8 → Reader ε β) (s : Bytes) :
    (readU8 >>= r).run eof s =
      match s with
      | [] => .error eof
      | b :: rest => (r b).run eof rest := by
  cases s <;> simp [readU8]

theorem run_readU16_bind (eof : ε) (r : UInt16 → Reader ε β) (s : Bytes) :
    (readU16 >>= r).run eof s =
      match s with
      | high :: low :: rest =>
        (r (UInt16.ofNat (high.toNat * 256 + low.toNat))).run eof rest
      | _ => .error eof := by
  match s with
  | [] => rfl
  | [_] => rfl
  | _ :: _ :: _ => rfl

theorem run_readExact_append (eof : ε) {n : Nat} (bytes : Octets n) (s : Bytes) :
    (readExact n : Reader ε (Octets n)).run eof (bytes.1 ++ s) = .ok (bytes, s) := by
  induction n with
  | zero =>
    obtain ⟨bytes, size⟩ := bytes
    have empty : bytes = [] := List.length_eq_zero_iff.mp size
    subst empty
    simp [readExact]
  | succ n ih =>
    obtain ⟨bytes, size⟩ := bytes
    cases bytes with
    | nil => simp at size
    | cons b bytes =>
      have shorter : bytes.length = n := by simpa using size
      have tail := ih ⟨bytes, shorter⟩
      rw [readExact, List.cons_append, run_byte_cons]
      change ((readExact n : Reader ε (Octets n)) >>= _).run eof (bytes ++ s) = _
      rw [run_bind, tail]
      simp

theorem run_readExact_short (eof : ε) {n : Nat} {s : Bytes} (short : s.length < n) :
    (readExact n : Reader ε (Octets n)).run eof s = .error eof := by
  induction n generalizing s with
  | zero => omega
  | succ n ih =>
    cases s with
    | nil => rfl
    | cons b s =>
      have shorter : s.length < n := by simpa using short
      rw [readExact, run_byte_cons]
      change ((readExact n : Reader ε (Octets n)) >>= _).run eof s = _
      rw [run_bind, ih shorter]

theorem run_readExact_bind (eof : ε) (n : Nat) (r : Octets n → Reader ε β) (s : Bytes) :
    (readExact n >>= r).run eof s =
      if size : n ≤ s.length then (r ⟨s.take n, List.length_take_of_le size⟩).run eof (s.drop n)
      else .error eof := by
  rw [run_bind]
  by_cases size : n ≤ s.length
  · rw [dif_pos size]
    have whole := run_readExact_append eof (⟨s.take n, List.length_take_of_le size⟩ : Octets n)
      (s.drop n)
    rw [List.take_append_drop] at whole
    rw [whole]
  · rw [dif_neg size, run_readExact_short eof (Nat.lt_of_not_le size)]

end StreamReader
