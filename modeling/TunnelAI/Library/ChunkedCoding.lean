import TunnelAI.Library.StreamReader

/-!
The chunked transfer coding of HTTP/1.1. The decoder is an automaton that takes
one byte at a time: a size line with an optional extension, as many bytes as the
size says, and after a size of zero the trailer lines up to an empty one. What
comes after the end is left over.
-/
namespace ChunkedCoding
open StreamReader

def cr : UInt8 := 0x0d

def lf : UInt8 := 0x0a

def hexDigit (n : Nat) : UInt8 := UInt8.ofNat (if n < 10 then 0x30 + n else 0x57 + n)

def hexValue (byte : UInt8) : Option Nat :=
  if 0x30 ≤ byte.toNat ∧ byte.toNat ≤ 0x39 then some (byte.toNat - 0x30)
  else if 0x61 ≤ byte.toNat ∧ byte.toNat ≤ 0x66 then some (byte.toNat - 0x57)
  else if 0x41 ≤ byte.toNat ∧ byte.toNat ≤ 0x46 then some (byte.toNat - 0x37)
  else none

def lowerHex (n : Nat) : Bytes :=
  if n < 16 then [hexDigit n] else lowerHex (n / 16) ++ [hexDigit (n % 16)]

inductive Phase where
  | size : Option Nat → Phase
  | extension : Nat → Phase
  | sizeEnd : Nat → Phase
  | data : Nat → Phase
  | dataEnd
  | chunkEnd
  | lineStart
  | line
  | lineEnd
  | lastEnd
  | over
  | malformed
  deriving DecidableEq

structure Decoder where
  phase : Phase
  body : Bytes
  left : Bytes
  deriving DecidableEq

def Decoder.start : Decoder := ⟨.size none, [], []⟩

def nextSize (size : Option Nat) (byte : UInt8) : Phase :=
  match hexValue byte, size with
  | some d, none => .size (some d)
  | some d, some n => .size (some (n * 16 + d))
  | none, none => .malformed
  | none, some n =>
    if byte = cr then .sizeEnd n
    else if byte = 0x3b ∨ byte = 0x20 ∨ byte = 0x09 then .extension n
    else .malformed

def nextPhase (phase : Phase) (byte : UInt8) : Phase :=
  match phase with
  | .size size => nextSize size byte
  | .extension n => if byte = cr then .sizeEnd n else if byte = lf then .malformed else .extension n
  | .sizeEnd n => if byte = lf then (if n = 0 then .lineStart else .data n) else .malformed
  | .data n => if n ≤ 1 then .dataEnd else .data (n - 1)
  | .dataEnd => if byte = cr then .chunkEnd else .malformed
  | .chunkEnd => if byte = lf then .size none else .malformed
  | .lineStart => if byte = cr then .lastEnd else if byte = lf then .malformed else .line
  | .line => if byte = cr then .lineEnd else if byte = lf then .malformed else .line
  | .lineEnd => if byte = lf then .lineStart else .malformed
  | .lastEnd => if byte = lf then .over else .malformed
  | .over => .over
  | .malformed => .malformed

def Decoder.feed (d : Decoder) (byte : UInt8) : Decoder where
  phase := nextPhase d.phase byte
  body := match d.phase with
    | .data _ => d.body ++ [byte]
    | _ => d.body
  left := match d.phase with
    | .over => d.left ++ [byte]
    | _ => d.left

def Decoder.feedAll (d : Decoder) (s : Bytes) : Decoder := s.foldl Decoder.feed d

def decode (s : Bytes) : Decoder := Decoder.start.feedAll s

def Decoder.complete (d : Decoder) : Bool := d.phase == .over

def encodeChunk (chunk : Bytes) : Bytes := lowerHex chunk.length ++ [cr, lf] ++ chunk ++ [cr, lf]

def terminator : Bytes := [0x30, cr, lf, cr, lf]

theorem feed_append (d : Decoder) (s t : Bytes) : d.feedAll (s ++ t) = (d.feedAll s).feedAll t :=
  List.foldl_append

theorem feed_cons (d : Decoder) (b : UInt8) (s : Bytes) :
    d.feedAll (b :: s) = (d.feed b).feedAll s := rfl

theorem hex_value_digit {n : Nat} (small : n < 16) : hexValue (hexDigit n) = some n := by
  by_cases digit : n < 10
  · have value : (hexDigit n).toNat = 0x30 + n := by
      rw [hexDigit, if_pos digit, UInt8.toNat_ofNat']
      omega
    unfold hexValue
    rw [value, if_pos (by omega), Nat.add_sub_cancel_left]
  · have value : (hexDigit n).toNat = 0x57 + n := by
      rw [hexDigit, if_neg digit, UInt8.toNat_ofNat']
      omega
    unfold hexValue
    rw [value, if_neg (by omega), if_pos (by omega), Nat.add_sub_cancel_left]

theorem feed_lower_hex (n : Nat) (body left : Bytes) :
    (Decoder.mk (.size none) body left).feedAll (lowerHex n) =
      ⟨.size (some n), body, left⟩ := by
  induction n using Nat.strongRecOn with
  | ind n ih =>
    unfold lowerHex
    split
    · rename_i small
      simp [Decoder.feedAll, Decoder.feed, nextPhase, nextSize, hex_value_digit small]
    · have digit : n % 16 < 16 := Nat.mod_lt n (by omega)
      have whole : n / 16 * 16 + n % 16 = n := Nat.div_add_mod' n 16
      rw [feed_append, ih (n / 16) (by omega)]
      simp [Decoder.feedAll, Decoder.feed, nextPhase, nextSize, hex_value_digit digit, whole]

theorem feed_size_line (n : Nat) (body left : Bytes) :
    (Decoder.mk (.size none) body left).feedAll (lowerHex n ++ [cr, lf]) =
      ⟨if n = 0 then .lineStart else .data n, body, left⟩ := by
  rw [feed_append, feed_lower_hex]
  have other : hexValue cr = none := by decide
  simp [Decoder.feedAll, Decoder.feed, nextPhase, nextSize, other]

theorem feed_data {chunk : Bytes} (some : chunk ≠ []) (body left : Bytes) :
    (Decoder.mk (.data chunk.length) body left).feedAll chunk = ⟨.dataEnd, body ++ chunk, left⟩ := by
  induction chunk generalizing body with
  | nil => contradiction
  | cons b chunk ih =>
    rw [feed_cons]
    by_cases empty : chunk = []
    · subst empty
      simp [Decoder.feedAll, Decoder.feed, nextPhase]
    · have more := List.length_pos_iff.mpr empty
      have step : (Decoder.mk (.data (b :: chunk).length) body left).feed b =
          ⟨.data chunk.length, body ++ [b], left⟩ := by
        simp only [Decoder.feed, nextPhase, List.length_cons]
        rw [if_neg (by omega), Nat.add_sub_cancel]
      rw [step, ih empty]
      simp

theorem feed_chunk {chunk : Bytes} (some : chunk ≠ []) (body left : Bytes) :
    (Decoder.mk (.size none) body left).feedAll (encodeChunk chunk) =
      ⟨.size none, body ++ chunk, left⟩ := by
  have positive : chunk.length ≠ 0 := fun zero => some (List.length_eq_zero_iff.mp zero)
  unfold encodeChunk
  rw [feed_append, feed_append, feed_size_line, if_neg positive, feed_data some]
  simp [Decoder.feedAll, Decoder.feed, nextPhase]

theorem feed_terminator (body left : Bytes) :
    (Decoder.mk (.size none) body left).feedAll terminator = ⟨.over, body, left⟩ := by
  have zero : hexValue 0x30 = some 0 := by decide
  have other : hexValue cr = none := by decide
  simp [terminator, Decoder.feedAll, Decoder.feed, nextPhase, nextSize, zero, other]

/-- A chunk that holds nothing is written like the end of the body. -/
theorem encode_empty_chunk : encodeChunk [] = terminator := by
  have zero : lowerHex 0 = [0x30] := by
    unfold lowerHex
    rfl
  simp [encodeChunk, terminator, zero]

theorem feed_over (body left s : Bytes) :
    (Decoder.mk .over body left).feedAll s = ⟨.over, body, left ++ s⟩ := by
  induction s generalizing left with
  | nil => simp [Decoder.feedAll]
  | cons b s ih =>
    rw [feed_cons]
    simp only [Decoder.feed, nextPhase]
    rw [ih]
    simp

theorem feed_chunks {chunks : List Bytes} (some : ∀ chunk ∈ chunks, chunk ≠ []) (body left : Bytes) :
    (Decoder.mk (.size none) body left).feedAll (chunks.flatMap encodeChunk) =
      ⟨.size none, body ++ chunks.flatten, left⟩ := by
  induction chunks generalizing body with
  | nil => simp [Decoder.feedAll]
  | cons chunk chunks ih =>
    rw [List.flatMap_cons, feed_append, feed_chunk (some chunk (by simp)),
      ih fun other member => some other (by simp [member])]
    simp

end ChunkedCoding
