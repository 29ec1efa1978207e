import Mathlib.Algebra.Group.Nat.Defs
import Mathlib.Data.List.TakeWhile
import TunnelAI.Library.StreamReader

/-!
The operations of `str` that the proxy uses on header values, on the characters
of a text.
-/
namespace StdText
open StreamReader

/-- The Unicode property `White_Space`, which `char::is_whitespace` tests. -/
def isWhitespace (c : Char) : Bool :=
  (0x09 ≤ c.toNat && c.toNat ≤ 0x0d) || c.toNat == 0x20 || c.toNat == 0x85 || c.toNat == 0xa0 ||
    c.toNat == 0x1680 || (0x2000 ≤ c.toNat && c.toNat ≤ 0x200a) || c.toNat == 0x2028 ||
    c.toNat == 0x2029 || c.toNat == 0x202f || c.toNat == 0x205f || c.toNat == 0x3000

def trim (s : List Char) : List Char :=
  ((s.dropWhile isWhitespace).reverse.dropWhile isWhitespace).reverse

def charToAsciiLowercase (c : Char) : Char :=
  if 'A'.toNat ≤ c.toNat ∧ c.toNat ≤ 'Z'.toNat then Char.ofNat (c.toNat + 32) else c

def eqIgnoreAsciiCase (s t : List Char) : Bool :=
  s.map charToAsciiLowercase == t.map charToAsciiLowercase

def digit (c : Char) : Option Nat :=
  if '0'.toNat ≤ c.toNat ∧ c.toNat ≤ '9'.toNat then some (c.toNat - '0'.toNat) else none

def digits (s : List Char) : Option Nat :=
  s.foldlM (fun value c => (digit c).map fun d => value * 10 + d) 0

/-- `str::parse::<usize>`: an optional plus sign and at least one digit. -/
def parseUsize (s : List Char) : Option Nat :=
  let body := match s with
    | '+' :: rest => rest
    | s => s
  if body = [] then none
  else (digits body).filter fun value => value < 2 ^ 64

theorem text_ascii {s : List Char} (ascii : ∀ c ∈ s, c.toNat < 128) :
    text (String.ofList s) = s.map fun c => UInt8.ofNat c.toNat := by
  have bytes : text (String.ofList s) = s.flatMap String.utf8EncodeChar := by
    simp [text, List.utf8Encode]
  rw [bytes]
  induction s with
  | nil => rfl
  | cons c s ih =>
    rw [List.flatMap_cons, List.map_cons]
    have single : c.utf8Size = 1 := by
      have small := ascii c List.mem_cons_self
      rw [Char.utf8Size_eq_one_iff, UInt32.le_iff_toNat_le]
      exact Nat.le_of_lt_succ small
    have tail := ih (fun c' member => ascii c' (List.mem_cons_of_mem c member))
    rw [String.utf8EncodeChar_eq_singleton single, tail (by simp [text, List.utf8Encode])]
    rfl

theorem drop_while_solid {s : List Char} (solid : ∀ c ∈ s, isWhitespace c = false) :
    s.dropWhile isWhitespace = s := by
  cases s with
  | nil => rfl
  | cons c s =>
    rw [List.dropWhile_cons_of_neg]
    simp [solid c List.mem_cons_self]

theorem trim_padded {u s v : List Char} (before : ∀ c ∈ u, isWhitespace c = true)
    (solid : ∀ c ∈ s, isWhitespace c = false) (after : ∀ c ∈ v, isWhitespace c = true) :
    trim (u ++ s ++ v) = s := by
  have last : ((s ++ v).reverse.dropWhile isWhitespace).reverse = s := by
    rw [List.reverse_append, List.dropWhile_append_of_pos, drop_while_solid, List.reverse_reverse]
    · intro c member
      exact solid c (List.mem_reverse.mp member)
    · intro c member
      exact after c (List.mem_reverse.mp member)
  unfold trim
  rw [List.append_assoc, List.dropWhile_append_of_pos before]
  cases s with
  | nil =>
    rw [List.nil_append, List.dropWhile_eq_nil_iff.mpr after]
    rfl
  | cons c s =>
    rw [List.cons_append, List.dropWhile_cons_of_neg (by simp [solid c List.mem_cons_self])]
    exact last

end StdText
