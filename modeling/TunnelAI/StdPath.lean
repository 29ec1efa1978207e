import TunnelAI.Library.StreamReader

/-!
Paths of the standard library on Unix, by their parent and their file name, with
the extension of a file name and its replacement.
-/
namespace StdPath
open StreamReader

/-- A path that ends in a file name, or one that does not: `/`, `..`, the empty path. -/
inductive Path where
  | named (parent name : Bytes)
  | nameless (parent : Option Bytes) (path : Bytes)
  deriving DecidableEq

def slash : UInt8 := 0x2f

def dot : UInt8 := 0x2e

def Path.bytes : Path → Bytes
  | .named parent name =>
    if parent = [] ∨ parent.getLast? = some slash then parent ++ name
    else parent ++ slash :: name
  | .nameless _ path => path

def Path.parent : Path → Option Bytes
  | .named parent _ => some parent
  | .nameless parent _ => parent

def Path.hasName : Path → Bool
  | .named _ _ => true
  | .nameless _ _ => false

def rsplitFileAtDot (name : Bytes) : Bytes × Option Bytes :=
  match name.reverse.dropWhile (· ≠ dot) with
  | [] => (name, none)
  | _ :: before =>
    if before = [] then (name, none)
    else (before.reverse, some (name.reverse.takeWhile (· ≠ dot)).reverse)

def Path.extension : Path → Option Bytes
  | .named _ name => (rsplitFileAtDot name).2
  | .nameless _ _ => none

def Path.withExtension (extension : Bytes) : Path → Path
  | .named parent name => .named parent ((rsplitFileAtDot name).1 ++ dot :: extension)
  | .nameless parent path => .nameless parent path

theorem rsplit_cases (name : Bytes) :
    rsplitFileAtDot name = (name, none) ∨
      ∃ before after, name = before ++ dot :: after ∧
        rsplitFileAtDot name = (before, some after) := by
  have shape := List.takeWhile_append_dropWhile (p := (· ≠ dot)) (l := name.reverse)
  unfold rsplitFileAtDot
  cases rest : name.reverse.dropWhile (· ≠ dot) with
  | nil => exact Or.inl rfl
  | cons last before =>
    by_cases first : before = []
    · exact Or.inl (if_pos first)
    · refine Or.inr ⟨before.reverse, (name.reverse.takeWhile (· ≠ dot)).reverse, ?_, if_neg first⟩
      have stop : last = dot := by
        have head := List.head?_dropWhile_not (· ≠ dot) name.reverse
        rw [rest] at head
        simpa using head
      have whole := congrArg List.reverse shape
      rw [rest, stop, List.reverse_reverse] at whole
      simpa using whole.symm

/-- A path keeps its name under a new extension exactly when that is its extension. -/
theorem with_extension_iff {path : Path} (hasName : path.hasName = true) (extension : Bytes) :
    path.withExtension extension = path ↔ path.extension = some extension := by
  cases path with
  | nameless parent path => simp [Path.hasName] at hasName
  | named parent name =>
    simp only [Path.withExtension, Path.extension, Path.named.injEq, true_and]
    rcases rsplit_cases name with whole | ⟨before, after, shape, split⟩
    · rw [whole]
      constructor
      · intro same
        have longer := congrArg List.length same
        simp only [List.length_append, List.length_cons] at longer
        omega
      · intro impossible
        simp at impossible
    · rw [split]
      conv_lhs => rw [shape]
      simp [eq_comm]

end StdPath
