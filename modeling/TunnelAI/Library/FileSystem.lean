import Mathlib.Logic.Function.Basic

/-!
Files and their names. A file keeps its number whatever name it has, so that a
handle on it outlives a rename or a removal. Each operation is one step; what it
leaves alone is a lemma of its own.
-/
namespace FileSystems
variable {Name : Type}

def Below (bound : Nat) (links : Name → Option Nat) : Prop :=
  ∀ name file, links name = some file → file < bound

theorem Below.mono {bound larger : Nat} {links : Name → Option Nat} (held : Below bound links)
    (le : bound ≤ larger) : Below larger links := by
  intro name file linked
  exact Nat.lt_of_lt_of_le (held name file linked) le

theorem Below.update [DecidableEq Name] {bound : Nat} {links : Name → Option Nat}
    (held : Below bound links) (name : Name) {value : Option Nat}
    (new : ∀ file, value = some file → file < bound) :
    Below bound (Function.update links name value) := by
  intro other file linked
  by_cases same : other = name
  · subst same
    rw [Function.update_self] at linked
    exact new file linked
  · rw [Function.update_of_ne same] at linked
    exact held other file linked

structure FileSystem (Name : Type) where
  links : Name → Option Nat
  contents : Nat → List UInt8
  next : Nat
  fresh : Below next links

namespace FileSystem

def empty : FileSystem Name where
  links _ := none
  contents _ := []
  next := 0
  fresh := by
    intro name file linked
    contradiction

def write (files : FileSystem Name) (file : Nat) (bytes : List UInt8) : FileSystem Name :=
  { files with contents := Function.update files.contents file (files.contents file ++ bytes) }

variable [DecidableEq Name]

def create (files : FileSystem Name) (name : Name) : FileSystem Name where
  links := Function.update files.links name (some files.next)
  contents := Function.update files.contents files.next []
  next := files.next + 1
  fresh := by
    apply (files.fresh.mono (Nat.le_succ files.next)).update name
    intro file same
    rw [Option.some.injEq] at same
    omega

def unlink (files : FileSystem Name) (name : Name) : FileSystem Name :=
  { files with
    links := Function.update files.links name none
    fresh := by
      apply files.fresh.update name
      intro file impossible
      contradiction }

/-- The file under the first name gets the second one, whatever had it before; two
    names of one file are left as they are. -/
def rename (files : FileSystem Name) (source target : Name) : FileSystem Name :=
  if files.links source = files.links target then files
  else { files with
    links := Function.update (Function.update files.links target (files.links source)) source none
    fresh := by
      apply (files.fresh.update target (files.fresh source)).update source
      intro file impossible
      contradiction }

end FileSystem

variable {files : FileSystem Name} {name other : Name}

theorem write_contents {file another : Nat} (apart : another ≠ file) (bytes : List UInt8) :
    (files.write file bytes).contents another = files.contents another :=
  Function.update_of_ne apart _ _

theorem write_contents_self (file : Nat) (bytes : List UInt8) :
    (files.write file bytes).contents file = files.contents file ++ bytes :=
  Function.update_self _ _ _

variable [DecidableEq Name]

theorem create_links (apart : other ≠ name) : (files.create name).links other = files.links other :=
  Function.update_of_ne apart _ _

theorem create_links_self : (files.create name).links name = some files.next :=
  Function.update_self _ _ _

theorem create_contents {file : Nat} (old : file < files.next) :
    (files.create name).contents file = files.contents file :=
  Function.update_of_ne (Nat.ne_of_lt old) _ _

theorem create_contents_self : (files.create name).contents files.next = [] :=
  Function.update_self _ _ _

theorem unlink_links (apart : other ≠ name) : (files.unlink name).links other = files.links other :=
  Function.update_of_ne apart _ _

theorem rename_links (source target : Name) (apart : target ≠ source) :
    (files.rename source target).links target = files.links source := by
  unfold FileSystem.rename
  split
  · rename_i same
    exact same.symm
  · simp only
    rw [Function.update_of_ne apart, Function.update_self]

theorem rename_contents (source target : Name) (file : Nat) :
    (files.rename source target).contents file = files.contents file := by
  unfold FileSystem.rename
  split <;> rfl

theorem rename_next (source target : Name) : (files.rename source target).next = files.next := by
  unfold FileSystem.rename
  split <;> rfl

end FileSystems
