import Mathlib.Data.List.Infix

/-!
The windows of a list: its runs of a given number of neighbours, in order. Looking
for a pattern among the windows of its length finds it wherever it stands.
-/
namespace Windows
variable {α : Type}

def windows (n : Nat) : List α → List (List α)
  | [] => []
  | a :: s => if n ≤ s.length + 1 then (a :: s).take n :: windows n s else []

theorem windows_infix {n : Nat} {s window : List α} (member : window ∈ windows n s) :
    window <:+: s := by
  induction s with
  | nil => simp [windows] at member
  | cons a s ih =>
    unfold windows at member
    split at member
    · rcases List.mem_cons.mp member with rfl | later
      · exact (List.take_prefix n (a :: s)).isInfix
      · exact List.infix_cons (ih later)
    · simp at member

theorem mem_windows {pattern before after : List α} (some : pattern ≠ []) :
    pattern ∈ windows pattern.length (before ++ pattern ++ after) := by
  induction before with
  | nil =>
    obtain ⟨a, rest, rfl⟩ := List.exists_cons_of_ne_nil some
    rw [List.nil_append, List.cons_append, windows, if_pos (by simp)]
    have first : (a :: (rest ++ after)).take (a :: rest).length = a :: rest := by simp
    rw [first]
    exact List.mem_cons_self
  | cons b before ih =>
    have room : pattern.length ≤ (before ++ pattern ++ after).length + 1 := by
      simp only [List.length_append]
      omega
    rw [List.cons_append, List.cons_append, windows, if_pos room]
    exact List.mem_cons_of_mem _ ih

theorem mem_windows_iff {pattern s : List α} (some : pattern ≠ []) :
    pattern ∈ windows pattern.length s ↔ pattern <:+: s := by
  constructor
  · exact windows_infix
  · intro found
    obtain ⟨before, after, rfl⟩ := found
    exact mem_windows some

theorem windows_any_iff [BEq α] [LawfulBEq α] {pattern s : List α} (some : pattern ≠ []) :
    (windows pattern.length s).any (fun window => window == pattern) = true ↔ pattern <:+: s := by
  rw [List.any_eq_true, ← mem_windows_iff some]
  constructor
  · intro found
    obtain ⟨window, member, same⟩ := found
    exact eq_of_beq same ▸ member
  · intro member
    exact ⟨pattern, member, beq_self_eq_true pattern⟩

end Windows
