import Mathlib.Data.List.Forall2
import Mathlib.Data.List.Induction

/-!
Computations that may fail: what a success of a sequence of steps says about
each of them.
-/
namespace Fallible
variable {ε α β σ : Type}

theorem bind_ok_iff {x : Except ε α} {f : α → Except ε β} {b : β} :
    (x >>= f) = .ok b ↔ ∃ a, x = .ok a ∧ f a = .ok b := by
  cases x with
  | error e =>
    constructor
    · intro h
      cases h
    · intro h
      obtain ⟨a, impossible, _⟩ := h
      cases impossible
  | ok a =>
    constructor
    · intro h
      exact ⟨a, rfl, h⟩
    · intro h
      obtain ⟨a', same, h⟩ := h
      cases same
      exact h

@[simp] theorem ok_bind (a : α) (f : α → Except ε β) : (Except.ok a >>= f) = f a := rfl

@[simp] theorem error_bind (e : ε) (f : α → Except ε β) :
    (Except.error e >>= f) = .error e := rfl

theorem bind_ok {x : Except ε α} {f : α → Except ε β} {b : β} (h : (x >>= f) = .ok b) :
    ∃ a, x = .ok a ∧ f a = .ok b := bind_ok_iff.mp h

def FailsWith (allowed : ε → Prop) (x : Except ε α) : Prop := ∀ e, x = .error e → allowed e

theorem fails_with_ok {allowed : ε → Prop} (a : α) :
    FailsWith allowed (Except.ok a : Except ε α) := by
  intro e impossible
  cases impossible

theorem fails_with_error {allowed : ε → Prop} {e : ε} (fits : allowed e) :
    FailsWith allowed (Except.error e : Except ε α) := by
  intro e' same
  cases same
  exact fits

theorem fails_with_bind {allowed : ε → Prop} {x : Except ε α} {f : α → Except ε β}
    (first : FailsWith allowed x) (rest : ∀ a, x = .ok a → FailsWith allowed (f a)) :
    FailsWith allowed (x >>= f) := by
  intro e failed
  cases found : x with
  | error e' =>
    rw [found] at failed
    cases failed
    exact first _ found
  | ok a =>
    rw [found] at failed
    exact rest a found e failed

theorem fails_with_fold {allowed : ε → Prop} {step : σ → α → Except ε σ}
    (steps : ∀ s a, FailsWith allowed (step s a)) (xs : List α) (s : σ) :
    FailsWith allowed (xs.foldlM step s) := by
  induction xs generalizing s with
  | nil => exact fails_with_ok s
  | cons x xs ih =>
    rw [List.foldlM_cons]
    exact fails_with_bind (steps s x) fun s' _ => ih s'

def require (holds : Prop) [Decidable holds] (otherwise : ε) : Except ε Unit :=
  if holds then .ok () else .error otherwise

theorem require_ok_iff {holds : Prop} [Decidable holds] {otherwise : ε} {done : Unit} :
    require holds otherwise = .ok done ↔ holds := by
  unfold require
  split
  · rename_i met
    exact ⟨fun _ => met, fun _ => rfl⟩
  · rename_i unmet
    constructor
    · intro impossible
      cases impossible
    · intro met
      contradiction

theorem require_met {holds : Prop} [Decidable holds] (met : holds) (otherwise : ε) :
    require holds otherwise = .ok () := if_pos met

theorem require_unmet {holds : Prop} [Decidable holds] (unmet : ¬ holds) (otherwise : ε) :
    require holds otherwise = .error otherwise := if_neg unmet

theorem fails_with_require {allowed : ε → Prop} {holds : Prop} [Decidable holds] {otherwise : ε}
    (fits : allowed otherwise) : FailsWith allowed (require holds otherwise) := by
  unfold require
  split
  · exact fails_with_ok ()
  · exact fails_with_error fits

theorem fold_snoc_ok_iff {step : σ → α → Except ε σ} {xs : List α} {x : α} {s t : σ} :
    (xs ++ [x]).foldlM step s = .ok t ↔ ∃ m, xs.foldlM step s = .ok m ∧ step m x = .ok t := by
  rw [List.foldlM_append, bind_ok_iff]
  simp [List.foldlM_cons]

/-- What a list comes from, element by element, and what comes of one. -/
theorem map_m_source {f : α → Option β} {xs : List α} {ys : List β}
    (all : xs.mapM f = some ys) :
    (∀ x ∈ xs, ∃ y ∈ ys, f x = some y) ∧ ∀ y ∈ ys, ∃ x ∈ xs, f x = some y := by
  induction xs generalizing ys with
  | nil =>
    simp only [List.mapM_nil, Option.pure_def, Option.some.injEq] at all
    subst all
    simp
  | cons x xs ih =>
    simp only [List.mapM_cons, Option.bind_eq_bind, Option.bind_eq_some_iff, Option.pure_def,
      Option.some.injEq] at all
    obtain ⟨y, first, ys, rest, rfl⟩ := all
    obtain ⟨forward, backward⟩ := ih rest
    constructor
    · intro x' member
      rcases List.mem_cons.mp member with rfl | member
      · exact ⟨y, List.mem_cons_self, first⟩
      · obtain ⟨y', found, same⟩ := forward x' member
        exact ⟨y', List.mem_cons_of_mem y found, same⟩
    · intro y' member
      rcases List.mem_cons.mp member with rfl | member
      · exact ⟨x, List.mem_cons_self, first⟩
      · obtain ⟨x', found, same⟩ := backward y' member
        exact ⟨x', List.mem_cons_of_mem x found, same⟩

theorem map_m_some {f : α → Option β} {xs : List α}
    (each : ∀ x ∈ xs, ∃ y, f x = some y) : ∃ ys, xs.mapM f = some ys := by
  induction xs with
  | nil => exact ⟨[], rfl⟩
  | cons x xs ih =>
    obtain ⟨y, first⟩ := each x List.mem_cons_self
    obtain ⟨ys, rest⟩ := ih fun x' member => each x' (List.mem_cons_of_mem x member)
    exact ⟨y :: ys, by simp [first, rest]⟩

theorem map_m_ok_iff {f : α → Except ε β} {xs : List α} {ys : List β} :
    xs.mapM f = .ok ys ↔ List.Forall₂ (fun x y => f x = .ok y) xs ys := by
  induction xs generalizing ys with
  | nil =>
    rw [List.mapM_nil, List.forall₂_nil_left_iff]
    constructor
    · intro same
      cases same
      rfl
    · rintro rfl
      rfl
  | cons x xs ih =>
    rw [List.mapM_cons, bind_ok_iff, List.forall₂_cons_left_iff]
    constructor
    · intro all
      obtain ⟨y, first, rest⟩ := all
      obtain ⟨more, tail, same⟩ := bind_ok rest
      cases same
      exact ⟨y, more, first, ih.mp tail, rfl⟩
    · intro all
      obtain ⟨y, more, first, tail, rfl⟩ := all
      exact ⟨y, first, by rw [ih.mpr tail]; rfl⟩

theorem map_m_error_iff {f : α → Except ε β} {xs : List α} {e : ε} :
    xs.mapM f = .error e ↔ ∃ before x after, xs = before ++ x :: after ∧ f x = .error e ∧
      ∀ x' ∈ before, ∃ y, f x' = .ok y := by
  induction xs with
  | nil =>
    rw [List.mapM_nil]
    constructor
    · intro impossible
      cases impossible
    · intro found
      obtain ⟨before, x, after, split, _⟩ := found
      simp at split
  | cons x xs ih =>
    rw [List.mapM_cons]
    cases first : f x with
    | error e' =>
      rw [error_bind]
      constructor
      · intro same
        cases same
        exact ⟨[], x, xs, rfl, first, by simp⟩
      · intro found
        obtain ⟨before, x', after, split, failed, fine⟩ := found
        cases before with
        | nil =>
          rw [List.nil_append, List.cons.injEq] at split
          obtain ⟨rfl, _⟩ := split
          rw [first] at failed
          cases failed
          rfl
        | cons b before =>
          rw [List.cons_append, List.cons.injEq] at split
          obtain ⟨rfl, _⟩ := split
          obtain ⟨y, found⟩ := fine x List.mem_cons_self
          rw [first] at found
          cases found
    | ok y =>
      rw [ok_bind]
      have rest : (xs.mapM f >>= fun ys => pure (y :: ys)) = .error e ↔ xs.mapM f = .error e := by
        cases xs.mapM f with
        | error e' => exact Iff.rfl
        | ok ys =>
          constructor
          · intro impossible
            cases impossible
          · intro impossible
            cases impossible
      rw [rest, ih]
      constructor
      · intro found
        obtain ⟨before, x', after, rfl, failed, fine⟩ := found
        refine ⟨x :: before, x', after, rfl, failed, ?_⟩
        intro x'' member
        rcases List.mem_cons.mp member with rfl | member
        · exact ⟨y, first⟩
        · exact fine x'' member
      · intro found
        obtain ⟨before, x', after, split, failed, fine⟩ := found
        cases before with
        | nil =>
          rw [List.nil_append, List.cons.injEq] at split
          obtain ⟨rfl, _⟩ := split
          rw [first] at failed
          cases failed
        | cons b before =>
          rw [List.cons_append, List.cons.injEq] at split
          obtain ⟨rfl, rfl⟩ := split
          exact ⟨before, x', after, rfl, failed, fun x'' member =>
            fine x'' (List.mem_cons_of_mem x member)⟩

end Fallible
