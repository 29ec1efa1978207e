import Mathlib.Algebra.GroupWithZero.Nat
import Mathlib.Data.List.Basic

/-!
A pool of tasks is a list that grows at the end and whose entries change in
place: a task is its index. A property of every task in the pool is kept by a
step that keeps it for the task that moves, and a sum over the pool changes by
what that task changes.
-/
namespace TaskPools
variable {α : Type}

def Every (P : Nat → α → Prop) (pool : List α) : Prop :=
  ∀ t task, pool[t]? = some task → P t task

theorem every_nil (P : Nat → α → Prop) : Every P [] := by
  intro t task found
  simp at found

theorem Every.imp {P Q : Nat → α → Prop} {pool : List α} (all : Every P pool)
    (weaker : ∀ t task, P t task → Q t task) : Every Q pool := by
  intro t task found
  exact weaker t task (all t task found)

theorem snoc_cases {pool : List α} {t : Nat} {new task : α}
    (found : (pool ++ [new])[t]? = some task) :
    t = pool.length ∧ task = new ∨ pool[t]? = some task := by
  rcases Nat.lt_trichotomy t pool.length with below | same | above
  · rw [List.getElem?_append_left below] at found
    exact Or.inr found
  · subst same
    rw [List.getElem?_concat_length, Option.some.injEq] at found
    exact Or.inl ⟨rfl, found.symm⟩
  · rw [List.getElem?_eq_none (by simp; omega)] at found
    contradiction

theorem Every.snoc {P : Nat → α → Prop} {pool : List α} {task : α} (all : Every P pool)
    (new : P pool.length task) : Every P (pool ++ [task]) := by
  intro t other found
  rcases snoc_cases found with ⟨rfl, rfl⟩ | found
  · exact new
  · exact all t other found

theorem set_cases {pool : List α} {t k : Nat} {new task : α}
    (found : (pool.set t new)[k]? = some task) :
    k = t ∧ task = new ∨ k ≠ t ∧ pool[k]? = some task := by
  by_cases same : t = k
  · subst same
    obtain ⟨below, _⟩ := List.getElem?_eq_some_iff.mp found
    rw [List.length_set] at below
    rw [List.getElem?_set_self below, Option.some.injEq] at found
    exact Or.inl ⟨rfl, found.symm⟩
  · rw [List.getElem?_set_ne same] at found
    exact Or.inr ⟨Ne.symm same, found⟩

theorem every_set {P : Nat → α → Prop} {pool : List α} {t : Nat} {task : α}
    (others : ∀ k other, k ≠ t → pool[k]? = some other → P k other) (new : P t task) :
    Every P (pool.set t task) := by
  intro k other found
  rcases set_cases found with ⟨rfl, rfl⟩ | ⟨apart, found⟩
  · exact new
  · exact others k other apart found

theorem Every.set {P : Nat → α → Prop} {pool : List α} {t : Nat} {task : α} (all : Every P pool)
    (new : P t task) : Every P (pool.set t task) :=
  every_set (fun k other _ => all k other) new

theorem lookup_snoc {pool : List α} {task other : α} {t : Nat} (found : pool[t]? = some other) :
    (pool ++ [task])[t]? = some other := by
  obtain ⟨below, _⟩ := List.getElem?_eq_some_iff.mp found
  rw [List.getElem?_append_left below]
  exact found

theorem lookup_set {pool : List α} {old new : α} {t : Nat} (found : pool[t]? = some old) :
    (pool.set t new)[t]? = some new := by
  obtain ⟨below, _⟩ := List.getElem?_eq_some_iff.mp found
  exact List.getElem?_set_self below

theorem map_set {β : Type} (f : α → β) {pool : List α} {t : Nat} {old new : α}
    (found : pool[t]? = some old) (same : f new = f old) : (pool.set t new).map f = pool.map f := by
  obtain ⟨below, here⟩ := List.getElem?_eq_some_iff.mp found
  rw [List.map_set, same, ← here, ← List.map_set, List.set_getElem_self]

theorem set_same {pool : List α} {t : Nat} {task : α} (found : pool[t]? = some task) :
    pool.set t task = pool := by
  obtain ⟨below, here⟩ := List.getElem?_eq_some_iff.mp found
  rw [← here, List.set_getElem_self]

theorem modify_set {pool : List α} {t : Nat} {task : α} (found : pool[t]? = some task)
    (f : α → α) : pool.modify t f = pool.set t (f task) := by
  obtain ⟨below, here⟩ := List.getElem?_eq_some_iff.mp found
  rw [List.modify_eq_set_getElem?, found]
  rfl

/-- Two pools with a task each at every index, and what holds between the two. -/
structure Paired {β : Type} (R : Nat → α → β → Prop) (pool : List α) (others : List β) :
    Prop where
  length : pool.length = others.length
  each : ∀ (t : Nat) task other, pool[t]? = some task → others[t]? = some other → R t task other

theorem paired_nil {β : Type} (R : Nat → α → β → Prop) : Paired R [] [] where
  length := rfl
  each := by
    intro t task other found
    simp at found

theorem Paired.partner {β : Type} {R : Nat → α → β → Prop} {pool : List α} {others : List β}
    {t : Nat} {task : α} (paired : Paired R pool others) (found : pool[t]? = some task) :
    ∃ other, others[t]? = some other ∧ R t task other := by
  obtain ⟨below, _⟩ := List.getElem?_eq_some_iff.mp found
  have within : t < others.length := paired.length ▸ below
  have here : others[t]? = some others[t] := List.getElem?_eq_getElem within
  exact ⟨_, here, paired.each t _ _ found here⟩

theorem Paired.imp {β : Type} {R S : Nat → α → β → Prop} {pool : List α} {others : List β}
    (paired : Paired R pool others)
    (weaker : ∀ t task other, pool[t]? = some task → others[t]? = some other → R t task other →
      S t task other) : Paired S pool others where
  length := paired.length
  each := fun t task other found lookup =>
    weaker t task other found lookup (paired.each t task other found lookup)

theorem Paired.snoc {β : Type} {R : Nat → α → β → Prop} {pool : List α} {others : List β}
    {task : α} {other : β} (paired : Paired R pool others) (new : R pool.length task other) :
    Paired R (pool ++ [task]) (others ++ [other]) where
  length := by simp [paired.length]
  each := by
    intro t a b found lookup
    rcases snoc_cases found with ⟨rfl, rfl⟩ | earlier
    · rw [paired.length, List.getElem?_concat_length, Option.some.injEq] at lookup
      exact lookup ▸ new
    · rcases snoc_cases lookup with ⟨last, _⟩ | before
      · obtain ⟨below, _⟩ := List.getElem?_eq_some_iff.mp earlier
        have := paired.length
        omega
      · exact paired.each t a b earlier before

theorem Paired.set {β : Type} {R S : Nat → α → β → Prop} {pool : List α} {others : List β}
    {t : Nat} {task : α} {other : β} (paired : Paired R pool others)
    (rest : ∀ k a b, k ≠ t → R k a b → S k a b) (new : S t task other) :
    Paired S (pool.set t task) (others.set t other) where
  length := by rw [List.length_set, List.length_set, paired.length]
  each := by
    intro k a b found lookup
    rcases set_cases found with ⟨rfl, rfl⟩ | ⟨apart, found⟩
    · rcases set_cases lookup with ⟨_, rfl⟩ | ⟨apart, _⟩
      · exact new
      · exact absurd rfl apart
    · rcases set_cases lookup with ⟨here, _⟩ | ⟨_, lookup⟩
      · exact absurd here apart
      · exact rest k a b apart (paired.each k a b found lookup)

theorem Paired.set_left {β : Type} {R : Nat → α → β → Prop} {pool : List α} {others : List β}
    {t : Nat} {task : α} {other : β} (paired : Paired R pool others)
    (partner : others[t]? = some other) (new : R t task other) :
    Paired R (pool.set t task) others := by
  have both := paired.set (fun _ _ _ _ same => same) new
  rwa [set_same partner] at both

theorem Paired.set_right {β : Type} {R : Nat → α → β → Prop} {pool : List α} {others : List β}
    {t : Nat} {task : α} {other : β} (paired : Paired R pool others)
    (found : pool[t]? = some task) (new : R t task other) :
    Paired R pool (others.set t other) := by
  have both := paired.set (fun _ _ _ _ same => same) new
  rwa [set_same found] at both

theorem filter_map_set {β : Type} {f : α → Option β} {pool : List α} {t : Nat} {old new : α}
    {b c : β} (found : pool[t]? = some old) (before : f old = some b) (after : f new = some c) :
    ∃ h, (pool.filterMap f)[h]? = some b ∧
      (pool.set t new).filterMap f = (pool.filterMap f).set h c := by
  induction pool generalizing t with
  | nil => simp at found
  | cons task pool ih =>
    cases t with
    | zero =>
      rw [List.getElem?_cons_zero, Option.some.injEq] at found
      subst found
      refine ⟨0, ?_, ?_⟩
      · rw [List.filterMap_cons_some before, List.getElem?_cons_zero]
      · rw [List.set_cons_zero, List.filterMap_cons_some after, List.filterMap_cons_some before,
          List.set_cons_zero]
    | succ t =>
      rw [List.getElem?_cons_succ] at found
      obtain ⟨h, here, set⟩ := ih found
      rw [List.set_cons_succ]
      cases first : f task with
      | none =>
        rw [List.filterMap_cons_none first, List.filterMap_cons_none first]
        exact ⟨h, here, set⟩
      | some d =>
        rw [List.filterMap_cons_some first, List.filterMap_cons_some first]
        exact ⟨h + 1, here, by rw [set, List.set_cons_succ]⟩

theorem filter_map_set_same {β : Type} (f : α → Option β) {pool : List α} {t : Nat} {old new : α}
    (found : pool[t]? = some old) (same : f new = f old) :
    (pool.set t new).filterMap f = pool.filterMap f := by
  have one : ∀ tasks : List α, tasks.filterMap f = (tasks.map f).filterMap id := by
    intro tasks
    rw [List.filterMap_map]
    rfl
  rw [one, one, map_set f found same]

def total (weight : α → Nat) (pool : List α) : Nat := (pool.map weight).sum

@[simp] theorem total_nil (weight : α → Nat) : total weight [] = 0 := rfl

@[simp] theorem total_snoc (weight : α → Nat) (pool : List α) (task : α) :
    total weight (pool ++ [task]) = total weight pool + weight task := by
  simp [total]

theorem total_set (weight : α → Nat) {pool : List α} {t : Nat} {old : α} (new : α)
    (found : pool[t]? = some old) :
    total weight (pool.set t new) + weight old = total weight pool + weight new := by
  induction pool generalizing t with
  | nil => simp at found
  | cons task pool ih =>
    cases t with
    | zero =>
      rw [List.getElem?_cons_zero, Option.some.injEq] at found
      subst found
      simp only [List.set_cons_zero, total, List.map_cons, List.sum_cons]
      omega
    | succ t =>
      rw [List.getElem?_cons_succ] at found
      have tail := ih found
      simp only [List.set_cons_succ, total, List.map_cons, List.sum_cons] at tail ⊢
      omega

theorem total_filter_map {β : Type} {weight : β → Nat} {f : α → Option β} {pool : List α} :
    total weight (pool.filterMap f) = total (fun task => ((f task).map weight).getD 0) pool := by
  induction pool with
  | nil => rfl
  | cons task pool ih =>
    cases first : f task with
    | none =>
      rw [List.filterMap_cons_none first, ih]
      simp [total, first]
    | some b =>
      rw [List.filterMap_cons_some first]
      simp only [total, List.map_cons, List.sum_cons, first, Option.map_some,
        Option.getD_some] at ih ⊢
      rw [ih]

/-- Where every weight is within a bound, the total is within the bound times
    the number of tasks that weigh anything. -/
theorem total_le {weight : α → Nat} {bound : Nat} {pool : List α}
    (each : ∀ task ∈ pool, weight task ≤ bound) :
    total weight pool ≤ total (fun task => if weight task = 0 then 0 else 1) pool * bound := by
  induction pool with
  | nil => simp
  | cons task pool ih =>
    have tail := ih fun other member => each other (List.mem_cons_of_mem task member)
    have head := each task List.mem_cons_self
    simp only [total, List.map_cons, List.sum_cons, Nat.add_mul] at tail ⊢
    split
    · omega
    · rw [Nat.one_mul]
      omega

theorem total_add (weight weight' : α → Nat) (pool : List α) :
    total (fun task => weight task + weight' task) pool = total weight pool + total weight' pool := by
  induction pool with
  | nil => rfl
  | cons task pool ih =>
    simp only [total, List.map_cons, List.sum_cons] at ih ⊢
    omega

theorem total_mono {lighter heavier : α → Nat} {pool : List α}
    (each : ∀ task ∈ pool, lighter task ≤ heavier task) :
    total lighter pool ≤ total heavier pool := by
  induction pool with
  | nil => simp
  | cons task pool ih =>
    have tail := ih fun other member => each other (List.mem_cons_of_mem task member)
    have head := each task List.mem_cons_self
    simp only [total, List.map_cons, List.sum_cons] at tail ⊢
    omega

end TaskPools
