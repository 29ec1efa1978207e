import Mathlib.Logic.Basic

/-!
Computations that leave a list of events behind, also when they fail, and the
outcome of an operation that runs under a time limit. Which outcome an outside
operation has is an argument of the program that calls it.
-/
namespace TracedEffects

/-- What comes of an operation under a time limit. -/
inductive Timed (α : Type) where
  | finished : α → Timed α
  | elapsed
  deriving DecidableEq

structure Traced (ω ε α : Type) where
  events : List ω
  result : Except ε α

variable {ω ε α β : Type}

def Traced.bind (first : Traced ω ε α) (next : α → Traced ω ε β) : Traced ω ε β :=
  match first.result with
  | .ok a => ⟨first.events ++ (next a).events, (next a).result⟩
  | .error e => ⟨first.events, .error e⟩

instance : Monad (Traced ω ε) where
  pure a := ⟨[], .ok a⟩
  bind := Traced.bind

def emit (event : ω) : Traced ω ε Unit := ⟨[event], .ok ()⟩

def raise (e : ε) : Traced ω ε α := ⟨[], .error e⟩

@[simp] theorem pure_eq (a : α) : (pure a : Traced ω ε α) = ⟨[], .ok a⟩ := rfl

@[simp] theorem bind_ok (events : List ω) (a : α) (next : α → Traced ω ε β) :
    ((⟨events, .ok a⟩ : Traced ω ε α) >>= next) =
      ⟨events ++ (next a).events, (next a).result⟩ := rfl

@[simp] theorem bind_error (events : List ω) (e : ε) (next : α → Traced ω ε β) :
    ((⟨events, .error e⟩ : Traced ω ε α) >>= next) = ⟨events, .error e⟩ := rfl

theorem result_bind {run : Traced ω ε α} {a : α} (returns : run.result = .ok a)
    (next : α → Traced ω ε β) : (run >>= next).result = (next a).result := by
  obtain ⟨events, result⟩ := run
  simp only at returns
  rw [returns]
  rfl

def observe {γ : Type} (view : ω → List γ) (run : Traced ω ε α) : List γ := run.events.flatMap view

theorem observe_bind {γ : Type} {view : ω → List γ} {run : Traced ω ε α} {a : α}
    (returns : run.result = .ok a) (next : α → Traced ω ε β) :
    observe view (run >>= next) = observe view run ++ observe view (next a) := by
  obtain ⟨events, result⟩ := run
  simp only at returns
  rw [returns]
  exact List.flatMap_append

theorem observe_part {γ : Type} (view : ω → List γ) {run : Traced ω ε α} {part : List ω}
    (begins : part <+: run.events) : part.flatMap view <+: observe view run := by
  obtain ⟨more, whole⟩ := begins
  refine ⟨more.flatMap view, ?_⟩
  rw [observe, ← whole, List.flatMap_append]

/-- What shows behind a part that returns this and has shown that. -/
theorem observe_after {γ : Type} {view : ω → List γ} {run : Traced ω ε α} {a : α}
    {seen : List γ} (returns : run.result = .ok a) (shows : observe view run = seen)
    (next : α → Traced ω ε β) :
    observe view (run >>= next) = seen ++ observe view (next a) := by
  rw [observe_bind returns, shows]

theorem observe_bind_error {γ : Type} {view : ω → List γ} {run : Traced ω ε α} {e : ε}
    (fails : run.result = .error e) (next : α → Traced ω ε β) :
    observe view (run >>= next) = observe view run := by
  obtain ⟨events, result⟩ := run
  simp only at fails
  rw [fails]
  rfl

theorem events_emit_bind (event : ω) (next : Unit → Traced ω ε β) :
    (emit event >>= next).events = event :: (next ()).events := rfl

theorem bind_assoc_eq {γ : Type} (first : Traced ω ε α) (next : α → Traced ω ε β)
    (last : β → Traced ω ε γ) :
    (first >>= next) >>= last = first >>= fun a => next a >>= last := by
  obtain ⟨events, result⟩ := first
  cases result with
  | error e => rfl
  | ok a =>
    rw [bind_ok, bind_ok]
    cases next a with
    | mk more result => cases result <;> simp

theorem events_bind_silent (first : Traced ω ε α) (next : α → Traced ω ε β)
    (silent : ∀ a, (next a).events = []) : (first >>= next).events = first.events := by
  obtain ⟨events, result⟩ := first
  cases result with
  | error e => rfl
  | ok a => simp [silent]

end TracedEffects
