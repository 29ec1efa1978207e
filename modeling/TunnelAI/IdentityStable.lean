import TunnelAI.IdentityFile

/-!
An identity that is there stays what it is: calls of `load_or_create_secret_key` only
read it, also when it cannot be read or decoded. With the runs that create it, this
is a key that survives restarts.
-/
namespace IdentityStable
open TransitionRuns TaskPools FileSystems StdPath IdentityCodec IdentityFile

def checks (_ : FileSystem Path) (_ : Phase) (action : Action) : Bool := action != .checkFailed

/-- Where a call can be when the file is there. -/
def Reads (path : Path) (files : FileSystem Path) : Phase → Prop
  | .checking => True
  | .reading => True
  | .crashed => True
  | .finishing secretKey => load path files = .ok secretKey
  | .returned secretKey => load path files = .ok secretKey
  | .failed error => error = .read path ∨ load path files = .error error
  | _ => False

variable {path : Path} {files : FileSystem Path}

theorem loaded_reads : Reads path files (loaded (load path files)) := by
  cases result : load path files with
  | error error => exact Or.inr result
  | ok secretKey => exact result

theorem act_reads {files' : FileSystem Path} {phase phase' : Phase} {action : Action}
    (there : files.links path ≠ none) (checked : action ≠ .checkFailed)
    (reads : Reads path files phase)
    (h : act path files phase action = some (files', phase')) :
    files' = files ∧ Reads path files phase' := by
  cases phase with
  | checking =>
    cases action <;> simp only [act, reduceCtorEq, Option.ite_none_left_eq_some,
      Option.ite_none_right_eq_some] at h
    · cases h.2
      exact ⟨rfl, trivial⟩
    · exact absurd h.1 there
    · contradiction
    · cases h.2
      exact ⟨rfl, trivial⟩
  | reading =>
    cases action <;> simp only [act, reduceCtorEq, Option.ite_none_left_eq_some] at h
    · cases h
      exact ⟨rfl, loaded_reads⟩
    · cases h
      exact ⟨rfl, Or.inl rfl⟩
    · cases h.2
      exact ⟨rfl, trivial⟩
  | finishing secretKey =>
    cases action <;> simp only [act, reduceCtorEq, Option.ite_none_left_eq_some] at h
    · cases h
      exact ⟨rfl, reads⟩
    · cases h.2
      exact ⟨rfl, trivial⟩
  | returned secretKey => cases action <;> simp [act, Phase.ended] at h
  | failed error => cases action <;> simp [act, Phase.ended] at h
  | crashed => cases action <;> simp [act, Phase.ended] at h
  | directory | creating _ | writing _ _ _ | removing _ | installing _ _ => exact reads.elim

theorem reads_step {start : FileSystem Path} {s s' : State} {e : Event}
    (there : start.links path ≠ none) (same : s.files = start)
    (reads : Every (fun _ => Reads path start) s.calls)
    (checked : eachCall checks s e = true) (h : step path s e = some s') :
    s'.files = start ∧ Every (fun _ => Reads path start) s'.calls := by
  cases e with
  | call =>
    rw [step, Option.some.injEq] at h
    subst h
    exact ⟨same, reads.snoc trivial⟩
  | task t action =>
    obtain ⟨phase, files', phase', found, acted, rfl⟩ := step_task h
    have plain : action ≠ .checkFailed := by
      simpa [eachCall, found, checks] using checked
    rw [same] at acted
    obtain ⟨kept, still⟩ := act_reads there plain (reads t phase found) acted
    exact ⟨kept, reads.set still⟩

theorem reads_run {start : FileSystem Path} {s : State} (there : start.links path ≠ none)
    (reached : ((identity path start).restrict (eachCall checks)).Reachable s) :
    s.files = start ∧ Every (fun _ => Reads path start) s.calls := by
  apply state_invariant
    (fun s => s.files = start ∧ Every (fun _ => Reads path start) s.calls) _ _ s reached
  · exact ⟨rfl, every_nil _⟩
  · intro s e s' held h
    obtain ⟨checked, h⟩ := restrict_step.mp h
    exact reads_step there held.1 held.2 checked h

/-- However many calls run, in whatever order and with whatever crashes: where the
    identity path names a file, no file is created, changed or removed; every key is the
    one in the file, and a file that does not decode gives none, ever. -/
theorem existing_identity_kept {start : FileSystem Path} {s : State}
    (there : start.links path ≠ none)
    (reached : ((identity path start).restrict (eachCall checks)).Reachable s) :
    s.files = start ∧
      (∀ (t : Nat) secretKey, s.calls[t]? = some (.returned secretKey) →
        load path start = .ok secretKey) ∧
      (∀ (t : Nat) error, s.calls[t]? = some (.failed error) →
        error = .read path ∨ load path start = .error error) ∧
      ∀ error, load path start = .error error →
        ∀ (t : Nat) secretKey, s.calls[t]? ≠ some (.returned secretKey) := by
  obtain ⟨same, reads⟩ := reads_run there reached
  refine ⟨same, fun t secretKey found => reads t _ found, fun t error found => reads t _ found, ?_⟩
  intro error undecoded t secretKey found
  have loads : load path start = .ok secretKey := reads t _ found
  rw [undecoded] at loads
  contradiction

def damaged : FileSystem Path := (FileSystem.empty.create serverKey).write 0 [1, 2, 3]

def noKey : Phase := .failed (.decode serverKey (.invalid "invalid iroh identity secret prefix"))

def loadTwice : List Event :=
  [.call, .task 0 .found, .call, .task 1 .found, .task 0 .read, .task 1 .read]

theorem existing_identity_kept_example : ∃ s,
    ((identity serverKey damaged).restrict (eachCall checks)).replay loadTwice = some s ∧
      s.calls = [noKey, noKey] ∧ s.files = damaged := by
  have finished : (((identity serverKey damaged).restrict (eachCall checks)).replay
      loadTwice).map State.calls = some [noKey, noKey] := by decide
  obtain ⟨s, run, calls⟩ := Option.map_eq_some_iff.mp finished
  exact ⟨s, run, calls, (existing_identity_kept (by decide) ⟨loadTwice, run⟩).1⟩

theorem identity_key_load {secretKey : SecretKey} :
    identityKey path files = some secretKey ↔ load path files = .ok secretKey := by
  unfold identityKey
  cases load path files with
  | error error => simp [Except.toOption]
  | ok other => simp [Except.toOption]

theorem load_linked {secretKey : SecretKey} (loads : load path files = .ok secretKey) :
    files.links path ≠ none := by
  intro absent
  rw [load, absent] at loads
  contradiction

/-- A key that a call has returned survives: all later processes, started on the files
    as they are then, get this key and leave the files as they are, or fail at their
    read. -/
theorem restart_stable {start : FileSystem Path} {s s' : State} {t : Nat}
    {secretKey : SecretKey} (extension : path.extension ≠ some tmp)
    (reached : ((identity path start).restrict (eachCall (undisturbed path))).Reachable s)
    (returned : s.calls[t]? = some (.returned secretKey))
    (again : ((identity path s.files).restrict (eachCall checks)).Reachable s') :
    s'.files = s.files ∧
      (∀ (u : Nat) other, s'.calls[u]? = some (.returned other) → other = secretKey) ∧
      ∀ (u : Nat) error, s'.calls[u]? = some (.failed error) → error = .read path := by
  have consistent : Consistent path s := by
    apply state_invariant (Consistent path) _ _ s reached
    · exact consistent_start path start
    · intro s e s' held h
      obtain ⟨clear, h⟩ := restrict_step.mp h
      exact consistent_step (temp_apart extension) held clear h
  have loads := identity_key_load.mp ((one_identity_of_consistent consistent).held t _ returned)
  obtain ⟨same, reads⟩ := reads_run (load_linked loads) again
  refine ⟨same, ?_, ?_⟩
  · intro u other found
    have also : load path s.files = .ok other := reads u _ found
    rw [loads, Except.ok.injEq] at also
    exact also.symm
  · intro u error found
    have failed : error = .read path ∨ load path s.files = .error error := reads u _ found
    rcases failed with unread | undecoded
    · exact unread
    · rw [loads] at undecoded
      contradiction

def loadAgain : List Event := [.call, .task 0 .found, .task 0 .read, .task 0 .finish]

theorem restart_stable_example : ∃ s s' key,
    ((identity serverKey .empty).restrict (eachCall (undisturbed serverKey))).replay
      createAndLoad = some s ∧
    ((identity serverKey s.files).restrict (eachCall checks)).replay loadAgain = some s' ∧
    s'.calls = [.returned key] ∧ key = zeroKey := by
  have finished : (((identity serverKey .empty).restrict
      (eachCall (undisturbed serverKey))).replay createAndLoad).bind
        (fun s => (((identity serverKey s.files).restrict (eachCall checks)).replay
          loadAgain).map fun s' => (s.calls[0]?, s'.calls)) =
      some (some (.returned zeroKey), [.returned zeroKey]) := by decide
  obtain ⟨s, run, seen⟩ := Option.bind_eq_some_iff.mp finished
  obtain ⟨s', again, calls⟩ := Option.map_eq_some_iff.mp seen
  rw [Prod.mk.injEq] at calls
  refine ⟨s, s', zeroKey, run, again, calls.2, ?_⟩
  have stable := restart_stable (by decide) ⟨createAndLoad, run⟩ calls.1 ⟨loadAgain, again⟩
  exact stable.2.1 0 zeroKey (by rw [calls.2]; rfl)

end IdentityStable
