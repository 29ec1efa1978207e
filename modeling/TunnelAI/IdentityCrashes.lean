import TunnelAI.IdentityFile

/-!
One call of `load_or_create_secret_key` at a time, each cut off by a crash after any
of its steps, or failing at any of them. Earlier runs may have left a temporary file
behind. A running call that has found no identity file is alone with both names.
-/
namespace IdentityCrashes
open StreamReader TransitionRuns TaskPools FileSystems StdPath IdentityCodec IdentityFile

/-- A call starts when no other is running. -/
def oneAtATime (s : State) : Event → Bool
  | .call => s.calls.all Phase.ended
  | .task _ _ => true

/-- An existence check that fails, and so answers no, where no file is. -/
def honest (path : Path) (files : FileSystem Path) : Phase → Action → Bool
  | .checking, .checkFailed => files.links path = none
  | _, _ => true

def Intact (path : Path) (files : FileSystem Path) : Prop :=
  files.links path = none ∨ ∃ secretKey, identityKey path files = some secretKey

structure CrashSafe (path : Path) (s : State) : Prop where
  intact : Intact path s.files
  same : ∀ (t u : Nat) (k l : SecretKey), s.calls[t]? = some (.returned k) →
    s.calls[u]? = some (.returned l) → k = l

def Alone (path : Path) (files : FileSystem Path) : Phase → Prop
  | .directory => files.links path = none
  | .creating _ => files.links path = none
  | .writing _ file _ => files.links path = none ∧ files.links (tempPath path) = some file
  | .installing _ file => files.links path = none ∧ files.links (tempPath path) = some file
  | _ => True

def Sequential (path : Path) (s : State) : Prop :=
  Every (fun t phase => phase.ended = true ∨
    t + 1 = s.calls.length ∧ Alone path s.files phase) s.calls

section steps
variable {path : Path} {files files' : FileSystem Path} {phase phase' : Phase} {action : Action}

theorem act_running (h : act path files phase action = some (files', phase')) :
    phase.ended = false := by
  cases phase with
  | returned secretKey => cases action <;> simp [act, Phase.ended] at h
  | failed error => cases action <;> simp [act, Phase.ended] at h
  | crashed => cases action <;> simp [act, Phase.ended] at h
  | _ => rfl

theorem alone_undisturbed (alone : Alone path files phase) (action : Action) :
    undisturbed path files phase action = true := by
  cases phase with
  | installing secretKey file =>
    cases action with
    | rename =>
      rw [Alone] at alone
      simpa [undisturbed] using alone
    | _ => rfl
  | _ => rfl

theorem settled_alone (files : FileSystem Path) (settled : phase.settled = true) :
    Alone path files phase := by
  cases phase with
  | directory => simp [Phase.settled] at settled
  | creating secretKey => simp [Phase.settled] at settled
  | writing secretKey file todo => simp [Phase.settled] at settled
  | installing secretKey file => simp [Phase.settled] at settled
  | _ => trivial

theorem effect_alone (apart : path.hasName = true → tempPath path ≠ path)
    (effect : Effect path files phase action files' phase')
    (sound : honest path files phase action = true)
    (alone : Alone path files phase) : Alone path files' phase' := by
  cases effect with
  | settle _ _ settled _ => exact settled_alone files settled
  | missing _ owner absent =>
    subst owner
    rcases absent with absent | rfl
    · exact absent
    · rw [Alone]
      simpa [honest] using sound
  | makeDirectory _ owner =>
    subst owner
    exact alone
  | create _ owner hasName =>
    subst owner
    refine ⟨?_, create_links_self⟩
    rw [create_links (Ne.symm (apart hasName))]
    exact alone
  | write _ _ _ _ owner =>
    subst owner
    exact alone
  | sync _ _ owner =>
    subst owner
    exact alone
  | remove _ _ => trivial
  | rename _ _ _ _ => trivial

end steps

theorem sequential_call {path : Path} {s : State} (idle : s.calls.all Phase.ended = true) :
    Sequential path { s with calls := s.calls ++ [.checking] } := by
  apply Every.snoc
  · intro t phase found
    exact Or.inl (List.all_eq_true.mp idle phase (List.mem_of_getElem? found))
  · exact Or.inr ⟨by simp, trivial⟩

theorem sequential_alone {path : Path} {s : State} (held : Sequential path s) {t : Nat}
    {phase phase' : Phase} {action : Action} {files' : FileSystem Path}
    (found : s.calls[t]? = some phase)
    (acted : act path s.files phase action = some (files', phase')) :
    t + 1 = s.calls.length ∧ Alone path s.files phase := by
  rcases held t phase found with ended | running
  · rw [act_running acted] at ended
    contradiction
  · exact running

theorem sequential_task {path : Path} {s : State} (apart : path.hasName = true → tempPath path ≠ path)
    (held : Sequential path s) {t : Nat} {phase phase' : Phase} {action : Action}
    {files' : FileSystem Path} (found : s.calls[t]? = some phase)
    (sound : honest path s.files phase action = true)
    (acted : act path s.files phase action = some (files', phase')) :
    Sequential path ⟨files', s.calls.set t phase'⟩ := by
  obtain ⟨last, alone⟩ := sequential_alone held found acted
  apply every_set
  · intro k other different lookup
    rcases held k other lookup with ended | running
    · exact Or.inl ended
    · omega
  · exact Or.inr ⟨by rw [List.length_set, last], effect_alone apart (act_effect acted) sound alone⟩

/-- What every step of one call at a time keeps, if its checks are honest. -/
structure Kept (path : Path) (s : State) : Prop where
  consistent : Consistent path s
  sequential : Sequential path s
  intact : Intact path s.files

theorem kept_step {path : Path} {s s' : State} {e : Event}
    (apart : path.hasName = true → tempPath path ≠ path) (held : Kept path s)
    (ready : oneAtATime s e = true) (sound : eachCall (honest path) s e = true)
    (h : step path s e = some s') : Kept path s' := by
  cases e with
  | call =>
    rw [step, Option.some.injEq] at h
    subst h
    exact ⟨consistent_call held.consistent, sequential_call ready, held.intact⟩
  | task t action =>
    obtain ⟨phase, files', phase', found, acted, rfl⟩ := step_task h
    have sound' : honest path s.files phase action = true := by
      simpa [eachCall, found] using sound
    have alone := (sequential_alone held.sequential found acted).2
    have clear := alone_undisturbed alone action
    have effect := act_effect acted
    refine ⟨consistent_task apart held.consistent found effect clear,
      sequential_task apart held.sequential found sound' acted, ?_⟩
    rcases effect_identity apart effect clear (held.consistent.owned t phase found) with
      ⟨links, same⟩ | ⟨_, secretKey, _, installed⟩
    · rw [Intact, links, same]
      exact held.intact
    · exact Or.inr ⟨secretKey, installed⟩

theorem crash_safe_of_kept {path : Path} {s : State} (held : Kept path s) : CrashSafe path s :=
  ⟨held.intact, (one_identity_of_consistent held.consistent).same⟩

def oneByOne (path : Path) (start : FileSystem Path) : System State Event :=
  (identity path start).restrict oneAtATime

theorem kept_reachable {path : Path} {start : FileSystem Path} {s : State}
    (extension : path.extension ≠ some tmp) (intact : Intact path start)
    (reached : ((oneByOne path start).restrict (eachCall (honest path))).Reachable s) :
    Kept path s := by
  apply state_invariant (Kept path) _ _ s reached
  · exact ⟨consistent_start path start, every_nil _, intact⟩
  · intro s e s' held h
    obtain ⟨sound, h⟩ := restrict_step.mp h
    obtain ⟨ready, h⟩ := restrict_step.mp h
    exact kept_step (temp_apart extension) held ready sound h

def begins : List Event :=
  [.call, .task 0 .missing, .task 0 (.makeDirectory zeroKey), .task 0 .create]

theorem begins_in_place {path : Path} (extension : path.extension = some tmp) :
    ((oneByOne path .empty).restrict (eachCall (honest path))).replay begins =
      some ⟨FileSystem.empty.create path, [.writing zeroKey 0 (encoded zeroKey)]⟩ := by
  have hasName : path.hasName = true := by
    cases path with
    | named parent name => rfl
    | nameless parent path => simp [Path.extension] at extension
  have inPlace : tempPath path = path := (with_extension_iff hasName tmp).mpr extension
  simp [System.replay, begins, oneByOne, System.restrict, identity, step, act, oneAtATime,
    eachCall, honest, hasName, inPlace, FileSystem.empty, Phase.ended]

theorem empty_file_not_intact (path : Path) : ¬ Intact path (FileSystem.empty.create path) := by
  have linked : (FileSystem.empty.create path).links path = some 0 := create_links_self
  have content : (FileSystem.empty.create path).contents 0 = [] := rfl
  have unread : identityKey path (FileSystem.empty.create path) = none := by
    simp only [identityKey, load, linked, content]
    rfl
  rintro (absent | ⟨secretKey, holds⟩)
  · rw [linked] at absent
    contradiction
  · rw [unread] at holds
    contradiction

/-- On exactly the paths without the extension `tmp`, every run of one call at a time
    whose failed existence checks are honest keeps the identity file intact and returns
    one key. -/
theorem crash_safe_iff (path : Path) :
    (∀ start s, Intact path start →
      ((oneByOne path start).restrict (eachCall (honest path))).Reachable s →
        CrashSafe path s) ↔ path.extension ≠ some tmp := by
  constructor
  · intro safe extension
    have absent : Intact path .empty := Or.inl rfl
    have reached := safe .empty _ absent ⟨begins, begins_in_place extension⟩
    exact empty_file_not_intact path reached.intact
  · intro extension start s intact reached
    exact crash_safe_of_kept (kept_reachable extension intact reached)

def tmpPath : Path := .named [] (text "server.tmp")

def checkFails : List Event :=
  [.call, .task 0 .missing, .task 0 (.makeDirectory zeroKey), .task 0 .create,
    .task 0 (.write 84), .task 0 .sync, .task 0 .rename, .task 0 .finish,
    .call, .task 1 .checkFailed, .task 1 (.makeDirectory oneKey), .task 1 .create,
    .task 1 (.write 84), .task 1 .sync, .task 1 .rename, .task 1 .finish]

/-- A crash right after the temporary file is created leaves an empty identity file on a
    path with the extension `tmp`; on another path a failed check loses the key. -/
theorem identity_lost :
    (∃ s, (oneByOne tmpPath .empty).replay (begins ++ [.task 0 .crash]) = some s ∧
      s.calls = [.crashed] ∧ ¬ CrashSafe tmpPath s) ∧
    (∃ s, (oneByOne serverKey .empty).replay checkFails = some s ∧
      s.calls = [.returned zeroKey, .returned oneKey] ∧ ¬ CrashSafe serverKey s) := by
  constructor
  · refine ⟨⟨FileSystem.empty.create tmpPath, [.crashed]⟩, rfl, rfl, ?_⟩
    intro safe
    exact empty_file_not_intact tmpPath safe.intact
  · have finished : ((oneByOne serverKey .empty).replay checkFails).map State.calls =
        some [.returned zeroKey, .returned oneKey] := by decide
    obtain ⟨s, run, calls⟩ := Option.map_eq_some_iff.mp finished
    refine ⟨s, run, calls, ?_⟩
    intro safe
    have same := safe.same 0 1 zeroKey oneKey (by rw [calls]; rfl) (by rw [calls]; rfl)
    exact absurd same (by decide)

end IdentityCrashes
