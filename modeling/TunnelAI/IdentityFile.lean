import TunnelAI.Library.FileSystem
import TunnelAI.Library.Runs
import TunnelAI.Library.TaskPools
import TunnelAI.IdentityCodec
import TunnelAI.StdPath

/-!
Calls of `load_or_create_secret_key` on one identity path, by any number of
processes. Every file-system call is one step. A crash ends a call between two of
its steps and leaves the files as they are; a new key is any key.
-/
namespace IdentityFile
open StreamReader TransitionRuns TaskPools FileSystems StdPath IdentityCodec

def tmp : Bytes := text "tmp"

def tempPath (path : Path) : Path := path.withExtension tmp

inductive IdentityError where
  | read (path : Path)
  | decode (path : Path) (cause : DecodeError)
  | createDirectory (parent : Bytes)
  | createTemporary (path : Path)
  | writeTemporary (path : Path)
  | syncTemporary (path : Path)
  | install (path source : Path)
  deriving DecidableEq

def IdentityError.message (display : Bytes → String) : IdentityError → String
  | .read path => "read iroh identity secret from " ++ display path.bytes
  | .decode path _ => "decode iroh identity secret from " ++ display path.bytes
  | .createDirectory parent => "create iroh identity directory " ++ display parent
  | .createTemporary path => "create temporary iroh identity file " ++ display path.bytes
  | .writeTemporary path => "write temporary iroh identity file " ++ display path.bytes
  | .syncTemporary path => "sync temporary iroh identity file " ++ display path.bytes
  | .install path source =>
    "install iroh identity file " ++ display path.bytes ++ " from " ++ display source.bytes

/-- The next file-system call of a call, or its end. The number of its own file is
    kept for the proofs only once the file is written. -/
inductive Phase where
  | checking
  | reading
  | directory
  | creating (secretKey : SecretKey)
  | writing (secretKey : SecretKey) (file : Nat) (todo : Bytes)
  | removing (error : IdentityError)
  | installing (secretKey : SecretKey) (file : Nat)
  | finishing (secretKey : SecretKey)
  | returned (secretKey : SecretKey)
  | failed (error : IdentityError)
  | crashed
  deriving DecidableEq

def Phase.ended : Phase → Bool
  | .returned _ | .failed _ | .crashed => true
  | _ => false

inductive Action where
  | found
  | missing
  | checkFailed
  | read
  | readFailed
  | makeDirectory (secretKey : SecretKey)
  | directoryFailed
  | create
  | createFailed
  | write (n : Nat)
  | writeFailed
  | sync
  | syncFailed
  | remove
  | removeFailed
  | rename
  | renameFailed
  | finish
  | crash
  deriving DecidableEq

def load (path : Path) (files : FileSystem Path) : Except IdentityError SecretKey :=
  match files.links path with
  | none => .error (.read path)
  | some file =>
    match fromUtf8 (files.contents file) with
    | none => .error (.read path)
    | some contents =>
      match decodeSecretKey contents.toList with
      | .error cause => .error (.decode path cause)
      | .ok secretKey => .ok secretKey

def loaded : Except IdentityError SecretKey → Phase
  | .error error => .failed error
  | .ok secretKey => .finishing secretKey

/-- One step of a call. `Path::exists` answers no when it fails, so that a failed
    check goes on as if the file were missing. -/
def act (path : Path) (files : FileSystem Path) : Phase → Action → Option (FileSystem Path × Phase)
  | .checking, .found => if files.links path = none then none else some (files, .reading)
  | .checking, .missing => if files.links path = none then some (files, .directory) else none
  | .checking, .checkFailed => some (files, .directory)
  | .reading, .read => some (files, loaded (load path files))
  | .reading, .readFailed => some (files, .failed (.read path))
  | .directory, .makeDirectory secretKey => some (files, .creating secretKey)
  | .directory, .directoryFailed =>
    match path.parent with
    | none => none
    | some parent => if parent = [] then none else some (files, .failed (.createDirectory parent))
  | .creating secretKey, .create =>
    if path.hasName = true ∧ files.links (tempPath path) = none then
      some (files.create (tempPath path), .writing secretKey files.next (encoded secretKey))
    else none
  | .creating _, .createFailed => some (files, .removing (.createTemporary (tempPath path)))
  | .writing secretKey file todo, .write n =>
    if 0 < n ∧ n ≤ todo.length then
      some (files.write file (todo.take n), .writing secretKey file (todo.drop n))
    else none
  | .writing _ _ todo, .writeFailed =>
    if todo = [] then none else some (files, .removing (.writeTemporary (tempPath path)))
  | .writing secretKey file todo, .sync =>
    if todo = [] then some (files, .installing secretKey file) else none
  | .writing _ _ todo, .syncFailed =>
    if todo = [] then some (files, .removing (.syncTemporary (tempPath path))) else none
  | .removing error, .remove =>
    if path.hasName = true then some (files.unlink (tempPath path), .failed error) else none
  | .removing error, .removeFailed => some (files, .failed error)
  | .installing secretKey _, .rename =>
    if path.hasName = true ∧ files.links (tempPath path) ≠ none then
      some (files.rename (tempPath path) path, .finishing secretKey)
    else none
  | .installing _ _, .renameFailed => some (files, .failed (.install path (tempPath path)))
  | .finishing secretKey, .finish => some (files, .returned secretKey)
  | phase, .crash => if phase.ended then none else some (files, .crashed)
  | _, _ => none

structure State where
  files : FileSystem Path
  calls : List Phase

inductive Event where
  | call
  | task (t : Nat) (action : Action)
  deriving DecidableEq

def step (path : Path) (s : State) : Event → Option State
  | .call => some { s with calls := s.calls ++ [.checking] }
  | .task t action =>
    match s.calls[t]? with
    | none => none
    | some phase =>
      (act path s.files phase action).map fun moved => ⟨moved.1, s.calls.set t moved.2⟩

def identity (path : Path) (start : FileSystem Path) : System State Event where
  init := ⟨start, []⟩
  step := step path

def identityKey (path : Path) (files : FileSystem Path) : Option SecretKey :=
  (load path files).toOption

/-- The file that a call is writing or about to install, with what is still to be
    written. -/
def Phase.own : Phase → Option (SecretKey × Nat × Bytes)
  | .writing secretKey file todo => some (secretKey, file, todo)
  | .installing secretKey file => some (secretKey, file, [])
  | _ => none

def Phase.answer : Phase → Option SecretKey
  | .finishing secretKey => some secretKey
  | .returned secretKey => some secretKey
  | _ => none

def Phase.settled : Phase → Bool
  | .checking | .directory | .creating _ | .writing _ _ _ | .installing _ _ => false
  | _ => true

/-- What a step of a call in this phase can do to the files and to the call. -/
inductive Effect (path : Path) (files : FileSystem Path) (phase : Phase) :
    Action → FileSystem Path → Phase → Prop where
  | settle (action : Action) (phase' : Phase) (settled : phase'.settled = true)
      (known : phase'.answer = none ∨ phase'.answer = phase.answer ∨
        phase'.answer = identityKey path files) :
      Effect path files phase action files phase'
  | missing (action : Action) (owner : phase = .checking)
      (absent : files.links path = none ∨ action = .checkFailed) :
      Effect path files phase action files .directory
  | makeDirectory (secretKey : SecretKey) (owner : phase = .directory) :
      Effect path files phase (.makeDirectory secretKey) files (.creating secretKey)
  | create (secretKey : SecretKey) (owner : phase = .creating secretKey)
      (hasName : path.hasName = true) :
      Effect path files phase .create (files.create (tempPath path))
        (.writing secretKey files.next (encoded secretKey))
  | write (secretKey : SecretKey) (file n : Nat) (todo : Bytes)
      (owner : phase = .writing secretKey file todo) :
      Effect path files phase (.write n) (files.write file (todo.take n))
        (.writing secretKey file (todo.drop n))
  | sync (secretKey : SecretKey) (file : Nat) (owner : phase = .writing secretKey file []) :
      Effect path files phase .sync files (.installing secretKey file)
  | remove (error : IdentityError) (hasName : path.hasName = true) :
      Effect path files phase .remove (files.unlink (tempPath path)) (.failed error)
  | rename (secretKey : SecretKey) (file : Nat) (owner : phase = .installing secretKey file)
      (hasName : path.hasName = true) :
      Effect path files phase .rename (files.rename (tempPath path) path) (.finishing secretKey)

theorem settled_own {phase : Phase} (settled : phase.settled = true) : phase.own = none := by
  cases phase with
  | writing secretKey file todo => simp [Phase.settled] at settled
  | installing secretKey file => simp [Phase.settled] at settled
  | _ => rfl

theorem loaded_settled (result : Except IdentityError SecretKey) :
    (loaded result).settled = true ∧ (loaded result).answer = result.toOption := by
  cases result with
  | error error => exact ⟨rfl, rfl⟩
  | ok secretKey => exact ⟨rfl, rfl⟩

theorem act_effect {path : Path} {files files' : FileSystem Path} {phase phase' : Phase}
    {action : Action} (h : act path files phase action = some (files', phase')) :
    Effect path files phase action files' phase' := by
  cases phase with
  | checking =>
    cases action <;> simp only [act, reduceCtorEq, Option.ite_none_left_eq_some,
      Option.ite_none_right_eq_some] at h
    · cases h.2
      exact .settle _ _ rfl (Or.inl rfl)
    · obtain ⟨absent, h⟩ := h
      cases h
      exact .missing _ rfl (Or.inl absent)
    · cases h
      exact .missing _ rfl (Or.inr rfl)
    · cases h.2
      exact .settle _ _ rfl (Or.inl rfl)
  | reading =>
    cases action <;> simp only [act, reduceCtorEq, Option.ite_none_left_eq_some] at h
    · cases h
      have read := loaded_settled (load path files)
      exact .settle _ _ read.1 (Or.inr (Or.inr read.2))
    · cases h
      exact .settle _ _ rfl (Or.inl rfl)
    · cases h.2
      exact .settle _ _ rfl (Or.inl rfl)
  | directory =>
    cases action <;> simp only [act, reduceCtorEq, Option.ite_none_left_eq_some] at h
    · cases h
      exact .makeDirectory _ rfl
    · split at h
      · contradiction
      · rw [Option.ite_none_left_eq_some] at h
        cases h.2
        exact .settle _ _ rfl (Or.inl rfl)
    · cases h.2
      exact .settle _ _ rfl (Or.inl rfl)
  | creating secretKey =>
    cases action <;> simp only [act, reduceCtorEq, Option.ite_none_left_eq_some,
      Option.ite_none_right_eq_some] at h
    · obtain ⟨⟨hasName, _⟩, h⟩ := h
      cases h
      exact .create secretKey rfl hasName
    · cases h
      exact .settle _ _ rfl (Or.inl rfl)
    · cases h.2
      exact .settle _ _ rfl (Or.inl rfl)
  | writing secretKey file todo =>
    cases action <;> simp only [act, reduceCtorEq, Option.ite_none_left_eq_some,
      Option.ite_none_right_eq_some] at h
    · cases h.2
      exact .write secretKey file _ todo rfl
    · cases h.2
      exact .settle _ _ rfl (Or.inl rfl)
    · obtain ⟨written, h⟩ := h
      cases h
      exact .sync secretKey file (by rw [written])
    · cases h.2
      exact .settle _ _ rfl (Or.inl rfl)
    · cases h.2
      exact .settle _ _ rfl (Or.inl rfl)
  | removing error =>
    cases action <;> simp only [act, reduceCtorEq, Option.ite_none_left_eq_some,
      Option.ite_none_right_eq_some] at h
    · obtain ⟨hasName, h⟩ := h
      cases h
      exact .remove error hasName
    · cases h
      exact .settle _ _ rfl (Or.inl rfl)
    · cases h.2
      exact .settle _ _ rfl (Or.inl rfl)
  | installing secretKey file =>
    cases action <;> simp only [act, reduceCtorEq, Option.ite_none_left_eq_some,
      Option.ite_none_right_eq_some] at h
    · obtain ⟨⟨hasName, _⟩, h⟩ := h
      cases h
      exact .rename secretKey file rfl hasName
    · cases h
      exact .settle _ _ rfl (Or.inl rfl)
    · cases h.2
      exact .settle _ _ rfl (Or.inl rfl)
  | finishing secretKey =>
    cases action <;> simp only [act, reduceCtorEq, Option.ite_none_left_eq_some] at h
    · cases h
      exact .settle _ _ rfl (Or.inr (Or.inl rfl))
    · cases h.2
      exact .settle _ _ rfl (Or.inl rfl)
  | returned secretKey => cases action <;> simp [act, Phase.ended] at h
  | failed error => cases action <;> simp [act, Phase.ended] at h
  | crashed => cases action <;> simp [act, Phase.ended] at h

/-- The file that a call writes is not the identity file, and with what is still to be
    written it holds the key of the call. -/
structure Owned (path : Path) (files : FileSystem Path) (own : SecretKey × Nat × Bytes) : Prop where
  born : own.2.1 < files.next
  apart : files.links path ≠ some own.2.1
  content : files.contents own.2.1 ++ own.2.2 = encoded own.1

section frame
variable {path : Path} {files : FileSystem Path} {own : SecretKey × Nat × Bytes}

theorem owned_create (apart : tempPath path ≠ path) (held : Owned path files own) :
    Owned path (files.create (tempPath path)) own where
  born := Nat.lt_succ_of_lt held.born
  apart := by
    rw [create_links (Ne.symm apart)]
    exact held.apart
  content := by
    rw [create_contents held.born]
    exact held.content

theorem owned_write {file : Nat} (other : own.2.1 ≠ file) (bytes : Bytes)
    (held : Owned path files own) : Owned path (files.write file bytes) own where
  born := held.born
  apart := held.apart
  content := by
    rw [write_contents other]
    exact held.content

theorem owned_unlink (apart : tempPath path ≠ path) (held : Owned path files own) :
    Owned path (files.unlink (tempPath path)) own where
  born := held.born
  apart := by
    rw [unlink_links (Ne.symm apart)]
    exact held.apart
  content := held.content

theorem owned_rename {file : Nat} (apart : tempPath path ≠ path)
    (bound : files.links (tempPath path) = some file) (other : own.2.1 ≠ file)
    (held : Owned path files own) : Owned path (files.rename (tempPath path) path) own where
  born := by
    rw [rename_next]
    exact held.born
  apart := by
    rw [rename_links _ _ (Ne.symm apart), bound]
    intro same
    rw [Option.some.injEq] at same
    exact other same.symm
  content := by
    rw [rename_contents]
    exact held.content

theorem identity_key_congr {files' : FileSystem Path} (links : files'.links path = files.links path)
    (contents : ∀ file, files.links path = some file →
      files'.contents file = files.contents file) :
    identityKey path files' = identityKey path files := by
  unfold identityKey load
  rw [links]
  cases found : files.links path with
  | none => rfl
  | some file => simp only [contents file found]

theorem identity_key_absent (absent : files.links path = none) : identityKey path files = none := by
  rw [identityKey, load, absent]
  rfl

theorem identity_key_encoded {file : Nat} {secretKey : SecretKey}
    (bound : files.links path = some file) (whole : files.contents file = encoded secretKey) :
    identityKey path files = some secretKey := by
  have decoded := decode_encode (u := []) (v := []) (by simp) (by simp) secretKey
  rw [List.nil_append, List.append_nil] at decoded
  simp only [identityKey, load, bound, whole, encoded, fromUtf8_text, String.toList_ofList, decoded]
  rfl

end frame

/-- A rename that finds no identity file, and under the temporary name the file of its
    own call. -/
def undisturbed (path : Path) (files : FileSystem Path) : Phase → Action → Bool
  | .installing _ file, .rename =>
    files.links path = none ∧ files.links (tempPath path) = some file
  | _, _ => true

section effects
variable {path : Path} {files files' : FileSystem Path} {phase phase' : Phase} {action : Action}

theorem undisturbed_rename {secretKey : SecretKey} {file : Nat}
    (clear : undisturbed path files (.installing secretKey file) .rename = true) :
    files.links path = none ∧ files.links (tempPath path) = some file := by
  simpa [undisturbed] using clear

theorem effect_owner (effect : Effect path files phase action files' phase')
    {own : SecretKey × Nat × Bytes} (after : phase'.own = some own) :
    (∃ secretKey, own = (secretKey, files.next, encoded secretKey) ∧ path.hasName = true ∧
        files' = files.create (tempPath path)) ∨
      (∃ secretKey file n todo, phase.own = some (secretKey, file, todo) ∧
        own = (secretKey, file, todo.drop n) ∧ files' = files.write file (todo.take n)) ∨
      phase.own = some own ∧ files' = files := by
  cases effect with
  | settle _ _ settled _ =>
    rw [settled_own settled] at after
    contradiction
  | missing _ _ _ => simp [Phase.own] at after
  | makeDirectory _ _ => simp [Phase.own] at after
  | create secretKey _ hasName =>
    rw [Phase.own, Option.some.injEq] at after
    exact Or.inl ⟨secretKey, after.symm, hasName, rfl⟩
  | write secretKey file n todo owner =>
    rw [Phase.own, Option.some.injEq] at after
    exact Or.inr (Or.inl ⟨secretKey, file, n, todo, by rw [owner, Phase.own], after.symm, rfl⟩)
  | sync secretKey file owner =>
    rw [Phase.own, Option.some.injEq] at after
    exact Or.inr (Or.inr ⟨by rw [owner, Phase.own, after], rfl⟩)
  | remove _ _ => simp [Phase.own] at after
  | rename _ _ _ _ => simp [Phase.own] at after

theorem effect_file (effect : Effect path files phase action files' phase')
    {own : SecretKey × Nat × Bytes} (after : phase'.own = some own) :
    own.2.1 = files.next ∨ ∃ before, phase.own = some before ∧ before.2.1 = own.2.1 := by
  rcases effect_owner effect after with
    ⟨_, rfl, _⟩ | ⟨secretKey, file, _, todo, before, rfl, _⟩ | ⟨before, _⟩
  · exact Or.inl rfl
  · exact Or.inr ⟨(secretKey, file, todo), before, rfl⟩
  · exact Or.inr ⟨own, before, rfl⟩

theorem effect_own (apart : path.hasName = true → tempPath path ≠ path)
    (effect : Effect path files phase action files' phase')
    (owned : ∀ own, phase.own = some own → Owned path files own)
    {own : SecretKey × Nat × Bytes} (after : phase'.own = some own) : Owned path files' own := by
  rcases effect_owner effect after with
    ⟨secretKey, rfl, hasName, rfl⟩ | ⟨secretKey, file, n, todo, before, rfl, rfl⟩ | ⟨before, rfl⟩
  · refine ⟨Nat.lt_succ_self files.next, ?_, ?_⟩
    · rw [create_links (Ne.symm (apart hasName))]
      intro linked
      exact Nat.lt_irrefl _ (files.fresh path files.next linked)
    · simp only [create_contents_self, List.nil_append]
  · have held := owned (secretKey, file, todo) before
    refine ⟨held.born, held.apart, ?_⟩
    simp only [write_contents_self]
    rw [List.append_assoc, List.take_append_drop]
    exact held.content
  · exact owned own before

theorem effect_others (apart : path.hasName = true → tempPath path ≠ path)
    (effect : Effect path files phase action files' phase')
    (clear : undisturbed path files phase action = true) {other : SecretKey × Nat × Bytes}
    (distinct : ∀ own, phase.own = some own → other.2.1 ≠ own.2.1)
    (held : Owned path files other) : Owned path files' other := by
  cases effect with
  | settle _ _ _ _ => exact held
  | missing _ _ _ => exact held
  | makeDirectory _ _ => exact held
  | create _ _ hasName => exact owned_create (apart hasName) held
  | write secretKey file n todo owner =>
    exact owned_write (distinct (secretKey, file, todo) (by rw [owner, Phase.own])) _ held
  | sync _ _ _ => exact held
  | remove _ hasName => exact owned_unlink (apart hasName) held
  | rename secretKey file owner hasName =>
    subst owner
    obtain ⟨_, bound⟩ := undisturbed_rename clear
    exact owned_rename (apart hasName) bound (distinct (secretKey, file, []) rfl) held

theorem effect_identity (apart : path.hasName = true → tempPath path ≠ path)
    (effect : Effect path files phase action files' phase')
    (clear : undisturbed path files phase action = true)
    (owned : ∀ own, phase.own = some own → Owned path files own) :
    files'.links path = files.links path ∧ identityKey path files' = identityKey path files ∨
      files.links path = none ∧
        ∃ secretKey, phase' = .finishing secretKey ∧ identityKey path files' = some secretKey := by
  cases effect with
  | settle _ _ _ _ => exact Or.inl ⟨rfl, rfl⟩
  | missing _ _ _ => exact Or.inl ⟨rfl, rfl⟩
  | makeDirectory _ _ => exact Or.inl ⟨rfl, rfl⟩
  | create secretKey _ hasName =>
    refine Or.inl ⟨create_links (Ne.symm (apart hasName)), ?_⟩
    apply identity_key_congr (create_links (Ne.symm (apart hasName)))
    intro file linked
    exact create_contents (files.fresh path file linked)
  | write secretKey file n todo owner =>
    have held := owned (secretKey, file, todo) (by rw [owner, Phase.own])
    refine Or.inl ⟨rfl, identity_key_congr rfl ?_⟩
    intro other linked
    apply write_contents
    intro same
    exact held.apart (same ▸ linked)
  | sync _ _ _ => exact Or.inl ⟨rfl, rfl⟩
  | remove error hasName =>
    exact Or.inl ⟨unlink_links (Ne.symm (apart hasName)),
      identity_key_congr (unlink_links (Ne.symm (apart hasName))) fun _ _ => rfl⟩
  | rename secretKey file owner hasName =>
    subst owner
    obtain ⟨absent, bound⟩ := undisturbed_rename clear
    have held := owned (secretKey, file, []) rfl
    have linked : (files.rename (tempPath path) path).links path = some file := by
      rw [rename_links _ _ (Ne.symm (apart hasName)), bound]
    refine Or.inr ⟨absent, secretKey, rfl, identity_key_encoded linked ?_⟩
    rw [rename_contents]
    simpa using held.content

theorem effect_answer (apart : path.hasName = true → tempPath path ≠ path)
    (effect : Effect path files phase action files' phase')
    (clear : undisturbed path files phase action = true)
    (owned : ∀ own, phase.own = some own → Owned path files own)
    (agreed : ∀ secretKey, phase.answer = some secretKey → identityKey path files = some secretKey)
    {secretKey : SecretKey} (after : phase'.answer = some secretKey) :
    identityKey path files' = some secretKey := by
  have identity := effect_identity apart effect clear owned
  cases effect with
  | settle _ _ _ known =>
    rcases known with none | same | read
    · rw [none] at after
      contradiction
    · exact agreed secretKey (same ▸ after)
    · exact read ▸ after
  | missing _ _ _ => simp [Phase.answer] at after
  | makeDirectory _ _ => simp [Phase.answer] at after
  | create _ _ _ => simp [Phase.answer] at after
  | write _ _ _ _ _ => simp [Phase.answer] at after
  | sync _ _ _ => simp [Phase.answer] at after
  | remove _ _ => simp [Phase.answer] at after
  | rename installed file owner hasName =>
    subst owner
    rcases identity with ⟨links, _⟩ | ⟨_, found, same, held⟩
    · obtain ⟨absent, bound⟩ := undisturbed_rename clear
      rw [rename_links _ _ (Ne.symm (apart hasName)), bound, absent] at links
      contradiction
    · cases same
      rw [Phase.answer] at after
      exact after ▸ held

end effects

def Distinct (calls : List Phase) : Prop :=
  ∀ (t u : Nat) (phase phase' : Phase) (own own' : SecretKey × Nat × Bytes),
    calls[t]? = some phase → calls[u]? = some phase' → phase.own = some own →
      phase'.own = some own' → own.2.1 = own'.2.1 → t = u

/-- Every call writes a file of its own, and every answer is the key of the identity
    file. -/
structure Consistent (path : Path) (s : State) : Prop where
  owned : Every (fun _ phase => ∀ own, phase.own = some own → Owned path s.files own) s.calls
  distinct : Distinct s.calls
  agreed : Every (fun _ phase => ∀ secretKey, phase.answer = some secretKey →
    identityKey path s.files = some secretKey) s.calls

def eachCall (guard : FileSystem Path → Phase → Action → Bool) (s : State) : Event → Bool
  | .call => true
  | .task t action => s.calls[t]?.all fun phase => guard s.files phase action

theorem step_task {path : Path} {s s' : State} {t : Nat} {action : Action}
    (h : step path s (.task t action) = some s') :
    ∃ phase files' phase', s.calls[t]? = some phase ∧
      act path s.files phase action = some (files', phase') ∧
      s' = ⟨files', s.calls.set t phase'⟩ := by
  rw [step] at h
  split at h
  · contradiction
  · rename_i phase found
    rw [Option.map_eq_some_iff] at h
    obtain ⟨moved, acted, rfl⟩ := h
    exact ⟨phase, moved.1, moved.2, found, acted, rfl⟩

theorem consistent_call {path : Path} {s : State} (held : Consistent path s) :
    Consistent path { s with calls := s.calls ++ [.checking] } where
  owned := held.owned.snoc (by simp [Phase.own])
  distinct t u phase phase' own own' here there first second same := by
    rcases snoc_cases here with ⟨_, rfl⟩ | here
    · simp [Phase.own] at first
    · rcases snoc_cases there with ⟨_, rfl⟩ | there
      · simp [Phase.own] at second
      · exact held.distinct t u phase phase' own own' here there first second same
  agreed := held.agreed.snoc (by simp [Phase.answer])

theorem consistent_task {path : Path} {s : State} {t : Nat} {phase phase' : Phase}
    {action : Action} {files' : FileSystem Path}
    (apart : path.hasName = true → tempPath path ≠ path) (held : Consistent path s)
    (found : s.calls[t]? = some phase) (effect : Effect path s.files phase action files' phase')
    (clear : undisturbed path s.files phase action = true) :
    Consistent path ⟨files', s.calls.set t phase'⟩ := by
  have owned := held.owned t phase found
  have others : ∀ k other own, k ≠ t → s.calls[k]? = some other → other.own = some own →
      Owned path files' own := by
    intro k other own apart' lookup mine
    apply effect_others apart effect clear _ (held.owned k other lookup own mine)
    intro moving theirs same
    exact apart' (held.distinct k t other phase own moving lookup found mine theirs same)
  have fresh : ∀ k other own own', k ≠ t → s.calls[k]? = some other → other.own = some own →
      phase'.own = some own' → own.2.1 ≠ own'.2.1 := by
    intro k other own own' apart' lookup mine theirs same
    rcases effect_file effect theirs with new | ⟨before, was, number⟩
    · have born := (held.owned k other lookup own mine).born
      rw [same, new] at born
      exact Nat.lt_irrefl _ born
    · exact apart' (held.distinct k t other phase own before lookup found mine was
        (same.trans number.symm))
  refine ⟨?_, ?_, ?_⟩
  · refine every_set ?_ ?_
    · intro k other apart' lookup own mine
      exact others k other own apart' lookup mine
    · intro own after
      exact effect_own apart effect owned after
  · intro k l first second own own' here there mine theirs same
    rcases set_cases here with ⟨rfl, rfl⟩ | ⟨apart₁, before⟩
    · rcases set_cases there with ⟨rfl, rfl⟩ | ⟨apart₂, before'⟩
      · rfl
      · exact absurd same.symm (fresh l second own' own apart₂ before' theirs mine)
    · rcases set_cases there with ⟨rfl, rfl⟩ | ⟨apart₂, before'⟩
      · exact absurd same (fresh k first own own' apart₁ before mine theirs)
      · exact held.distinct k l first second own own' before before' mine theirs same
  · refine every_set ?_ ?_
    · intro k other _ lookup secretKey answered
      have before := held.agreed k other lookup secretKey answered
      rcases effect_identity apart effect clear owned with ⟨_, same⟩ | ⟨absent, _⟩
      · exact same.trans before
      · rw [identity_key_absent absent] at before
        contradiction
    · intro secretKey after
      exact effect_answer apart effect clear owned (held.agreed t phase found) after

theorem consistent_step {path : Path} {s s' : State} {e : Event}
    (apart : path.hasName = true → tempPath path ≠ path) (held : Consistent path s)
    (clear : eachCall (undisturbed path) s e = true) (h : step path s e = some s') :
    Consistent path s' := by
  cases e with
  | call =>
    rw [step, Option.some.injEq] at h
    exact h ▸ consistent_call held
  | task t action =>
    obtain ⟨phase, files', phase', found, acted, rfl⟩ := step_task h
    have clear' : undisturbed path s.files phase action = true := by
      simpa [eachCall, found] using clear
    exact consistent_task apart held found (act_effect acted) clear'

/-- All calls that have returned a key have returned one key, and it is the key of the
    identity file. -/
structure OneIdentity (path : Path) (s : State) : Prop where
  same : ∀ (t u : Nat) (k l : SecretKey), s.calls[t]? = some (.returned k) →
    s.calls[u]? = some (.returned l) → k = l
  held : ∀ (t : Nat) (k : SecretKey), s.calls[t]? = some (.returned k) →
    identityKey path s.files = some k

theorem temp_apart {path : Path} (extension : path.extension ≠ some tmp)
    (hasName : path.hasName = true) : tempPath path ≠ path := by
  intro same
  exact extension ((with_extension_iff hasName tmp).mp same)

theorem one_identity_of_consistent {path : Path} {s : State} (consistent : Consistent path s) :
    OneIdentity path s := by
  have held : ∀ (t : Nat) (k : SecretKey), s.calls[t]? = some (.returned k) →
      identityKey path s.files = some k := by
    intro t k found
    exact consistent.agreed t (.returned k) found k rfl
  refine ⟨?_, held⟩
  intro t u k l here there
  have first := held t k here
  rw [held u l there, Option.some.injEq] at first
  exact first.symm

theorem consistent_start (path : Path) (start : FileSystem Path) : Consistent path ⟨start, []⟩ :=
  ⟨every_nil _, by simp [Distinct], every_nil _⟩

/-- In every run whose renames are all undisturbed, all calls that return a key return
    the one that the identity file holds from then on. -/
theorem one_identity {path : Path} {start : FileSystem Path} {s : State}
    (extension : path.extension ≠ some tmp)
    (reached : ((identity path start).restrict (eachCall (undisturbed path))).Reachable s) :
    OneIdentity path s := by
  apply one_identity_of_consistent
  apply state_invariant (Consistent path) _ _ s reached
  · exact consistent_start path start
  · intro s e s' held h
    obtain ⟨clear, h⟩ := restrict_step.mp h
    exact consistent_step (temp_apart extension) held clear h

def serverKey : Path := .named [] (text "server.key")

def zeroKey : SecretKey := ⟨List.replicate 32 0, rfl⟩

def oneKey : SecretKey := ⟨List.replicate 32 1, rfl⟩

def createAndLoad : List Event :=
  [.call, .task 0 .missing, .task 0 (.makeDirectory zeroKey), .task 0 .create,
    .task 0 (.write 50), .call, .task 0 (.write 34), .task 0 .sync, .task 0 .rename,
    .task 1 .found, .task 1 .read, .task 0 .finish, .task 1 .finish]

theorem one_identity_example : ∃ s,
    ((identity serverKey .empty).restrict (eachCall (undisturbed serverKey))).replay
      createAndLoad = some s ∧
    s.calls = [.returned zeroKey, .returned zeroKey] ∧ OneIdentity serverKey s := by
  have finished : (((identity serverKey .empty).restrict
      (eachCall (undisturbed serverKey))).replay createAndLoad).map State.calls =
        some [.returned zeroKey, .returned zeroKey] := by decide
  obtain ⟨s, run, calls⟩ := Option.map_eq_some_iff.mp finished
  exact ⟨s, run, calls, one_identity (by decide) ⟨createAndLoad, run⟩⟩

/-- Two calls that both find no file: the second one writes its temporary file when the
    first one has installed its own and returned, and replaces it. -/
def createTwice : List Event :=
  [.call, .call, .task 0 .missing, .task 1 .missing, .task 0 (.makeDirectory zeroKey),
    .task 1 (.makeDirectory oneKey), .task 0 .create, .task 0 (.write 84), .task 0 .sync,
    .task 0 .rename, .task 0 .finish, .task 1 .create, .task 1 (.write 84), .task 1 .sync,
    .task 1 .rename, .task 1 .finish]

theorem identity_replaced : ∃ s, (identity serverKey .empty).replay createTwice = some s ∧
    s.calls = [.returned zeroKey, .returned oneKey] ∧ ¬ OneIdentity serverKey s := by
  have finished : ((identity serverKey .empty).replay createTwice).map State.calls =
      some [.returned zeroKey, .returned oneKey] := by decide
  obtain ⟨s, run, calls⟩ := Option.map_eq_some_iff.mp finished
  refine ⟨s, run, calls, ?_⟩
  intro one
  have same := one.same 0 1 zeroKey oneKey (by rw [calls]; rfl) (by rw [calls]; rfl)
  exact absurd same (by decide)

end IdentityFile
