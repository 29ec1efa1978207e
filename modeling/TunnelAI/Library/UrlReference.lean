import TunnelAI.Library.StreamReader

/-!
References of the URL standard, for a base whose scheme is special and for
references without a backslash. A reference is cleaned of outer spaces, tabs and
newlines before it is looked at. It then either spells a URL of its own, or it is
relative, and its path is walked segment by segment from the base's directory.
-/
namespace UrlReference
open StreamReader

def slash : UInt8 := 0x2f

def hash : UInt8 := 0x23

structure Url where
  scheme : Bytes
  username : Bytes
  password : Option Bytes
  host : Option Bytes
  port : Option Nat
  path : Bytes
  query : Option Bytes
  fragment : Option Bytes
  deriving DecidableEq

def SameAuthority (u v : Url) : Prop :=
  u.scheme = v.scheme ∧ u.username = v.username ∧ u.password = v.password ∧ u.host = v.host ∧
    u.port = v.port

instance (u v : Url) : Decidable (SameAuthority u v) :=
  inferInstanceAs (Decidable (_ ∧ _ ∧ _ ∧ _ ∧ _))

def isControlOrSpace (byte : UInt8) : Bool := byte ≤ 0x20

def isTabOrNewline (byte : UInt8) : Bool := byte == 0x09 || byte == 0x0a || byte == 0x0d

def isAlpha (byte : UInt8) : Bool := (0x41 ≤ byte && byte ≤ 0x5a) || (0x61 ≤ byte && byte ≤ 0x7a)

def isSchemeByte (byte : UInt8) : Bool :=
  isAlpha byte || (0x30 ≤ byte && byte ≤ 0x39) || byte == 0x2b || byte == 0x2d || byte == 0x2e

def lower (byte : UInt8) : UInt8 := if 0x41 ≤ byte ∧ byte ≤ 0x5a then byte + 0x20 else byte

/-- A reference as it is read. -/
def clean (reference : Bytes) : Bytes :=
  ((reference.dropWhile isControlOrSpace).reverse.dropWhile isControlOrSpace).reverse.filter
    fun byte => !isTabOrNewline byte

def splitScheme (reference : Bytes) : Option (Bytes × Bytes) :=
  if (reference.head?.any isAlpha) then
    match reference.dropWhile isSchemeByte with
    | 0x3a :: rest => some ((reference.takeWhile isSchemeByte).map lower, rest)
    | _ => none
  else none

inductive Meaning where
  | absolute : Bytes → Meaning
  | relative : Bytes → Meaning
  deriving DecidableEq

/-- A scheme makes a reference absolute, unless it is the base's own and no
    authority follows; two slashes borrow the scheme of the base. -/
def meaning (baseScheme reference : Bytes) : Meaning :=
  match splitScheme (clean reference) with
  | some (scheme, rest) =>
    if scheme = baseScheme ∧ ¬ [slash, slash] <+: rest then .relative rest
    else .absolute (clean reference)
  | none =>
    if [slash, slash] <+: clean reference then
      .absolute (baseScheme ++ [0x3a] ++ clean reference)
    else .relative (clean reference)

def isDot (segment : Bytes) : Bool :=
  [text ".", text "%2e"].contains (segment.map lower)

def isDotDot (segment : Bytes) : Bool :=
  [text "..", text ".%2e", text "%2e.", text "%2e%2e"].contains (segment.map lower)

def pathBytes (segments : List Bytes) : Bytes := segments.flatMap fun segment => slash :: segment

def segmentsOf (path : Bytes) : List Bytes := (path.drop 1).splitOn slash

def directory (path : Bytes) : List Bytes := (segmentsOf path).dropLast

variable (encode : UInt8 → Bytes)

/-- One segment of a path: it goes up, stays, or is put on top. Only the last
    segment of a path leaves an empty one where it does not put itself. -/
def walkSegment (segments : List Bytes) (segment : Bytes) : List Bytes :=
  if isDotDot segment then segments.dropLast
  else if isDot segment then segments
  else segments ++ [segment.flatMap encode]

def walk (segments : List Bytes) : List Bytes → List Bytes
  | [] => segments
  | [last] =>
    if isDotDot last ∨ isDot last then walkSegment encode segments last ++ [[]]
    else walkSegment encode segments last
  | segment :: next :: rest => walk (walkSegment encode segments segment) (next :: rest)

def resolveSegments (basePath relative : Bytes) : List Bytes :=
  let path := relative.takeWhile (· != hash)
  if path = [] then segmentsOf basePath
  else if path.head? = some slash then walk encode [] (segmentsOf path)
  else walk encode (directory basePath) (path.splitOn slash)

theorem walk_nonempty (segments : List Bytes) {path : List Bytes} (some : path ≠ []) :
    walk encode segments path ≠ [] := by
  induction path generalizing segments with
  | nil => contradiction
  | cons segment rest ih =>
    cases rest with
    | nil =>
      rw [walk]
      split
      · simp
      · rename_i plain
        rw [not_or] at plain
        simp [walkSegment, plain]
    | cons next rest => exact ih _ (by simp)

theorem clean_sub {reference : Bytes} {byte : UInt8} (member : byte ∈ clean reference) :
    byte ∈ reference := by
  have inside := List.mem_reverse.mp (List.mem_of_mem_filter member)
  have middle := List.mem_reverse.mp ((List.dropWhile_sublist _).subset inside)
  exact (List.dropWhile_sublist _).subset middle

theorem split_scheme_suffix {reference scheme rest : Bytes}
    (h : splitScheme reference = some (scheme, rest)) : rest <:+ reference := by
  unfold splitScheme at h
  split at h
  · split at h
    · rename_i behind shape
      rw [Option.some.injEq, Prod.mk.injEq] at h
      obtain ⟨_, rfl⟩ := h
      have colon : 0x3a :: behind <:+ reference := shape ▸ List.dropWhile_suffix isSchemeByte
      exact (List.suffix_cons 0x3a behind).trans colon
    · contradiction
  · contradiction

theorem suffix_segments {s rest segment : Bytes} (suffix : slash :: rest <:+ s)
    (member : segment ∈ rest.splitOn slash) : segment ∈ s.splitOn slash := by
  obtain ⟨front, rfl⟩ := suffix
  rw [List.splitOn_append_cons_self]
  exact List.mem_append_right _ member

/-- Segments that are no dot segments are put on top, one after the other. -/
theorem walk_solid {path : List Bytes}
    (solid : ∀ segment ∈ path, isDot segment = false ∧ isDotDot segment = false)
    (segments : List Bytes) :
    walk encode segments path = segments ++ path.map fun segment => segment.flatMap encode := by
  induction path generalizing segments with
  | nil => rw [walk, List.map_nil, List.append_nil]
  | cons segment rest ih =>
    obtain ⟨dot, dots⟩ := solid segment List.mem_cons_self
    have step : walkSegment encode segments segment = segments ++ [segment.flatMap encode] := by
      simp [walkSegment, dot, dots]
    cases rest with
    | nil => simp [walk, dot, dots, step]
    | cons next rest =>
      have later := ih (fun other member => solid other (List.mem_cons_of_mem segment member))
        (segments ++ [segment.flatMap encode])
      rw [walk, step, later, List.append_assoc]
      rfl

theorem split_slash_free (s : Bytes) : ∀ segment ∈ s.splitOn slash, slash ∉ segment := by
  induction s with
  | nil => simp
  | cons b s ih =>
    intro segment member
    rw [List.splitOn_cons_eq_if_modifyHead] at member
    split at member
    · rcases List.mem_cons.mp member with rfl | member
      · simp
      · exact ih segment member
    · rename_i other
      cases rest : s.splitOn slash with
      | nil => exact absurd rest (List.splitOn_ne_nil slash s)
      | cons first more =>
        rw [rest] at member ih
        simp only [List.modifyHead_cons, List.mem_cons] at member
        rcases member with rfl | member
        · have free := ih first (by simp)
          have ne : slash ≠ b := fun same => other (by rw [same, beq_self_eq_true])
          simp [ne, free]
        · exact ih segment (by simp [member])

theorem path_bytes_split (s : Bytes) : pathBytes (s.splitOn slash) = slash :: s := by
  induction s with
  | nil => rfl
  | cons b s ih =>
    rw [List.splitOn_cons_eq_if_modifyHead]
    split
    · rename_i same
      rw [beq_iff_eq] at same
      subst same
      exact congrArg (List.cons slash) ih
    · cases rest : s.splitOn slash with
      | nil => exact absurd rest (List.splitOn_ne_nil slash s)
      | cons first more =>
        rw [rest] at ih
        simp only [pathBytes, List.flatMap_cons, List.cons_append, List.cons.injEq, true_and] at ih
        simp [pathBytes, ih]

theorem path_bytes_segments {path : Bytes} (rooted : path.head? = some slash) :
    pathBytes (segmentsOf path) = path := by
  cases path with
  | nil => contradiction
  | cons b path =>
    rw [List.head?_cons, Option.some.injEq] at rooted
    rw [segmentsOf, List.drop_one, List.tail_cons, path_bytes_split, rooted]

theorem segments_directory {path : Bytes} (rooted : path.head? = some slash) :
    segmentsOf (path ++ [slash]) = segmentsOf path ++ [[]] := by
  cases path with
  | nil => contradiction
  | cons b path =>
    have split := List.splitOn_append_cons_self (a := slash) path []
    simpa [segmentsOf] using split

theorem segment_prefix {x y s t : Bytes} (plainX : slash ∉ x) (plainY : slash ∉ y)
    (s_rooted : s.head? = some slash) (t_rooted : t = [] ∨ t.head? = some slash)
    (h : x ++ s <+: y ++ t) : x = y ∧ s <+: t := by
  induction x generalizing y with
  | nil =>
    cases y with
    | nil => exact ⟨rfl, h⟩
    | cons b y =>
      cases s with
      | nil => contradiction
      | cons c s =>
        simp only [List.head?_cons, Option.some.injEq] at s_rooted
        rw [List.nil_append, List.cons_append, List.cons_prefix_cons] at h
        exact absurd (by simp [← h.1, s_rooted]) plainY
  | cons a x ih =>
    cases y with
    | nil =>
      rcases t_rooted with rfl | rooted
      · simp at h
      · cases t with
        | nil => contradiction
        | cons c t =>
          simp only [List.head?_cons, Option.some.injEq] at rooted
          rw [List.nil_append, List.cons_append, List.cons_prefix_cons] at h
          exact absurd (by simp [h.1, rooted]) plainX
    | cons b y =>
      rw [List.cons_append, List.cons_append, List.cons_prefix_cons] at h
      obtain ⟨rfl, h⟩ := h
      rw [List.mem_cons, not_or] at plainX plainY
      obtain ⟨rfl, rest⟩ := ih plainX.2 plainY.2 h
      exact ⟨rfl, rest⟩

theorem path_bytes_head (segments : List Bytes) :
    pathBytes segments = [] ∨ (pathBytes segments).head? = some slash := by
  cases segments with
  | nil => exact Or.inl rfl
  | cons first rest => exact Or.inr rfl

/-- A path lies under a directory when its segments go on where those of the
    directory end. -/
theorem under_directory_iff {base segments : List Bytes} (plainBase : ∀ segment ∈ base, slash ∉ segment)
    (plain : ∀ segment ∈ segments, slash ∉ segment) :
    pathBytes base ++ [slash] <+: pathBytes segments ↔
      ∃ first rest, segments = base ++ first :: rest := by
  induction base generalizing segments with
  | nil =>
    cases segments with
    | nil => simp [pathBytes]
    | cons first rest =>
      constructor
      · intro _
        exact ⟨first, rest, rfl⟩
      · intro _
        exact ⟨first ++ pathBytes rest, rfl⟩
  | cons x base ih =>
    have rooted : (pathBytes base ++ [slash]).head? = some slash := by
      rcases path_bytes_head base with empty | head
      · rw [empty]
        rfl
      · rw [List.head?_append, head]
        rfl
    constructor
    · intro h
      cases segments with
      | nil => simp [pathBytes] at h
      | cons y segments =>
        change slash :: (x ++ pathBytes base) ++ [slash] <+: slash :: (y ++ pathBytes segments) at h
        rw [List.cons_append, List.append_assoc, List.cons_prefix_cons] at h
        obtain ⟨rfl, below⟩ := segment_prefix (plainBase x (by simp)) (plain y (by simp)) rooted
          (path_bytes_head segments) h.2
        obtain ⟨first, rest, rfl⟩ := (ih (fun z member => plainBase z (by simp [member]))
          fun z member => plain z (by simp [member])).mp below
        exact ⟨first, rest, rfl⟩
    · intro h
      obtain ⟨first, rest, rfl⟩ := h
      have below := (ih (fun z member => plainBase z (by simp [member]))
        fun z member => plain z (List.mem_cons_of_mem x member)).mpr ⟨first, rest, rfl⟩
      change slash :: (x ++ pathBytes base) ++ [slash] <+:
        slash :: (x ++ pathBytes (base ++ first :: rest))
      rw [List.cons_append, List.append_assoc, List.cons_prefix_cons]
      exact ⟨rfl, (List.prefix_append_right_inj x).mpr below⟩

theorem walk_segment_plain {segments : List Bytes} {segment : Bytes}
    (plainEncode : ∀ byte, byte ≠ slash → slash ∉ encode byte)
    (plain : ∀ s ∈ segments, slash ∉ s) (free : slash ∉ segment) :
    ∀ s ∈ walkSegment encode segments segment, slash ∉ s := by
  unfold walkSegment
  intro s member
  split at member
  · exact plain s (List.dropLast_subset _ member)
  · split at member
    · exact plain s member
    · rcases List.mem_append.mp member with earlier | last
      · exact plain s earlier
      · rw [List.mem_singleton.mp last, List.mem_flatMap]
        intro found
        obtain ⟨byte, inside, escaped⟩ := found
        exact plainEncode byte (fun same => free (same ▸ inside)) escaped

theorem walk_plain {segments path : List Bytes}
    (plainEncode : ∀ byte, byte ≠ slash → slash ∉ encode byte)
    (plain : ∀ s ∈ segments, slash ∉ s) (free : ∀ s ∈ path, slash ∉ s) :
    ∀ s ∈ walk encode segments path, slash ∉ s := by
  induction path generalizing segments with
  | nil => exact plain
  | cons segment rest ih =>
    have step := walk_segment_plain encode plainEncode plain (free segment (by simp))
    cases rest with
    | nil =>
      rw [walk]
      split
      · intro s member
        rcases List.mem_append.mp member with earlier | last
        · exact step s earlier
        · rw [List.mem_singleton.mp last]
          simp
      · exact step
    | cons next rest => exact ih step fun s member => free s (by simp [member])

theorem directory_plain (path : Bytes) : ∀ s ∈ directory path, slash ∉ s := by
  intro s member
  exact split_slash_free _ s (List.dropLast_subset _ member)

theorem resolve_segments_plain (plainEncode : ∀ byte, byte ≠ slash → slash ∉ encode byte)
    (basePath relative : Bytes) : ∀ s ∈ resolveSegments encode basePath relative, slash ∉ s := by
  unfold resolveSegments
  simp only
  split
  · exact split_slash_free _
  · split
    · exact walk_plain encode plainEncode (by simp) (split_slash_free _)
    · exact walk_plain encode plainEncode (directory_plain basePath) (split_slash_free _)

end UrlReference
