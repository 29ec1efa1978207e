import TunnelAI.ProviderConfinement
import TunnelAI.PercentDecoding

/-!
The provider URL of a plain request target: segments of unreserved characters on
the base URL and on the target. The base path stands in front of the target's
segments once, whether the target repeats it or not.
-/
namespace ProviderMapping
open StreamReader Fallible UrlReference ProviderUrl ProviderConfinement PercentDecoding

def isUnreserved (byte : UInt8) : Bool :=
  isAlpha byte || (0x30 ≤ byte && byte ≤ 0x39) || [0x2d, 0x2e, 0x5f, 0x7e].contains byte

structure Segment where
  bytes : Bytes
  nonempty : bytes ≠ []
  unreserved : ∀ byte ∈ bytes, isUnreserved byte = true
  solid : bytes ≠ text "." ∧ bytes ≠ text ".."
  deriving DecidableEq

structure Query where
  bytes : Bytes
  plain : ∀ byte ∈ bytes, isUnreserved byte = true ∨ byte = 0x3d ∨ byte = 0x26

def pathOf (segments : List Segment) : Bytes := pathBytes (segments.map Segment.bytes)

def joined (segments : List Segment) : Bytes := [slash].intercalate (segments.map Segment.bytes)

def queryPart : Option Query → Bytes
  | none => []
  | some query => questionMark :: query.bytes

def requestTarget (t : List Segment) (query : Option Query) : Bytes :=
  slash :: joined t ++ queryPart query

/-- A base path, with or without a slash at its end. -/
def HasPath (base : Url) (p : List Segment) : Prop :=
  base.path = pathOf p ++ [slash] ∨ p ≠ [] ∧ base.path = pathOf p

def withoutBase (p t : List Segment) : List Segment :=
  if p <+: t then t.drop p.length else t

def mappedUrl (base : Url) (p t : List Segment) (query : Option Query) : Url :=
  { base with
    path := pathOf p ++ slash :: joined t
    query := query.map Query.bytes
    fragment := none }

/-- What the standard says about characters that it never escapes and about a
    reference without a fragment. -/
structure KeepsPlain (crate : UrlCrate) : Prop where
  set_query_none : ∀ u, u.scheme = http ∨ u.scheme = https →
    crate.setQuery u none = { u with query := none }
  set_query_plain : ∀ u (query : Query), u.scheme = http ∨ u.scheme = https →
    crate.setQuery u (some query.bytes) = { u with query := some query.bytes }
  encode_unreserved : ∀ byte, isUnreserved byte = true → crate.encode byte = [byte]
  join_no_fragment : ∀ base reference relative u, base.scheme = http ∨ base.scheme = https →
    backslash ∉ reference → questionMark ∉ reference → hash ∉ reference →
    meaning base.scheme reference = .relative relative →
    crate.join base reference = some u → u.fragment = none

theorem unreserved_range {byte : UInt8} (unreserved : isUnreserved byte = true) :
    (0x41 ≤ byte.toNat ∧ byte.toNat ≤ 0x5a) ∨ (0x61 ≤ byte.toNat ∧ byte.toNat ≤ 0x7a) ∨
      (0x30 ≤ byte.toNat ∧ byte.toNat ≤ 0x39) ∨ byte.toNat = 0x2d ∨ byte.toNat = 0x2e ∨
      byte.toNat = 0x5f ∨ byte.toNat = 0x7e := by
  simp only [isUnreserved, isAlpha, Bool.or_eq_true, Bool.and_eq_true, decide_eq_true_eq,
    UInt8.le_iff_toNat_le, List.contains_eq_mem, List.mem_cons, List.not_mem_nil, or_false,
    ← UInt8.toNat_inj, UInt8.reduceToNat] at unreserved
  omega

theorem unreserved_ne {byte sign : UInt8} (unreserved : isUnreserved byte = true)
    (other : isUnreserved sign = false) : byte ≠ sign := by
  intro same
  rw [same, other] at unreserved
  contradiction

theorem segment_ext {a b : Segment} (same : a.bytes = b.bytes) : a = b := by
  obtain ⟨_, _, _, _⟩ := a
  obtain ⟨_, _, _, _⟩ := b
  subst same
  rfl

theorem bytes_injective : Function.Injective Segment.bytes := fun _ _ => segment_ext

theorem segment_free {segment : Segment} {sign : UInt8} (other : isUnreserved sign = false) :
    sign ∉ segment.bytes := by
  intro member
  exact unreserved_ne (segment.unreserved sign member) other rfl

theorem segments_free (segments : List Segment) :
    ∀ bytes ∈ segments.map Segment.bytes, slash ∉ bytes := by
  intro bytes member
  obtain ⟨segment, _, rfl⟩ := List.mem_map.mp member
  exact segment_free (by decide)

theorem joined_split {segments : List Segment} (nonempty : segments ≠ []) :
    (joined segments).splitOn slash = segments.map Segment.bytes :=
  List.splitOn_intercalate slash (segments_free segments) (by simpa using nonempty)

theorem path_of_joined {segments : List Segment} (nonempty : segments ≠ []) :
    pathOf segments = slash :: joined segments := by
  rw [pathOf, ← joined_split nonempty, path_bytes_split]

theorem path_of_append (p u : List Segment) : pathOf (p ++ u) = pathOf p ++ pathOf u := by
  simp [pathOf, pathBytes]

theorem joined_append {p : List Segment} (nonempty : p ≠ []) (u : List Segment) :
    joined (p ++ u) = joined p ++ pathOf u := by
  have whole := path_of_append p u
  rw [path_of_joined nonempty, path_of_joined (by simp [nonempty]), List.cons_append] at whole
  exact (List.cons.inj whole).2

theorem joined_cons (segment : Segment) (segments : List Segment) :
    joined (segment :: segments) = segment.bytes ++ pathOf segments := by
  have single : joined [segment] = segment.bytes := by simp [joined]
  rw [← single]
  exact joined_append (List.cons_ne_nil segment []) segments

theorem joined_head (segments : List Segment) : (joined segments).head? ≠ some slash := by
  cases segments with
  | nil => simp [joined]
  | cons segment segments =>
    obtain ⟨byte, rest, shape⟩ := List.exists_cons_of_ne_nil segment.nonempty
    rw [joined_cons, shape, List.cons_append, List.head?_cons]
    intro same
    have free : slash ∉ segment.bytes := segment_free (by decide)
    rw [Option.some.injEq] at same
    exact free (by simp [shape, same])

theorem joined_empty_iff {segments : List Segment} : joined segments = [] ↔ segments = [] := by
  constructor
  · intro empty
    cases segments with
    | nil => rfl
    | cons segment segments =>
      rw [joined_cons, List.append_eq_nil_iff] at empty
      exact absurd empty.1 segment.nonempty
  · intro empty
    subst empty
    simp [joined]

theorem joined_bytes {segments : List Segment} {byte : UInt8} (member : byte ∈ joined segments) :
    isUnreserved byte = true ∨ byte = slash := by
  by_cases empty : segments = []
  · rw [joined_empty_iff.mpr empty] at member
    contradiction
  · have inside : byte ∈ pathOf segments := by
      rw [path_of_joined empty]
      exact List.mem_cons_of_mem slash member
    rw [pathOf, pathBytes, List.mem_flatMap] at inside
    obtain ⟨bytes, found, here⟩ := inside
    obtain ⟨segment, _, rfl⟩ := List.mem_map.mp found
    rcases List.mem_cons.mp here with same | here
    · exact Or.inr same
    · exact Or.inl (segment.unreserved byte here)

theorem joined_free {segments : List Segment} {sign : UInt8} (other : isUnreserved sign = false)
    (solid : sign ≠ slash) : sign ∉ joined segments := by
  intro member
  rcases joined_bytes member with unreserved | same
  · exact unreserved_ne unreserved other rfl
  · exact solid same

theorem trim_start_cons (s : Bytes) : trimStart (slash :: s) = trimStart s := rfl

theorem trim_start_joined (segments : List Segment) : trimStart (joined segments) = joined segments := by
  have head := joined_head segments
  unfold trimStart
  cases shape : joined segments with
  | nil => rfl
  | cons byte rest =>
    rw [shape, List.head?_cons, ne_eq, Option.some.injEq] at head
    rw [List.dropWhile_cons_of_neg (by simpa using head)]

theorem trim_start_path (segments : List Segment) : trimStart (pathOf segments) = joined segments := by
  by_cases empty : segments = []
  · rw [joined_empty_iff.mpr empty, empty]
    rfl
  · rw [path_of_joined empty, trim_start_cons, trim_start_joined]

theorem trim_end_last {s : Bytes} (last : s.getLast? ≠ some slash) : trimEnd s = s := by
  cases s using List.reverseRecOn with
  | nil => rfl
  | append_singleton front byte =>
    rw [List.getLast?_concat, ne_eq, Option.some.injEq] at last
    unfold trimEnd
    rw [List.reverse_append, List.reverse_singleton, List.singleton_append,
      List.dropWhile_cons_of_neg (by simpa using last), List.reverse_cons, List.reverse_reverse]

theorem trim_end_slash (s : Bytes) : trimEnd (s ++ [slash]) = trimEnd s := by
  unfold trimEnd
  rw [List.reverse_append, List.reverse_singleton, List.singleton_append,
    List.dropWhile_cons_of_pos (by decide)]

theorem path_last (segments : List Segment) : (pathOf segments).getLast? ≠ some slash := by
  cases segments using List.reverseRecOn with
  | nil => simp [pathOf, pathBytes]
  | append_singleton segments segment =>
    have shape := List.dropLast_append_getLast segment.nonempty
    have path : pathOf (segments ++ [segment]) =
        pathOf segments ++ slash :: segment.bytes.dropLast ++
          [segment.bytes.getLast segment.nonempty] := by
      rw [path_of_append, List.append_assoc, List.cons_append, shape]
      simp [pathOf, pathBytes]
    rw [path, List.getLast?_concat, ne_eq, Option.some.injEq]
    intro same
    have free : slash ∉ segment.bytes := segment_free (by decide)
    exact free (same ▸ List.getLast_mem segment.nonempty)

theorem base_trimmed {base : Url} {p : List Segment} (path : HasPath base p) :
    trimStart (trimEnd base.path) = joined p := by
  rcases path with path | ⟨_, path⟩
  · rw [path, trim_end_slash, trim_end_last (path_last p), trim_start_path]
  · rw [path, trim_end_last (path_last p), trim_start_path]

theorem base_path_of {base : Url} {p : List Segment} (path : HasPath base p) :
    basePath base = pathOf p := by
  unfold basePath
  rcases path with path | ⟨_, path⟩
  · rw [path, List.getLast?_concat, if_pos rfl, List.dropLast_concat]
  · rw [path, if_neg (path_last p)]

/-- A base path is seen in the target where whole segments are. -/
theorem base_seen_iff {p : List Segment} (nonempty : p ≠ []) (t : List Segment) :
    joined t = joined p ∨ joined p ++ [slash] <+: joined t ↔ p <+: t := by
  constructor
  · intro seen
    by_cases empty : t = []
    · rw [joined_empty_iff.mpr empty] at seen
      rcases seen with same | longer
      · exact absurd (joined_empty_iff.mp same.symm) nonempty
      · simp at longer
    · rcases seen with same | longer
      · have split : t.map Segment.bytes = p.map Segment.bytes := by
          rw [← joined_split empty, ← joined_split nonempty, same]
        exact (List.map_injective_iff.mpr bytes_injective split).symm ▸ List.prefix_refl p
      · have under : pathOf p ++ [slash] <+: pathOf t := by
          rw [path_of_joined nonempty, path_of_joined empty, List.cons_append, List.cons_prefix_cons]
          exact ⟨rfl, longer⟩
        obtain ⟨first, rest, split⟩ :=
          (under_directory_iff (segments_free p) (segments_free t)).mp under
        obtain ⟨front, back, rfl, same, _⟩ := List.map_eq_append_iff.mp split
        rw [List.map_injective_iff.mpr bytes_injective same]
        exact List.prefix_append p back
  · intro front
    obtain ⟨u, rfl⟩ := front
    rw [joined_append nonempty]
    cases u with
    | nil => exact Or.inl (List.append_nil _)
    | cons first rest =>
      right
      rw [path_of_joined (List.cons_ne_nil first rest), List.prefix_append_right_inj]
      exact List.prefix_append [slash] (joined (first :: rest))

theorem relative_path_plain (p t : List Segment) :
    relativePath (joined p) (slash :: joined t) = joined (withoutBase p t) := by
  unfold relativePath withoutBase
  simp only [trim_start_cons, trim_start_joined]
  by_cases empty : p = []
  · subst empty
    simp [joined]
  · have seen := base_seen_iff empty t
    by_cases front : p <+: t
    · rw [if_pos ⟨mt joined_empty_iff.mp empty, seen.mpr front⟩, if_pos front]
      obtain ⟨u, rfl⟩ := front
      rw [joined_append empty, List.drop_left, List.drop_left, trim_start_path]
    · rw [if_neg (fun both => front (seen.mp both.2)), if_neg front]

theorem percent_decode_literal {s : Bytes} (literal : percent ∉ s) : percentDecode s = .ok s := by
  induction s with
  | nil => rfl
  | cons byte s ih =>
    rw [List.mem_cons, not_or] at literal
    rw [percent_decode_plain (Ne.symm literal.1), ih literal.2]
    rfl

theorem segment_decodes (segment : Segment) : percentDecode segment.bytes = .ok segment.bytes :=
  percent_decode_literal (segment_free (by decide))

theorem segment_safe (segment : Segment) : SafeSegment segment.bytes := by
  unfold SafeSegment
  rw [segment_decodes]
  exact ⟨segment.solid, segment_free (by decide), segment_free (by decide)⟩

theorem plain_path_safe (t : List Segment) : rejectUnsafeRequestPath (slash :: joined t) = .ok () := by
  apply safe_path_iff.mpr
  intro bytes member
  have empty : SafeSegment [] := by decide
  have split : (slash :: joined t).splitOn slash = [] :: (joined t).splitOn slash :=
    List.splitOn_append_cons_self (a := slash) [] (joined t)
  rw [split] at member
  rcases List.mem_cons.mp member with rfl | member
  · exact empty
  · by_cases none : t = []
    · rw [joined_empty_iff.mpr none, List.splitOn_nil, List.mem_singleton] at member
      rw [member]
      exact empty
    · rw [joined_split none] at member
      obtain ⟨segment, _, rfl⟩ := List.mem_map.mp member
      exact segment_safe segment

theorem joined_clean (u : List Segment) : clean (joined u) = joined u := by
  have visible : ∀ byte ∈ joined u, isControlOrSpace byte = false ∧ isTabOrNewline byte = false := by
    intro byte member
    have range : 0x20 < byte.toNat := by
      rcases joined_bytes member with unreserved | same
      · have range := unreserved_range unreserved
        omega
      · rw [same]
        decide
    simp only [isControlOrSpace, isTabOrNewline, UInt8.le_iff_toNat_le, Bool.or_eq_false_iff,
      beq_eq_false_iff_ne, ne_eq, ← UInt8.toNat_inj, UInt8.reduceToNat, decide_eq_false_iff_not]
    omega
  have solid : ∀ s : Bytes, (∀ byte ∈ s, isControlOrSpace byte = false) →
      s.dropWhile isControlOrSpace = s := by
    intro s free
    cases s with
    | nil => rfl
    | cons byte rest => rw [List.dropWhile_cons_of_neg (by simp [free byte])]
  unfold clean
  rw [solid _ fun byte member => (visible byte member).1, solid, List.reverse_reverse,
    List.filter_eq_self]
  · intro byte member
    rw [(visible byte member).2]
    rfl
  · intro byte member
    exact (visible byte (List.mem_reverse.mp member)).1

theorem joined_meaning (scheme : Bytes) (u : List Segment) :
    meaning scheme (joined u) = .relative (joined u) := by
  have noScheme : splitScheme (joined u) = none := by
    unfold splitScheme
    split
    · split
      · rename_i rest shape
        have colon : (0x3a : UInt8) ∉ joined u := joined_free (by decide) (by decide)
        exact absurd ((List.dropWhile_sublist _).subset (shape ▸ List.mem_cons_self)) colon
      · rfl
    · rfl
  have noAuthority : ¬ [slash, slash] <+: joined u := by
    intro twice
    obtain ⟨rest, shape⟩ := twice
    apply joined_head u
    rw [← shape]
    rfl
  unfold meaning
  rw [joined_clean, noScheme]
  simp only
  rw [if_neg noAuthority]

variable {crate : UrlCrate} {raw : Bytes} {base : Url}

theorem encode_kept {encode : UInt8 → Bytes}
    (keeps : ∀ byte, isUnreserved byte = true → encode byte = [byte]) {bytes : Bytes}
    (unreserved : ∀ byte ∈ bytes, isUnreserved byte = true) : bytes.flatMap encode = bytes := by
  induction bytes with
  | nil => rfl
  | cons byte rest ih =>
    rw [List.flatMap_cons, keeps byte (unreserved byte List.mem_cons_self),
      ih fun other member => unreserved other (List.mem_cons_of_mem byte member)]
    rfl

theorem walk_plain_segments {encode : UInt8 → Bytes}
    (keeps : ∀ byte, isUnreserved byte = true → encode byte = [byte]) (front : List Bytes)
    (u : List Segment) :
    walk encode front (u.map Segment.bytes) = front ++ u.map Segment.bytes := by
  have solid : ∀ bytes ∈ u.map Segment.bytes, isDot bytes = false ∧ isDotDot bytes = false := by
    intro bytes member
    obtain ⟨segment, _, rfl⟩ := List.mem_map.mp member
    exact safe_segment_solid (segment_safe segment)
  have kept : ∀ segment ∈ u, segment.bytes.flatMap encode = segment.bytes :=
    fun segment _ => encode_kept keeps segment.unreserved
  rw [walk_solid encode solid, List.map_map]
  exact congrArg (front ++ ·) (List.map_congr_left kept)

theorem path_directory (p : List Segment) :
    directory (pathOf p ++ [slash]) = p.map Segment.bytes := by
  by_cases empty : p = []
  · subst empty
    decide
  · have rooted : (pathOf p).head? = some slash := by rw [path_of_joined empty, List.head?_cons]
    have split : segmentsOf (pathOf p) = p.map Segment.bytes := by
      rw [path_of_joined empty, segmentsOf, List.drop_one, List.tail_cons, joined_split empty]
    rw [directory, segments_directory rooted, List.dropLast_concat, split]

theorem resolve_plain {encode : UInt8 → Bytes}
    (keeps : ∀ byte, isUnreserved byte = true → encode byte = [byte]) (p u : List Segment) :
    pathBytes (resolveSegments encode (pathOf p ++ [slash]) (joined u)) =
      pathOf p ++ slash :: joined u := by
  have noHash : (joined u).takeWhile (· != hash) = joined u := by
    rw [List.takeWhile_eq_self_iff]
    intro byte member
    have other : hash ∉ joined u := joined_free (by decide) (by decide)
    simpa using fun same : byte = hash => other (same ▸ member)
  unfold resolveSegments
  simp only [noHash]
  by_cases empty : u = []
  · have rooted : (pathOf p ++ [slash]).head? = some slash := by
      by_cases none : p = []
      · subst none
        rfl
      · rw [path_of_joined none]
        rfl
    rw [joined_empty_iff.mpr empty, if_pos rfl, path_bytes_segments rooted]
  · rw [if_neg (mt joined_empty_iff.mp empty), if_neg (joined_head u), path_directory,
      joined_split empty, walk_plain_segments keeps, ← List.map_append, ← pathOf, path_of_append,
      path_of_joined empty]

theorem split_target (t : List Segment) (query : Option Query) :
    splitQuery (requestTarget t query) = (slash :: joined t, query.map Query.bytes) := by
  have before : ∀ byte ∈ slash :: joined t, (byte != questionMark) = true := by
    intro byte member
    have other : questionMark ∉ slash :: joined t := by
      rw [List.mem_cons, not_or]
      exact ⟨by decide, joined_free (by decide) (by decide)⟩
    simpa using fun same : byte = questionMark => other (same ▸ member)
  unfold splitQuery requestTarget
  rw [List.takeWhile_append_of_pos before, List.dropWhile_append_of_pos before]
  cases query with
  | none => simp [queryPart]
  | some query => simp [queryPart]

theorem target_origin_form (t : List Segment) (query : Option Query) :
    OriginForm (requestTarget t query) := by
  have one : text "/" = [slash] := by decide
  have two : text "//" = [slash, slash] := by decide
  rw [OriginForm, one, two]
  refine ⟨List.prefix_append [slash] _, ?_⟩
  intro twice
  rw [requestTarget, List.cons_append, List.cons_prefix_cons] at twice
  obtain ⟨rest, shape⟩ := twice.2
  have head := joined_head t
  cases path : joined t with
  | nil =>
    rw [path] at shape
    cases query with
    | none => simp [queryPart] at shape
    | some query =>
      rw [queryPart, List.nil_append, List.singleton_append] at shape
      exact absurd (List.cons.inj shape).1 (by decide)
  | cons byte more =>
    rw [path] at shape head
    rw [List.cons_append, List.cons_append] at shape
    exact head (by rw [List.head?_cons, (List.cons.inj shape).1])

theorem target_forwards {p : List Segment} (path : HasPath base p) (t : List Segment)
    (query : Option Query) :
    Forwards base (requestTarget t query) (joined (withoutBase p t)) := by
  refine ⟨target_origin_form t query, ?_, ?_⟩
  · rw [split_target]
    exact plain_path_safe t
  · rw [split_target, base_trimmed path, relative_path_plain]

theorem set_query_of (keeps : KeepsPlain crate) {u : Url} (scheme : u.scheme = http ∨ u.scheme = https)
    (query : Option Query) :
    crate.setQuery u (query.map Query.bytes) = { u with query := query.map Query.bytes } := by
  cases query with
  | none => exact keeps.set_query_none u scheme
  | some query => exact keeps.set_query_plain u query scheme

theorem plain_target_mapped (standard : Standard crate) (keeps : KeepsPlain crate)
    (valid : validateProviderBaseUrl crate raw = .ok base) {p : List Segment}
    (path : HasPath base p) (t : List Segment) (query : Option Query) :
    providerRequestUrlFromBase crate base (requestTarget t query) =
      .ok (mappedUrl base p (withoutBase p t) query) := by
  obtain ⟨_, scheme, _⟩ := validated_base valid
  have forwards := target_forwards path t query
  obtain ⟨noBackslash, noQuery⟩ := forwards_plain forwards
  have means := joined_meaning base.scheme (withoutBase p t)
  have noHash : hash ∉ joined (withoutBase p t) := joined_free (by decide) (by decide)
  obtain ⟨u, found, authority, resolved⟩ := standard.join_relative
    { base with path := baseDirectory base } _ _ scheme noBackslash noQuery means
  have fragment := keeps.join_no_fragment { base with path := baseDirectory base } _ _ u scheme
    noBackslash noQuery noHash means found
  rw [baseDirectory, base_path_of path, resolve_plain keeps.encode_unreserved] at resolved
  have sameScheme : u.scheme = http ∨ u.scheme = https := by
    rw [authority.1]
    exact scheme
  have result : mappedUrl base p (withoutBase p t) query =
      crate.setQuery u (splitQuery (requestTarget t query)).2 := by
    rw [split_target, set_query_of keeps sameScheme]
    obtain ⟨_, _, _, _, _, _, _, _⟩ := u
    obtain ⟨rfl, rfl, rfl, rfl, rfl⟩ := authority
    simp only at resolved fragment
    rw [resolved, fragment]
    rfl
  exact (request_url_ok_iff standard valid).mpr ⟨_, u, forwards, found, result⟩

theorem without_base_repeated (p t : List Segment) : withoutBase p (p ++ t) = t := by
  rw [withoutBase, if_pos (List.prefix_append p t), List.drop_left]

theorem without_base_absent {p t : List Segment} (absent : p = [] ∨ ¬ p <+: t) :
    withoutBase p t = t := by
  unfold withoutBase
  rcases absent with empty | absent
  · simp [empty]
  · rw [if_neg absent]

/-- The mapping puts the base path in front of the target once, with the target's
    query, and a target that repeats the base path gives the URL of one that does not. -/
theorem base_path_once (standard : Standard crate) (keeps : KeepsPlain crate)
    (valid : validateProviderBaseUrl crate raw = .ok base) {p : List Segment}
    (path : HasPath base p) (t : List Segment) (query : Option Query) :
    providerRequestUrlFromBase crate base (requestTarget t query) =
      .ok (mappedUrl base p (withoutBase p t) query) ∧
    (p = [] ∨ ¬ p <+: t → providerRequestUrlFromBase crate base (requestTarget (p ++ t) query) =
      providerRequestUrlFromBase crate base (requestTarget t query)) := by
  have mapped := plain_target_mapped standard keeps valid path
  refine ⟨mapped t query, ?_⟩
  intro absent
  rw [mapped (p ++ t) query, mapped t query, without_base_repeated, without_base_absent absent]

theorem meaning_relative_sub {scheme reference relative : Bytes}
    (means : meaning scheme reference = .relative relative) {byte : UInt8}
    (member : byte ∈ relative) : byte ∈ reference := by
  unfold meaning at means
  split at means
  · rename_i split
    split at means
    · cases means
      exact clean_sub ((split_scheme_suffix split).subset member)
    · contradiction
  · split at means
    · contradiction
    · cases means
      exact clean_sub member

theorem example_keeps_plain : KeepsPlain exampleUrlCrate where
  set_query_none := fun _ _ => rfl
  set_query_plain := fun _ _ _ => rfl
  encode_unreserved := by
    intro byte unreserved
    have range := unreserved_range unreserved
    have escaped : text "\"<>`#?\x7b\x7d" = [0x22, 0x3c, 0x3e, 0x60, 0x23, 0x3f, 0x7b, 0x7d] := by
      decide
    apply if_neg
    rw [escaped]
    simp only [UInt8.le_iff_toNat_le, List.mem_cons, List.not_mem_nil, or_false,
      ← UInt8.toNat_inj, UInt8.reduceToNat]
    omega
  join_no_fragment := by
    intro base reference relative u _ _ _ noHash means found
    simp only [exampleUrlCrate, means, Option.some.injEq] at found
    subst found
    have none : relative.dropWhile (· != hash) = [] := by
      rw [List.dropWhile_eq_nil_iff]
      intro byte member
      simpa using fun same : byte = hash => noHash (same ▸ meaning_relative_sub means member)
    simp only [none, if_true]

def exampleSegment (name : String) (plain : text name ≠ [] ∧
    (text name).all isUnreserved = true ∧ text name ≠ text "." ∧ text name ≠ text "..") : Segment :=
  ⟨text name, plain.1, List.all_eq_true.mp plain.2.1, plain.2.2⟩

def v1 : Segment := exampleSegment "v1" (by decide)

def models : Segment := exampleSegment "models" (by decide)

theorem base_path_once_example :
    providerRequestUrlFromBase exampleUrlCrate exampleBase (text "/v1/models") =
      .ok { exampleBase with path := text "/v1/models" } := by
  have path : HasPath exampleBase [v1] := Or.inr ⟨List.cons_ne_nil _ _, by decide⟩
  have mapped := (base_path_once example_standard example_keeps_plain example_valid path
    [v1, models] none).1
  have target : requestTarget [v1, models] none = text "/v1/models" := by decide
  have url : mappedUrl exampleBase [v1] (withoutBase [v1] [v1, models]) none =
      { exampleBase with path := text "/v1/models" } := by decide
  rw [target, url] at mapped
  exact mapped

end ProviderMapping
