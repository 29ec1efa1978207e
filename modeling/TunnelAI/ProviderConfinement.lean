import TunnelAI.PercentDecoding

/-!
Where a request target can lead. The check on a target looks at the raw
segments; the resolver reads what is left of them once more, after dropping outer
spaces, tabs, newlines and a fragment, and may find a URL of its own, a path from
the root or a way up.
-/
namespace ProviderConfinement
open StreamReader Fallible UrlReference ProviderUrl PercentDecoding

/-- The reference that an accepted target comes down to. -/
def Forwards (base : Url) (target reference : Bytes) : Prop :=
  OriginForm target ∧ rejectUnsafeRequestPath (splitQuery target).1 = .ok () ∧
    reference = relativePath (trimStart (trimEnd base.path)) (splitQuery target).1

/-- An accepted target that spells a URL of its own. -/
def Spells (crate : UrlCrate) (base : Url) (target : Bytes) (u : Url) : Prop :=
  ∃ reference url, Forwards base target reference ∧
    meaning base.scheme reference = .absolute url ∧ crate.parse url = some u

def SameOrigin (url base : Url) : Prop :=
  SameAuthority url base ∧ url.username = [] ∧ url.password = none

def basePath (base : Url) : Bytes :=
  if base.path.getLast? = some slash then base.path.dropLast else base.path

def baseDirectory (base : Url) : Bytes := basePath base ++ [slash]

def Descends (base : Url) (segments : List Bytes) : Prop :=
  ∃ first rest, segments = directory (baseDirectory base) ++ first :: rest

/-- What the resolver reads is not what was checked, or it stops before its end. -/
def ReRead (reference relative : Bytes) : Prop := relative ≠ reference ∨ hash ∈ reference

/-- The path in the text of a URL, between its authority and a query or a fragment. -/
def spelledPath (url : Bytes) : Bytes :=
  match splitScheme (clean url) with
  | none => []
  | some (_, rest) =>
    ((trimStart rest).dropWhile fun byte => !endsAuthority byte).takeWhile
      fun byte => byte != questionMark && byte != hash

/-- Where the path in a URL's text leads: letter by letter if the text is read as it was
    checked, else by a walk that may meet dot segments. -/
def SpelledBelow (encode : UInt8 → Bytes) (base : Url) (reference url : Bytes) : Prop :=
  (¬ ReRead reference (clean reference) →
    Descends base ((segmentsOf (spelledPath url)).map fun segment => segment.flatMap encode)) ∧
  (ReRead reference (clean reference) →
    Descends base (walk encode [] (segmentsOf (spelledPath url))))

/-- What the standard says about the path of a URL with one of the two schemes. -/
def WalksPaths (crate : UrlCrate) : Prop :=
  ∀ s u, crate.parse s = some u → u.scheme = http ∨ u.scheme = https → backslash ∉ s →
    u.path = pathBytes (walk crate.encode [] (segmentsOf (spelledPath s)))

variable {crate : UrlCrate} {raw target : Bytes} {base : Url}

theorem validated_base (valid : validateProviderBaseUrl crate raw = .ok base) :
    crate.parse raw = some base ∧ (base.scheme = http ∨ base.scheme = https) ∧
      base.username = [] ∧ base.password = none := by
  unfold validateProviderBaseUrl at valid
  split at valid
  · contradiction
  · rename_i url parsed
    obtain ⟨_, policy, valid⟩ := bind_ok valid
    cases valid
    unfold validateProviderUrlPolicy at policy
    obtain ⟨_, scheme, policy⟩ := bind_ok policy
    obtain ⟨_, _, credentials⟩ := bind_ok policy
    rw [require_ok_iff] at scheme credentials
    exact ⟨parsed, scheme, credentials⟩

theorem base_directory_path (last : base.path.getLast? = some slash) :
    baseDirectory base = base.path := by
  have some : base.path ≠ [] := by
    intro empty
    simp [empty] at last
  rw [List.getLast?_eq_some_getLast some, Option.some.injEq] at last
  rw [baseDirectory, basePath, List.getLast?_eq_some_getLast some, last, if_pos rfl, ← last]
  exact List.dropLast_append_getLast some

theorem with_trailing_slash (standard : Standard crate)
    (valid : validateProviderBaseUrl crate raw = .ok base) :
    withTrailingSlash crate base = { base with path := baseDirectory base } := by
  obtain ⟨parsed, scheme, _⟩ := validated_base valid
  unfold withTrailingSlash
  split
  · rename_i last
    rw [base_directory_path last]
  · rename_i open'
    rw [standard.set_path raw base parsed scheme, baseDirectory, basePath, if_neg open']

theorem forwards_plain {reference : Bytes} (forwards : Forwards base target reference) :
    backslash ∉ reference ∧ questionMark ∉ reference := by
  obtain ⟨_, safe, rfl⟩ := forwards
  exact ⟨fun member => safe_path_no_backslash safe (relative_path_sub member),
    fun member => split_query_path target (relative_path_sub member)⟩

theorem request_url_ok_iff (standard : Standard crate)
    (valid : validateProviderBaseUrl crate raw = .ok base) {url : Url} :
    providerRequestUrlFromBase crate base target = .ok url ↔
      ∃ reference u, Forwards base target reference ∧
        crate.join { base with path := baseDirectory base } reference = some u ∧
        url = crate.setQuery u (splitQuery target).2 := by
  unfold providerRequestUrlFromBase
  rw [with_trailing_slash standard valid]
  simp only [bind_ok_iff, require_ok_iff]
  constructor
  · intro h
    obtain ⟨_, origin, _, safe, h⟩ := h
    split at h
    · contradiction
    · rename_i u joined
      cases h
      exact ⟨_, u, ⟨origin, safe, rfl⟩, joined, rfl⟩
  · intro h
    obtain ⟨_, u, ⟨origin, safe, rfl⟩, joined, rfl⟩ := h
    exact ⟨(), origin, (), safe, by rw [joined]; rfl⟩

/-- A target gives a URL that it spells itself, or one on the base's own authority
    whose path is where its reference leads. -/
theorem request_url_cases (standard : Standard crate)
    (valid : validateProviderBaseUrl crate raw = .ok base) {url : Url}
    (h : providerRequestUrlFromBase crate base target = .ok url) :
    (∃ u query, Spells crate base target u ∧ url = { u with query := query }) ∨
      ∃ reference relative u query, Forwards base target reference ∧
        meaning base.scheme reference = .relative relative ∧ SameAuthority u base ∧
        u.path = pathBytes (resolveSegments crate.encode (baseDirectory base) relative) ∧
        url = { u with query := query } := by
  obtain ⟨_, scheme, _⟩ := validated_base valid
  obtain ⟨reference, u, forwards, joined, rfl⟩ := (request_url_ok_iff standard valid).mp h
  obtain ⟨query, same⟩ := standard.set_query u (splitQuery target).2
  obtain ⟨noBackslash, noQuery⟩ := forwards_plain forwards
  cases means : meaning base.scheme reference with
  | absolute url =>
    rw [standard.join_absolute { base with path := baseDirectory base } reference url scheme
      noBackslash noQuery means] at joined
    exact Or.inl ⟨u, query, ⟨reference, url, forwards, means, joined⟩, same⟩
  | relative relative =>
    obtain ⟨u', joined', authority, path⟩ :=
      standard.join_relative { base with path := baseDirectory base } reference relative scheme
        noBackslash noQuery means
    rw [joined', Option.some.injEq] at joined
    subst joined
    exact Or.inr ⟨reference, relative, u', query, forwards, means, authority, path, same⟩

theorem spelled_url (standard : Standard crate)
    (valid : validateProviderBaseUrl crate raw = .ok base) {u : Url}
    (spells : Spells crate base target u) :
    ∃ query, providerRequestUrlFromBase crate base target = .ok { u with query := query } := by
  obtain ⟨_, scheme, _⟩ := validated_base valid
  obtain ⟨reference, url, forwards, means, parsed⟩ := spells
  obtain ⟨noBackslash, noQuery⟩ := forwards_plain forwards
  obtain ⟨query, same⟩ := standard.set_query u (splitQuery target).2
  have joined := standard.join_absolute { base with path := baseDirectory base } reference url
    scheme noBackslash noQuery means
  rw [parsed] at joined
  exact ⟨query, (request_url_ok_iff standard valid).mpr ⟨reference, u, forwards, joined, same.symm⟩⟩

theorem relative_url (standard : Standard crate)
    (valid : validateProviderBaseUrl crate raw = .ok base) {reference relative : Bytes}
    (forwards : Forwards base target reference)
    (means : meaning base.scheme reference = .relative relative) :
    ∃ url, providerRequestUrlFromBase crate base target = .ok url ∧ SameAuthority url base ∧
      url.path = pathBytes (resolveSegments crate.encode (baseDirectory base) relative) := by
  obtain ⟨_, scheme, _⟩ := validated_base valid
  obtain ⟨noBackslash, noQuery⟩ := forwards_plain forwards
  obtain ⟨u, joined, authority, path⟩ :=
    standard.join_relative { base with path := baseDirectory base } reference relative scheme
      noBackslash noQuery means
  obtain ⟨query, same⟩ := standard.set_query u (splitQuery target).2
  exact ⟨{ u with query := query },
    (request_url_ok_iff standard valid).mpr ⟨reference, u, forwards, joined, same.symm⟩,
    authority, path⟩

/-- A target is confined to the base's origin exactly when it spells no URL of
    another one. -/
theorem origin_confined_iff (standard : Standard crate)
    (valid : validateProviderBaseUrl crate raw = .ok base) (target : Bytes) :
    (∀ url, providerRequestUrlFromBase crate base target = .ok url → SameOrigin url base) ↔
      ∀ u, Spells crate base target u → SameAuthority u base := by
  obtain ⟨_, _, noUser, noPassword⟩ := validated_base valid
  constructor
  · intro confined u spells
    obtain ⟨query, found⟩ := spelled_url standard valid spells
    exact (confined _ found).1
  · intro home url found
    have authority : SameAuthority url base := by
      rcases request_url_cases standard valid found with
        ⟨u, query, spells, rfl⟩ | ⟨_, _, u, query, _, _, authority, _, rfl⟩
      · exact home u spells
      · exact authority
    exact ⟨authority, authority.2.1.trans noUser, authority.2.2.1.trans noPassword⟩

def exampleRaw : Bytes := text "https://api.openai.com/v1"

def exampleBase : Url :=
  ⟨https, [], none, some (text "api.openai.com"), none, text "/v1", none, none⟩

theorem example_valid : validateProviderBaseUrl exampleUrlCrate exampleRaw = .ok exampleBase := by
  decide

theorem example_meaning :
    meaning exampleBase.scheme (relativePath (trimStart (trimEnd exampleBase.path))
      (splitQuery (text "/chat/completions")).1) = .relative (text "chat/completions") := by
  decide

theorem example_url : ∃ url, providerRequestUrlFromBase exampleUrlCrate exampleBase
    (text "/chat/completions") = .ok url ∧ SameAuthority url exampleBase := by
  have safe : rejectUnsafeRequestPath (splitQuery (text "/chat/completions")).1 = .ok () :=
    safe_path_iff.mpr (by decide)
  have forwards : Forwards exampleBase (text "/chat/completions") _ := ⟨by decide, safe, rfl⟩
  obtain ⟨url, found, authority, _⟩ :=
    relative_url example_standard example_valid forwards example_meaning
  exact ⟨url, found, authority⟩

theorem origin_confined_example :
    ∃ url, providerRequestUrlFromBase exampleUrlCrate exampleBase (text "/chat/completions") =
      .ok url ∧ SameOrigin url exampleBase := by
  obtain ⟨url, found, _⟩ := example_url
  refine ⟨url, found, (origin_confined_iff example_standard example_valid _).mpr ?_ url found⟩
  intro u spells
  obtain ⟨reference, url, ⟨_, _, rfl⟩, means, _⟩ := spells
  rw [example_meaning] at means
  contradiction

def redirectingTarget : Bytes := text "/http://evil.test/v1/models"

theorem origin_left :
    ∃ url, providerRequestUrlFromBase exampleUrlCrate exampleBase redirectingTarget = .ok url ∧
      url.host = some (text "evil.test") ∧ ¬ SameOrigin url exampleBase := by
  have safe : rejectUnsafeRequestPath (splitQuery redirectingTarget).1 = .ok () :=
    safe_path_iff.mpr (by decide)
  have spells : Spells exampleUrlCrate exampleBase redirectingTarget
      ⟨http, [], none, some (text "evil.test"), none, text "/v1/models", none, none⟩ :=
    ⟨_, text "http://evil.test/v1/models", ⟨by decide, safe, rfl⟩, by decide, by decide⟩
  obtain ⟨query, found⟩ := spelled_url example_standard example_valid spells
  refine ⟨_, found, rfl, ?_⟩
  intro same
  exact absurd same.1.1 (show ¬ http = https by decide)

theorem base_directory_segments (standard : Standard crate)
    (valid : validateProviderBaseUrl crate raw = .ok base) :
    pathBytes (directory (baseDirectory base)) ++ [slash] = baseDirectory base := by
  obtain ⟨parsed, scheme, _⟩ := validated_base valid
  have rooted := standard.parsed_path raw base parsed scheme
  unfold baseDirectory directory
  by_cases empty : basePath base = []
  · rw [empty]
    rfl
  · have head : (basePath base).head? = some slash := by
      unfold basePath at empty ⊢
      split
      · rename_i last
        rw [if_pos last] at empty
        cases path : base.path with
        | nil => simp [path] at rooted
        | cons b rest =>
          cases rest with
          | nil => simp [path] at empty
          | cons c rest =>
            rw [path] at rooted
            exact rooted
      · exact rooted
    rw [segments_directory head, List.dropLast_concat, path_bytes_segments head]

theorem descends_iff (standard : Standard crate)
    (valid : validateProviderBaseUrl crate raw = .ok base) {segments : List Bytes}
    (plain : ∀ segment ∈ segments, slash ∉ segment) :
    baseDirectory base <+: pathBytes segments ↔ Descends base segments := by
  have whole := base_directory_segments standard valid
  have under := under_directory_iff (directory_plain (baseDirectory base)) plain
  rwa [whole] at under

theorem trim_start_head (s : Bytes) : (trimStart s).head? ≠ some slash := by
  induction s with
  | nil => simp [trimStart]
  | cons byte s ih =>
    by_cases same : byte = slash
    · rwa [trimStart, List.dropWhile_cons_of_pos (by simpa using same)]
    · rw [trimStart, List.dropWhile_cons_of_neg (by simpa using same), List.head?_cons, ne_eq,
        Option.some.injEq]
      exact same

theorem trim_start_segments {s segment : Bytes} (member : segment ∈ (trimStart s).splitOn slash) :
    segment ∈ s.splitOn slash := by
  induction s with
  | nil => exact member
  | cons byte s ih =>
    by_cases same : byte = slash
    · subst same
      have split : (slash :: s).splitOn slash = [] :: s.splitOn slash :=
        List.splitOn_append_cons_self (a := slash) [] s
      rw [split]
      exact List.mem_cons_of_mem _ (ih member)
    · rwa [trimStart, List.dropWhile_cons_of_neg (by simpa using same)] at member

theorem relative_path_segments {basePath path segment : Bytes}
    (member : segment ∈ (relativePath basePath path).splitOn slash) :
    segment = [] ∨ segment ∈ path.splitOn slash := by
  unfold relativePath at member
  simp only at member
  split at member
  · rename_i seen
    have inside := trim_start_segments member
    rcases seen.2 with whole | ⟨rest, front⟩
    · rw [whole, List.drop_length, List.splitOn_nil, List.mem_singleton] at inside
      exact Or.inl inside
    · have suffix : slash :: rest <:+ trimStart path :=
        ⟨basePath, by rw [← front, List.append_assoc, List.singleton_append]⟩
      have left : (trimStart path).drop basePath.length = slash :: rest := by
        rw [← front, List.append_assoc, List.drop_left]
        rfl
      have own : (slash :: rest).splitOn slash = [] :: rest.splitOn slash :=
        List.splitOn_append_cons_self (a := slash) [] rest
      rw [left, own] at inside
      rcases List.mem_cons.mp inside with empty | inside
      · exact Or.inl empty
      · exact Or.inr (trim_start_segments (suffix_segments suffix inside))
  · exact Or.inr (trim_start_segments member)

theorem relative_path_head (basePath path : Bytes) :
    (relativePath basePath path).head? ≠ some slash := by
  unfold relativePath
  simp only
  split
  · exact trim_start_head _
  · exact trim_start_head _

/-- No segment of what the check has let through is a dot segment. -/
theorem checked_solid {reference : Bytes} (forwards : Forwards base target reference) :
    ∀ segment ∈ reference.splitOn slash, isDot segment = false ∧ isDotDot segment = false := by
  obtain ⟨_, safe, rfl⟩ := forwards
  intro segment member
  rcases relative_path_segments member with rfl | inside
  · decide
  · exact safe_segment_solid (safe_path_iff.mp safe segment inside)

theorem checked_descends {reference : Bytes} (forwards : Forwards base target reference)
    (whole : hash ∉ reference) (encode : UInt8 → Bytes) :
    Descends base (resolveSegments encode (baseDirectory base) reference) := by
  have read : reference.takeWhile (· != hash) = reference := by
    rw [List.takeWhile_eq_self_iff]
    intro byte member
    simpa using fun same : byte = hash => whole (same ▸ member)
  have below : reference.head? ≠ some slash := by
    obtain ⟨_, _, rfl⟩ := forwards
    exact relative_path_head _ _
  unfold resolveSegments
  simp only [read]
  split
  · have some := List.splitOn_ne_nil slash ((baseDirectory base).drop 1)
    exact ⟨_, [], (List.dropLast_append_getLast some).symm⟩
  · rw [walk_solid encode (checked_solid forwards)]
    obtain ⟨first, rest, split⟩ :=
      List.exists_cons_of_ne_nil (List.splitOn_ne_nil slash reference)
    rw [split, List.map_cons]
    exact ⟨_, _, rfl⟩

theorem spelled_suffix {url : Bytes} (read : clean url = url) (noQuery : questionMark ∉ url)
    (noHash : hash ∉ url) :
    spelledPath url = [] ∨ ∃ rest, spelledPath url = slash :: rest ∧ slash :: rest <:+ url := by
  unfold spelledPath
  rw [read]
  split
  · exact Or.inl rfl
  · rename_i scheme rest split
    have suffix : ((trimStart rest).dropWhile fun byte => !endsAuthority byte) <:+ url :=
      (List.dropWhile_suffix _).trans ((List.dropWhile_suffix _).trans (split_scheme_suffix split))
    have ends := List.head?_dropWhile_not (fun byte => !endsAuthority byte) (trimStart rest)
    have plain : ∀ byte ∈ (trimStart rest).dropWhile fun byte => !endsAuthority byte,
        byte ≠ questionMark ∧ byte ≠ hash :=
      fun byte member => ⟨fun same => noQuery (same ▸ suffix.subset member),
        fun same => noHash (same ▸ suffix.subset member)⟩
    rw [List.takeWhile_eq_self_iff.mpr fun byte member => by simpa using plain byte member]
    cases shape : (trimStart rest).dropWhile fun byte => !endsAuthority byte with
    | nil => exact Or.inl rfl
    | cons byte more =>
      rw [shape] at ends plain suffix
      have other := plain byte List.mem_cons_self
      have rooted : byte = slash := by
        simpa [endsAuthority, other.1, other.2] using ends
      subst rooted
      exact Or.inr ⟨more, rfl, suffix⟩

/-- A URL that is spelled in a text read as it was checked has no dot segments either. -/
theorem checked_spelled {reference url : Bytes} (forwards : Forwards base target reference)
    (means : meaning base.scheme reference = .absolute url)
    (same : clean reference = reference) (whole : hash ∉ reference) (encode : UInt8 → Bytes) :
    walk encode [] (segmentsOf (spelledPath url)) =
      (segmentsOf (spelledPath url)).map fun segment => segment.flatMap encode := by
  have below : reference.head? ≠ some slash := by
    obtain ⟨_, _, rfl⟩ := forwards
    exact relative_path_head _ _
  have read : reference = url := by
    unfold meaning at means
    rw [same] at means
    split at means
    · split at means
      · contradiction
      · exact Meaning.absolute.inj means
    · split at means
      · rename_i rooted
        obtain ⟨rest, front⟩ := rooted
        exact absurd (by rw [← front]; rfl) below
      · contradiction
  subst read
  refine (walk_solid encode ?_ []).trans (List.nil_append _)
  intro segment member
  rcases spelled_suffix same (forwards_plain forwards).2 whole with empty | ⟨rest, shape, suffix⟩
  · rw [segmentsOf, empty, List.drop_nil, List.splitOn_nil, List.mem_singleton] at member
    subst member
    decide
  · rw [shape, segmentsOf, List.drop_one, List.tail_cons] at member
    exact checked_solid forwards segment (suffix_segments suffix member)

theorem spelled_below_iff {reference url : Bytes} (forwards : Forwards base target reference)
    (means : meaning base.scheme reference = .absolute url) (encode : UInt8 → Bytes) :
    SpelledBelow encode base reference url ↔
      Descends base (walk encode [] (segmentsOf (spelledPath url))) := by
  by_cases reRead : ReRead reference (clean reference)
  · simp [SpelledBelow, reRead]
  · have asChecked := reRead
    obtain ⟨same, whole⟩ := not_or.mp asChecked
    rw [Classical.not_not] at same
    rw [SpelledBelow, checked_spelled forwards means same whole]
    exact ⟨fun below => below.1 reRead, fun below => ⟨fun _ => below, fun _ => below⟩⟩

theorem spelled_no_backslash {reference url : Bytes} (forwards : Forwards base target reference)
    (scheme : base.scheme = http ∨ base.scheme = https)
    (means : meaning base.scheme reference = .absolute url) : backslash ∉ url := by
  have cleaned : backslash ∉ clean reference :=
    fun member => (forwards_plain forwards).1 (clean_sub member)
  have borrowed : backslash ∉ base.scheme ++ [0x3a] ++ clean reference := by
    have own : backslash ∉ base.scheme ++ [0x3a] := by
      rcases scheme with same | same <;> rw [same] <;> decide
    rw [List.mem_append, not_or]
    exact ⟨own, cleaned⟩
  unfold meaning at means
  split at means
  · split at means
    · contradiction
    · exact Meaning.absolute.inj means ▸ cleaned
  · split at means
    · exact Meaning.absolute.inj means ▸ borrowed
    · contradiction

/-- A target is confined to the base path exactly when the path of a URL of the base's
    authority that it spells leads below the base path, and so does a relative reference
    that the resolver reads otherwise than it was checked. -/
theorem path_confined_iff (standard : Standard crate) (walks : WalksPaths crate)
    (valid : validateProviderBaseUrl crate raw = .ok base) (target : Bytes) :
    (∀ url, providerRequestUrlFromBase crate base target = .ok url → SameOrigin url base →
        basePath base ++ [slash] <+: url.path) ↔
      (∀ reference url u, Forwards base target reference →
        meaning base.scheme reference = .absolute url → crate.parse url = some u →
        SameAuthority u base → SpelledBelow crate.encode base reference url) ∧
      ∀ reference relative, Forwards base target reference →
        meaning base.scheme reference = .relative relative → ReRead reference relative →
        Descends base (resolveSegments crate.encode (baseDirectory base) relative) := by
  obtain ⟨_, scheme, noUser, noPassword⟩ := validated_base valid
  have plain : ∀ relative, ∀ s ∈ resolveSegments crate.encode (baseDirectory base) relative,
      slash ∉ s := resolve_segments_plain crate.encode standard.encode_plain (baseDirectory base)
  have rooted : ∀ url, ∀ s ∈ walk crate.encode [] (segmentsOf (spelledPath url)), slash ∉ s :=
    fun url => walk_plain crate.encode standard.encode_plain (by simp) (split_slash_free _)
  have spelled : ∀ reference url u, Forwards base target reference →
      meaning base.scheme reference = .absolute url → crate.parse url = some u →
      SameAuthority u base →
      u.path = pathBytes (walk crate.encode [] (segmentsOf (spelledPath url))) := by
    intro reference url u forwards means parsed authority
    exact walks url u parsed (authority.1 ▸ scheme) (spelled_no_backslash forwards scheme means)
  constructor
  · intro confined
    constructor
    · intro reference url u forwards means parsed authority
      obtain ⟨query, found⟩ := spelled_url standard valid ⟨reference, url, forwards, means, parsed⟩
      have under := confined { u with query := query } found
        ⟨authority, authority.2.1.trans noUser, authority.2.2.1.trans noPassword⟩
      apply (spelled_below_iff forwards means crate.encode).mpr
      apply (descends_iff standard valid (rooted url)).mp
      rw [← spelled reference url u forwards means parsed authority]
      exact under
    · intro reference relative forwards means _
      obtain ⟨url, found, authority, path⟩ := relative_url standard valid forwards means
      apply (descends_iff standard valid (plain relative)).mp
      rw [← path]
      exact confined url found
        ⟨authority, authority.2.1.trans noUser, authority.2.2.1.trans noPassword⟩
  · intro condition url found origin
    change baseDirectory base <+: url.path
    rcases request_url_cases standard valid found with
      ⟨u, query, ⟨reference, text, forwards, means, parsed⟩, rfl⟩ |
      ⟨reference, relative, u, query, forwards, means, _, path, rfl⟩
    · change baseDirectory base <+: u.path
      rw [spelled reference text u forwards means parsed origin.1]
      exact (descends_iff standard valid (rooted text)).mpr
        ((spelled_below_iff forwards means crate.encode).mp
          (condition.1 reference text u forwards means parsed origin.1))
    · change baseDirectory base <+: u.path
      rw [path]
      apply (descends_iff standard valid (plain relative)).mpr
      by_cases reRead : ReRead reference relative
      · exact condition.2 reference relative forwards means reRead
      · obtain ⟨same, whole⟩ := not_or.mp reRead
        rw [Classical.not_not] at same
        subst same
        exact checked_descends forwards whole crate.encode

theorem example_walks : WalksPaths exampleUrlCrate := by
  intro s u parsed _ _
  have rooted : ∀ part, examplePath part = pathBytes (walk exampleEncode [] (segmentsOf part)) := by
    intro part
    unfold examplePath
    split
    · rename_i empty
      rw [empty]
      decide
    · rfl
  cases shape : splitScheme (clean s) with
  | none => simp [exampleUrlCrate, exampleParse, shape] at parsed
  | some split =>
    obtain ⟨scheme, rest⟩ := split
    simp only [exampleUrlCrate, exampleParse, shape] at parsed
    rw [Option.ite_none_right_eq_some, Option.some.injEq] at parsed
    obtain ⟨_, rfl⟩ := parsed
    rw [spelledPath, shape]
    exact rooted _

theorem path_confined_example :
    ∃ url, providerRequestUrlFromBase exampleUrlCrate exampleBase (text "/chat/completions") =
      .ok url ∧ basePath exampleBase ++ [slash] <+: url.path := by
  obtain ⟨url, found, authority⟩ := example_url
  refine ⟨url, found, (path_confined_iff example_standard example_walks example_valid _).mpr
    ⟨?_, ?_⟩ url found ⟨authority, authority.2.1, authority.2.2.1⟩⟩
  · intro reference url u forwards means
    obtain ⟨_, _, rfl⟩ := forwards
    rw [example_meaning] at means
    contradiction
  · intro reference relative forwards means reRead
    obtain ⟨_, _, rfl⟩ := forwards
    rw [example_meaning, Meaning.relative.injEq] at means
    subst means
    rcases reRead with other | cut
    · exact absurd (by decide) other
    · exact absurd cut (by decide)

/-- A dot segment that a fragment hides from the check. -/
def climbingTarget : Bytes := text "/..#"

theorem path_left :
    ∃ url, providerRequestUrlFromBase exampleUrlCrate exampleBase climbingTarget = .ok url ∧
      SameOrigin url exampleBase ∧ url.path = text "/" ∧
      ¬ basePath exampleBase ++ [slash] <+: url.path := by
  have safe : rejectUnsafeRequestPath (splitQuery climbingTarget).1 = .ok () :=
    safe_path_iff.mpr (by decide)
  have forwards : Forwards exampleBase climbingTarget (text "..#") := ⟨by decide, safe, by decide⟩
  have means : meaning exampleBase.scheme (text "..#") = .relative (text "..#") := by decide
  obtain ⟨url, found, authority, path⟩ :=
    relative_url example_standard example_valid forwards means
  have top : pathBytes (resolveSegments exampleUrlCrate.encode (baseDirectory exampleBase)
      (text "..#")) = text "/" := by decide
  rw [top] at path
  refine ⟨url, found, ⟨authority, authority.2.1, authority.2.2.1⟩, path, ?_⟩
  rw [path]
  decide

end ProviderConfinement
