import TunnelAI.ProviderUrl
import TunnelAI.SocksServer
import TunnelAI.StdText

/-!
How the servers and the OpenAI client are started: the values on the command line,
the list of peers that are let in, and the checks that a configuration makes itself.
Binding the endpoint, reading the identity file and building the HTTP client come
behind them and can still fail. The parser of an endpoint ID is an argument; a
duration is its number of nanoseconds.
-/
namespace Startup
open StreamReader Fallible StdText UrlReference ProviderUrl TransitionRuns TaskPools
open ServerLimits (peerAllowed)
variable {Peer : Type}

inductive IntErrorKind where
  | empty
  | invalidDigit
  | posOverflow
  deriving DecidableEq

def IntErrorKind.description : IntErrorKind → String
  | .empty => "cannot parse integer from empty string"
  | .invalidDigit => "invalid digit found in string"
  | .posOverflow => "number too large to fit in target type"

def takeDigits : List Char → Nat → Except IntErrorKind Nat
  | [], value => .ok value
  | c :: rest, value =>
    match digit c with
    | none => .error .invalidDigit
    | some d =>
      if value * 10 + d < 2 ^ 64 then takeDigits rest (value * 10 + d) else .error .posOverflow

/-- `str::parse::<u64>`, and `str::parse::<usize>` with the reason of a failure. -/
def parseInteger (s : List Char) : Except IntErrorKind Nat :=
  match s with
  | [] => .error .empty
  | ['+'] => .error .invalidDigit
  | ['-'] => .error .invalidDigit
  | '+' :: rest => takeDigits rest 0
  | s => takeDigits s 0

def parsePositive (complaint : String) (value : String) : Except String Nat :=
  match parseInteger value.toList with
  | .error err => .error (complaint ++ err.description)
  | .ok parsed => if parsed = 0 then .error "must be greater than zero" else .ok parsed

def durationMillis (value : String) : Except String Nat :=
  (parsePositive "invalid millisecond value: " value).map fun millis => millis * 1000000

def nonzeroUsize (value : String) : Except String Nat :=
  parsePositive "invalid integer value: " value

def parsePeer (fromStr : String → Option Peer) (value : String) : Except String Peer :=
  match fromStr value with
  | some peer => .ok peer
  | none => .error ("invalid peer id: " ++ value)

def parseAllowPeers (fromStr : String → Option Peer) (values : List String) :
    Except String (List Peer) := values.mapM (parsePeer fromStr)

structure ServerArgs where
  allowPrivateTargets : Bool
  allowPeers : List String

def newServerConfig (allowPrivateTargets : Bool) (allowPeers : List Peer) :
    SocksServer.ServerConfig Peer where
  allowPrivateTargets := allowPrivateTargets
  allowPeers := allowPeers
  maxConnections := 128
  maxStreamsPerConnection := 128

def runSocksServer (fromStr : String → Option Peer) (args : ServerArgs) :
    Except String (SocksServer.ServerConfig Peer) := do
  let allowPeers ← parseAllowPeers fromStr args.allowPeers
  return newServerConfig args.allowPrivateTargets allowPeers

structure OpenAiServerFlags where
  providerBaseUrl : Bytes
  allowPeers : List String := []
  maxConnections : String := "128"
  maxStreamsPerConnection : String := "128"
  requestReadTimeoutMs : String := "10000"
  providerConnectTimeoutMs : String := "10000"
  providerRequestTimeoutMs : String := "120000"

structure OpenAiServerArgs where
  providerBaseUrl : Bytes
  allowPeers : List String
  maxConnections : Nat
  maxStreamsPerConnection : Nat
  requestReadTimeoutMs : Nat
  providerConnectTimeoutMs : Nat
  providerRequestTimeoutMs : Nat

def OpenAiServerFlags.parse (flags : OpenAiServerFlags) : Except String OpenAiServerArgs := do
  let maxConnections ← nonzeroUsize flags.maxConnections
  let maxStreamsPerConnection ← nonzeroUsize flags.maxStreamsPerConnection
  let requestReadTimeoutMs ← durationMillis flags.requestReadTimeoutMs
  let providerConnectTimeoutMs ← durationMillis flags.providerConnectTimeoutMs
  let providerRequestTimeoutMs ← durationMillis flags.providerRequestTimeoutMs
  return {
    providerBaseUrl := flags.providerBaseUrl
    allowPeers := flags.allowPeers
    maxConnections
    maxStreamsPerConnection
    requestReadTimeoutMs
    providerConnectTimeoutMs
    providerRequestTimeoutMs }

structure OpenAiServerConfig (Peer : Type) extends ServerLimits.OpenAiServerConfig Peer where
  providerBaseUrl : Url
  requestReadTimeout : Nat
  providerConnectTimeout : Nat
  providerRequestTimeout : Nat

def validateServerConfig (config : OpenAiServerConfig Peer) : Except String Unit := do
  validateProviderUrlPolicy config.providerBaseUrl
  require (config.requestReadTimeout ≠ 0) "request read timeout must be greater than zero"
  require (config.providerConnectTimeout ≠ 0) "provider connect timeout must be greater than zero"
  require (config.providerRequestTimeout ≠ 0) "provider request timeout must be greater than zero"
  require (config.maxConnections ≠ 0) "max connections must be greater than zero"
  require (config.maxStreamsPerConnection ≠ 0)
    "max streams per connection must be greater than zero"

def configOf (args : OpenAiServerArgs) (peers : List Peer) (url : Url) :
    OpenAiServerConfig Peer where
  allowPeers := peers
  maxConnections := args.maxConnections
  maxStreamsPerConnection := args.maxStreamsPerConnection
  providerBaseUrl := url
  requestReadTimeout := args.requestReadTimeoutMs
  providerConnectTimeout := args.providerConnectTimeoutMs
  providerRequestTimeout := args.providerRequestTimeoutMs

def runServer (fromStr : String → Option Peer) (crate : UrlCrate) (args : OpenAiServerArgs) :
    Except String (OpenAiServerConfig Peer) := do
  let allowPeers ← parseAllowPeers fromStr args.allowPeers
  let providerBaseUrl ← validateProviderBaseUrl crate args.providerBaseUrl
  validateServerConfig (configOf args allowPeers providerBaseUrl)
  return configOf args allowPeers providerBaseUrl

/-- The configuration that a command line comes down to. -/
def startServer (fromStr : String → Option Peer) (crate : UrlCrate) (flags : OpenAiServerFlags) :
    Except String (OpenAiServerConfig Peer) := do
  let args ← flags.parse
  runServer fromStr crate args

def startOpenAiServerWithAllowPeers (crate : UrlCrate) (providerBaseUrl : Bytes)
    (allowPeers : List Peer) : Except String (OpenAiServerConfig Peer) := do
  let url ← validateProviderBaseUrl crate providerBaseUrl
  let config : OpenAiServerConfig Peer := {
    allowPeers
    maxConnections := 128
    maxStreamsPerConnection := 128
    providerBaseUrl := url
    requestReadTimeout := 10 * 1000000000
    providerConnectTimeout := 10 * 1000000000
    providerRequestTimeout := 120 * 1000000000 }
  validateServerConfig config
  return config

/-- `Semaphore::MAX_PERMITS`, which is `usize::MAX >> 3`. -/
def maxPermits : Nat := 2 ^ 61 - 1

/-- The server that a configuration is served by. `Semaphore::new` panics above its limit,
    in the accept loop's task or in the task of each connection. -/
def spawnOpenAiAcceptLoop [DecidableEq Peer] (config : OpenAiServerConfig Peer) :
    Option (System (ServerLimits.State Peer) (ServerLimits.Event Peer)) :=
  if config.maxConnections ≤ maxPermits ∧ config.maxStreamsPerConnection ≤ maxPermits then
    some (ServerLimits.server config.toOpenAiServerConfig)
  else none

structure OpenAiClientFlags where
  maxConcurrentSessions : String := "128"
  localRequestTimeoutMs : String := "10000"
  tunnelOperationTimeoutMs : String := "10000"
  connectTimeoutMs : String := "10000"
  reconnectAttempts : String := "1"
  healthCheckIntervalMs : Option String := none

structure OpenAiClientConfig where
  localRequestTimeout : Nat
  tunnelOperationTimeout : Nat
  connectTimeout : Nat
  reconnectAttempts : Nat
  healthCheckInterval : Option Nat
  maxConcurrentSessions : Nat
  deriving DecidableEq

def OpenAiClientConfig.defaults : OpenAiClientConfig where
  localRequestTimeout := 10 * 1000000000
  tunnelOperationTimeout := 10 * 1000000000
  connectTimeout := 10 * 1000000000
  reconnectAttempts := 1
  healthCheckInterval := none
  maxConcurrentSessions := 128

def OpenAiClientFlags.parse (flags : OpenAiClientFlags) : Except String OpenAiClientConfig := do
  let maxConcurrentSessions ← nonzeroUsize flags.maxConcurrentSessions
  let localRequestTimeout ← durationMillis flags.localRequestTimeoutMs
  let tunnelOperationTimeout ← durationMillis flags.tunnelOperationTimeoutMs
  let connectTimeout ← durationMillis flags.connectTimeoutMs
  let reconnectAttempts ← nonzeroUsize flags.reconnectAttempts
  let healthCheckInterval ← flags.healthCheckIntervalMs.mapM durationMillis
  return {
    localRequestTimeout
    tunnelOperationTimeout
    connectTimeout
    reconnectAttempts
    healthCheckInterval
    maxConcurrentSessions }

def validateClientConfig (config : OpenAiClientConfig) : Except String Unit := do
  require (config.localRequestTimeout ≠ 0) "local request timeout must be greater than zero"
  require (config.tunnelOperationTimeout ≠ 0) "tunnel operation timeout must be greater than zero"
  require (config.connectTimeout ≠ 0) "connect timeout must be greater than zero"
  require (config.reconnectAttempts ≠ 0) "reconnect attempts must be greater than zero"
  require (config.healthCheckInterval ≠ some 0) "health check interval must be greater than zero"
  require (config.maxConcurrentSessions ≠ 0) "max concurrent sessions must be greater than zero"

theorem fold_digits_le {s : List Char} {value n : Nat}
    (whole : s.foldlM (fun value c => (digit c).map fun d => value * 10 + d) value = some n) :
    value ≤ n := by
  induction s generalizing value with
  | nil =>
    rw [List.foldlM_nil, Option.pure_def, Option.some.injEq] at whole
    exact Nat.le_of_eq whole
  | cons c s ih =>
    rw [List.foldlM_cons, Option.bind_eq_bind, Option.bind_eq_some_iff] at whole
    obtain ⟨next, first, rest⟩ := whole
    obtain ⟨d, _, rfl⟩ := Option.map_eq_some_iff.mp first
    have := ih rest
    omega

theorem take_digits_agrees (s : List Char) (value : Nat) (small : value < 2 ^ 64) :
    (takeDigits s value).toOption =
      (s.foldlM (fun value c => (digit c).map fun d => value * 10 + d) value).filter
        fun value => value < 2 ^ 64 := by
  induction s generalizing value with
  | nil =>
    rw [takeDigits, List.foldlM_nil, Option.pure_def, Option.filter_some,
      if_pos (decide_eq_true small)]
    rfl
  | cons c s ih =>
    rw [takeDigits, List.foldlM_cons]
    cases read : digit c with
    | none => rfl
    | some d =>
      simp only [Option.map_some, Option.bind_eq_bind, Option.bind_some]
      by_cases fits : value * 10 + d < 2 ^ 64
      · rw [if_pos fits]
        exact ih _ fits
      · rw [if_neg fits]
        symm
        rw [Except.toOption, Option.filter_eq_none_iff]
        intro n whole
        have := fold_digits_le whole
        simp only [decide_eq_true_eq]
        omega

theorem parse_integer_agrees (s : List Char) : (parseInteger s).toOption = parseUsize s := by
  unfold parseInteger parseUsize
  split
  · rfl
  · rfl
  · rfl
  · rename_i rest _
    have some : rest ≠ [] := by
      rintro rfl
      contradiction
    simp only [some, if_false, digits]
    exact take_digits_agrees rest 0 (by decide)
  · rename_i empty _ _ plus
    dsimp only
    split
    · exact absurd rfl (plus _)
    · rw [if_neg empty]
      exact take_digits_agrees _ 0 (by decide)

/-- The values a limit can have: the text spells a number of 64 bits that is not zero. -/
def Spells (value : String) (n : Nat) : Prop := parseUsize value.toList = some n ∧ n ≠ 0

theorem parse_positive_iff {complaint value : String} {n : Nat} :
    parsePositive complaint value = .ok n ↔ Spells value n := by
  unfold parsePositive Spells
  rw [← parse_integer_agrees]
  cases read : parseInteger value.toList with
  | error err => simp [Except.toOption]
  | ok parsed =>
    simp only [Except.toOption, Option.some.injEq]
    split
    · rename_i zero
      constructor
      · intro impossible
        cases impossible
      · intro spelled
        exact absurd (spelled.1.symm.trans zero) spelled.2
    · rename_i positive
      constructor
      · intro same
        cases same
        exact ⟨rfl, positive⟩
      · intro spelled
        rw [spelled.1]

theorem nonzero_usize_iff {value : String} {n : Nat} :
    nonzeroUsize value = .ok n ↔ Spells value n := parse_positive_iff

def SpellsMillis (value : String) (n : Nat) : Prop :=
  ∃ millis, Spells value millis ∧ n = millis * 1000000

theorem duration_millis_iff {value : String} {n : Nat} :
    durationMillis value = .ok n ↔ SpellsMillis value n := by
  unfold durationMillis
  constructor
  · intro accepted
    cases read : parsePositive "invalid millisecond value: " value with
    | error e =>
      rw [read] at accepted
      cases accepted
    | ok millis =>
      rw [read] at accepted
      cases accepted
      exact ⟨millis, parse_positive_iff.mp read, rfl⟩
  · intro spelled
    obtain ⟨millis, spells, rfl⟩ := spelled
    rw [parse_positive_iff.mpr spells]
    rfl

theorem millis_positive {value : String} {n : Nat} (spelled : SpellsMillis value n) : n ≠ 0 := by
  obtain ⟨millis, spells, rfl⟩ := spelled
  have := spells.2
  omega

section Peers
variable {fromStr : String → Option Peer} {values : List String} {peers : List Peer}

theorem parse_peer_ok_iff {value : String} {peer : Peer} :
    parsePeer fromStr value = .ok peer ↔ fromStr value = some peer := by
  unfold parsePeer
  cases fromStr value with
  | none => simp
  | some other => simp

theorem parse_peer_error_iff {value message : String} :
    parsePeer fromStr value = .error message ↔
      fromStr value = none ∧ message = "invalid peer id: " ++ value := by
  unfold parsePeer
  cases fromStr value with
  | none => simp [eq_comm]
  | some other => simp

theorem parse_allow_peers_ok_iff : parseAllowPeers fromStr values = .ok peers ↔
    List.Forall₂ (fun value peer => fromStr value = some peer) values peers := by
  unfold parseAllowPeers
  simp only [map_m_ok_iff, parse_peer_ok_iff]

/-- What a start complains about: the first value that is no endpoint ID. -/
def BadPeer (fromStr : String → Option Peer) (values : List String) (message : String) : Prop :=
  ∃ before value after, values = before ++ value :: after ∧ fromStr value = none ∧
    (∀ other ∈ before, fromStr other ≠ none) ∧ message = "invalid peer id: " ++ value

theorem parse_allow_peers_error_iff {message : String} :
    parseAllowPeers fromStr values = .error message ↔ BadPeer fromStr values message := by
  unfold parseAllowPeers BadPeer
  simp only [map_m_error_iff, parse_peer_error_iff, parse_peer_ok_iff, Option.ne_none_iff_exists']
  constructor
  · intro found
    obtain ⟨before, value, after, split, ⟨bad, told⟩, fine⟩ := found
    exact ⟨before, value, after, split, bad, fine, told⟩
  · intro found
    obtain ⟨before, value, after, split, bad, fine, told⟩ := found
    exact ⟨before, value, after, split, ⟨bad, told⟩, fine⟩

/-- A list with an entry never becomes the empty list, which would let everybody in. -/
theorem listed_peer [DecidableEq Peer] (listed : values ≠ [])
    (parsed : parseAllowPeers fromStr values = .ok peers) {peer : Peer}
    (allowed : peerAllowed peer peers = true) : ∃ value ∈ values, fromStr value = some peer := by
  have pairs := parse_allow_peers_ok_iff.mp parsed
  unfold peerAllowed at allowed
  rw [Bool.or_eq_true, List.isEmpty_iff, List.any_eq_true] at allowed
  rcases allowed with none | ⟨other, member, same⟩
  · rw [none, List.forall₂_nil_right_iff] at pairs
    exact absurd pairs listed
  · rw [beq_iff_eq] at same
    subst same
    obtain ⟨i, bound, rfl⟩ := List.getElem_of_mem member
    have inside : i < values.length := by
      rw [pairs.length_eq]
      exact bound
    exact ⟨values[i], List.getElem_mem inside, (List.forall₂_iff_get.mp pairs).2 i inside bound⟩

end Peers

variable {fromStr : String → Option Peer} {crate : UrlCrate}

theorem run_socks_server_ok_iff {args : ServerArgs} {config : SocksServer.ServerConfig Peer} :
    runSocksServer fromStr args = .ok config ↔ ∃ peers,
      parseAllowPeers fromStr args.allowPeers = .ok peers ∧
        config = newServerConfig args.allowPrivateTargets peers := by
  unfold runSocksServer
  rw [bind_ok_iff]
  constructor
  · intro started
    obtain ⟨peers, parsed, same⟩ := started
    cases same
    exact ⟨peers, parsed, rfl⟩
  · intro started
    obtain ⟨peers, parsed, rfl⟩ := started
    exact ⟨peers, parsed, rfl⟩

structure Valid (config : OpenAiServerConfig Peer) : Prop where
  url : validateProviderUrlPolicy config.providerBaseUrl = .ok ()
  requestRead : config.requestReadTimeout ≠ 0
  providerConnect : config.providerConnectTimeout ≠ 0
  providerRequest : config.providerRequestTimeout ≠ 0
  connections : config.maxConnections ≠ 0
  streams : config.maxStreamsPerConnection ≠ 0

theorem validate_server_config_iff {config : OpenAiServerConfig Peer} :
    validateServerConfig config = .ok () ↔ Valid config := by
  unfold validateServerConfig
  simp only [bind_ok_iff, require_ok_iff]
  constructor
  · intro checked
    obtain ⟨_, url, _, read, _, connect, _, request, _, connections, streams⟩ := checked
    exact ⟨url, read, connect, request, connections, streams⟩
  · intro valid
    exact ⟨(), valid.url, (), valid.requestRead, (), valid.providerConnect, (),
      valid.providerRequest, (), valid.connections, valid.streams⟩

theorem validated_policy {baseUrl : Bytes} {url : Url}
    (valid : validateProviderBaseUrl crate baseUrl = .ok url) :
    validateProviderUrlPolicy url = .ok () := by
  unfold validateProviderBaseUrl at valid
  split at valid
  · cases valid
  · obtain ⟨_, policy, same⟩ := bind_ok valid
    cases same
    exact policy

structure Positive (args : OpenAiServerArgs) : Prop where
  connections : args.maxConnections ≠ 0
  streams : args.maxStreamsPerConnection ≠ 0
  requestRead : args.requestReadTimeoutMs ≠ 0
  providerConnect : args.providerConnectTimeoutMs ≠ 0
  providerRequest : args.providerRequestTimeoutMs ≠ 0

theorem positive_valid {args : OpenAiServerArgs} (positive : Positive args) (peers : List Peer)
    {url : Url} (policy : validateProviderUrlPolicy url = .ok ()) :
    Valid (configOf args peers url) :=
  ⟨policy, positive.requestRead, positive.providerConnect, positive.providerRequest,
    positive.connections, positive.streams⟩

theorem run_server_positive {args : OpenAiServerArgs} (positive : Positive args) :
    runServer fromStr crate args =
      (parseAllowPeers fromStr args.allowPeers).bind fun peers =>
        (validateProviderBaseUrl crate args.providerBaseUrl).map fun url =>
          configOf args peers url := by
  unfold runServer
  cases parseAllowPeers fromStr args.allowPeers with
  | error e => rfl
  | ok peers =>
    cases valid : validateProviderBaseUrl crate args.providerBaseUrl with
    | error e => rfl
    | ok url =>
      have checked := validate_server_config_iff.mpr
        (positive_valid positive peers (validated_policy valid))
      rw [ok_bind, ok_bind, checked]
      rfl

theorem run_server_ok_iff {args : OpenAiServerArgs} (positive : Positive args)
    {config : OpenAiServerConfig Peer} :
    runServer fromStr crate args = .ok config ↔ ∃ peers url,
      parseAllowPeers fromStr args.allowPeers = .ok peers ∧
        validateProviderBaseUrl crate args.providerBaseUrl = .ok url ∧
        config = configOf args peers url := by
  rw [run_server_positive positive]
  cases parseAllowPeers fromStr args.allowPeers with
  | error e => simp [Except.bind]
  | ok peers =>
    cases validateProviderBaseUrl crate args.providerBaseUrl with
    | error e => simp [Except.bind, Except.map]
    | ok url => simp [Except.bind, Except.map, eq_comm]

theorem run_server_error {args : OpenAiServerArgs} (positive : Positive args) {message : String}
    (failed : runServer fromStr crate args = .error message) :
    BadPeer fromStr args.allowPeers message ∨
      (∃ peers, parseAllowPeers fromStr args.allowPeers = .ok peers) ∧
        validateProviderBaseUrl crate args.providerBaseUrl = .error message := by
  rw [run_server_positive positive] at failed
  cases parsed : parseAllowPeers fromStr args.allowPeers with
  | error e =>
    rw [parsed] at failed
    cases failed
    exact Or.inl (parse_allow_peers_error_iff.mp parsed)
  | ok peers =>
    rw [parsed] at failed
    cases valid : validateProviderBaseUrl crate args.providerBaseUrl with
    | error e =>
      rw [valid] at failed
      cases failed
      exact Or.inr ⟨⟨peers, rfl⟩, rfl⟩
    | ok url =>
      rw [valid] at failed
      cases failed

theorem flags_parse_iff {flags : OpenAiServerFlags} {args : OpenAiServerArgs} :
    flags.parse = .ok args ↔
      (args.providerBaseUrl = flags.providerBaseUrl ∧ args.allowPeers = flags.allowPeers) ∧
      Spells flags.maxConnections args.maxConnections ∧
      Spells flags.maxStreamsPerConnection args.maxStreamsPerConnection ∧
      SpellsMillis flags.requestReadTimeoutMs args.requestReadTimeoutMs ∧
      SpellsMillis flags.providerConnectTimeoutMs args.providerConnectTimeoutMs ∧
      SpellsMillis flags.providerRequestTimeoutMs args.providerRequestTimeoutMs := by
  unfold OpenAiServerFlags.parse
  simp only [bind_ok_iff, nonzero_usize_iff, duration_millis_iff]
  constructor
  · intro accepted
    obtain ⟨c, connections, m, streams, r, read, p, connect, q, request, same⟩ := accepted
    cases same
    exact ⟨⟨rfl, rfl⟩, connections, streams, read, connect, request⟩
  · intro accepted
    obtain ⟨url, peers, c, m, r, p, q⟩ := args
    obtain ⟨⟨rfl, rfl⟩, connections, streams, read, connect, request⟩ := accepted
    exact ⟨c, connections, m, streams, r, read, p, connect, q, request, rfl⟩

theorem flags_positive {flags : OpenAiServerFlags} {args : OpenAiServerArgs}
    (accepted : flags.parse = .ok args) : Positive args := by
  obtain ⟨_, connections, streams, read, connect, request⟩ := flags_parse_iff.mp accepted
  exact ⟨connections.2, streams.2, millis_positive read, millis_positive connect,
    millis_positive request⟩

/-- What a command line means. -/
structure Means (fromStr : String → Option Peer) (crate : UrlCrate) (flags : OpenAiServerFlags)
    (config : OpenAiServerConfig Peer) : Prop where
  peers : List.Forall₂ (fun value peer => fromStr value = some peer) flags.allowPeers
    config.allowPeers
  url : validateProviderBaseUrl crate flags.providerBaseUrl = .ok config.providerBaseUrl
  connections : Spells flags.maxConnections config.maxConnections
  streams : Spells flags.maxStreamsPerConnection config.maxStreamsPerConnection
  requestRead : SpellsMillis flags.requestReadTimeoutMs config.requestReadTimeout
  providerConnect : SpellsMillis flags.providerConnectTimeoutMs config.providerConnectTimeout
  providerRequest : SpellsMillis flags.providerRequestTimeoutMs config.providerRequestTimeout

theorem start_server_ok_iff {flags : OpenAiServerFlags} {config : OpenAiServerConfig Peer} :
    startServer fromStr crate flags = .ok config ↔ Means fromStr crate flags config := by
  unfold startServer
  rw [bind_ok_iff]
  constructor
  · intro started
    obtain ⟨args, accepted, started⟩ := started
    obtain ⟨peers, url, parsed, valid, rfl⟩ :=
      (run_server_ok_iff (flags_positive accepted)).mp started
    obtain ⟨⟨base, list⟩, connections, streams, read, connect, request⟩ :=
      flags_parse_iff.mp accepted
    rw [list] at parsed
    rw [base] at valid
    exact ⟨parse_allow_peers_ok_iff.mp parsed, valid, connections, streams, read, connect, request⟩
  · intro means
    have accepted : flags.parse = .ok ⟨flags.providerBaseUrl, flags.allowPeers,
        config.maxConnections, config.maxStreamsPerConnection, config.requestReadTimeout,
        config.providerConnectTimeout, config.providerRequestTimeout⟩ :=
      flags_parse_iff.mpr ⟨⟨rfl, rfl⟩, means.connections, means.streams, means.requestRead,
        means.providerConnect, means.providerRequest⟩
    refine ⟨_, accepted, (run_server_ok_iff (flags_positive accepted)).mpr ?_⟩
    exact ⟨config.allowPeers, config.providerBaseUrl, parse_allow_peers_ok_iff.mpr means.peers,
      means.url, rfl⟩

/-- The library's constants are the defaults of the command line. -/
theorem library_defaults (providerBaseUrl : Bytes) (allowPeers : List String) :
    startServer fromStr crate { providerBaseUrl, allowPeers } =
      (parseAllowPeers fromStr allowPeers).bind fun peers =>
        startOpenAiServerWithAllowPeers crate providerBaseUrl peers := by
  have limit : nonzeroUsize "128" = .ok 128 := by rfl
  have short : durationMillis "10000" = .ok (10 * 1000000000) := by rfl
  have long : durationMillis "120000" = .ok (120 * 1000000000) := by rfl
  have accepted : OpenAiServerFlags.parse { providerBaseUrl, allowPeers } =
      .ok ⟨providerBaseUrl, allowPeers, 128, 128, 10 * 1000000000, 10 * 1000000000,
        120 * 1000000000⟩ := by
    simp only [OpenAiServerFlags.parse, limit, short, long, ok_bind]
    rfl
  rw [startServer, accepted, ok_bind, runServer]
  cases parseAllowPeers fromStr allowPeers with
  | error e => rfl
  | ok peers => rfl

theorem client_flags_valid {flags : OpenAiClientFlags} {config : OpenAiClientConfig}
    (accepted : flags.parse = .ok config) : validateClientConfig config = .ok () := by
  unfold OpenAiClientFlags.parse at accepted
  simp only [bind_ok_iff, nonzero_usize_iff, duration_millis_iff] at accepted
  obtain ⟨s, sessions, l, request, t, operation, c, connect, r, attempts, h, health, same⟩ :=
    accepted
  cases same
  have interval : h ≠ some 0 := by
    rintro rfl
    cases given : flags.healthCheckIntervalMs with
    | none =>
      rw [given] at health
      cases health
    | some value =>
      rw [given, Option.mapM_some] at health
      cases read : durationMillis value with
      | error e =>
        rw [read] at health
        cases health
      | ok n =>
        rw [read] at health
        cases health
        exact millis_positive (duration_millis_iff.mp read) rfl
  unfold validateClientConfig
  simp only [bind_ok_iff, require_ok_iff]
  exact ⟨(), millis_positive request, (), millis_positive operation, (), millis_positive connect,
    (), attempts.2, (), interval, sessions.2⟩

theorem client_defaults : OpenAiClientFlags.parse {} = .ok OpenAiClientConfig.defaults := by rfl

section Serving
variable [DecidableEq Peer]

/-- The configuration is what the command line means, every value of it taken or the start
    refused. The configuration's own checks, which then can refuse nothing, keep a server
    whose limits a semaphore can hold from being one that never lets anybody in. -/
theorem server_start_exact (fromStr : String → Option Peer) (crate : UrlCrate)
    (flags : OpenAiServerFlags) :
    (∀ config, startServer fromStr crate flags = .ok config ↔ Means fromStr crate flags config) ∧
      (∀ config, startServer fromStr crate flags = .ok config →
        validateServerConfig config = .ok () ∧
        ∀ served, spawnOpenAiAcceptLoop config = some served → ∀ s, served.Reachable s →
          (∀ conn ∈ s.connections, ServerLimits.holds conn = 0) → s.connectionPermits ≠ 0) ∧
      ∀ args message, flags.parse = .ok args →
        startServer fromStr crate flags = .error message →
        BadPeer fromStr flags.allowPeers message ∨
          (∃ peers, parseAllowPeers fromStr flags.allowPeers = .ok peers) ∧
            validateProviderBaseUrl crate flags.providerBaseUrl = .error message := by
  refine ⟨fun config => start_server_ok_iff, ?_, ?_⟩
  · intro config started
    have means := start_server_ok_iff.mp started
    have valid : Valid config :=
      ⟨validated_policy means.url, millis_positive means.requestRead,
        millis_positive means.providerConnect, millis_positive means.providerRequest,
        means.connections.2, means.streams.2⟩
    refine ⟨validate_server_config_iff.mpr valid, ?_⟩
    intro served serves s reached idle
    rw [spawnOpenAiAcceptLoop, Option.ite_none_right_eq_some, Option.some.injEq] at serves
    obtain ⟨_, rfl⟩ := serves
    have limited := ServerLimits.limited_run reached
    have none : total ServerLimits.holds s.connections = 0 := AcceptLoops.total_idle idle
    have permits := limited.permits
    have some := valid.connections
    omega
  · intro args message accepted failed
    obtain ⟨⟨base, list⟩, _⟩ := flags_parse_iff.mp accepted
    rw [startServer, accepted, ok_bind] at failed
    have reason := run_server_error (flags_positive accepted) failed
    rwa [base, list] at reason

/-- A server that was given a list of peers serves none but these, in any run, and one whose
    list has a misspelled entry does not start: the list is never taken for an empty one. -/
theorem listed_peers_only (fromStr : String → Option Peer) (crate : UrlCrate)
    {values : List String} (listed : values ≠ []) :
    (∀ allowPrivateTargets config,
        runSocksServer fromStr ⟨allowPrivateTargets, values⟩ = .ok config →
        ∀ s, (SocksServer.spawnAcceptLoop config).Reachable s → ∀ (c : Nat) peer streams,
          s.connections[c]? = some (.serving peer streams) →
          ∃ value ∈ values, fromStr value = some peer) ∧
      (∀ flags config, flags.allowPeers = values → startServer fromStr crate flags = .ok config →
        ∀ s, (ServerLimits.server config.toOpenAiServerConfig).Reachable s →
          ∀ conn ∈ s.connections, ServerLimits.running conn ≠ 0 →
            ∃ peer, conn.remote = some peer ∧ ∃ value ∈ values, fromStr value = some peer) ∧
      ((∃ value ∈ values, fromStr value = none) →
        (∀ allowPrivateTargets, ∃ message, BadPeer fromStr values message ∧
          runSocksServer fromStr ⟨allowPrivateTargets, values⟩ = .error message) ∧
        ∀ flags, flags.allowPeers = values →
          ∃ message, startServer fromStr crate flags = .error message) := by
  refine ⟨?_, ?_, ?_⟩
  · intro allowPrivateTargets config started s reached c peer streams found
    obtain ⟨peers, parsed, rfl⟩ := run_socks_server_ok_iff.mp started
    have admitted := (PeerServers.governed_run reached).admitted c _ found
    exact listed_peer listed parsed admitted.1
  · intro flags config list started s reached conn member some
    have means := start_server_ok_iff.mp started
    have parsed := parse_allow_peers_ok_iff.mpr means.peers
    rw [list] at parsed
    obtain ⟨peer, remote, allowed⟩ :=
      ServerLimits.handlers_accepted (ServerLimits.limited_run reached) conn member some
    exact ⟨peer, remote, listed_peer listed parsed allowed⟩
  · intro misspelled
    obtain ⟨value, member, bad⟩ := misspelled
    have refused : ∃ message, parseAllowPeers fromStr values = .error message := by
      cases parsed : parseAllowPeers fromStr values with
      | error message => exact ⟨message, rfl⟩
      | ok peers =>
        obtain ⟨i, bound, rfl⟩ := List.getElem_of_mem member
        have pairs := parse_allow_peers_ok_iff.mp parsed
        have found := (List.forall₂_iff_get.mp pairs).2 i bound (pairs.length_eq ▸ bound)
        rw [List.get_eq_getElem, bad] at found
        contradiction
    obtain ⟨message, refused⟩ := refused
    constructor
    · intro allowPrivateTargets
      refine ⟨message, parse_allow_peers_error_iff.mp refused, ?_⟩
      rw [runSocksServer, refused]
      rfl
    · intro flags list
      rw [startServer]
      cases accepted : flags.parse with
      | error e => exact ⟨e, rfl⟩
      | ok args =>
        obtain ⟨⟨_, same⟩, _⟩ := flags_parse_iff.mp accepted
        exact ⟨message, by rw [ok_bind, runServer, same, list, refused]; rfl⟩

end Serving

def exampleKeys (value : String) : Option Nat := if value = "alice" then some 7 else none

theorem listed_peers_only_example : ∃ s streams,
    (SocksServer.spawnAcceptLoop (newServerConfig false [7])).replay
        [.incoming, .connection 0 (.handshaken 7)] = some s ∧
      s.connections[0]? = some (.serving 7 streams) ∧
      ∃ value ∈ ["alice"], exampleKeys value = some 7 := by
  have started : runSocksServer exampleKeys ⟨false, ["alice"]⟩ = .ok (newServerConfig false [7]) := by
    rfl
  obtain ⟨s, streams, run, found⟩ : ∃ s streams,
      (SocksServer.spawnAcceptLoop (newServerConfig false [7])).replay
        [.incoming, .connection 0 (.handshaken 7)] = some s ∧
      s.connections[0]? = some (.serving 7 streams) := ⟨_, _, rfl, rfl⟩
  have only := listed_peers_only exampleKeys exampleUrlCrate (List.cons_ne_nil "alice" [])
  exact ⟨s, streams, run, found, only.1 false _ started s ⟨_, run⟩ 0 7 streams found⟩

end Startup
