import TunnelAI.Library.AcceptLoops
import TunnelAI.ClientSession
import TunnelAI.SocksClient

/-!
The two local listeners of the client. Each connection of an application is a session
of its own, under one semaphore for the listener; a connection over the limit is
dropped as it is. A listener whose accept fails leaves its sessions running.
-/
namespace LocalListeners
open StreamReader TransitionRuns TaskPools TracedEffects Socks5 AcceptLoops
open HttpHead (HttpCrates)
open SocksClient (ClientEvent handleSocksConnection replies Reached)
open ClientSession (SessionEvent handleOpenAiClientStream localBytes received OwnError Copying
  chunks)

def sessionEvents {World Effect ε : Type} (session : World → Traced Effect ε Unit)
    (permitted : Bool) (world : World) : List Effect :=
  if permitted then (session world).events else []

def acceptLocalLoop (maxConcurrentSessions : Nat) :
    System (Loop SocksClient.World ClientEvent) (Event SocksClient.World) :=
  accepts (sessionEvents handleSocksConnection) maxConcurrentSessions

def openAiClientAcceptLoop (crates : HttpCrates) (maxConcurrentSessions : Nat) :
    System (Loop ClientSession.World SessionEvent) (Event ClientSession.World) :=
  accepts (sessionEvents (handleOpenAiClientStream crates)) maxConcurrentSessions

section sessions
variable {World Effect ε : Type} {session : World → Traced Effect ε Unit} {limit : Nat}
  {loop : Loop World Effect}

/-- Never more sessions than the limit; a connection is dropped exactly at the limit,
    and gets nothing; all others go through their own session in order. -/
structure Limited (session : World → Traced Effect ε Unit) (limit : Nat)
    (loop : Loop World Effect) : Prop where
  bounded : total Spawned.holds loop.tasks ≤ limit
  dropped : ∀ world, (loop.takeOn world).tasks = loop.tasks ++ [⟨world, false, 0, true⟩] ↔
    total Spawned.holds loop.tasks = limit
  returned : (∀ task ∈ loop.tasks, task.running = false) → loop.permits = limit
  nothing : ∀ t task, loop.tasks[t]? = some task → task.permitted = false →
    effectsOf t loop.log = []
  part : ∀ t task, loop.tasks[t]? = some task → task.permitted = true →
    effectsOf t loop.log <+: (session task.job).events
  whole : ∀ t task, loop.tasks[t]? = some task → task.permitted = true →
    task.running = false → effectsOf t loop.log = (session task.job).events

theorem limited_run (reached : (accepts (sessionEvents session) limit).Reachable loop) :
    Limited session limit loop := by
  have accounted := accounted_run reached
  have balanced := accounted.balanced
  unfold PermitsKept at balanced
  refine ⟨by omega, fun world => turned_away_iff accounted, ?_, ?_, ?_, ?_⟩
  · intro ended
    exact accounted.balanced.idle fun task member => holds_ended (ended task member)
  · intro t task found without
    have part := (accounted.onCourse t task found).part
    rw [without] at part
    exact List.prefix_nil.mp part
  · intro t task found permitted
    have part := (accounted.onCourse t task found).part
    rw [permitted] at part
    exact part
  · intro t task found permitted ended
    have whole := (accounted.onCourse t task found).whole ended
    rw [permitted] at whole
    exact whole

end sessions

def repliesIn (events : List ClientEvent) : List (ReplyCode × Bool) :=
  replies (⟨events, .ok ()⟩ : SocksClient.Client Unit)

def bytesIn (events : List SessionEvent) : Bytes :=
  localBytes (⟨events, .ok ()⟩ : ClientSession.Session Unit)

theorem replies_once (world : SocksClient.World) :
    (replies (handleSocksConnection world)).length ≤ 1 ∧
      ∀ written, (.succeeded, written) ∈ replies (handleSocksConnection world) →
        ∃ request, Reached world request .succeeded := by
  rcases SocksClient.connection_cases world with
    ⟨request, status, reached, told, _⟩ | ⟨_, refused⟩
  · rw [told]
    refine ⟨Nat.le_refl 1, ?_⟩
    intro written member
    rw [List.mem_singleton, Prod.mk.injEq] at member
    exact ⟨request, member.1 ▸ reached⟩
  · obtain ⟨once, never⟩ := SocksClient.refuses_once refused
    exact ⟨once, fun written member => absurd member (never written)⟩

/-- In every run of the SOCKS listener: sessions keep to the limit and to themselves,
    and at every moment an application has got at most one reply, a success only when
    the tunnel has answered its own request with one. -/
theorem socks_sessions {limit : Nat} {loop : Loop SocksClient.World ClientEvent}
    (reached : (acceptLocalLoop limit).Reachable loop) :
    Limited handleSocksConnection limit loop ∧
      ∀ t task, loop.tasks[t]? = some task →
        (repliesIn (effectsOf t loop.log)).length ≤ 1 ∧
          ∀ written, (.succeeded, written) ∈ repliesIn (effectsOf t loop.log) →
            ∃ request, Reached task.job request .succeeded := by
  have limited := limited_run reached
  refine ⟨limited, ?_⟩
  intro t task found
  cases permit : task.permitted with
  | false =>
    rw [limited.nothing t task found permit]
    exact ⟨Nat.zero_le 1, fun written member => by contradiction⟩
  | true =>
    obtain ⟨once, own⟩ := replies_once task.job
    have seen : repliesIn (effectsOf t loop.log) <+: replies (handleSocksConnection task.job) :=
      observe_part _ (limited.part t task found permit)
    exact ⟨Nat.le_trans seen.length_le once, fun written member =>
      own written (seen.subset member)⟩

def exampleSocksRun : List (Event SocksClient.World) :=
  [.arrive SocksClient.exampleSession.client, .perform 0, .perform 0,
    .arrive SocksClient.exampleSession.client, .perform 0, .finish 1, .closed, .perform 0,
    .finish 0]

theorem socks_sessions_example : ∃ loop,
    (acceptLocalLoop 1).replay exampleSocksRun = some loop ∧ loop.permits = 1 ∧
      repliesIn (effectsOf 0 loop.log) = [(.succeeded, true)] ∧ effectsOf 1 loop.log = [] ∧
      Limited handleSocksConnection 1 loop := by
  have finished : ((acceptLocalLoop 1).replay exampleSocksRun).map
      (fun loop => (loop.permits, repliesIn (effectsOf 0 loop.log), (effectsOf 1 loop.log).length)) =
        some (1, [(.succeeded, true)], 0) := by decide
  obtain ⟨loop, run, seen⟩ := Option.map_eq_some_iff.mp finished
  simp only [Prod.mk.injEq, List.length_eq_zero_iff] at seen
  exact ⟨loop, run, seen.1, seen.2.1, seen.2.2, (socks_sessions ⟨exampleSocksRun, run⟩).1⟩

/-- In every run of the HTTP listener: sessions keep to the limit and to themselves,
    and at every moment an application has got a beginning of one of the client's own
    errors or of what its own tunnel stream has brought. -/
theorem openai_sessions {crates : HttpCrates} {limit : Nat}
    {loop : Loop ClientSession.World SessionEvent}
    (reached : (openAiClientAcceptLoop crates limit).Reachable loop) :
    Limited (handleOpenAiClientStream crates) limit loop ∧
      ∀ t task, loop.tasks[t]? = some task →
        (∃ whole, OwnError whole ∧ bytesIn (effectsOf t loop.log) <+: whole) ∨
          bytesIn (effectsOf t loop.log) <+: (chunks task.job.reads).flatten := by
  have limited := limited_run reached
  refine ⟨limited, ?_⟩
  intro t task found
  cases permit : task.permitted with
  | false =>
    right
    rw [limited.nothing t task found permit]
    exact List.nil_prefix
  | true =>
    have seen : bytesIn (effectsOf t loop.log) <+:
        localBytes (handleOpenAiClientStream crates task.job) :=
      observe_part _ (limited.part t task found permit)
    rcases ClientSession.session_bytes crates task.job with own | copied
    · exact Or.inl ⟨_, own, seen⟩
    · exact Or.inr (seen.trans copied)

def lateWorld : ClientSession.World := ⟨.elapsed, .ok (), .elapsed, []⟩

def exampleHttpRun : List (Event ClientSession.World) :=
  [.arrive lateWorld, .arrive lateWorld, .finish 1] ++ List.replicate 7 (.perform 0) ++ [.finish 0]

theorem openai_sessions_example : ∃ loop,
    (openAiClientAcceptLoop HttpHead.exampleCrates 1).replay exampleHttpRun = some loop ∧
      loop.permits = 1 ∧
      bytesIn (effectsOf 0 loop.log) =
        ResponseWriter.plainResponse 408 "Request Timeout" "request timeout" ∧
      effectsOf 1 loop.log = [] ∧
      Limited (handleOpenAiClientStream HttpHead.exampleCrates) 1 loop := by
  have finished : ((openAiClientAcceptLoop HttpHead.exampleCrates 1).replay exampleHttpRun).map
      (fun loop => (loop.permits, bytesIn (effectsOf 0 loop.log), (effectsOf 1 loop.log).length)) =
        some (1, ResponseWriter.plainResponse 408 "Request Timeout" "request timeout", 0) := by
    decide
  obtain ⟨loop, run, seen⟩ := Option.map_eq_some_iff.mp finished
  simp only [Prod.mk.injEq, List.length_eq_zero_iff] at seen
  exact ⟨loop, run, seen.1, seen.2.1, seen.2.2, (openai_sessions ⟨exampleHttpRun, run⟩).1⟩

end LocalListeners
