import TunnelAI.ConnectGrammar

/-!
What an application says on its SOCKS connection: a greeting, a request behind it
and a payload behind that. The two parsers cut its bytes into these without being
told where one ends, and what they make of any bytes at all is one of four outcomes,
each with a grammar of its own.
-/
namespace SocksConversation
open StreamReader StdNet Socks5 TunnelCodec ConnectGrammar

def greetingBytes (methods : Bytes) : Bytes := 0x05 :: UInt8.ofNat methods.length :: methods

theorem no_auth_length : ([0x05, 0x00] : Bytes).length = 2 := rfl

theorem none_acceptable_length : ([0x05, 0xff] : Bytes).length = 2 := rfl

def selection (methods : Bytes) : Octets 2 × Except SocksError Unit :=
  if methods.contains 0x00 then (⟨[0x05, 0x00], no_auth_length⟩, .ok ())
  else (⟨[0x05, 0xff], none_acceptable_length⟩, .error .noSupportedAuthMethod)

theorem selection_offered {methods : Bytes} (offered : 0x00 ∈ methods) :
    selection methods = (⟨[0x05, 0x00], no_auth_length⟩, .ok ()) := by
  rw [selection, if_pos (List.contains_iff_mem.mpr offered)]

theorem selection_missing {methods : Bytes} (missing : 0x00 ∉ methods) :
    selection methods = (⟨[0x05, 0xff], none_acceptable_length⟩, .error .noSupportedAuthMethod) := by
  rw [selection, if_neg (mt List.contains_iff_mem.mp missing)]

theorem negotiate_run (version count : UInt8) (rest : Bytes) :
    negotiateNoAuth.run .io (version :: count :: rest) =
      if version = 0x05 then
        if count.toNat ≤ rest.length then
          .ok (selection (rest.take count.toNat), rest.drop count.toNat)
        else .error .io
      else .error (.unsupportedVersion version) := by
  unfold negotiateNoAuth
  simp only [run_readU8_bind, run_ensure_bind, run_readExact_bind, selection]
  split
  · split
    · split
      · rw [pure_done, run_done]
      · rw [pure_done, run_done]
    · rfl
  · rfl

theorem negotiate_short {s : Bytes} (short : s.length < 2) :
    ∃ e, negotiateNoAuth.run .io s = .error e := by
  unfold negotiateNoAuth
  rcases s with _ | ⟨version, _ | ⟨count, rest⟩⟩
  · exact ⟨_, rfl⟩
  · simp only [run_readU8_bind, run_ensure_bind]
    split
    · exact ⟨_, rfl⟩
    · exact ⟨_, rfl⟩
  · simp only [List.length_cons] at short
    omega

/-- A string starts with at most one greeting, and the parser takes it and no more. -/
theorem negotiate_iff {s rest : Bytes} {answer : Octets 2 × Except SocksError Unit} :
    negotiateNoAuth.run .io s = .ok (answer, rest) ↔
      ∃ methods, methods.length ≤ 255 ∧ s = greetingBytes methods ++ rest ∧
        answer = selection methods := by
  constructor
  · intro agreed
    match s, agreed with
    | version :: count :: more, agreed =>
      rw [negotiate_run] at agreed
      split at agreed
      · rename_i socks
        split at agreed
        · rename_i enough
          simp only [Except.ok.injEq, Prod.mk.injEq] at agreed
          obtain ⟨rfl, rfl⟩ := agreed
          have small := count.toNat_lt
          have size : (more.take count.toNat).length = count.toNat :=
            List.length_take_of_le enough
          refine ⟨more.take count.toNat, by omega, ?_, rfl⟩
          rw [greetingBytes, size, UInt8.ofNat_toNat, socks, List.cons_append, List.cons_append,
            List.take_append_drop]
        · contradiction
      · contradiction
    | [], agreed =>
      obtain ⟨e, failed⟩ := negotiate_short (s := []) (by simp)
      rw [failed] at agreed
      contradiction
    | [version], agreed =>
      obtain ⟨e, failed⟩ := negotiate_short (s := [version]) (by simp)
      rw [failed] at agreed
      contradiction
  · intro greeting
    obtain ⟨methods, small, rfl, rfl⟩ := greeting
    have size : (UInt8.ofNat methods.length).toNat = methods.length := by
      rw [UInt8.toNat_ofNat']
      omega
    have enough : methods.length ≤ (methods ++ rest).length := by simp
    rw [greetingBytes, List.cons_append, List.cons_append, negotiate_run, if_pos rfl, size,
      if_pos enough, List.take_left, List.drop_left]

inductive Outcome where
  | silent
  | unselected
  | refused : ReplyCode → Outcome
  | requested : ConnectRequest → Bytes → Outcome
  deriving DecidableEq

def outcome (application : Bytes) : Outcome :=
  match negotiateNoAuth.run .io application with
  | .error _ => .silent
  | .ok ((_, .error _), _) => .unselected
  | .ok ((_, .ok _), rest) =>
    match readConnectRequest.run .io rest with
    | .error e => .refused e.replyCode
    | .ok (request, payload) => .requested request payload

theorem outcome_greeting {methods rest : Bytes} (small : methods.length ≤ 255) :
    outcome (greetingBytes methods ++ rest) =
      if 0x00 ∈ methods then
        match readConnectRequest.run .io rest with
        | .error e => .refused e.replyCode
        | .ok (request, payload) => .requested request payload
      else .unselected := by
  have agreed : negotiateNoAuth.run .io (greetingBytes methods ++ rest) =
      .ok (selection methods, rest) := negotiate_iff.mpr ⟨methods, small, rfl, rfl⟩
  unfold outcome
  rw [agreed]
  by_cases offered : 0x00 ∈ methods
  · rw [selection_offered offered, if_pos offered]
  · rw [selection_missing offered, if_neg offered]

theorem outcome_silent_iff (application : Bytes) : outcome application = .silent ↔
    ¬ ∃ methods rest, methods.length ≤ 255 ∧ application = greetingBytes methods ++ rest := by
  constructor
  · intro silent greeting
    obtain ⟨methods, rest, small, rfl⟩ := greeting
    rw [outcome_greeting small] at silent
    split at silent
    · split at silent
      · contradiction
      · contradiction
    · contradiction
  · intro none
    unfold outcome
    cases read : negotiateNoAuth.run .io application with
    | error e => rfl
    | ok found =>
      obtain ⟨answer, rest⟩ := found
      obtain ⟨methods, small, split, _⟩ := negotiate_iff.mp read
      exact absurd ⟨methods, rest, small, split⟩ none

theorem outcome_unselected_iff (application : Bytes) : outcome application = .unselected ↔
    ∃ methods rest, methods.length ≤ 255 ∧ application = greetingBytes methods ++ rest ∧
      0x00 ∉ methods := by
  constructor
  · intro unselected
    by_contra none
    by_cases greeting : ∃ methods rest, methods.length ≤ 255 ∧
        application = greetingBytes methods ++ rest
    · obtain ⟨methods, rest, small, rfl⟩ := greeting
      rw [outcome_greeting small] at unselected
      split at unselected
      · split at unselected
        · contradiction
        · contradiction
      · rename_i missing
        exact none ⟨methods, rest, small, rfl, missing⟩
    · rw [(outcome_silent_iff application).mpr greeting] at unselected
      contradiction
  · intro greeting
    obtain ⟨methods, rest, small, rfl, missing⟩ := greeting
    rw [outcome_greeting small, if_neg missing]

theorem outcome_behind (application : Bytes) (silent : outcome application ≠ .silent)
    (unselected : outcome application ≠ .unselected) :
    ∃ methods rest, methods.length ≤ 255 ∧ 0x00 ∈ methods ∧
      application = greetingBytes methods ++ rest := by
  by_contra none
  by_cases greeting : ∃ methods rest, methods.length ≤ 255 ∧
      application = greetingBytes methods ++ rest
  · obtain ⟨methods, rest, small, rfl⟩ := greeting
    by_cases offered : 0x00 ∈ methods
    · exact none ⟨methods, rest, small, offered, rfl⟩
    · exact unselected ((outcome_unselected_iff _).mpr ⟨methods, rest, small, rfl, offered⟩)
  · exact silent ((outcome_silent_iff application).mpr greeting)

theorem outcome_requested_iff (application payload : Bytes) (request : ConnectRequest) :
    outcome application = .requested request payload ↔
      ∃ methods frame, methods.length ≤ 255 ∧ 0x00 ∈ methods ∧ Spells frame request ∧
        application = greetingBytes methods ++ frame ++ payload := by
  constructor
  · intro requested
    obtain ⟨methods, rest, small, offered, rfl⟩ :=
      outcome_behind application (by simp [requested]) (by simp [requested])
    rw [outcome_greeting small, if_pos offered] at requested
    split at requested
    · contradiction
    · rename_i read
      simp only [Outcome.requested.injEq] at requested
      obtain ⟨rfl, rfl⟩ := requested
      obtain ⟨fits, split⟩ := read_connect_request_sound read
      refine ⟨methods, _, small, offered, spells_iff.mpr ⟨fits, rfl⟩, ?_⟩
      rw [split, List.append_assoc]
  · intro conversation
    obtain ⟨methods, frame, small, offered, spells, rfl⟩ := conversation
    obtain ⟨fits, rfl⟩ := spells_iff.mp spells
    rw [List.append_assoc, outcome_greeting small, if_pos offered, read_request_bytes fits]

theorem outcome_refused_iff (application : Bytes) (code : ReplyCode) :
    outcome application = .refused code ↔
      ∃ methods rest, methods.length ≤ 255 ∧ 0x00 ∈ methods ∧
        application = greetingBytes methods ++ rest ∧
        ∃ e, readConnectRequest.run .io rest = .error e ∧ e.replyCode = code := by
  constructor
  · intro refused
    obtain ⟨methods, rest, small, offered, rfl⟩ :=
      outcome_behind application (by simp [refused]) (by simp [refused])
    rw [outcome_greeting small, if_pos offered] at refused
    split at refused
    · rename_i e failed
      rw [Outcome.refused.injEq] at refused
      exact ⟨methods, rest, small, offered, rfl, e, failed, refused⟩
    · contradiction
  · intro refused
    obtain ⟨methods, rest, small, offered, rfl, e, failed, rfl⟩ := refused
    rw [outcome_greeting small, if_pos offered, failed]

end SocksConversation
