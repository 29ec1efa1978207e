import TunnelAI.HeaderForwarding

/-!
What a client that has asked with some method makes of the bytes that the server
writes for a provider's response: the writer frames every response in the same
way, and the client's rules look at the method and the status first.
-/
namespace ResponseFraming
open StreamReader ChunkedCoding ResponseMessages HttpHead ResponseWriter HeaderForwarding

/-- The bytes on the stream are one response with the provider's status and body and
    nothing behind it; a 204 has no Transfer-Encoding. -/
def Framed (crates : HttpCrates) (method : Method) (response : ProviderResponse) : Prop :=
  ∃ message, parseMessage method.name (written (copyProviderResponseAndFinish crates response)) =
      some message ∧
    message.head.status = response.status ∧ message.body = response.chunks.flatten ∧
    message.left = [] ∧
    (response.status = 204 → fieldValues (text "transfer-encoding") message.head.fields = [])

variable {crates : HttpCrates}

theorem writer_framing {method : Method} {response : ProviderResponse}
    (body : ¬ Bodyless method.name response.status) :
    framing method.name ⟨response.status, passedFields response.headers ++ ownFields⟩ = .chunked := by
  have values : fieldValues (text "transfer-encoding")
      (passedFields response.headers ++ ownFields) = [text "chunked"] := by
    rw [response_values]
    rfl
  have coding : codings (passedFields response.headers ++ ownFields) = [text "chunked"] := by
    rw [codings, values]
    decide
  simp only [framing, coding, if_neg body, List.getLast?_singleton, if_true]

theorem client_message (reasons : PlainReasons crates) {response : ProviderResponse}
    (valid : FromProvider response) (whole : response.failed = false) (method : Method) :
    parseMessage method.name (written (copyProviderResponseAndFinish crates response)) =
      let head := ⟨response.status, passedFields response.headers ++ ownFields⟩
      let behind := response.chunks.flatMap encodeChunk ++ terminator
      if Bodyless method.name response.status then some ⟨head, [], behind⟩
      else if (decode behind).complete = true then
        some ⟨head, (decode behind).body, (decode behind).left⟩
      else none := by
  have bytes := @written_response crates response (Or.inr whole)
  rw [(writes_head_bytes response).2, whole] at bytes
  simp only [Bool.false_eq_true, if_false] at bytes
  rw [bytes, parseMessage, head_parses reasons valid, Option.bind_eq_bind, Option.bind_some]
  simp only
  by_cases bodyless : Bodyless method.name response.status
  · have none : framing method.name ⟨response.status, passedFields response.headers ++ ownFields⟩ =
        .bodyless := if_pos bodyless
    rw [none, if_pos bodyless]
  · rw [writer_framing bodyless, if_neg bodyless]

/-- A client that expects no body has at least the terminator left over. -/
theorem bodyless_not_framed (reasons : PlainReasons crates) {response : ProviderResponse}
    (valid : FromProvider response) (whole : response.failed = false) {method : Method}
    (bodyless : Bodyless method.name response.status) : ¬ Framed crates method response := by
  intro framed
  obtain ⟨message, parsed, _, _, left, _⟩ := framed
  rw [client_message reasons valid whole] at parsed
  simp only [if_pos bodyless] at parsed
  cases parsed
  simp [terminator] at left

theorem behind_decodes_iff {response : ProviderResponse} (whole : response.failed = false) :
    ((decode (response.chunks.flatMap encodeChunk ++ terminator)).complete = true ∧
      (decode (response.chunks.flatMap encodeChunk ++ terminator)).body = response.chunks.flatten ∧
      (decode (response.chunks.flatMap encodeChunk ++ terminator)).left = []) ↔
      ∀ chunk ∈ response.chunks, chunk ≠ [] := by
  have begun : response.chunks ≠ [] ∨ response.failed = false := Or.inr whole
  have bytes := @written_response exampleCrates response begun
  rw [whole] at bytes
  simp only [Bool.false_eq_true, if_false] at bytes
  constructor
  · intro decodes chunk member empty
    obtain ⟨complete, body, left⟩ := decodes
    have survives : Survives exampleCrates response :=
      ⟨_, bytes, body, by rw [complete, whole]; rfl, left⟩
    exact empty_chunk_lost (empty ▸ member) survives
  · intro full
    have survives : Survives exampleCrates response := full_chunks_survive begun full
    obtain ⟨behind, split, body, complete, left⟩ := survives
    rw [bytes, List.append_cancel_left_eq] at split
    subst split
    rw [whole] at complete
    exact ⟨complete, body, left⟩

/-- A response that has ended is framed correctly exactly when the method and the
    status let it have a body and no chunk of it is empty. -/
theorem response_framed_iff (reasons : PlainReasons crates) {response : ProviderResponse}
    (valid : FromProvider response) (whole : response.failed = false) (method : Method) :
    Framed crates method response ↔
      ¬ Bodyless method.name response.status ∧ ∀ chunk ∈ response.chunks, chunk ≠ [] := by
  have decodes := behind_decodes_iff whole
  by_cases bodyless : Bodyless method.name response.status
  · constructor
    · intro framed
      exact absurd framed (bodyless_not_framed reasons valid whole bodyless)
    · intro condition
      exact absurd bodyless condition.1
  · have message := client_message reasons valid whole method
    simp only [if_neg bodyless] at message
    unfold Framed
    rw [message]
    constructor
    · intro framed
      obtain ⟨_, same, _, body, left, _⟩ := framed
      refine ⟨bodyless, decodes.mp ?_⟩
      split at same
      · rename_i complete
        cases same
        exact ⟨complete, body, left⟩
      · contradiction
    · intro condition
      obtain ⟨complete, body, left⟩ := decodes.mpr condition.2
      refine ⟨_, if_pos complete, rfl, body, left, ?_⟩
      intro noContent
      exact absurd (Or.inr (Or.inr (Or.inl noContent))) bodyless

theorem framed_response (status : Nat) (chunks : List Bytes)
    (three : 100 ≤ status ∧ status < 1000) : FromProvider ⟨status, [], chunks, false⟩ :=
  ⟨three, by simp, by simp, by simp⟩

theorem response_framed_example :
    Framed exampleCrates ⟨text "POST"⟩ ⟨200, [], [text "data: 1", text "data: 2"], false⟩ :=
  (response_framed_iff example_reasons (framed_response 200 _ (by decide)) rfl _).mpr
    ⟨by decide, by decide⟩

/-- The end of a body that the client does not expect is left over, behind the answer
    to a HEAD request and behind a 204. -/
theorem terminator_left_over :
    ¬ Framed exampleCrates ⟨text "HEAD"⟩ ⟨200, [], [], false⟩ ∧
      ¬ Framed exampleCrates ⟨text "DELETE"⟩ ⟨204, [], [], false⟩ :=
  ⟨bodyless_not_framed example_reasons (framed_response 200 [] (by decide)) rfl (Or.inl rfl),
    bodyless_not_framed example_reasons (framed_response 204 [] (by decide)) rfl
      (Or.inr (Or.inr (Or.inl rfl)))⟩

end ResponseFraming
