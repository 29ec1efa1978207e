import TunnelAI.TunnelCodec

/-!
The grammar of a SOCKS5 CONNECT request, as a relation between byte strings and
requests, and the two kinds of request that are answered with a reply code of
their own.
-/
namespace ConnectGrammar
open StreamReader StdNet Socks5 TunnelCodec

def IsPlain (byte : UInt8) : Prop := isAsciiControl byte = false ∧ isAsciiWhitespace byte = false

/-- An address type and the bytes of an address of that type. -/
inductive SpellsAddress : Bytes → TargetAddr → Prop where
  | v4 (octets : Octets 4) : SpellsAddress (0x01 :: octets.1) (.ip (.v4 ⟨octets⟩))
  | v6 (octets : Octets 16) : SpellsAddress (0x04 :: octets.1) (.ip (.v6 ⟨octets⟩))
  | domain (length : UInt8) (bytes : Bytes) (name : String) (nonempty : 1 ≤ length.toNat)
      (size : bytes.length = length.toNat) (utf8 : fromUtf8 bytes = some name)
      (plain : ∀ byte ∈ bytes, IsPlain byte) :
      SpellsAddress (0x03 :: length :: bytes) (.domain name)

def Spells (frame : Bytes) (request : ConnectRequest) : Prop :=
  ∃ address high low, frame = [0x05, 0x01, 0x00] ++ address ++ [high, low] ∧
    SpellsAddress address request.target ∧
    request.port.toNat = high.toNat * 256 + low.toNat

/-- Four bytes of the right version with another command than CONNECT. -/
def CommandRefused (s : Bytes) : Prop :=
  ∃ command reserved atyp rest, s = 0x05 :: command :: reserved :: atyp :: rest ∧ command ≠ 0x01

def TypeRefused (s : Bytes) : Prop :=
  ∃ atyp rest, s = 0x05 :: 0x01 :: 0x00 :: atyp :: rest ∧
    atyp ≠ 0x01 ∧ atyp ≠ 0x03 ∧ atyp ≠ 0x04

def requestBytes (request : ConnectRequest) : Bytes :=
  [0x05, 0x01, 0x00] ++ (request.target.atyp :: request.target.field) ++ u16Bytes request.port

theorem spells_address_iff {address : Bytes} {target : TargetAddr} :
    SpellsAddress address target ↔ target.Encodable ∧ address = target.atyp :: target.field := by
  constructor
  · intro spells
    cases spells with
    | v4 octets => exact ⟨trivial, rfl⟩
    | v6 octets => exact ⟨trivial, rfl⟩
    | domain length bytes name nonempty size utf8 plain =>
      have same : text name = bytes := text_of_fromUtf8 utf8
      have small := length.toNat_lt
      have named : name ≠ "" := by
        intro empty
        have none : bytes = [] := by rw [← same, empty]; rfl
        rw [none, List.length_nil] at size
        omega
      have valid : validateDomain name = true :=
        (validate_domain_iff name).mpr ⟨named, by rw [same]; exact plain⟩
      refine ⟨⟨valid, by rw [same, size]; omega⟩, ?_⟩
      rw [TargetAddr.atyp, TargetAddr.field, same, size, UInt8.ofNat_toNat]
  · intro spelled
    obtain ⟨fits, rfl⟩ := spelled
    cases target with
    | ip ip =>
      cases ip with
      | v4 addr => exact .v4 addr.octets
      | v6 addr => exact .v6 addr.octets
    | domain name =>
      obtain ⟨valid, short⟩ := fits
      obtain ⟨named, plain⟩ := (validate_domain_iff name).mp valid
      have size : (UInt8.ofNat (text name).length).toNat = (text name).length := by
        rw [UInt8.toNat_ofNat']
        omega
      have some : text name ≠ [] := by
        intro none
        have decoded := fromUtf8_text name
        rw [none, show fromUtf8 [] = some "" from fromUtf8_text "", Option.some.injEq] at decoded
        exact named decoded.symm
      exact .domain _ _ name (by rw [size]; exact List.length_pos_iff.mpr some) size.symm
        (fromUtf8_text name) plain

theorem spells_iff {frame : Bytes} {request : ConnectRequest} :
    Spells frame request ↔ request.target.Encodable ∧ frame = requestBytes request := by
  constructor
  · intro spells
    obtain ⟨address, high, low, rfl, spelled, port⟩ := spells
    obtain ⟨fits, rfl⟩ := spells_address_iff.mp spelled
    have bytes : u16Bytes request.port = [high, low] := by
      rw [← u16_value_bytes high low, ← port, UInt16.ofNat_toNat]
    exact ⟨fits, by rw [requestBytes, bytes]⟩
  · intro spelled
    obtain ⟨fits, rfl⟩ := spelled
    have small := request.port.toNat_lt
    refine ⟨_, UInt8.ofNat (request.port.toNat / 256), UInt8.ofNat (request.port.toNat % 256), rfl,
      spells_address_iff.mpr ⟨fits, rfl⟩, ?_⟩
    rw [UInt8.toNat_ofNat', UInt8.toNat_ofNat']
    omega

theorem read_request_bytes {request : ConnectRequest} (fits : request.target.Encodable)
    (rest : Bytes) :
    readConnectRequest.run .io (requestBytes request ++ rest) = .ok (request, rest) := by
  have shape : requestBytes request ++ rest = 0x05 :: 0x01 :: 0x00 :: request.target.atyp ::
      (request.target.field ++ (u16Bytes request.port ++ rest)) := by simp [requestBytes]
  rw [shape]
  unfold readConnectRequest
  simp only [run_readU8_bind, run_ensure_bind, if_true]
  rw [run_bind, read_target_field SocksError.io _ _ fits]
  simp only [u16Bytes, List.cons_append, List.nil_append, run_readU16_bind, u16_bytes_value,
    pure_done, run_done]

def readAddressAndPort (atyp : UInt8) : Reader SocksError ConnectRequest := do
  let target ← readTarget .invalidDomain .unsupportedAddressType atyp
  let port ← readU16
  return { target, port }

theorem read_connect_request_run (version command reserved atyp : UInt8) (rest : Bytes) :
    readConnectRequest.run .io (version :: command :: reserved :: atyp :: rest) =
      if version = 0x05 then
        if command = 0x01 then
          if reserved = 0x00 then (readAddressAndPort atyp).run .io rest
          else .error (.invalidReserved reserved)
        else .error (.unsupportedCommand command)
      else .error (.unsupportedVersion version) := by
  unfold readConnectRequest
  simp only [run_readU8_bind, run_ensure_bind]
  rfl

theorem read_connect_request_short {s : Bytes} (short : s.length < 4) :
    ∃ e, readConnectRequest.run .io s = .error e ∧ e.replyCode = .generalFailure := by
  unfold readConnectRequest
  rcases s with _ | ⟨version, rest⟩
  · exact ⟨_, rfl, rfl⟩
  · rw [run_readU8_bind]
    simp only [run_ensure_bind]
    split
    · rcases rest with _ | ⟨command, _ | ⟨reserved, _ | ⟨atyp, rest⟩⟩⟩
      · exact ⟨_, rfl, rfl⟩
      · exact ⟨_, rfl, rfl⟩
      · exact ⟨_, rfl, rfl⟩
      · simp only [List.length_cons] at short
        omega
    · exact ⟨_, rfl, rfl⟩

theorem read_address_sound {atyp : UInt8} {s rest : Bytes} {request : ConnectRequest}
    (h : (readAddressAndPort atyp).run .io s = .ok (request, rest)) :
    request.target.Encodable ∧ atyp = request.target.atyp ∧
      s = request.target.field ++ (u16Bytes request.port ++ rest) := by
  unfold readAddressAndPort at h
  obtain ⟨target, behind, field, h⟩ := run_bind_ok h
  obtain ⟨kind, split, fits⟩ := read_target_sound field
  rw [run_readU16_bind] at h
  split at h
  · rename_i high low behindPort
    simp only [pure_done, run_done, Except.ok.injEq, Prod.mk.injEq] at h
    obtain ⟨rfl, rfl⟩ := h
    rw [u16_value_bytes]
    exact ⟨fits, kind, split⟩
  · contradiction

theorem read_target_failure {atyp : UInt8} {s : Bytes} {e : SocksError}
    (h : (readTarget .invalidDomain .unsupportedAddressType atyp).run .io s = .error e) :
    (e.replyCode = .generalFailure ∧ (atyp = 0x01 ∨ atyp = 0x03 ∨ atyp = 0x04)) ∨
      e = .unsupportedAddressType atyp ∧ atyp ≠ 0x01 ∧ atyp ≠ 0x03 ∧ atyp ≠ 0x04 := by
  unfold readTarget at h
  split at h
  · rw [run_readExact_bind] at h
    split at h
    · simp at h
    · cases h
      exact Or.inl ⟨rfl, Or.inl rfl⟩
  · rw [run_readU8_bind] at h
    split at h
    · cases h
      exact Or.inl ⟨rfl, Or.inr (Or.inl rfl)⟩
    · rw [run_readExact_bind] at h
      split at h
      · split at h
        · cases h
          exact Or.inl ⟨rfl, Or.inr (Or.inl rfl)⟩
        · rw [run_ensure_bind] at h
          split at h
          · simp at h
          · cases h
            exact Or.inl ⟨rfl, Or.inr (Or.inl rfl)⟩
      · cases h
        exact Or.inl ⟨rfl, Or.inr (Or.inl rfl)⟩
  · rw [run_readExact_bind] at h
    split at h
    · simp at h
    · cases h
      exact Or.inl ⟨rfl, Or.inr (Or.inr rfl)⟩
  · rename_i one three four
    simp only [run_fail, Except.error.injEq] at h
    exact Or.inr ⟨h.symm, one, three, four⟩

theorem read_address_failure {atyp : UInt8} {s : Bytes} {e : SocksError}
    (h : (readAddressAndPort atyp).run .io s = .error e) :
    (e.replyCode = .generalFailure ∧ (atyp = 0x01 ∨ atyp = 0x03 ∨ atyp = 0x04)) ∨
      e = .unsupportedAddressType atyp ∧ atyp ≠ 0x01 ∧ atyp ≠ 0x03 ∧ atyp ≠ 0x04 := by
  unfold readAddressAndPort at h
  rw [run_bind] at h
  cases first : (readTarget SocksError.invalidDomain .unsupportedAddressType atyp).run .io s with
  | error e' =>
    rw [first] at h
    cases h
    exact read_target_failure first
  | ok pair =>
    obtain ⟨target, behind⟩ := pair
    rw [first] at h
    simp only at h
    have kind := (read_target_sound first).1
    have known : atyp = 0x01 ∨ atyp = 0x03 ∨ atyp = 0x04 := by
      rw [kind]
      cases target with
      | ip ip => cases ip <;> simp [TargetAddr.atyp]
      | domain name => simp [TargetAddr.atyp]
    rw [run_readU16_bind] at h
    split at h
    · simp at h
    · cases h
      exact Or.inl ⟨rfl, known⟩

theorem four_bytes_failure {version command reserved atyp : UInt8} {rest : Bytes} {e : SocksError}
    (failed : readConnectRequest.run .io (version :: command :: reserved :: atyp :: rest) =
      .error e) :
    (e.replyCode = .commandNotSupported ∧ version = 0x05 ∧ command ≠ 0x01) ∨
      (e.replyCode = .addressTypeNotSupported ∧ version = 0x05 ∧ command = 0x01 ∧
        reserved = 0x00 ∧ atyp ≠ 0x01 ∧ atyp ≠ 0x03 ∧ atyp ≠ 0x04) ∨
      e.replyCode = .generalFailure ∧ (version ≠ 0x05 ∨ command = 0x01 ∧
        (reserved ≠ 0x00 ∨ atyp = 0x01 ∨ atyp = 0x03 ∨ atyp = 0x04)) := by
  rw [read_connect_request_run] at failed
  split at failed
  · rename_i socks
    split at failed
    · rename_i connect
      split at failed
      · rename_i zero
        rcases read_address_failure failed with ⟨general, known⟩ | ⟨rfl, unknown⟩
        · exact Or.inr (Or.inr ⟨general, Or.inr ⟨connect, Or.inr known⟩⟩)
        · exact Or.inr (Or.inl ⟨rfl, socks, connect, zero, unknown⟩)
      · rename_i other
        cases failed
        exact Or.inr (Or.inr ⟨rfl, Or.inr ⟨connect, Or.inl other⟩⟩)
    · rename_i other
      cases failed
      exact Or.inl ⟨rfl, socks, other⟩
  · rename_i other
    cases failed
    exact Or.inr (Or.inr ⟨rfl, Or.inl other⟩)

theorem command_refused_iff {version command reserved atyp : UInt8} {rest : Bytes} :
    CommandRefused (version :: command :: reserved :: atyp :: rest) ↔
      version = 0x05 ∧ command ≠ 0x01 := by
  simp [CommandRefused, and_assoc]

theorem type_refused_iff {version command reserved atyp : UInt8} {rest : Bytes} :
    TypeRefused (version :: command :: reserved :: atyp :: rest) ↔
      version = 0x05 ∧ command = 0x01 ∧ reserved = 0x00 ∧
        atyp ≠ 0x01 ∧ atyp ≠ 0x03 ∧ atyp ≠ 0x04 := by
  simp [TypeRefused, and_assoc]

theorem refused_length {s : Bytes} (refused : CommandRefused s ∨ TypeRefused s) :
    4 ≤ s.length := by
  rcases refused with ⟨_, _, _, _, rfl, _⟩ | ⟨_, _, rfl, _⟩
  · simp
  · simp

/-- The answer to a string that is not accepted, by its first four bytes. -/
theorem read_connect_request_failure {s : Bytes} {e : SocksError}
    (failed : readConnectRequest.run .io s = .error e) :
    (e.replyCode = .commandNotSupported ↔ CommandRefused s) ∧
      (e.replyCode = .addressTypeNotSupported ↔ TypeRefused s) ∧
      (e.replyCode = .generalFailure ↔ ¬ CommandRefused s ∧ ¬ TypeRefused s) := by
  by_cases short : s.length < 4
  · obtain ⟨e', failed', general⟩ := read_connect_request_short short
    rw [failed, Except.error.injEq] at failed'
    subst failed'
    have noCommand : ¬ CommandRefused s := fun refused =>
      absurd (refused_length (Or.inl refused)) (Nat.not_le_of_lt short)
    have noType : ¬ TypeRefused s := fun refused =>
      absurd (refused_length (Or.inr refused)) (Nat.not_le_of_lt short)
    simp [general, noCommand, noType]
  · match s, short, failed with
    | version :: command :: reserved :: atyp :: rest, _, failed =>
      rw [command_refused_iff, type_refused_iff]
      rcases four_bytes_failure failed with ⟨code, socks, other⟩ |
        ⟨code, socks, connect, zero, one, three, four⟩ | ⟨code, general⟩
      · simp [code, socks, other]
      · simp [code, socks, connect, zero, one, three, four]
      · simp only [code, reduceCtorEq, false_iff, true_iff]
        grind
    | [], short, _ => simp at short
    | [_], short, _ => simp at short
    | [_, _], short, _ => simp at short
    | [_, _, _], short, _ => simp at short

theorem read_connect_request_sound {s rest : Bytes} {request : ConnectRequest}
    (h : readConnectRequest.run .io s = .ok (request, rest)) :
    request.target.Encodable ∧ s = requestBytes request ++ rest := by
  by_cases short : s.length < 4
  · obtain ⟨e, failed, _⟩ := read_connect_request_short short
    rw [h] at failed
    contradiction
  · match s, short, h with
    | version :: command :: reserved :: atyp :: behind, _, h =>
      rw [read_connect_request_run] at h
      split at h
      · rename_i socks
        split at h
        · rename_i connect
          split at h
          · rename_i zero
            obtain ⟨fits, kind, split⟩ := read_address_sound h
            rw [socks, connect, zero, kind, split, requestBytes]
            exact ⟨fits, by simp⟩
          · contradiction
        · contradiction
      · contradiction
    | [], short, _ => simp at short
    | [_], short, _ => simp at short
    | [_, _], short, _ => simp at short
    | [_, _, _], short, _ => simp at short

/-- The reader accepts exactly the spellings of requests and leaves what is behind
    them, two requests never share a spelling, and every other string is answered
    by its kind. -/
theorem connect_request_grammar :
    (∀ s request rest, readConnectRequest.run .io s = .ok (request, rest) ↔
      ∃ frame, s = frame ++ rest ∧ Spells frame request) ∧
    (∀ frame frame' request, Spells frame request → Spells frame' request → frame = frame') ∧
    ∀ s e, readConnectRequest.run .io s = .error e →
      (e.replyCode = .commandNotSupported ↔ CommandRefused s) ∧
      (e.replyCode = .addressTypeNotSupported ↔ TypeRefused s) ∧
      (e.replyCode = .generalFailure ↔ ¬ CommandRefused s ∧ ¬ TypeRefused s) := by
  refine ⟨?_, ?_, fun s e failed => read_connect_request_failure failed⟩
  · intro s request rest
    constructor
    · intro accepted
      obtain ⟨fits, split⟩ := read_connect_request_sound accepted
      exact ⟨requestBytes request, split, spells_iff.mpr ⟨fits, rfl⟩⟩
    · intro spelled
      obtain ⟨frame, rfl, spells⟩ := spelled
      obtain ⟨fits, rfl⟩ := spells_iff.mp spells
      exact read_request_bytes fits rest
  · intro frame frame' request one other
    rw [(spells_iff.mp one).2, (spells_iff.mp other).2]

end ConnectGrammar
