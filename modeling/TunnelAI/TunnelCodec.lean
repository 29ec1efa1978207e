import TunnelAI.Socks5

/-!
The two frames of a tunnel stream: the request that names the target and the
response that carries a reply code. A writer returns the bytes it has put on the
stream together with its result, because a refused domain is noticed only after
the frame has been begun.
-/
namespace TunnelCodec
open StreamReader StdNet Socks5

def magic : Bytes := text "IRPX"

def version : UInt8 := 1

def cmdConnect : UInt8 := 1

inductive TunnelError where
  | io
  | badMagic
  | badVersion : UInt8 → TunnelError
  | unsupportedCommand : UInt8 → TunnelError
  | unsupportedAddressType : UInt8 → TunnelError
  | domainTooLong
  | invalidDomain
  | invalidStatus : UInt8 → TunnelError
  deriving DecidableEq

def u16Bytes (value : UInt16) : Bytes :=
  [UInt8.ofNat (value.toNat / 256), UInt8.ofNat (value.toNat % 256)]

def writeRequest (request : ConnectRequest) : Bytes × Except TunnelError Unit :=
  let start := magic ++ [version] ++ [cmdConnect]
  match request.target with
  | .ip (.v4 ip) => (start ++ [0x01] ++ u16Bytes request.port ++ ip.octets.1, .ok ())
  | .domain domain =>
    if !validateDomain domain then (start, .error .invalidDomain)
    else
      let bytes := text domain
      if bytes.length > 255 then (start, .error .domainTooLong)
      else
        (start ++ [0x03] ++ u16Bytes request.port ++ [UInt8.ofNat bytes.length] ++ bytes, .ok ())
  | .ip (.v6 ip) => (start ++ [0x04] ++ u16Bytes request.port ++ ip.octets.1, .ok ())

def readMagicAndVersion : Reader TunnelError Unit := do
  let bytes ← readExact 4
  Reader.ensure (bytes.1 = magic) TunnelError.badMagic
  let received ← readU8
  Reader.ensure (received = version) (TunnelError.badVersion received)

def readRequest : Reader TunnelError ConnectRequest := do
  readMagicAndVersion
  let command ← readU8
  Reader.ensure (command = cmdConnect) (TunnelError.unsupportedCommand command)
  let atyp ← readU8
  let port ← readU16
  let target ← readTarget .invalidDomain .unsupportedAddressType atyp
  return { target, port }

def writeResponse (status : ReplyCode) : Bytes :=
  magic ++ [version] ++ [status.toU8] ++ u16Bytes 0

def readResponse : Reader TunnelError ReplyCode := do
  readMagicAndVersion
  let status ← readU8
  let _reserved ← readU16
  match ReplyCode.tryFrom status with
  | .ok code => return code
  | .error _ => .fail (.invalidStatus status)

theorem u16_bytes_value (port : UInt16) :
    UInt16.ofNat ((UInt8.ofNat (port.toNat / 256)).toNat * 256 +
      (UInt8.ofNat (port.toNat % 256)).toNat) = port := by
  have small := port.toNat_lt
  have high : (UInt8.ofNat (port.toNat / 256)).toNat = port.toNat / 256 := by
    rw [UInt8.toNat_ofNat']
    omega
  have low : (UInt8.ofNat (port.toNat % 256)).toNat = port.toNat % 256 := by
    rw [UInt8.toNat_ofNat']
    omega
  have whole : port.toNat / 256 * 256 + port.toNat % 256 = port.toNat := by omega
  rw [high, low, whole, UInt16.ofNat_toNat]

def requestFrame (request : ConnectRequest) : Bytes :=
  magic ++ [version, cmdConnect, request.target.atyp] ++ u16Bytes request.port ++
    request.target.field

theorem write_request_encodable {request : ConnectRequest}
    (fits : request.target.Encodable) :
    writeRequest request = (requestFrame request, .ok ()) := by
  obtain ⟨target, port⟩ := request
  cases target with
  | ip ip => cases ip <;> simp [writeRequest, requestFrame, TargetAddr.atyp, TargetAddr.field]
  | domain domain =>
    obtain ⟨valid, short⟩ := fits
    have notLong : ¬ (text domain).length > 255 := by omega
    simp [writeRequest, requestFrame, TargetAddr.atyp, TargetAddr.field, valid, notLong]

theorem read_magic_and_version_frame {α : Type} (r : Unit → Reader TunnelError α) (rest : Bytes) :
    (readMagicAndVersion >>= r).run .io (magic ++ version :: rest) = (r ()).run .io rest := by
  have head : readMagicAndVersion.run .io (magic ++ version :: rest) = .ok ((), rest) := by
    unfold readMagicAndVersion
    rw [run_bind, run_readExact_append TunnelError.io (⟨magic, rfl⟩ : Octets 4)]
    simp only [run_ensure_bind, if_true, run_readU8_bind]
    rfl
  rw [run_bind, head]

theorem read_request_frame {request : ConnectRequest} (fits : request.target.Encodable)
    (rest : Bytes) :
    readRequest.run .io (requestFrame request ++ rest) = .ok (request, rest) := by
  have shape : requestFrame request ++ rest = magic ++ version ::
      (cmdConnect :: request.target.atyp :: (u16Bytes request.port ++
        (request.target.field ++ rest))) := by simp [requestFrame]
  rw [shape]
  unfold readRequest
  rw [read_magic_and_version_frame]
  simp only [run_readU8_bind, run_ensure_bind, if_true, u16Bytes, List.cons_append,
    List.nil_append, run_readU16_bind, u16_bytes_value]
  rw [run_bind, read_target_field TunnelError.io _ _ fits]
  simp

theorem read_response_frame (status : ReplyCode) (rest : Bytes) :
    readResponse.run .io (writeResponse status ++ rest) = .ok (status, rest) := by
  have shape : writeResponse status ++ rest = magic ++ version ::
      (status.toU8 :: (u16Bytes 0 ++ rest)) := by simp [writeResponse]
  rw [shape]
  unfold readResponse
  rw [read_magic_and_version_frame]
  simp [run_readU8_bind, u16Bytes, run_readU16_bind, try_from_to_u8]

theorem read_magic_and_version_sound {s rest : Bytes}
    (h : readMagicAndVersion.run .io s = .ok ((), rest)) : s = magic ++ version :: rest := by
  unfold readMagicAndVersion at h
  rw [run_readExact_bind] at h
  split at h
  · rw [run_ensure_bind] at h
    split at h
    · rename_i same
      rw [run_readU8_bind] at h
      split at h
      · contradiction
      · rename_i received left behind
        unfold Reader.ensure at h
        split at h
        · rename_i current
          simp only [run_done, Except.ok.injEq, Prod.mk.injEq, true_and] at h
          rw [← h, ← current, ← behind, ← same, List.take_append_drop]
        · simp at h
    · contradiction
  · contradiction

theorem u16_value_bytes (high low : UInt8) :
    u16Bytes (UInt16.ofNat (high.toNat * 256 + low.toNat)) = [high, low] := by
  have := high.toNat_lt
  have := low.toNat_lt
  have value : (UInt16.ofNat (high.toNat * 256 + low.toNat)).toNat =
      high.toNat * 256 + low.toNat := by
    rw [UInt16.toNat_ofNat']
    omega
  have first : (high.toNat * 256 + low.toNat) / 256 = high.toNat := by omega
  have second : (high.toNat * 256 + low.toNat) % 256 = low.toNat := by omega
  rw [u16Bytes, value, first, second, UInt8.ofNat_toNat, UInt8.ofNat_toNat]

/-- What the server reads as a request is the frame of that request. -/
theorem read_request_sound {s rest : Bytes} {request : ConnectRequest}
    (h : readRequest.run .io s = .ok (request, rest)) :
    s = requestFrame request ++ rest ∧ request.target.Encodable := by
  unfold readRequest at h
  obtain ⟨_, behindMagic, head, h⟩ := run_bind_ok h
  have start := read_magic_and_version_sound head
  rw [run_readU8_bind] at h
  split at h
  · contradiction
  rename_i command behindCommand
  rw [run_ensure_bind] at h
  split at h
  · rename_i connect
    rw [run_readU8_bind] at h
    split at h
    · contradiction
    rename_i atyp behindType
    rw [run_readU16_bind] at h
    split at h
    · rename_i high low behindPort
      obtain ⟨target, behind, read, h⟩ := run_bind_ok h
      obtain ⟨kind, field, fits⟩ := read_target_sound read
      simp only [pure_done, run_done, Except.ok.injEq, Prod.mk.injEq] at h
      obtain ⟨rfl, rfl⟩ := h
      refine ⟨?_, fits⟩
      rw [start, requestFrame, u16_value_bytes, field, kind, connect]
      simp
    · contradiction
  · contradiction

/-- The targets that a request can carry: every IP, and the domains of at most 255
    bytes with no control or whitespace byte. -/
def Sendable : TargetAddr → Prop
  | .ip _ => True
  | .domain name => name ≠ "" ∧ (text name).length ≤ 255 ∧
      ∀ byte ∈ text name, isAsciiControl byte = false ∧ isAsciiWhitespace byte = false

theorem validate_domain_iff (name : String) : validateDomain name = true ↔
    name ≠ "" ∧ ∀ byte ∈ text name, isAsciiControl byte = false ∧ isAsciiWhitespace byte = false := by
  have zero : ∀ byte : UInt8, isAsciiControl byte = false → byte ≠ 0 := by
    rintro byte plain rfl
    contradiction
  simp only [validateDomain, Bool.and_eq_true, Bool.not_eq_true', List.any_eq_false,
    Bool.or_eq_true, beq_iff_eq, not_or, Bool.not_eq_true, String.isEmpty_eq_false_iff]
  constructor
  · intro valid
    exact ⟨valid.1, fun byte member => ⟨(valid.2 byte member).1.2, (valid.2 byte member).2⟩⟩
  · intro valid
    refine ⟨valid.1, fun byte member => ?_⟩
    obtain ⟨control, whitespace⟩ := valid.2 byte member
    exact ⟨⟨zero byte control, control⟩, whitespace⟩

theorem sendable_iff (target : TargetAddr) : Sendable target ↔ target.Encodable := by
  cases target with
  | ip ip => rfl
  | domain name =>
    simp only [Sendable, TargetAddr.Encodable, validate_domain_iff]
    constructor
    · intro fits
      exact ⟨⟨fits.1, fits.2.2⟩, fits.2.1⟩
    · intro fits
      exact ⟨fits.1.1, fits.2, fits.1.2⟩

theorem write_request_ok_iff (request : ConnectRequest) :
    (writeRequest request).2 = .ok () ↔ Sendable request.target := by
  rw [sendable_iff]
  constructor
  · intro written
    obtain ⟨target, port⟩ := request
    cases target with
    | ip ip => trivial
    | domain name =>
      simp only [writeRequest] at written
      split at written
      · contradiction
      · rename_i valid
        split at written
        · contradiction
        · rename_i short
          exact ⟨by simpa using valid, Nat.le_of_not_lt short⟩
  · intro fits
    rw [write_request_encodable fits]

/-- Writer and reader of the request agree: what can be written is read back with
    nothing taken from behind it, what is read is what the writer writes, and no
    beginning of it is enough. -/
theorem tunnel_request_codec (request : ConnectRequest) :
    ((writeRequest request).2 = .ok () ↔ Sendable request.target) ∧
      ((writeRequest request).2 = .ok () → ∀ rest,
        readRequest.run .io ((writeRequest request).1 ++ rest) = .ok (request, rest)) ∧
      ∀ s rest, readRequest.run .io s = .ok (request, rest) →
        (writeRequest request).2 = .ok () ∧ s = (writeRequest request).1 ++ rest ∧
          ∀ part, part <+: (writeRequest request).1 → part ≠ (writeRequest request).1 →
            ∃ e, readRequest.run .io part = .error e := by
  refine ⟨write_request_ok_iff request, ?_, ?_⟩
  · intro written rest
    have fits := (sendable_iff _).mp ((write_request_ok_iff request).mp written)
    rw [write_request_encodable fits]
    exact read_request_frame fits rest
  · intro s rest read
    obtain ⟨shape, fits⟩ := read_request_sound read
    rw [write_request_encodable fits]
    refine ⟨rfl, shape, ?_⟩
    intro part begins proper
    obtain ⟨more, whole⟩ := begins
    change part ++ more = requestFrame request at whole
    have frame := read_request_frame fits []
    rw [List.append_nil, ← whole] at frame
    refine ⟨.io, run_proper_prefix frame ?_⟩
    rintro rfl
    rw [List.append_nil] at whole
    exact proper whole

theorem reply_code_cases (status : UInt8) : (∃ code : ReplyCode, status = code.toU8) ∨
    (8 < status ∧ ReplyCode.tryFrom status = .error (.invalidReplyCode status)) := by
  unfold ReplyCode.tryFrom
  split
  · exact Or.inl ⟨.succeeded, rfl⟩
  · exact Or.inl ⟨.generalFailure, rfl⟩
  · exact Or.inl ⟨.connectionNotAllowed, rfl⟩
  · exact Or.inl ⟨.networkUnreachable, rfl⟩
  · exact Or.inl ⟨.hostUnreachable, rfl⟩
  · exact Or.inl ⟨.connectionRefused, rfl⟩
  · exact Or.inl ⟨.ttlExpired, rfl⟩
  · exact Or.inl ⟨.commandNotSupported, rfl⟩
  · exact Or.inl ⟨.addressTypeNotSupported, rfl⟩
  · refine Or.inr ⟨?_, rfl⟩
    grind

theorem reply_code_small (code : ReplyCode) : ¬ 8 < code.toU8 := by
  cases code <;> decide

def Broken (s : Bytes) : TunnelError → Prop
  | .io => s.length < 4 ∨ s = magic ∨ ∃ part, part.length < 3 ∧ s = magic ++ version :: part
  | .badMagic => ∃ start rest, start.length = 4 ∧ start ≠ magic ∧ s = start ++ rest
  | .badVersion received => received ≠ version ∧ ∃ rest, s = magic ++ received :: rest
  | .invalidStatus status => 8 < status ∧
      ∃ high low rest, s = magic ++ [version, status, high, low] ++ rest
  | _ => False

theorem response_short {s : Bytes} (short : s.length < 4) :
    readResponse.run .io s = .error .io := by
  unfold readResponse readMagicAndVersion
  rw [run_bind, run_readExact_bind, dif_neg (Nat.not_le_of_lt short)]

theorem response_bad_magic {start : Bytes} (size : start.length = 4) (other : start ≠ magic)
    (rest : Bytes) : readResponse.run .io (start ++ rest) = .error .badMagic := by
  have taken := run_readExact_append TunnelError.io (⟨start, size⟩ : Octets 4) rest
  unfold readResponse readMagicAndVersion
  rw [run_bind, run_bind, taken]
  simp only [run_ensure_bind, if_neg other]

theorem response_no_version : readResponse.run .io magic = .error .io := rfl

theorem response_bad_version {received : UInt8} (other : received ≠ version) (rest : Bytes) :
    readResponse.run .io (magic ++ received :: rest) = .error (.badVersion received) := by
  have taken := run_readExact_append TunnelError.io (⟨magic, rfl⟩ : Octets 4) (received :: rest)
  have head : readMagicAndVersion.run .io (magic ++ received :: rest) =
      .error (.badVersion received) := by
    unfold readMagicAndVersion
    rw [run_bind, taken]
    simp only [Reader.ensure, if_true, bind_done, run_readU8_bind, if_neg other, run_fail]
  unfold readResponse
  rw [run_bind, head]

theorem response_cut {part : Bytes} (short : part.length < 3) :
    readResponse.run .io (magic ++ version :: part) = .error .io := by
  unfold readResponse
  rw [read_magic_and_version_frame]
  match part, short with
  | [], _ => rfl
  | [_], _ => rfl
  | [_, _], _ => rfl

theorem response_status (status high low : UInt8) (rest : Bytes) :
    readResponse.run .io (magic ++ [version, status, high, low] ++ rest) =
      match ReplyCode.tryFrom status with
      | .ok code => .ok (code, rest)
      | .error _ => .error (.invalidStatus status) := by
  unfold readResponse
  rw [List.append_assoc, List.cons_append, read_magic_and_version_frame]
  simp only [List.cons_append, List.nil_append, run_readU8_bind, run_readU16_bind]
  cases ReplyCode.tryFrom status with
  | ok code => exact run_done _ _ _
  | error e => exact run_fail _ _ _

theorem response_shapes (s : Bytes) : s.length < 4 ∨
    (∃ start rest, start.length = 4 ∧ start ≠ magic ∧ s = start ++ rest) ∨ s = magic ∨
    (∃ received rest, received ≠ version ∧ s = magic ++ received :: rest) ∨
    (∃ part, part.length < 3 ∧ s = magic ++ version :: part) ∨
    ∃ status high low rest, s = magic ++ [version, status, high, low] ++ rest := by
  by_cases short : s.length < 4
  · exact Or.inl short
  · have split := List.take_append_drop 4 s
    have size : (s.take 4).length = 4 := List.length_take_of_le (Nat.le_of_not_lt short)
    by_cases same : s.take 4 = magic
    · rw [same] at split
      match behind : s.drop 4 with
      | [] =>
        rw [behind, List.append_nil] at split
        exact Or.inr (Or.inr (Or.inl split.symm))
      | received :: rest =>
        rw [behind] at split
        by_cases current : received = version
        · subst current
          match rest with
          | status :: high :: low :: rest =>
            refine Or.inr (Or.inr (Or.inr (Or.inr (Or.inr ⟨status, high, low, rest, ?_⟩))))
            rw [← split]
            simp
          | [] => exact Or.inr (Or.inr (Or.inr (Or.inr (Or.inl ⟨[], by simp, split.symm⟩))))
          | [status] =>
            exact Or.inr (Or.inr (Or.inr (Or.inr (Or.inl ⟨_, by simp, split.symm⟩))))
          | [status, high] =>
            exact Or.inr (Or.inr (Or.inr (Or.inr (Or.inl ⟨_, by simp, split.symm⟩))))
        · exact Or.inr (Or.inr (Or.inr (Or.inl ⟨received, rest, current, split.symm⟩)))
    · exact Or.inr (Or.inl ⟨s.take 4, s.drop 4, size, same, split.symm⟩)

/-- The reader of a response takes exactly eight bytes, of which the last two may be
    anything, and fails with each of its errors exactly for that error's cause. -/
theorem tunnel_response_codec (s : Bytes) :
    (∀ code rest, readResponse.run .io s = .ok (code, rest) ↔
      ∃ high low, s = magic ++ [version, code.toU8, high, low] ++ rest) ∧
    ∀ e, readResponse.run .io s = .error e ↔ Broken s e := by
  constructor
  · intro code rest
    constructor
    · intro read
      rcases response_shapes s with short | ⟨start, behind, size, other, rfl⟩ | rfl |
        ⟨received, behind, other, rfl⟩ | ⟨part, short, rfl⟩ | ⟨status, high, low, behind, rfl⟩
      · rw [response_short short] at read
        contradiction
      · rw [response_bad_magic size other] at read
        contradiction
      · rw [response_no_version] at read
        contradiction
      · rw [response_bad_version other] at read
        contradiction
      · rw [response_cut short] at read
        contradiction
      · rw [response_status] at read
        rcases reply_code_cases status with ⟨own, rfl⟩ | ⟨_, failed⟩
        · rw [try_from_to_u8] at read
          simp only [Except.ok.injEq, Prod.mk.injEq] at read
          obtain ⟨rfl, rfl⟩ := read
          exact ⟨high, low, rfl⟩
        · rw [failed] at read
          contradiction
    · intro frame
      obtain ⟨high, low, rfl⟩ := frame
      rw [response_status, try_from_to_u8]
  · intro e
    constructor
    · intro failed
      rcases response_shapes s with short | ⟨start, behind, size, other, rfl⟩ | rfl |
        ⟨received, behind, other, rfl⟩ | ⟨part, short, rfl⟩ | ⟨status, high, low, behind, rfl⟩
      · rw [response_short short] at failed
        cases failed
        exact Or.inl short
      · rw [response_bad_magic size other] at failed
        cases failed
        exact ⟨start, behind, size, other, rfl⟩
      · rw [response_no_version] at failed
        cases failed
        exact Or.inr (Or.inl rfl)
      · rw [response_bad_version other] at failed
        cases failed
        exact ⟨other, behind, rfl⟩
      · rw [response_cut short] at failed
        cases failed
        exact Or.inr (Or.inr ⟨part, short, rfl⟩)
      · rw [response_status] at failed
        rcases reply_code_cases status with ⟨own, rfl⟩ | ⟨large, unknown⟩
        · rw [try_from_to_u8] at failed
          contradiction
        · rw [unknown] at failed
          cases failed
          exact ⟨large, high, low, behind, rfl⟩
    · intro broken
      cases e with
      | io =>
        rcases broken with short | rfl | ⟨part, short, rfl⟩
        · exact response_short short
        · exact response_no_version
        · exact response_cut short
      | badMagic =>
        obtain ⟨start, rest, size, other, rfl⟩ := broken
        exact response_bad_magic size other rest
      | badVersion received =>
        obtain ⟨other, rest, rfl⟩ := broken
        exact response_bad_version other rest
      | invalidStatus status =>
        obtain ⟨large, high, low, rest, rfl⟩ := broken
        rw [response_status]
        rcases reply_code_cases status with ⟨own, rfl⟩ | ⟨_, unknown⟩
        · exact absurd large (reply_code_small own)
        · rw [unknown]
      | unsupportedCommand _ => exact broken.elim
      | unsupportedAddressType _ => exact broken.elim
      | domainTooLong => exact broken.elim
      | invalidDomain => exact broken.elim

end TunnelCodec
