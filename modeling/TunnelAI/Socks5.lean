import TunnelAI.StdNet

/-!
The SOCKS5 side of the proxy: requests and reply codes, the method negotiation,
the CONNECT parser and the reply writer. A text is a Lean string
and its bytes are its UTF-8 bytes, as in Rust.
-/
namespace Socks5
open StreamReader StdNet

inductive TargetAddr where
  | ip : IpAddr → TargetAddr
  | domain : String → TargetAddr
  deriving DecidableEq

structure ConnectRequest where
  target : TargetAddr
  port : UInt16
  deriving DecidableEq

inductive ReplyCode where
  | succeeded
  | generalFailure
  | connectionNotAllowed
  | networkUnreachable
  | hostUnreachable
  | connectionRefused
  | ttlExpired
  | commandNotSupported
  | addressTypeNotSupported
  deriving DecidableEq

inductive SocksError where
  | io
  | unsupportedVersion : UInt8 → SocksError
  | noSupportedAuthMethod
  | unsupportedCommand : UInt8 → SocksError
  | unsupportedAddressType : UInt8 → SocksError
  | invalidReserved : UInt8 → SocksError
  | invalidDomain
  | invalidReplyCode : UInt8 → SocksError
  deriving DecidableEq

def ReplyCode.toU8 : ReplyCode → UInt8
  | .succeeded => 0x00
  | .generalFailure => 0x01
  | .connectionNotAllowed => 0x02
  | .networkUnreachable => 0x03
  | .hostUnreachable => 0x04
  | .connectionRefused => 0x05
  | .ttlExpired => 0x06
  | .commandNotSupported => 0x07
  | .addressTypeNotSupported => 0x08

def ReplyCode.tryFrom (value : UInt8) : Except SocksError ReplyCode :=
  match value with
  | 0x00 => .ok .succeeded
  | 0x01 => .ok .generalFailure
  | 0x02 => .ok .connectionNotAllowed
  | 0x03 => .ok .networkUnreachable
  | 0x04 => .ok .hostUnreachable
  | 0x05 => .ok .connectionRefused
  | 0x06 => .ok .ttlExpired
  | 0x07 => .ok .commandNotSupported
  | 0x08 => .ok .addressTypeNotSupported
  | other => .error (.invalidReplyCode other)

theorem try_from_to_u8 (code : ReplyCode) : ReplyCode.tryFrom code.toU8 = .ok code := by
  cases code <;> rfl

def SocksError.replyCode : SocksError → ReplyCode
  | .unsupportedCommand _ => .commandNotSupported
  | .unsupportedAddressType _ => .addressTypeNotSupported
  | _ => .generalFailure

def isAsciiControl (byte : UInt8) : Bool := byte ≤ 0x1f || byte == 0x7f

def isAsciiWhitespace (byte : UInt8) : Bool :=
  byte == 0x20 || byte == 0x09 || byte == 0x0a || byte == 0x0c || byte == 0x0d

def validateDomain (domain : String) : Bool :=
  !domain.isEmpty &&
    !(text domain).any fun byte => byte == 0 || isAsciiControl byte || isAsciiWhitespace byte

def negotiateNoAuth : Reader SocksError (Octets 2 × Except SocksError Unit) := do
  let version ← readU8
  Reader.ensure (version = 0x05) (SocksError.unsupportedVersion version)
  let nmethods ← readU8
  let methods ← readExact nmethods.toNat
  if methods.1.contains 0x00 then
    return (⟨[0x05, 0x00], rfl⟩, .ok ())
  else
    return (⟨[0x05, 0xff], rfl⟩, .error .noSupportedAuthMethod)

/-- The address field after the type byte, which the SOCKS request and the
    tunnel request spell the same way and reject with errors of their own. -/
def readTarget {ε : Type} (invalidDomain : ε) (unsupportedType : UInt8 → ε) (atyp : UInt8) :
    Reader ε TargetAddr :=
  match atyp with
  | 0x01 => do
    let octets ← readExact 4
    return .ip (.v4 ⟨octets⟩)
  | 0x03 => do
    let len ← readU8
    let bytes ← readExact len.toNat
    match fromUtf8 bytes.1 with
    | none => .fail invalidDomain
    | some domain =>
      Reader.ensure (validateDomain domain = true) invalidDomain
      return .domain domain
  | 0x04 => do
    let octets ← readExact 16
    return .ip (.v6 ⟨octets⟩)
  | other => .fail (unsupportedType other)

def readConnectRequest : Reader SocksError ConnectRequest := do
  let version ← readU8
  Reader.ensure (version = 0x05) (SocksError.unsupportedVersion version)
  let command ← readU8
  let reserved ← readU8
  let atyp ← readU8
  Reader.ensure (command = 0x01) (SocksError.unsupportedCommand command)
  Reader.ensure (reserved = 0x00) (SocksError.invalidReserved reserved)
  let target ← readTarget .invalidDomain .unsupportedAddressType atyp
  let port ← readU16
  return { target, port }

def writeReply (code : ReplyCode) : Bytes :=
  [0x05, code.toU8, 0x00, 0x01, 0, 0, 0, 0, 0, 0]

def TargetAddr.atyp : TargetAddr → UInt8
  | .ip (.v4 _) => 0x01
  | .domain _ => 0x03
  | .ip (.v6 _) => 0x04

def TargetAddr.field : TargetAddr → Bytes
  | .ip (.v4 addr) => addr.octets.1
  | .domain name => UInt8.ofNat (text name).length :: text name
  | .ip (.v6 addr) => addr.octets.1

/-- The targets that have an address field: every IP, and the domains that pass
    the validation and fit in a length byte. -/
def TargetAddr.Encodable : TargetAddr → Prop
  | .ip _ => True
  | .domain name => validateDomain name = true ∧ (text name).length ≤ 255

theorem read_target_field {ε : Type} (eof invalidDomain : ε) (unsupportedType : UInt8 → ε)
    {target : TargetAddr} (fits : target.Encodable) (rest : Bytes) :
    (readTarget invalidDomain unsupportedType target.atyp).run eof (target.field ++ rest) =
      .ok (target, rest) := by
  cases target with
  | ip ip =>
    cases ip with
    | v4 ip => simp [readTarget, TargetAddr.atyp, TargetAddr.field, run_bind, run_readExact_append]
    | v6 ip => simp [readTarget, TargetAddr.atyp, TargetAddr.field, run_bind, run_readExact_append]
  | domain domain =>
    obtain ⟨valid, short⟩ := fits
    have size : (UInt8.ofNat (text domain).length).toNat = (text domain).length := by
      rw [UInt8.toNat_ofNat']
      omega
    have enough : (UInt8.ofNat (text domain).length).toNat ≤ (text domain ++ rest).length := by
      simp [size]
    have taken : (text domain ++ rest).take (UInt8.ofNat (text domain).length).toNat =
        text domain := by rw [size, List.take_left]
    have left : (text domain ++ rest).drop (UInt8.ofNat (text domain).length).toNat = rest := by
      rw [size, List.drop_left]
    simp only [readTarget, TargetAddr.atyp, TargetAddr.field, List.cons_append, run_readU8_bind,
      run_readExact_bind, enough, taken, left, dite_true, fromUtf8_text, run_ensure_bind, valid,
      if_true, pure_done, run_done]

theorem read_target_sound {ε : Type} {eof invalidDomain : ε} {unsupportedType : UInt8 → ε}
    {atyp : UInt8} {s rest : Bytes} {target : TargetAddr}
    (h : (readTarget invalidDomain unsupportedType atyp).run eof s = .ok (target, rest)) :
    atyp = target.atyp ∧ s = target.field ++ rest ∧ target.Encodable := by
  unfold readTarget at h
  split at h
  · rw [run_readExact_bind] at h
    split at h
    · simp only [pure_done, run_done, Except.ok.injEq, Prod.mk.injEq] at h
      obtain ⟨rfl, rfl⟩ := h
      simp [TargetAddr.atyp, TargetAddr.field, TargetAddr.Encodable]
    · contradiction
  · rw [run_readU8_bind] at h
    split at h
    · contradiction
    · rename_i len body
      rw [run_readExact_bind] at h
      split at h
      · rename_i size
        split at h
        · simp at h
        · rename_i domain decoded
          rw [run_ensure_bind] at h
          split at h
          · rename_i valid
            simp only [pure_done, run_done, Except.ok.injEq, Prod.mk.injEq] at h
            obtain ⟨rfl, rfl⟩ := h
            have bytes : text domain = body.take len.toNat := text_of_fromUtf8 decoded
            have length : (text domain).length = len.toNat := by simp [bytes, size]
            have small := len.toNat_lt
            refine ⟨rfl, ?_, valid, by omega⟩
            rw [TargetAddr.field, length, UInt8.ofNat_toNat, bytes, List.cons_append,
              List.take_append_drop]
          · contradiction
      · contradiction
  · rw [run_readExact_bind] at h
    split at h
    · simp only [pure_done, run_done, Except.ok.injEq, Prod.mk.injEq] at h
      obtain ⟨rfl, rfl⟩ := h
      simp [TargetAddr.atyp, TargetAddr.field, TargetAddr.Encodable]
    · contradiction
  · simp at h

theorem read_connect_request_encodable {s rest : Bytes} {request : ConnectRequest}
    (h : readConnectRequest.run .io s = .ok (request, rest)) : request.target.Encodable := by
  unfold readConnectRequest at h
  obtain ⟨version, _, _, h⟩ := run_bind_ok h
  obtain ⟨_, _, _, h⟩ := run_bind_ok h
  obtain ⟨command, _, _, h⟩ := run_bind_ok h
  obtain ⟨reserved, _, _, h⟩ := run_bind_ok h
  obtain ⟨atyp, _, _, h⟩ := run_bind_ok h
  obtain ⟨_, _, _, h⟩ := run_bind_ok h
  obtain ⟨_, _, _, h⟩ := run_bind_ok h
  obtain ⟨target, _, field, h⟩ := run_bind_ok h
  obtain ⟨port, _, _, h⟩ := run_bind_ok h
  simp only [pure_done, run_done, Except.ok.injEq, Prod.mk.injEq] at h
  obtain ⟨rfl, _⟩ := h
  exact (read_target_sound field).2.2

end Socks5
