import Ketebe.Lib.ByteCodec

/-!
Files with a checked header: four magic bytes, a version, three reserved bytes,
the length of the payload and its checksum. What a writer frames is accepted by
the reader of the same format.
-/
namespace Ketebe.Lib.FramedFile

open ByteCodec

/-- A format: its marks, its checksum and the errors of its checks. The length
of the whole file is computed by the format, so that it may overflow. -/
structure Format (ε : Type) where
  magic : Bytes
  version : UInt8
  checksum : Bytes → UInt32
  totalLen : ℕ → Except ε ℕ
  truncated : ε
  invalidMagic : ε
  unsupportedVersion : UInt8 → ε
  lengthMismatch : ε
  checksumMismatch : ε

def headerLen : ℕ := 20

def payloadLen (bytes : Bytes) : ℕ := leValue ((bytes.drop 8).take 8)

def storedChecksum (bytes : Bytes) : UInt32 := UInt32.ofNat (leValue ((bytes.drop 16).take 4))

namespace Format

variable {ε : Type} (format : Format ε)

def encodeHeader (payload : Bytes) : Bytes :=
  format.magic ++ [format.version, 0, 0, 0] ++ leBytes 8 payload.length ++
    leBytes 4 (format.checksum payload).toNat

def encode (payload : Bytes) : Bytes := format.encodeHeader payload ++ payload

/-- The checks of the header, which return the payload. -/
def decode (bytes : Bytes) : Except ε Bytes :=
  if bytes.length < headerLen then .error format.truncated
  else if bytes.take 4 ≠ format.magic then .error format.invalidMagic
  else if bytes.getD 4 0 ≠ format.version then .error (format.unsupportedVersion (bytes.getD 4 0))
  else do
    let expected ← format.totalLen (payloadLen bytes)
    if bytes.length ≠ expected then .error format.lengthMismatch
    else if format.checksum (bytes.drop headerLen) ≠ storedChecksum bytes then
      .error format.checksumMismatch
    else .ok (bytes.drop headerLen)

variable {format} {payload : Bytes}

theorem length_encodeHeader (hmagic : format.magic.length = 4) :
    (format.encodeHeader payload).length = headerLen := by
  simp [encodeHeader, hmagic, headerLen]

theorem length_encode (hmagic : format.magic.length = 4) :
    (format.encode payload).length = headerLen + payload.length := by
  rw [encode, List.length_append, length_encodeHeader hmagic]

/-- Behind the magic bytes, the version and the reserved bytes. -/
theorem drop_encode (hmagic : format.magic.length = 4) : (format.encode payload).drop 8 =
    leBytes 8 payload.length ++ (leBytes 4 (format.checksum payload).toNat ++ payload) := by
  have hmarks : (format.magic ++ [format.version, 0, 0, 0]).length = 8 := by simp [hmagic]
  rw [encode, encodeHeader, List.append_assoc, List.append_assoc]
  exact List.drop_left' hmarks

theorem payloadLen_encode (hmagic : format.magic.length = 4) (hlength : payload.length < 256 ^ 8) :
    payloadLen (format.encode payload) = payload.length := by
  rw [payloadLen, drop_encode hmagic, List.take_left' (length_leBytes 8 _),
    leValue_leBytes 8 _ hlength]

theorem storedChecksum_encode (hmagic : format.magic.length = 4) :
    storedChecksum (format.encode payload) = format.checksum payload := by
  have hword : (format.encode payload).drop 16 =
      leBytes 4 (format.checksum payload).toNat ++ payload := by
    have hsplit : (format.encode payload).drop 16 = ((format.encode payload).drop 8).drop 8 := by
      rw [List.drop_drop]
    rw [hsplit, drop_encode hmagic, List.drop_left' (length_leBytes 8 _)]
  rw [storedChecksum, hword, List.take_left' (length_leBytes 4 _),
    leValue_leBytes 4 _ (format.checksum payload).toNat_lt, UInt32.ofNat_toNat]

/-- A framed payload is accepted when its length does not overflow. -/
theorem decode_encode (hmagic : format.magic.length = 4) (hlength : payload.length < 256 ^ 8)
    (htotal : format.totalLen payload.length = .ok (headerLen + payload.length)) :
    format.decode (format.encode payload) = .ok payload := by
  have hmarks : (format.encode payload).take 4 = format.magic := by
    rw [encode, encodeHeader, List.append_assoc, List.append_assoc, List.append_assoc]
    exact List.take_left' hmagic
  have hversion : (format.encode payload).getD 4 0 = format.version := by
    rw [encode, encodeHeader, List.append_assoc, List.append_assoc, List.append_assoc,
      List.getD_eq_getElem?_getD, List.getElem?_append_right (by omega), hmagic]
    rfl
  have hdrop : (format.encode payload).drop headerLen = payload :=
    List.drop_left' (length_encodeHeader hmagic)
  rw [decode, length_encode hmagic, hmarks, hversion, payloadLen_encode hmagic hlength, hdrop,
    storedChecksum_encode hmagic, htotal, if_neg (by omega), if_neg (not_not.mpr rfl),
    if_neg (not_not.mpr rfl), except_ok_bind, if_neg (not_not.mpr rfl), if_neg (not_not.mpr rfl)]

end Format

end Ketebe.Lib.FramedFile
