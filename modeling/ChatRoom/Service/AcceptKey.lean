import ChatRoom.Base.Base64
import ChatRoom.Service.WebSocketConn

/-!
# The accept value of the handshake

`generateWebSocketHandshakeResponse` hashes the key of the client with the
magic text of the protocol and sends the hash in Base64.
-/

namespace ChatRoom

namespace Base64

open Connection (generateWebSocketHandshakeResponse)

/-- The libraries with the accept value that the source computes: `SHA1`
fills its array of 20 bytes. -/
def acceptLibraries (json : JsonCpp) (sha1 : Str → Vector UInt8 20)
    (chars : CharArray3) : Libraries where
  toJsonCpp := json
  acceptKey acceptKey :=
    (base64EncodeRange chars (sha1 acceptKey).toList 20).getD []

/-- The response that the protocol asks for, with the hash as standard Base64
has it. -/
def handshakeResponse (sha1 : Str → Vector UInt8 20) (key : Str) : Str :=
  ascii "HTTP/1.1 101 Switching Protocols\r\n" ++
    ascii "Upgrade: websocket\r\n" ++
    ascii "Connection: Upgrade\r\n" ++
    ascii "Sec-WebSocket-Accept: " ++
    Lib.Base64.encode rfc4648
      (sha1 (key ++ ascii "258EAFA5-E914-47DA-95CA-C5AB0DC85B11")).toList ++
    ascii "\r\n\r\n"

theorem acceptKey_eq (json : JsonCpp) (sha1 : Str → Vector UInt8 20)
    (chars : CharArray3) (text : Str) :
    (acceptLibraries json sha1 chars).acceptKey text =
      Lib.Base64.encode rfc4648 (sha1 text).toList := by
  have whole : (20 : Int32).toInt = (sha1 text).toList.length := by
    rw [Vector.length_toList]
    rfl
  change (base64EncodeRange chars (sha1 text).toList 20).getD [] = _
  rw [base64EncodeRange_eq chars whole, Option.getD_some]

/-- The vector overload gives the standard encoding, which decodes to the
data, has four characters for each three bytes begun and pads the last group
only; the other one gives the same for the pointer and the size; and the
handshake sends the accept value of the protocol. -/
theorem base64_encode_correct (chars : CharArray3) (data : Str)
    (json : JsonCpp) (sha1 : Str → Vector UInt8 20) (key : Str) :
    base64Encode chars data = Lib.Base64.encode rfc4648 data ∧
      Lib.Base64.decode rfc4648 (base64Encode chars data) = some data ∧
      (base64Encode chars data).length = 4 * ((data.length + 2) / 3) ∧
      (∀ position : ℕ,
        (base64Encode chars data)[position]? = some Byte.equals →
          (base64Encode chars data).length ≤ position + 4) ∧
      (∀ (rangeChars : CharArray3) (size : Int32), size.toInt = data.length →
        base64EncodeRange rangeChars data size =
          some (base64Encode chars data)) ∧
      generateWebSocketHandshakeResponse (acceptLibraries json sha1 chars)
        key = handshakeResponse sha1 key := by
  rw [base64Encode_eq]
  refine ⟨rfl, ?_, ?_, ?_, ?_, ?_⟩
  · exact Lib.Base64.decode_encode rfc4648 data
  · exact Lib.Base64.length_encode rfc4648 data
  · intro position isPad
    exact Lib.Base64.length_le_of_pad rfc4648 isPad
  · intro rangeChars size whole
    exact base64EncodeRange_eq rangeChars whole
  · rw [generateWebSocketHandshakeResponse, acceptKey_eq, handshakeResponse]

/-- Five bytes behind a pointer. -/
theorem fooba_by_pointer :
    base64EncodeRange ⟨1, 2, 3⟩ (ascii "fooba") 5 = some (ascii "Zm9vYmE=") := by
  obtain ⟨-, -, -, -, both, -⟩ := base64_encode_correct ⟨7, 7, 7⟩
    (ascii "fooba") ⟨fun _ => none, fun _ => [], fun _ => [], fun _ => []⟩
    (fun _ => Vector.replicate 20 0) []
  rw [both ⟨1, 2, 3⟩ 5 (by decide)]
  decide +kernel

end Base64

end ChatRoom
