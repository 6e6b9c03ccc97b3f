import Eloth.NetworkMessage
import Eloth.Xtea

/-!
# Frames

What is sent of an output message, and what the other side makes of the bytes: the inner length,
padding to whole blocks, encryption, the checksum and the outer length.
-/

namespace Eloth

open LittleEndian NetworkMessage

/-! ## Checksums -/

def adlerSum (data : List UInt8) (a b : UInt32) : UInt32 × UInt32 :=
  data.foldl (fun (a, b) byte => (a + byte.toUInt32, b + (a + byte.toUInt32))) (a, b)

/-- The sums over the data, reduced after every 5552 bytes. -/
def adlerLoop (data : List UInt8) (a b : UInt32) : UInt32 × UInt32 :=
  match data with
  | [] => (a, b)
  | byte :: rest =>
    let (a, b) := adlerSum ((byte :: rest).take 5552) a b
    adlerLoop ((byte :: rest).drop 5552) (a % 65521) (b % 65521)
termination_by data.length
decreasing_by
  simp only [List.length_drop, List.length_cons]
  omega

def adlerChecksum (data : List UInt8) : UInt32 :=
  if data.length > NETWORKMESSAGE_MAXSIZE then 0
  else
    let (a, b) := adlerLoop data 1 0
    (b <<< 16) ||| a

/-! ## Sending -/

structure OutputMessage extends NetworkMessage where
  outputBufferStart : Nat

namespace OutputMessage

def add_header (msg : OutputMessage) (bytes : List UInt8) : OutputMessage :=
  { msg with
    outputBufferStart := msg.outputBufferStart - bytes.length
    buffer := msg.buffer.write (msg.outputBufferStart - bytes.length) bytes
    length := msg.length + bytes.length }

def writeMessageLength (msg : OutputMessage) : OutputMessage :=
  msg.add_header (bytes16 (UInt16.ofNat msg.length))

def addCryptoHeader (msg : OutputMessage) (addChecksum : Bool) : OutputMessage :=
  let msg := if addChecksum then
      msg.add_header (bytes32 (adlerChecksum (msg.buffer.read msg.outputBufferStart msg.length)))
    else msg
  msg.writeMessageLength

def addPaddingBytes (msg : OutputMessage) (n : Nat) : OutputMessage :=
  { msg with toNetworkMessage := msg.toNetworkMessage.addPaddingBytes n }

/-- The message must be a multiple of 8. -/
def pad (msg : OutputMessage) : OutputMessage :=
  let paddingBytes := msg.length % 8
  if paddingBytes ≠ 0 then msg.addPaddingBytes (8 - paddingBytes) else msg

def XTEA_encrypt (msg : OutputMessage) (key : Xtea.RoundKeys) : OutputMessage :=
  let msg := msg.pad
  { msg with buffer := Xtea.encrypt msg.buffer msg.outputBufferStart msg.length key }

/-- The message of an encrypting protocol. -/
def onSendMessage (msg : OutputMessage) (key : Xtea.RoundKeys) (checksumEnabled : Bool) :
    OutputMessage :=
  (msg.writeMessageLength.XTEA_encrypt key).addCryptoHeader checksumEnabled

def sent (msg : OutputMessage) : List UInt8 := msg.buffer.read msg.outputBufferStart msg.length

end OutputMessage

/-! ## Receiving -/

namespace Connection

/-- The length of the body after the header, unless the connection is closed or the header
announces a proxy. -/
def bodySize (receivedFirstHeader : Bool) (size : Nat) : Option Nat :=
  if !receivedFirstHeader && (size == 0xFFFE || size == 0x0A0D) then none
  else if size = 0 ∨ size ≥ NETWORKMESSAGE_MAXSIZE - 16 then none
  else some size

/-- The two reads of `accept` and `parseHeader` from the stream of incoming bytes. -/
def parseHeader (receivedFirstHeader : Bool) (msg : NetworkMessage) (bytes : List UInt8) :
    Option NetworkMessage := do
  if bytes.length < HEADER_LENGTH then none
  let msg := { msg with buffer := msg.buffer.write 0 (bytes.take HEADER_LENGTH) }
  let size ← bodySize receivedFirstHeader msg.getLengthHeader.toNat
  if bytes.length < HEADER_LENGTH + size then none
  some { msg with
    length := size + HEADER_LENGTH
    position := 2
    buffer := msg.buffer.write 2 ((bytes.drop HEADER_LENGTH).take size) }

def parsePacket (msg : NetworkMessage) : NetworkMessage :=
  let len : Int := msg.length - msg.position - CHECKSUM_LENGTH
  let checksum := if len > 0 then
      adlerChecksum (msg.buffer.read (msg.position + CHECKSUM_LENGTH) len.toNat)
    else 0
  let (recvChecksum, msg) := msg.getUInt32
  if recvChecksum ≠ checksum then msg.skipBytes (-CHECKSUM_LENGTH) else msg

end Connection

def NetworkMessage.XTEA_decrypt (msg : NetworkMessage) (key : Xtea.RoundKeys) :
    Option NetworkMessage :=
  if ((msg.length : Int) - 6) % 8 ≠ 0 then none
  else
    let msg := { msg with
      buffer := Xtea.decrypt msg.buffer msg.position (msg.length - 6) key }
    let (innerLength, msg) := msg.getUInt16
    if innerLength.toNat + 8 > msg.length then none
    else some { msg with length := innerLength.toNat }

/-- A frame on its way through an encrypting connection that has received its first packet. -/
def Connection.receive (receivedFirstHeader : Bool) (key : Xtea.RoundKeys) (msg : NetworkMessage)
    (bytes : List UInt8) : Option NetworkMessage := do
  let msg ← parseHeader receivedFirstHeader msg bytes
  (parsePacket msg).XTEA_decrypt key

/-! ## A frame and what arrives of it -/

/-- The bytes that the writing functions of a message can put into it. -/
structure FrameBody where
  bytes : List UInt8
  fits : INITIAL_BUFFER_POSITION + bytes.length < MAX_BODY_LENGTH

/-- The message with this body, before it is sent. -/
def OutputMessage.queued (body : FrameBody) (stale : Buffer) : OutputMessage where
  toNetworkMessage := (NetworkMessage.new stale).putBytes body.bytes
  outputBufferStart := INITIAL_BUFFER_POSITION

/-- The reader finds the body, and only the body, at its position. -/
structure Delivered (body : FrameBody) (before msg : NetworkMessage) : Prop where
  length : msg.length = body.bytes.length
  position : msg.position = INITIAL_BUFFER_POSITION
  overrun : msg.overrun = before.overrun
  bytes : msg.buffer.read msg.position msg.length = body.bytes

/-- What is known of an encrypted frame with `N` encrypted bytes, whose plain text is in `plain`
from position 6 on. -/
structure Framed (key : Xtea.RoundKeys) (plain : Buffer) (N : Nat) (msg : OutputMessage) : Prop where
  start : msg.outputBufferStart = 0
  length : msg.length = N + 6
  encrypted : ∀ p, 6 ≤ p → msg.buffer p = Xtea.encrypt plain 6 N key p
  checksum : msg.buffer.word32 2 = adlerChecksum ((Xtea.encrypt plain 6 N key).read 6 N)
  header : msg.buffer.word16 0 = UInt16.ofNat (N + 4)

variable {key : Xtea.RoundKeys} {body : FrameBody} {stale plain : Buffer} {N : Nat}
  {before msg : NetworkMessage} {first : Bool}

theorem framed_addCryptoHeader {out : OutputMessage} (hstart : out.outputBufferStart = 6)
    (hlength : out.length = N) (hbuffer : out.buffer = Xtea.encrypt plain 6 N key) :
    Framed key plain N (out.addCryptoHeader true) := by
  have h32 : ∀ v : UInt32, (bytes32 v).length = 4 := fun _ => rfl
  have h16 : ∀ v : UInt16, (bytes16 v).length = 2 := fun _ => rfl
  simp only [OutputMessage.addCryptoHeader, OutputMessage.writeMessageLength,
    OutputMessage.add_header, if_true, h32, h16, hstart, hlength, hbuffer, Nat.reduceSub]
  refine ⟨rfl, rfl, fun p hp => ?_, ?_, ?_⟩
  · dsimp only
    rw [Buffer.write_of_ge (by rw [h16]; omega), Buffer.write_of_ge (by rw [h32]; omega)]
  · dsimp only
    rw [Buffer.word32_write_of_ge (by rw [h16]), Buffer.word32_write]
  · dsimp only
    rw [Buffer.word16_write]

theorem pad_spec {out : OutputMessage} {L : Nat} (hlength : out.length = L + 2)
    (hposition : out.position = 8 + L) (hfits : 8 + L < MAX_BODY_LENGTH) :
    out.pad.outputBufferStart = out.outputBufferStart ∧
      (∀ p, p < 8 + L → out.pad.buffer p = out.buffer p) ∧
      L + 2 ≤ out.pad.length ∧
      (if L = 24567 then out.pad.length = 24569 else out.pad.length ≤ 24568 ∧ 8 ∣ out.pad.length) := by
  have hmax : MAX_BODY_LENGTH = 24576 := rfl
  unfold OutputMessage.pad OutputMessage.addPaddingBytes NetworkMessage.addPaddingBytes canAdd
  simp only [hlength, hposition]
  by_cases hpad : (L + 2) % 8 ≠ 0
  · rw [if_pos hpad]
    by_cases hroom : 8 - (L + 2) % 8 + (8 + L) < MAX_BODY_LENGTH
    · simp only [hroom, decide_true, Bool.not_true, Bool.false_eq_true, if_false]
      refine ⟨trivial, fun p hp => Buffer.write_of_lt hp, by omega, ?_⟩
      split_ifs <;> omega
    · simp only [hroom, decide_false, Bool.not_false, if_true, hlength]
      refine ⟨trivial, fun _ _ => trivial, by omega, ?_⟩
      split_ifs <;> omega
  · rw [if_neg hpad]
    refine ⟨rfl, fun _ _ => rfl, by omega, ?_⟩
    split_ifs <;> omega

theorem framed_onSendMessage (body : FrameBody) (stale : Buffer) (key : Xtea.RoundKeys) :
    ∃ plain N, Framed key plain N ((OutputMessage.queued body stale).onSendMessage key true) ∧
      body.bytes.length + 2 ≤ N ∧
      (if body.bytes.length = 24567 then N = 24569 else N ≤ 24568 ∧ 8 ∣ N) ∧
      plain.word16 6 = UInt16.ofNat body.bytes.length ∧
      plain.read 8 body.bytes.length = body.bytes := by
  have h16 : ∀ v : UInt16, (bytes16 v).length = 2 := fun _ => rfl
  set out := (OutputMessage.queued body stale).writeMessageLength with hout
  have hlength : out.length = body.bytes.length + 2 := by
    simp [hout, OutputMessage.writeMessageLength, OutputMessage.add_header, OutputMessage.queued,
      NetworkMessage.putBytes, NetworkMessage.new, h16]
  have hposition : out.position = 8 + body.bytes.length := by
    simp [hout, OutputMessage.writeMessageLength, OutputMessage.add_header, OutputMessage.queued,
      NetworkMessage.putBytes, NetworkMessage.new]
  have hstart : out.outputBufferStart = 6 := by
    simp only [hout, OutputMessage.writeMessageLength, OutputMessage.add_header,
      OutputMessage.queued, h16]
    rfl
  have hbuffer : out.buffer =
      (stale.write 8 body.bytes).write 6 (bytes16 (UInt16.ofNat body.bytes.length)) := by
    simp only [hout, OutputMessage.writeMessageLength, OutputMessage.add_header,
      OutputMessage.queued, NetworkMessage.putBytes, NetworkMessage.new, h16, Nat.zero_add]
    rfl
  obtain ⟨hpadstart, hsame, hle, hpadded⟩ := pad_spec hlength hposition body.fits
  refine ⟨out.pad.buffer, out.pad.length, framed_addCryptoHeader (hpadstart.trans hstart) rfl ?_,
    hle, hpadded, ?_, ?_⟩
  · change Xtea.encrypt out.pad.buffer out.pad.outputBufferStart out.pad.length key = _
    rw [hpadstart, hstart]
  · rw [Buffer.word16_congr fun p _ hp => hsame p (by omega), hbuffer, Buffer.word16_write]
  · rw [Buffer.read_congr fun p _ hp => hsame p hp, hbuffer,
      Buffer.read_write_of_ge (by rw [h16]), Buffer.read_write]

theorem parseHeader_sent {out : OutputMessage} (h : Framed key plain N out)
    (hle : N + 4 < 24574)
    (hproxy : N + 4 ≠ 0x0A0D) (first : Bool) (before : NetworkMessage) :
    ∃ msg, Connection.parseHeader first before out.sent = some msg ∧ msg.length = N + 6 ∧
      msg.position = 2 ∧ msg.overrun = before.overrun ∧ ∀ p, p < N + 6 → msg.buffer p = out.buffer p := by
  have hmax : NETWORKMESSAGE_MAXSIZE = 24590 := rfl
  have hheader : HEADER_LENGTH = 2 := rfl
  have hsent : out.sent = out.buffer.read 0 (2 + (N + 4)) := by
    rw [OutputMessage.sent, h.start, h.length]
    congr 1
    omega
  have hhead : out.sent.take HEADER_LENGTH = out.buffer.read 0 2 := by
    rw [hsent, Buffer.read_add, List.take_left' Buffer.length_read]
  have hbody : (out.sent.drop HEADER_LENGTH).take (N + 4) = out.buffer.read 2 (N + 4) := by
    rw [hsent, Buffer.read_add, List.drop_left' Buffer.length_read,
      List.take_of_length_le (by rw [Buffer.length_read])]
  have hsize : (before.buffer.write 0 (out.buffer.read 0 2)).word16 0 = UInt16.ofNat (N + 4) := by
    rw [← h.header]
    exact Buffer.word16_congr fun p hp hlt => Buffer.write_read hp hlt
  have hnat : (UInt16.ofNat (N + 4)).toNat = N + 4 := by
    rw [UInt16.toNat_ofNat', Nat.mod_eq_of_lt (by omega)]
  have hbodySize : Connection.bodySize first (N + 4) = some (N + 4) := by
    unfold Connection.bodySize
    rw [if_neg (by simp; omega), if_neg (by omega)]
  refine ⟨{ before with
    length := N + 4 + 2
    position := 2
    buffer := (before.buffer.write 0 (out.buffer.read 0 2)).write 2 (out.buffer.read 2 (N + 4)) },
    ?_, rfl, rfl, rfl, fun p hp => ?_⟩
  · have hlength : out.sent.length = 2 + (N + 4) := by rw [hsent, Buffer.length_read]
    unfold Connection.parseHeader
    rw [if_neg (by rw [hlength]; omega)]
    simp only [hhead, NetworkMessage.getLengthHeader, hsize, hnat, hbodySize, Option.bind_eq_bind,
      Option.bind_some, hbody]
    rw [if_neg (by rw [hlength]; omega)]
  · by_cases hsmall : p < 2
    · exact (Buffer.write_of_lt hsmall).trans (Buffer.write_read (Nat.zero_le p) (by omega))
    · exact Buffer.write_read (by omega) (by omega)

theorem parsePacket_sent {out : OutputMessage} (h : Framed key plain N out) (hpos : 0 < N)
    (hle : N ≤ 24569) (hlength : msg.length = N + 6) (hposition : msg.position = 2)
    (hbuffer : ∀ p, p < N + 6 → msg.buffer p = out.buffer p) :
    Connection.parsePacket msg = { msg with position := 6 } := by
  have hread : msg.canRead 4 = true := canRead_of_le (by omega) (by omega)
  have hlen : (msg.length : Int) - msg.position - CHECKSUM_LENGTH = N := by
    rw [hlength, hposition, show CHECKSUM_LENGTH = 4 from rfl]
    omega
  have hbytes : msg.buffer.read 6 N = (Xtea.encrypt plain 6 N key).read 6 N :=
    Buffer.read_congr fun p hp hlt => (hbuffer p (by omega)).trans (h.encrypted p hp)
  have hchecksum : msg.buffer.word32 2 = adlerChecksum (msg.buffer.read 6 N) := by
    rw [hbytes, ← h.checksum]
    exact Buffer.word32_congr fun p _ hlt => hbuffer p (by omega)
  have hpositive : (N : Int) > 0 := by omega
  unfold Connection.parsePacket
  simp only [hlen, hpositive, if_true, getUInt32, hread]
  simp only [hposition, Nat.reduceAdd, Int.toNat_natCast]
  exact if_neg (not_not.mpr hchecksum)

theorem xtea_decrypt_sent (msg : NetworkMessage) {out : OutputMessage} (h : Framed key plain N out)
    (h8 : 8 ∣ N)
    (hle : N ≤ 24568) (hfits : body.bytes.length + 2 ≤ N)
    (hinner : plain.word16 6 = UInt16.ofNat body.bytes.length)
    (hplain : plain.read 8 body.bytes.length = body.bytes)
    (hlength : msg.length = N + 6) (hposition : msg.position = 6)
    (hbuffer : ∀ p, p < N + 6 → msg.buffer p = out.buffer p) :
    ∃ msg', msg.XTEA_decrypt key = some msg' ∧ Delivered body msg msg' := by
  have hdecrypt : ∀ p, 6 ≤ p → p < 6 + N → Xtea.decrypt msg.buffer 6 N key p = plain p :=
    fun p hp hlt => Xtea.decrypt_of_agree h8
      (fun q hq hqlt => (hbuffer q (by omega)).trans (h.encrypted q hq)) hp hlt
  have hword : (Xtea.decrypt msg.buffer 6 N key).word16 6 = UInt16.ofNat body.bytes.length := by
    rw [← hinner]
    exact Buffer.word16_congr fun p hp hlt => hdecrypt p hp (by omega)
  have hnat : (UInt16.ofNat body.bytes.length).toNat = body.bytes.length := by
    rw [UInt16.toNat_ofNat', Nat.mod_eq_of_lt (by omega)]
  refine ⟨{ msg with
    length := body.bytes.length
    position := 8
    buffer := Xtea.decrypt msg.buffer 6 N key }, ?_, rfl, rfl, rfl, ?_⟩
  · have hread : NetworkMessage.canRead { msg with
        buffer := Xtea.decrypt msg.buffer 6 N key } 2 = true :=
      canRead_of_le (by rw [hposition, hlength]; omega) (by rw [hposition]; omega)
    unfold NetworkMessage.XTEA_decrypt
    rw [if_neg (by rw [hlength]; omega)]
    simp only [hposition, hlength, Nat.add_sub_cancel] at hread ⊢
    simp only [getUInt16, hread, if_true, hword, hnat]
    rw [if_neg (by omega)]
  · refine (Buffer.read_congr fun p hp hlt => ?_).trans hplain
    dsimp only at hp hlt
    exact hdecrypt p (by omega) (by omega)

theorem receive_sent_of_longest (k : Xtea.Key) (body : FrameBody) (stale : Buffer) (first : Bool)
    (before : NetworkMessage) (hL : body.bytes.length = 24567) :
    Connection.receive first (Xtea.expand_key k) before
      ((OutputMessage.queued body stale).onSendMessage (Xtea.expand_key k) true).sent = none := by
  obtain ⟨plain, N, hframed, -, hN, -, -⟩ := framed_onSendMessage body stale (Xtea.expand_key k)
  rw [if_pos hL] at hN
  subst hN
  obtain ⟨msg, hheader, hlength, hposition, -, hbuffer⟩ :=
    parseHeader_sent hframed (by decide) (by decide) first before
  unfold Connection.receive
  rw [hheader, Option.bind_eq_bind, Option.bind_some,
    parsePacket_sent hframed (by decide) (by decide) hlength hposition hbuffer]
  unfold NetworkMessage.XTEA_decrypt
  rw [if_pos (by simp [hlength])]

theorem receive_sent_of_ne (k : Xtea.Key) (body : FrameBody) (stale : Buffer) (first : Bool)
    (before : NetworkMessage) (hL : body.bytes.length ≠ 24567) :
    ∃ msg, Connection.receive first (Xtea.expand_key k) before
        ((OutputMessage.queued body stale).onSendMessage (Xtea.expand_key k) true).sent = some msg ∧
      Delivered body before msg := by
  obtain ⟨plain, N, hframed, hle, hN, hinner, hplain⟩ :=
    framed_onSendMessage body stale (Xtea.expand_key k)
  rw [if_neg hL] at hN
  obtain ⟨msg, hheader, hlength, hposition, hoverrun, hbuffer⟩ :=
    parseHeader_sent hframed (by omega) (by omega) first before
  obtain ⟨msg', hdecrypt, hdelivered⟩ := xtea_decrypt_sent { msg with position := 6 } hframed
    hN.2 hN.1 hle hinner hplain hlength rfl hbuffer
  refine ⟨msg', ?_, ⟨hdelivered.length, hdelivered.position, ?_, hdelivered.bytes⟩⟩
  · unfold Connection.receive
    rw [hheader, Option.bind_eq_bind, Option.bind_some,
      parsePacket_sent hframed (by omega) (by omega) hlength hposition hbuffer]
    exact hdecrypt
  · exact hdelivered.overrun.trans hoverrun

/-- A frame arrives as it was queued exactly when its body has not the largest length. -/
theorem receive_sent_iff (k : Xtea.Key) (body : FrameBody) (stale : Buffer) (first : Bool)
    (before : NetworkMessage) :
    (∃ msg, Connection.receive first (Xtea.expand_key k) before
        ((OutputMessage.queued body stale).onSendMessage (Xtea.expand_key k) true).sent = some msg ∧
      Delivered body before msg) ↔ body.bytes.length ≠ 24567 := by
  refine ⟨?_, receive_sent_of_ne k body stale first before⟩
  rintro ⟨msg, hreceive, -⟩ hL
  rw [receive_sent_of_longest k body stale first before hL] at hreceive
  cases hreceive

def longestBody : FrameBody where
  bytes := List.replicate 24567 0
  fits := by
    rw [List.length_replicate]
    decide

theorem receive_sent_longestBody :
    ¬ ∀ (k : Xtea.Key) (body : FrameBody) (stale : Buffer) (first : Bool) (before : NetworkMessage),
      ∃ msg, Connection.receive first (Xtea.expand_key k) before
          ((OutputMessage.queued body stale).onSendMessage (Xtea.expand_key k) true).sent =
            some msg ∧
        Delivered body before msg := by
  intro h
  obtain ⟨msg, hreceive, -⟩ :=
    h (fun _ => 0) longestBody (fun _ => 0) true (NetworkMessage.new fun _ => 0)
  rw [receive_sent_of_longest _ longestBody _ _ _ List.length_replicate] at hreceive
  cases hreceive

end Eloth
