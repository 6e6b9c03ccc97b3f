import Eloth.Lib.Buffer

/-!
# Network messages

A message is written into and read from a buffer of fixed size. The first eight bytes are kept
for the headers, and a write that would exceed the largest body is dropped.
-/

namespace Eloth

open LittleEndian

abbrev NETWORKMESSAGE_MAXSIZE : Nat := 24590

namespace NetworkMessage

abbrev INITIAL_BUFFER_POSITION : Nat := 8
abbrev HEADER_LENGTH : Nat := 2
abbrev CHECKSUM_LENGTH : Nat := 4
abbrev XTEA_MULTIPLE : Nat := 8
abbrev MAX_BODY_LENGTH : Nat :=
  NETWORKMESSAGE_MAXSIZE - HEADER_LENGTH - CHECKSUM_LENGTH - XTEA_MULTIPLE

end NetworkMessage

structure NetworkMessage where
  length : Nat
  position : Nat
  overrun : Bool
  buffer : Buffer

namespace NetworkMessage

def new (buffer : Buffer) : NetworkMessage where
  length := 0
  position := INITIAL_BUFFER_POSITION
  overrun := false
  buffer := buffer

/-! ## Writing -/

def canAdd (msg : NetworkMessage) (size : Nat) : Bool := size + msg.position < MAX_BODY_LENGTH

def putBytes (msg : NetworkMessage) (bytes : List UInt8) : NetworkMessage :=
  { msg with
    buffer := msg.buffer.write msg.position bytes
    position := msg.position + bytes.length
    length := msg.length + bytes.length }

def add (msg : NetworkMessage) (bytes : List UInt8) : NetworkMessage :=
  if msg.canAdd bytes.length then msg.putBytes bytes else msg

def addByte (msg : NetworkMessage) (value : UInt8) : NetworkMessage := msg.add [value]

def addUInt16 (msg : NetworkMessage) (value : UInt16) : NetworkMessage := msg.add (bytes16 value)

def addUInt32 (msg : NetworkMessage) (value : UInt32) : NetworkMessage := msg.add (bytes32 value)

def addString (msg : NetworkMessage) (value : List UInt8) : NetworkMessage :=
  if !msg.canAdd (value.length + 2) || value.length > 8192 then msg
  else (msg.addUInt16 (UInt16.ofNat value.length)).putBytes value

/-- The write position stays where it was. -/
def addPaddingBytes (msg : NetworkMessage) (n : Nat) : NetworkMessage :=
  if !msg.canAdd n then msg
  else { msg with
    buffer := msg.buffer.write msg.position (List.replicate n 0x33)
    length := msg.length + n }

/-! ## Reading -/

def body (msg : NetworkMessage) : List UInt8 :=
  msg.buffer.read INITIAL_BUFFER_POSITION (msg.position - INITIAL_BUFFER_POSITION)

def canRead (msg : NetworkMessage) (size : Nat) : Bool :=
  !(msg.position + size > msg.length + 8 || size ≥ NETWORKMESSAGE_MAXSIZE - msg.position)

theorem canRead_of_le {msg : NetworkMessage} {size : Nat}
    (h : msg.position + size ≤ msg.length + 8) (hmax : msg.position + size < 24590) :
    msg.canRead size = true := by
  have hsize : NETWORKMESSAGE_MAXSIZE = 24590 := rfl
  simp only [canRead, Bool.not_eq_true', Bool.or_eq_false_iff, decide_eq_false_iff_not]
  omega

def getUInt16 (msg : NetworkMessage) : UInt16 × NetworkMessage :=
  if msg.canRead 2 then (msg.buffer.word16 msg.position, { msg with position := msg.position + 2 })
  else (0, { msg with overrun := true })

def getUInt32 (msg : NetworkMessage) : UInt32 × NetworkMessage :=
  if msg.canRead 4 then (msg.buffer.word32 msg.position, { msg with position := msg.position + 4 })
  else (0, { msg with overrun := true })

/-- The position is a 16-bit number. -/
def skipBytes (msg : NetworkMessage) (count : Int) : NetworkMessage :=
  { msg with position := (((msg.position : Int) + count) % 65536).toNat }

def getLengthHeader (msg : NetworkMessage) : UInt16 := msg.buffer.word16 0

/-! ## The body while it is written -/

variable {msg : NetworkMessage} {bytes : List UInt8}

theorem body_putBytes (h : INITIAL_BUFFER_POSITION ≤ msg.position) :
    (msg.putBytes bytes).body = msg.body ++ bytes := by
  obtain ⟨n, hn⟩ := Nat.exists_eq_add_of_le h
  simp only [body, putBytes, hn, Nat.add_assoc, Nat.add_sub_cancel_left]
  rw [Buffer.read_add, Buffer.read_write_of_lt (Nat.le_refl _), Buffer.read_write]

@[simp] theorem position_putBytes : (msg.putBytes bytes).position = msg.position + bytes.length :=
  rfl

theorem add_of_fits (h : msg.position + bytes.length < MAX_BODY_LENGTH) :
    msg.add bytes = msg.putBytes bytes :=
  if_pos (by simpa [canAdd, Nat.add_comm] using h)

/-- The bytes have been written after those of the earlier message. -/
structure Appends (msg : NetworkMessage) (bytes : List UInt8) (msg' : NetworkMessage) : Prop where
  body : msg'.body = msg.body ++ bytes
  position : msg'.position = msg.position + bytes.length

theorem Appends.refl (msg : NetworkMessage) : Appends msg [] msg := ⟨by simp, rfl⟩

theorem Appends.trans {msg₁ msg₂ msg₃ : NetworkMessage} {bytes bytes' : List UInt8}
    (h : Appends msg₁ bytes msg₂) (h' : Appends msg₂ bytes' msg₃) :
    Appends msg₁ (bytes ++ bytes') msg₃ :=
  ⟨by rw [h'.body, h.body, List.append_assoc],
    by rw [h'.position, h.position, List.length_append, Nat.add_assoc]⟩

theorem appends_add (h : INITIAL_BUFFER_POSITION ≤ msg.position)
    (hfits : msg.position + bytes.length < MAX_BODY_LENGTH) : Appends msg bytes (msg.add bytes) := by
  rw [add_of_fits hfits]
  exact ⟨body_putBytes h, rfl⟩

theorem appends_foldl_add {writes : List (List UInt8)}
    (h : INITIAL_BUFFER_POSITION ≤ msg.position)
    (hfits : msg.position + writes.flatten.length < MAX_BODY_LENGTH) :
    Appends msg writes.flatten (writes.foldl add msg) := by
  induction writes generalizing msg with
  | nil => exact .refl msg
  | cons bytes writes ih =>
    rw [List.flatten_cons, List.length_append] at hfits
    have hbytes : Appends msg bytes (msg.add bytes) := appends_add h (by omega)
    have hposition := hbytes.position
    exact hbytes.trans (ih (by omega) (by omega))

theorem position_add_lt (h : msg.position < MAX_BODY_LENGTH) :
    (msg.add bytes).position < MAX_BODY_LENGTH := by
  unfold add canAdd
  split_ifs with hfits
  · rw [decide_eq_true_eq] at hfits
    rw [position_putBytes]
    omega
  · exact h

theorem position_foldl_add_lt {writes : List (List UInt8)} (h : msg.position < MAX_BODY_LENGTH) :
    (writes.foldl add msg).position < MAX_BODY_LENGTH := by
  induction writes generalizing msg with
  | nil => exact h
  | cons bytes writes ih => exact ih (position_add_lt h)

end NetworkMessage

end Eloth
