import Eloth.Frame
import Eloth.Map

/-!
# Reads of a received frame

The functions that the parsers of a protocol read a message with. A read that does not fit into
the accepted length gives zero and sets the overrun flag, and none reaches the end of the frame,
however the peer chooses the lengths.
-/

namespace Eloth

open LittleEndian

namespace NetworkMessage

/-! ## Reading -/

def getByte (msg : NetworkMessage) : UInt8 × NetworkMessage :=
  if msg.canRead 1 then (msg.buffer msg.position, { msg with position := msg.position + 1 })
  else (0, { msg with overrun := true })

/-- The bytes of a number of `size` bytes. -/
def get (msg : NetworkMessage) (size : Nat) : List UInt8 × NetworkMessage :=
  if msg.canRead size then
    (msg.buffer.read msg.position size, { msg with position := msg.position + size })
  else (List.replicate size 0, { msg with overrun := true })

def getString (msg : NetworkMessage) (stringLen : UInt16) : List UInt8 × NetworkMessage :=
  let (stringLen, msg) := if stringLen = 0 then msg.getUInt16 else (stringLen, msg)
  if msg.canRead stringLen.toNat then
    (msg.buffer.read msg.position stringLen.toNat,
      { msg with position := msg.position + stringLen.toNat })
  else ([], { msg with overrun := true })

def getPosition (msg : NetworkMessage) : MapPosition × NetworkMessage :=
  let (x, msg) := msg.getUInt16
  let (y, msg) := msg.getUInt16
  let (z, msg) := msg.getByte
  ({ x := x, y := y, z := z }, msg)

inductive Read where
  | getByte
  | get (size : Nat)
  | getString (stringLen : UInt16)
  | getPosition

inductive ReadValue where
  | byte (value : UInt8)
  | number (bytes : List UInt8)
  | string (bytes : List UInt8)
  | position (pos : MapPosition)

def read (msg : NetworkMessage) : Read → ReadValue × NetworkMessage
  | .getByte => (.byte msg.getByte.1, msg.getByte.2)
  | .get size => (.number (msg.get size).1, (msg.get size).2)
  | .getString stringLen => (.string (msg.getString stringLen).1, (msg.getString stringLen).2)
  | .getPosition => (.position msg.getPosition.1, msg.getPosition.2)

def reads (msg : NetworkMessage) : List Read → List ReadValue × NetworkMessage
  | [] => ([], msg)
  | r :: rs =>
    let (value, msg) := msg.read r
    let (values, msg) := msg.reads rs
    (value :: values, msg)

/-- The read asks for bytes from `limit` on. -/
def Exceeds (limit : Nat) (msg : NetworkMessage) : Read → Prop
  | .getByte => limit < msg.position + 1
  | .get size => limit < msg.position + size
  | .getString stringLen =>
    limit < msg.position +
      if stringLen = 0 then 2 + (msg.buffer.word16 msg.position).toNat else stringLen.toNat
  | .getPosition => limit < msg.position + 5

/-- What is missing from `limit` on is zero. The numbers of a position are read one by one, each
after the last one that could be read. -/
def ReadValue.ZeroFrom (limit position : Nat) : ReadValue → Prop
  | .byte value => value = 0
  | .number bytes => ∀ byte ∈ bytes, byte = 0
  | .string bytes => bytes = []
  | .position pos =>
    (limit < position + 2 → pos.x = 0) ∧ (limit < position + 4 → pos.y = 0) ∧
      (2 ∣ limit - position → pos.z = 0)

/-! ## Access to the buffer -/

/-- All that a message shows to a reader who stays below `stop`. -/
structure AgreesBelow (stop : Nat) (msg other : NetworkMessage) : Prop where
  length : other.length = msg.length
  position : other.position = msg.position
  overrun : other.overrun = msg.overrun
  buffer : ∀ p, p < stop → other.buffer p = msg.buffer p

/-- The accepted length and the headers end before `stop`, and so does what was read. -/
structure Within (stop : Nat) (msg : NetworkMessage) : Prop where
  position : msg.position ≤ msg.length + INITIAL_BUFFER_POSITION
  length : msg.length + INITIAL_BUFFER_POSITION ≤ stop

/-- A read keeps to the bytes below `stop`, for every message within. -/
structure KeepsBelow {α : Type} (f : NetworkMessage → α × NetworkMessage) : Prop where
  length : ∀ msg, (f msg).2.length = msg.length
  overrun : ∀ msg, msg.overrun = true → (f msg).2.overrun = true
  within : ∀ {stop msg}, Within stop msg → Within stop (f msg).2
  agrees : ∀ {stop msg other}, Within stop msg → AgreesBelow stop msg other →
    (f other).1 = (f msg).1 ∧ AgreesBelow stop (f msg).2 (f other).2

variable {stop size : Nat} {msg other : NetworkMessage}

theorem AgreesBelow.canRead (h : AgreesBelow stop msg other) (size : Nat) :
    other.canRead size = msg.canRead size := by
  unfold NetworkMessage.canRead
  rw [h.length, h.position]

theorem le_of_canRead (h : msg.canRead size = true) :
    msg.position + size ≤ msg.length + INITIAL_BUFFER_POSITION := by
  simp only [canRead, Bool.not_eq_true', Bool.or_eq_false_iff, decide_eq_false_iff_not] at h
  exact Nat.not_lt.mp h.1

theorem canRead_of_exceeds (h : msg.length + INITIAL_BUFFER_POSITION < msg.position + size) :
    msg.canRead size = false := by
  by_contra hread
  exact absurd (le_of_canRead (Bool.not_eq_false _ ▸ hread)) (Nat.not_le.mpr h)

/-- A read of `size` bytes behind `canRead`. -/
theorem keepsBelow_guarded (size : Nat) {α : Type} {f : NetworkMessage → α × NetworkMessage}
    (value : Buffer → Nat → α) (zero : α)
    (hf : ∀ msg, f msg = if msg.canRead size then
        (value msg.buffer msg.position, { msg with position := msg.position + size })
      else (zero, { msg with overrun := true }))
    (hvalue : ∀ {buffer buffer' : Buffer} {p : Nat},
      (∀ q, p ≤ q → q < p + size → buffer q = buffer' q) → value buffer p = value buffer' p) :
    KeepsBelow f where
  length := by
    intro msg
    rw [hf]
    split_ifs <;> rfl
  overrun := by
    intro msg h
    rw [hf]
    split_ifs
    · exact h
    · rfl
  within := by
    intro stop msg h
    rw [hf]
    split_ifs with hread
    · exact ⟨le_of_canRead hread, h.length⟩
    · exact ⟨h.position, h.length⟩
  agrees := by
    intro stop msg other h hagree
    rw [hf, hf, hagree.canRead]
    split_ifs with hread
    · have hle := (le_of_canRead hread).trans h.length
      refine ⟨?_, hagree.length, ?_, hagree.overrun, hagree.buffer⟩
      · rw [hagree.position]
        exact hvalue fun q _ hq => hagree.buffer q (hq.trans_le hle)
      · exact congrArg (· + size) hagree.position
    · exact ⟨rfl, hagree.length, hagree.position, rfl, hagree.buffer⟩

theorem keepsBelow_pure {α : Type} (a : α) : KeepsBelow fun msg => (a, msg) where
  length := fun _ => rfl
  overrun := fun _ h => h
  within := fun h => h
  agrees := fun _ hagree => ⟨rfl, hagree⟩

/-- One read after the other, where the second may depend on what the first has found. -/
theorem KeepsBelow.bind {α β : Type} {f : NetworkMessage → α × NetworkMessage}
    {g : α → NetworkMessage → β × NetworkMessage} (hf : KeepsBelow f)
    (hg : ∀ a, KeepsBelow (g a)) : KeepsBelow fun msg => g (f msg).1 (f msg).2 where
  length := fun msg => ((hg _).length _).trans (hf.length msg)
  overrun := fun msg h => (hg _).overrun _ (hf.overrun msg h)
  within := fun h => (hg _).within (hf.within h)
  agrees := by
    intro stop msg other h hagree
    obtain ⟨hvalue, hafter⟩ := hf.agrees h hagree
    rw [hvalue]
    exact (hg _).agrees (hf.within h) hafter

theorem KeepsBelow.map {α β : Type} {f : NetworkMessage → α × NetworkMessage} (g : α → β)
    (hf : KeepsBelow f) : KeepsBelow fun msg => (g (f msg).1, (f msg).2) :=
  hf.bind fun a => keepsBelow_pure (g a)

/-! ## The functions of a message -/

theorem keepsBelow_getByte : KeepsBelow getByte :=
  keepsBelow_guarded 1 (fun buffer p => buffer p) 0 (fun _ => rfl)
    fun h => h _ le_rfl (Nat.lt_succ_self _)

theorem keepsBelow_get (size : Nat) : KeepsBelow fun msg => msg.get size :=
  keepsBelow_guarded size (fun buffer p => buffer.read p size) (List.replicate size 0) (fun _ => rfl)
    fun h => Buffer.read_congr h

theorem keepsBelow_getUInt16 : KeepsBelow getUInt16 :=
  keepsBelow_guarded 2 (fun buffer p => buffer.word16 p) 0 (fun _ => rfl)
    fun h => Buffer.word16_congr h

/-- The part of `getString` after its length is known. -/
theorem keepsBelow_bytes (size : Nat) : KeepsBelow fun msg : NetworkMessage =>
    if msg.canRead size then
      (msg.buffer.read msg.position size, { msg with position := msg.position + size })
    else ([], { msg with overrun := true }) :=
  keepsBelow_guarded size (fun buffer p => buffer.read p size) [] (fun _ => rfl)
    fun h => Buffer.read_congr h

theorem keepsBelow_getString (stringLen : UInt16) :
    KeepsBelow fun msg => msg.getString stringLen := by
  unfold getString
  by_cases hzero : stringLen = 0
  · simp only [if_pos hzero]
    exact keepsBelow_getUInt16.bind fun len => keepsBelow_bytes len.toNat
  · simp only [if_neg hzero]
    exact keepsBelow_bytes stringLen.toNat

theorem keepsBelow_getPosition : KeepsBelow getPosition :=
  keepsBelow_getUInt16.bind fun x => keepsBelow_getUInt16.bind fun y =>
    keepsBelow_getByte.map fun z => MapPosition.mk x y z

theorem keepsBelow_read (r : Read) : KeepsBelow fun msg => msg.read r := by
  cases r with
  | getByte => exact keepsBelow_getByte.map ReadValue.byte
  | get size => exact (keepsBelow_get size).map ReadValue.number
  | getString stringLen => exact (keepsBelow_getString stringLen).map ReadValue.string
  | getPosition => exact keepsBelow_getPosition.map ReadValue.position

theorem keepsBelow_reads (rs : List Read) : KeepsBelow fun msg => msg.reads rs := by
  induction rs with
  | nil => exact keepsBelow_pure []
  | cons r rs ih => exact (keepsBelow_read r).bind fun value => ih.map (value :: ·)

/-! ## Reads that do not fit -/

theorem getUInt16_of_exceeds (h : msg.length + INITIAL_BUFFER_POSITION < msg.position + 2) :
    msg.getUInt16 = (0, { msg with overrun := true }) := by
  rw [getUInt16, canRead_of_exceeds h]
  rfl

theorem getUInt16_of_le (h : msg.position + 2 ≤ msg.length + INITIAL_BUFFER_POSITION)
    (hmax : msg.position + 2 < 24590) :
    msg.getUInt16 =
      (msg.buffer.word16 msg.position, { msg with position := msg.position + 2 }) := by
  rw [getUInt16, canRead_of_le h hmax]
  rfl

theorem getByte_of_exceeds (h : msg.length + INITIAL_BUFFER_POSITION < msg.position + 1) :
    msg.getByte = (0, { msg with overrun := true }) := by
  rw [getByte, canRead_of_exceeds h]
  rfl

theorem getString_of_exceeds {stringLen : UInt16}
    (h : Exceeds (msg.length + INITIAL_BUFFER_POSITION) msg (.getString stringLen)) :
    (msg.getString stringLen).1 = [] ∧ (msg.getString stringLen).2.overrun = true := by
  simp only [Exceeds] at h
  unfold getString
  by_cases hzero : stringLen = 0
  · rw [if_pos hzero] at h
    simp only [if_pos hzero]
    cases hread : msg.canRead 2 with
    | true =>
      have hword : msg.getUInt16 =
          (msg.buffer.word16 msg.position, { msg with position := msg.position + 2 }) := by
        rw [getUInt16, hread]
        rfl
      rw [hword]
      dsimp only
      rw [canRead_of_exceeds (by dsimp only; omega)]
      exact ⟨rfl, rfl⟩
    | false =>
      have hword : msg.getUInt16 = (0, { msg with overrun := true }) := by
        rw [getUInt16, hread]
        rfl
      rw [hword]
      dsimp only
      split_ifs
      · exact ⟨rfl, rfl⟩
      · exact ⟨rfl, rfl⟩
  · rw [if_neg hzero] at h
    simp only [if_neg hzero]
    rw [canRead_of_exceeds h]
    exact ⟨rfl, rfl⟩

theorem getPosition_of_exceeds {limit : Nat} (hlimit : limit = msg.length + INITIAL_BUFFER_POSITION)
    (hle : msg.position ≤ limit) (hmax : limit < 24590) (h : limit < msg.position + 5) :
    (ReadValue.position msg.getPosition.1).ZeroFrom limit msg.position ∧
      msg.getPosition.2.overrun = true := by
  have hbyte : ∀ m : NetworkMessage, m.length = msg.length → limit < m.position + 1 →
      m.getByte = (0, { m with overrun := true }) := fun m hm hlt =>
    getByte_of_exceeds (by rw [hm]; omega)
  by_cases hx : limit < msg.position + 2
  · -- neither coordinate fits
    have hfirst : msg.getUInt16 = (0, { msg with overrun := true }) :=
      getUInt16_of_exceeds (by omega)
    have hsecond : ({ msg with overrun := true } : NetworkMessage).getUInt16 =
        (0, { msg with overrun := true }) := getUInt16_of_exceeds (by dsimp only; omega)
    simp only [getPosition, hfirst, hsecond, ReadValue.ZeroFrom]
    refine ⟨⟨fun _ => trivial, fun _ => trivial, fun hz => ?_⟩, keepsBelow_getByte.overrun _ rfl⟩
    have hmissing : limit < msg.position + 1 := by omega
    exact congrArg Prod.fst (hbyte { msg with overrun := true } rfl hmissing)
  · have hfirst := @getUInt16_of_le msg (by omega) (by omega)
    set next := { msg with position := msg.position + 2 } with hnext
    have hlength : next.length = msg.length := rfl
    have hposition : next.position = msg.position + 2 := rfl
    by_cases hy : limit < msg.position + 4
    · have hsecond := @getUInt16_of_exceeds next (by omega)
      simp only [getPosition, hfirst, hsecond, ReadValue.ZeroFrom]
      refine ⟨⟨fun hlt => absurd hlt hx, fun _ => trivial, fun hz => ?_⟩,
        keepsBelow_getByte.overrun _ rfl⟩
      have hmissing : limit < next.position + 1 := by omega
      exact congrArg Prod.fst (hbyte { next with overrun := true } rfl hmissing)
    · have hsecond := @getUInt16_of_le next (by omega) (by omega)
      simp only [getPosition, hfirst, hsecond, ReadValue.ZeroFrom]
      have hmissing : limit < next.position + 2 + 1 := by omega
      rw [hbyte { next with position := next.position + 2 } hlength hmissing]
      exact ⟨⟨fun hlt => absurd hlt hx, fun hlt => absurd hlt hy, fun _ => rfl⟩, rfl⟩

theorem read_of_exceeds {limit : Nat} {r : Read}
    (hlimit : limit = msg.length + INITIAL_BUFFER_POSITION) (hle : msg.position ≤ limit)
    (hmax : limit < 24590) (h : Exceeds limit msg r) :
    (msg.read r).1.ZeroFrom limit msg.position ∧ (msg.read r).2.overrun = true := by
  cases r with
  | getByte =>
    rw [read, getByte_of_exceeds (hlimit ▸ h)]
    exact ⟨rfl, rfl⟩
  | get size =>
    have hread : msg.canRead size = false := canRead_of_exceeds (hlimit ▸ h)
    simp only [read, get, hread]
    exact ⟨fun _ => List.eq_of_mem_replicate, rfl⟩
  | getString stringLen => exact getString_of_exceeds (hlimit ▸ h)
  | getPosition => exact getPosition_of_exceeds hlimit hle hmax h

end NetworkMessage

/-! ## Accepted frames -/

namespace Connection

open NetworkMessage

/-- The end of the frame at the beginning of the bytes: the header and the length it announces. -/
def frameEnd (bytes : List UInt8) : Nat :=
  HEADER_LENGTH + (word16 (bytes.getD 0 0) (bytes.getD 1 0)).toNat

variable {first : Bool} {before msg : NetworkMessage} {bytes : List UInt8} {key : Xtea.RoundKeys}

theorem getLengthHeader_written (h : HEADER_LENGTH ≤ bytes.length) :
    (before.buffer.write 0 (bytes.take HEADER_LENGTH)).word16 0 =
      word16 (bytes.getD 0 0) (bytes.getD 1 0) := by
  obtain ⟨b₀, b₁, rest, rfl⟩ : ∃ b₀ b₁ rest, bytes = b₀ :: b₁ :: rest := by
    match bytes, h with
    | b₀ :: b₁ :: rest, _ => exact ⟨b₀, b₁, rest, rfl⟩
  rfl

theorem parseHeader_spec (h : parseHeader first before bytes = some msg) :
    msg.length = frameEnd bytes ∧ msg.position = 2 ∧ msg.length < 24576 ∧
      frameEnd bytes ≤ bytes.length := by
  unfold parseHeader at h
  split_ifs at h with hshort
  · cases h
  · have hheader := @getLengthHeader_written before bytes (Nat.not_lt.mp hshort)
    simp only [getLengthHeader, hheader, bodySize, Option.bind_eq_bind] at h
    split_ifs at h with hproxy hsize
    · cases h
    · cases h
    · rw [Option.bind_some] at h
      split_ifs at h with hbody
      · cases h
      · have hend : frameEnd bytes = 2 + (word16 (bytes.getD 0 0) (bytes.getD 1 0)).toNat := rfl
        have hheader : HEADER_LENGTH = 2 := rfl
        have hmax : NETWORKMESSAGE_MAXSIZE = 24590 := rfl
        cases h
        exact ⟨Nat.add_comm _ _, rfl, by dsimp only; omega, by omega⟩

/-- The checksum has been read, or is taken for content. -/
theorem parsePacket_spec (hposition : msg.position = 2) (hlength : msg.length < 24576) :
    (parsePacket msg).length = msg.length ∧
      ((parsePacket msg).position = 6 ∨ (parsePacket msg).position = 2) := by
  have hread : msg.canRead 4 = true := canRead_of_le (by omega) (by omega)
  unfold parsePacket
  simp only [getUInt32, hread, if_true]
  split_ifs
  all_goals simp [skipBytes, hposition]

theorem xtea_decrypt_spec {accepted : NetworkMessage}
    (hposition : msg.position = 6 ∨ msg.position = 2)
    (h : msg.XTEA_decrypt key = some accepted) :
    accepted.length + INITIAL_BUFFER_POSITION ≤ msg.length ∧
      accepted.position ≤ INITIAL_BUFFER_POSITION := by
  unfold NetworkMessage.XTEA_decrypt at h
  split_ifs at h with hblocks
  set plain := { msg with
    buffer := Xtea.decrypt msg.buffer msg.position (msg.length - 6) key } with hplain
  dsimp only at h
  have hword : plain.getUInt16.2.length = msg.length ∧ plain.getUInt16.2.position ≤ 8 := by
    have hpos : plain.position = msg.position := rfl
    unfold getUInt16
    split_ifs
    · exact ⟨rfl, by dsimp only; omega⟩
    · exact ⟨rfl, by dsimp only; omega⟩
  rw [hword.1] at h
  split_ifs at h with hinner
  cases h
  exact ⟨Nat.not_lt.mp hinner, hword.2⟩

/-- Behind the length that is accepted, with the headers, lies no byte of another frame. -/
theorem receive_spec (h : Connection.receive first key before bytes = some msg) :
    Within (frameEnd bytes) msg ∧ frameEnd bytes < 24576 ∧ frameEnd bytes ≤ bytes.length := by
  unfold receive at h
  obtain ⟨framed, hheader, hdecrypt⟩ := Option.bind_eq_some_iff.mp h
  obtain ⟨hlength, hposition, hmax, hend⟩ := parseHeader_spec hheader
  obtain ⟨hsame, hchecked⟩ := parsePacket_spec hposition hmax
  obtain ⟨haccepted, hread⟩ := xtea_decrypt_spec hchecked hdecrypt
  exact ⟨⟨by omega, by omega⟩, by omega, hend⟩

/-- After the decryption no read reaches the end of the frame, and what does not fit into the
accepted length is zero and sets the flag, which stays. -/
theorem reads_within_frame (first : Bool) (key : Xtea.RoundKeys) (before msg : NetworkMessage)
    (bytes : List UInt8) (h : Connection.receive first key before bytes = some msg)
    (rs : List Read) :
    frameEnd bytes ≤ bytes.length ∧
    (msg.reads rs).2.position ≤ msg.length + INITIAL_BUFFER_POSITION ∧
    msg.length + INITIAL_BUFFER_POSITION ≤ frameEnd bytes ∧
    (∀ other, AgreesBelow (frameEnd bytes) msg other →
      (other.reads rs).1 = (msg.reads rs).1 ∧
        AgreesBelow (frameEnd bytes) (msg.reads rs).2 (other.reads rs).2) ∧
    ∀ r, Exceeds (msg.length + INITIAL_BUFFER_POSITION) (msg.reads rs).2 r →
      ((msg.reads rs).2.read r).1.ZeroFrom (msg.length + INITIAL_BUFFER_POSITION)
        (msg.reads rs).2.position ∧
      ((msg.reads rs).2.read r).2.overrun = true ∧
      ∀ rs', (((msg.reads rs).2.read r).2.reads rs').2.overrun = true := by
  obtain ⟨hwithin, hmax, hend⟩ := receive_spec h
  have hreads := keepsBelow_reads rs
  have hafter := hreads.within hwithin
  have hlength : (msg.reads rs).2.length = msg.length := hreads.length msg
  have hposition := hafter.position
  rw [hlength] at hposition
  refine ⟨hend, hposition, hwithin.length, fun other hagree => hreads.agrees hwithin hagree,
    fun r hr => ?_⟩
  have hle := hwithin.length
  obtain ⟨hzero, hoverrun⟩ := read_of_exceeds (by rw [hlength]) hposition (by omega) hr
  exact ⟨hzero, hoverrun, fun rs' => (keepsBelow_reads rs').overrun _ hoverrun⟩

def shortBody : FrameBody where
  bytes := [0x14, 0x2A]
  fits := by decide

theorem reads_within_frame_shortBody :
    ∃ msg, Connection.receive true (Xtea.expand_key fun _ => 0) (NetworkMessage.new fun _ => 0)
        ((OutputMessage.queued shortBody fun _ => 0).onSendMessage
          (Xtea.expand_key fun _ => 0) true).sent = some msg ∧
      (msg.reads [.getByte, .getPosition]).2.position ≤ msg.length + INITIAL_BUFFER_POSITION := by
  obtain ⟨msg, hreceive, -⟩ := receive_sent_of_ne (fun _ => 0) shortBody (fun _ => 0) true
    (NetworkMessage.new fun _ => 0) (by decide)
  exact ⟨msg, hreceive, (reads_within_frame _ _ _ msg _ hreceive _).2.1⟩

end Connection

end Eloth
