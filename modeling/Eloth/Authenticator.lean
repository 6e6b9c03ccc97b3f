import Eloth.Lib.OneTimePassword
import Eloth.TransformToSHA1

/-!
# Login tokens

`generateToken` of `tools.cpp` and `decodeSecret` of `iologindata.cpp`. The first makes an HMAC
by hand out of two password hashes, whose hexadecimal text it reads back.
-/

namespace Eloth

open Positional Sha1 OneTimePassword

def AUTHENTICATOR_DIGITS : Nat := 6

/-! ## Texts of numbers -/

def hexDigitValue (c : UInt8) : Option Nat :=
  if 48 ≤ c ∧ c ≤ 57 then some (c.toNat - 48)
  else if 97 ≤ c ∧ c ≤ 102 then some (c.toNat - 87)
  else if 65 ≤ c ∧ c ≤ 70 then some (c.toNat - 55)
  else none

/-- The digits at the start of the text, which has no blanks, sign or prefix here. -/
def strtoulLoop : List UInt8 → Nat → Nat
  | [], v => v
  | c :: s, v =>
    match hexDigitValue c with
    | some d => strtoulLoop s (16 * v + d)
    | none => v

def strtoul (s : List UInt8) : UInt64 := UInt64.ofNat (strtoulLoop s 0)

def to_string (n : UInt32) : List UInt8 := (Nat.toDigits 10 n.toNat).map ascii

def substr (s : List UInt8) (pos n : Nat) : List UInt8 := (s.drop pos).take n

/-! ## Tokens -/

/-- The bytes from the last one down to the second. -/
def writeTicks : Nat → UInt32 → List UInt8 → List UInt8
  | 0, _, message => message
  | i + 1, ticks, message =>
    writeTicks i (ticks >>> 8) (message.set (i + 1) (ticks &&& 0xFF).toUInt8)

/-- The key goes over the start of the pad. -/
def keyPad (key : List UInt8) (pad : UInt8) : List UInt8 :=
  (List.range key.length).foldl
    (fun keyPad i => keyPad.set i (keyPad.getD i 0 ^^^ key.getD i 0)) (List.replicate 64 pad)

def hexToBytes (message : List UInt8) : List UInt8 :=
  (List.range ((message.length + 1) / 2)).map fun i => (strtoul (substr message (2 * i) 2)).toUInt8

def lastDigits (message : List UInt8) : List UInt8 :=
  let hashLen := message.length
  List.replicate (AUTHENTICATOR_DIGITS - min hashLen AUTHENTICATOR_DIGITS) 48 ++
    message.drop (hashLen - min hashLen AUTHENTICATOR_DIGITS)

def generateToken (key : List UInt8) (ticks : UInt32) : List UInt8 :=
  let message := writeTicks 7 ticks (List.replicate 8 0)
  let message := transformToSHA1 (keyPad key 0x36 ++ message)
  let message := transformToSHA1 (keyPad key 0x5C ++ hexToBytes message)
  let offset := (strtoul (substr message 39 1) &&& 0xF).toUInt32
  let truncHash := (strtoul (substr message (2 * offset.toNat) 8)).toUInt32 &&& 0x7FFFFFFF
  lastDigits (to_string truncHash)

/-! ## Secrets -/

structure SecretState where
  key : List UInt8 := []
  buffer : UInt32 := 0
  left : UInt32 := 0

/-- The five bits of a character; any other character breaks the key. -/
def secretBits (ch : UInt8) : Option UInt32 :=
  if 65 ≤ ch ∧ ch ≤ 90 then some ((ch &&& 0x1F).toUInt32 - 1)
  else if 50 ≤ ch ∧ ch ≤ 55 then some (ch.toUInt32 - 24)
  else none

def SecretState.push (s : SecretState) (bits : UInt32) : SecretState :=
  let s := { s with buffer := (s.buffer <<< 5) ||| bits, left := s.left + 5 }
  if s.left ≥ 8 then
    { s with left := s.left - 8, key := s.key ++ [(s.buffer >>> (s.left - 8)).toUInt8] }
  else s

def decodeLoop : List UInt8 → SecretState → List UInt8
  | [], s => s.key
  | ch :: secret, s =>
    match secretBits ch with
    | some bits => decodeLoop secret (s.push bits)
    | none => []

def decodeSecret (secret : List UInt8) : List UInt8 := decodeLoop secret {}

example : generateToken ("12345678901234567890".toList.map ascii) 1 =
    "287082".toList.map ascii := by decide +kernel

example : decodeSecret ("JBSWY3DP".toList.map ascii) = "Hello".toList.map ascii := by
  decide +kernel

/-! ## Reading hexadecimal text back -/

variable {bytes key : List UInt8}

def hexText (bytes : List UInt8) : List UInt8 := (hexadecimal bytes).map ascii

theorem length_hexText : (hexText bytes).length = 2 * bytes.length := by simp [hexText]

theorem substr_hexText (i n : Nat) :
    substr (hexText bytes) (2 * i) (2 * n) = hexText (substr bytes i n) := by
  rw [substr, hexText, ← List.map_drop, ← List.map_take, drop_hexadecimal, take_hexadecimal]
  rfl

theorem hexDigitValue_ascii {d : Nat} (h : d < 16) :
    hexDigitValue (ascii (Nat.digitChar d)) = some d := by
  revert d
  decide

theorem strtoulLoop_digits {l : List Nat} (h : ∀ d ∈ l, d < 16) (v : Nat) :
    strtoulLoop ((l.map Nat.digitChar).map ascii) v = l.foldl (fun v d => 16 * v + d) v := by
  induction l generalizing v with
  | nil => rfl
  | cons d l ih =>
    rw [List.map_cons, List.map_cons, strtoulLoop, hexDigitValue_ascii (h d (by simp)),
      List.foldl_cons]
    exact ih (fun d hd => h d (List.mem_cons_of_mem _ hd)) _

theorem strtoul_hexText (bytes : List UInt8) :
    strtoul (hexText bytes) = UInt64.ofNat (value 256 (bytes.map UInt8.toNat)) := by
  have hbyte : ∀ d ∈ bytes.map UInt8.toNat, d < 16 ^ 2 := by
    intro d hd
    obtain ⟨byte, -, rfl⟩ := List.mem_map.mp hd
    exact byte.toNat_lt
  have hdigit : ∀ d ∈ (bytes.map UInt8.toNat).flatMap (digits 16 2), d < 16 := by
    intro d hd
    obtain ⟨n, -, hn⟩ := List.mem_flatMap.mp hd
    exact digits_lt (by decide) d hn
  have hbase : 16 ^ 2 = 256 := rfl
  rw [strtoul, hexText, hexadecimal_eq, strtoulLoop_digits hdigit, ← value,
    value_flatMap_digits hbyte, hbase]

theorem hexToBytes_hexText (bytes : List UInt8) : hexToBytes (hexText bytes) = bytes := by
  rw [hexToBytes, length_hexText]
  refine List.ext_getElem (by simp; omega) fun i hi hi' => ?_
  have hone : substr bytes i 1 = [bytes[i]] := by
    rw [substr, List.drop_eq_getElem_cons hi']
    rfl
  rw [List.getElem_map, List.getElem_range, substr_hexText i 1, hone, strtoul_hexText]
  have hlt := bytes[i].toNat_lt
  have hvalue : value 256 [bytes[i].toNat] = bytes[i].toNat := by simp [value]
  apply UInt8.toNat_inj.mp
  rw [List.map_singleton, hvalue, UInt64.toNat_toUInt8, UInt64.toNat_ofNat']
  omega

/-! ## The parts of a token -/

theorem writeTicks_eq (ticks : UInt32) :
    writeTicks 7 ticks (List.replicate 8 0) = bigEndian 8 ticks.toNat := by
  have hlt := ticks.toNat_lt
  have hbyte (n : Nat) : n &&& 255 = n % 256 := Nat.and_two_pow_sub_one_eq_mod n 8
  simp only [writeTicks, List.replicate, List.set_cons_succ, List.set_cons_zero, bigEndian, digits,
    List.nil_append, List.cons_append, List.map_cons, List.map_nil, List.cons.injEq, and_true]
  refine ⟨?_, ?_, ?_, ?_, ?_, ?_, ?_, ?_⟩
  all_goals
    apply UInt8.toNat_inj.mp
    simp [hbyte, UInt32.toNat_shiftRight, Nat.shiftRight_eq_div_pow, Nat.div_div_eq_div_mul]
    try omega

theorem keyPad_take (hkey : key.length ≤ 64) (pad : UInt8) (n : Nat) (hn : n ≤ key.length) :
    (List.range n).foldl (fun keyPad i => keyPad.set i (keyPad.getD i 0 ^^^ key.getD i 0))
      (List.replicate 64 pad) =
      (key.take n).map (· ^^^ pad) ++ List.replicate (64 - n) pad := by
  induction n with
  | zero => rfl
  | succ n ih =>
    have hlength : ((key.take n).map (· ^^^ pad)).length = n := by
      rw [List.length_map, List.length_take_of_le (by omega)]
    have hreplicate : List.replicate (64 - n) pad = pad :: List.replicate (64 - (n + 1)) pad := by
      rw [← List.replicate_succ]
      congr 1
      omega
    rw [List.range_succ, List.foldl_append, ih (by omega), List.foldl_cons, List.foldl_nil,
      List.getD_append_right _ _ _ _ hlength.le, List.set_append_right _ _ hlength.le, hlength,
      Nat.sub_self, hreplicate, List.getD_cons_zero, List.set_cons_zero,
      List.getD_eq_getElem _ _ hn, List.take_succ_eq_append_getElem hn, List.map_append,
      List.map_singleton, UInt8.xor_comm pad, List.append_assoc, List.singleton_append]

theorem keyPad_eq (hkey : key.length ≤ 64) (pad : UInt8) :
    keyPad key pad = (blockKey digest 64 key).map (· ^^^ pad) := by
  rw [keyPad, keyPad_take hkey pad key.length le_rfl, List.take_length, blockKey,
    if_neg (Nat.not_lt.mpr hkey), List.map_append, List.map_replicate, UInt8.zero_xor]

theorem length_keyPad (hkey : key.length ≤ 64) (pad : UInt8) : (keyPad key pad).length = 64 := by
  rw [keyPad, keyPad_take hkey pad key.length le_rfl, List.length_append, List.length_map,
    List.take_length, List.length_replicate]
  omega

theorem hmac_eq (hkey : key.length ≤ 64) (message : List UInt8) (hmessage : message.length ≤ 64) :
    transformToSHA1 (keyPad key 0x5C ++
        hexToBytes (transformToSHA1 (keyPad key 0x36 ++ message))) =
      hexText (hmac digest 64 key message) := by
  have hinner : transformToSHA1 (keyPad key 0x36 ++ message) =
      hexText (digest (keyPad key 0x36 ++ message)) :=
    transformToSHA1_eq _ (by rw [List.length_append, length_keyPad hkey]; omega)
  rw [hinner, hexToBytes_hexText, hmac, ← keyPad_eq hkey, ← keyPad_eq hkey]
  refine transformToSHA1_eq _ ?_
  rw [List.length_append, length_keyPad hkey, length_digest]
  decide

theorem length_hmac (message : List UInt8) : (hmac digest 64 key message).length = 20 :=
  length_digest _

theorem toDigits_of_ge {n : Nat} (h : 10 ≤ n) :
    Nat.toDigits 10 n = Nat.toDigits 10 (n / 10) ++ [Nat.digitChar (n % 10)] := by
  have happend := Nat.toDigits_append_toDigits (b := 10) (n := n / 10) (d := n % 10) (by decide)
    (by omega) (by omega)
  rw [Nat.div_add_mod, Nat.toDigits_of_lt_base (Nat.mod_lt n (by decide))] at happend
  exact happend.symm

/-- The last digits, with zeros before a shorter number. -/
theorem pad_toDigits (k n : Nat) :
    List.replicate (k - min (Nat.toDigits 10 n).length k) '0' ++
        (Nat.toDigits 10 n).drop ((Nat.toDigits 10 n).length - min (Nat.toDigits 10 n).length k) =
      (digits 10 k n).map Nat.digitChar := by
  induction k generalizing n with
  | zero => simp [digits]
  | succ k ih =>
    rcases Nat.lt_or_ge n 10 with hn | hn
    · rw [Nat.toDigits_of_lt_base hn, digits, Nat.div_eq_of_lt hn, digits_zero,
        Nat.mod_eq_of_lt hn, List.length_singleton, Nat.min_eq_left (by omega)]
      simp
    · rw [toDigits_of_ge hn, digits, List.map_append, ← ih, List.length_append,
        List.length_singleton, Nat.add_min_add_right, Nat.add_sub_add_right,
        Nat.add_sub_add_right, List.drop_append_of_le_length (by omega), List.append_assoc]
      rfl

theorem lastDigits_to_string (n : UInt32) :
    lastDigits (to_string n) = ((digits 10 6 n.toNat).map Nat.digitChar).map ascii := by
  rw [← pad_toDigits, List.map_append, List.map_replicate, lastDigits, to_string, List.length_map,
    List.map_drop]
  rfl

/-- The offset is the last digit of the text. -/
theorem strtoul_last {hs : List UInt8} (h : hs.length = 20) :
    (strtoul (substr (hexText hs) 39 1) &&& 0xF).toUInt32.toNat = (hs.getD 19 0).toNat % 16 := by
  have hlast : hs.drop 19 = [hs.getD 19 0] := by
    rw [List.getD_eq_getElem _ _ (by omega), List.drop_eq_getElem_cons (by omega),
      List.drop_of_length_le (by omega)]
  have hsubstr : substr (hexText hs) 39 1 =
      (([(hs.getD 19 0).toNat % 16]).map Nat.digitChar).map ascii := by
    have hdrop : (hexText hs).drop 39 = ((hexText hs).drop (2 * 19)).drop 1 := by
      rw [List.drop_drop]
    rw [substr, hdrop, hexText, ← List.map_drop, drop_hexadecimal, hlast]
    rfl
  have hdigit : ∀ d ∈ [(hs.getD 19 0).toNat % 16], d < 16 := by
    intro d hd
    exact List.mem_singleton.mp hd ▸ Nat.mod_lt _ (by decide)
  have hand (n : Nat) : n &&& 15 = n % 16 := Nat.and_two_pow_sub_one_eq_mod n 4
  rw [hsubstr, strtoul, strtoulLoop_digits hdigit, List.foldl_cons, List.foldl_nil]
  simp [hand]

theorem strtoul_substr (hs : List UInt8) (offset : Nat) :
    ((strtoul (substr (hexText hs) (2 * offset) 8)).toUInt32 &&& 0x7FFFFFFF).toNat =
      value 256 ((substr hs offset 4).map UInt8.toNat) % 2 ^ 31 := by
  have hand (n : Nat) : n &&& 2147483647 = n % 2 ^ 31 := Nat.and_two_pow_sub_one_eq_mod n 31
  rw [substr_hexText offset 4, strtoul_hexText, UInt32.toNat_and, UInt64.toNat_toUInt32,
    UInt64.toNat_ofNat']
  exact (hand _).trans (by omega)

theorem generateToken_eq (ticks : UInt32) (hkey : key.length ≤ 64) :
    generateToken key ticks = (hotp key ticks.toNat 6).map ascii := by
  have hmessage : (bigEndian 8 ticks.toNat).length ≤ 64 := by rw [length_bigEndian]; decide
  rw [generateToken]
  simp only [writeTicks_eq, hmac_eq hkey _ hmessage, lastDigits_to_string, strtoul_substr,
    strtoul_last (length_hmac _)]
  rw [hotp, digits_congr (Nat.mod_mod _ _)]
  rfl

/-! ## Secrets -/

variable {s : SecretState}

/-- The bits so far: the bytes of the key, and what is left of the buffer. -/
def SecretState.bits (s : SecretState) : List Nat :=
  byteBits s.key ++ digits 2 s.left.toNat s.buffer.toNat

theorem digits_or {buffer bits : UInt32} {left : Nat} (hbits : bits.toNat < 32)
    (hleft : left < 8) :
    digits 2 (left + 5) ((buffer <<< 5) ||| bits).toNat =
      digits 2 left buffer.toNat ++ digits 2 5 bits.toNat := by
  have hor : ((buffer <<< 5) ||| bits).toNat = buffer.toNat % 2 ^ 27 * 2 ^ 5 + bits.toNat := by
    have hshift : (buffer <<< 5).toNat = buffer.toNat % 2 ^ 27 * 2 ^ 5 := by
      have hmod : (buffer <<< 5).toNat = buffer.toNat <<< 5 % 2 ^ 32 :=
        UInt32.toNat_shiftLeft _ _
      rw [hmod, Nat.shiftLeft_eq]
      omega
    rw [UInt32.toNat_or, hshift, or_shiftLeft_byte hbits]
  have hhigh : (buffer.toNat % 2 ^ 27 * 2 ^ 5 + bits.toNat) / 2 ^ 5 = buffer.toNat % 2 ^ 27 := by
    omega
  have hlow : (buffer.toNat % 2 ^ 27 * 2 ^ 5 + bits.toNat) % 2 ^ 5 = bits.toNat % 2 ^ 5 := by omega
  rw [hor, digits_add, hhigh, digits_congr hlow,
    digits_congr (Nat.mod_mod_of_dvd buffer.toNat (Nat.pow_dvd_pow 2 (by omega)))]

theorem digits_byte (buffer : UInt32) {r : UInt32} (hr : r.toNat < 8) :
    digits 2 8 (buffer >>> r).toUInt8.toNat ++ digits 2 r.toNat buffer.toNat =
      digits 2 (r.toNat + 8) buffer.toNat := by
  have hbyte : (buffer >>> r).toUInt8.toNat = buffer.toNat / 2 ^ r.toNat % 256 := by
    rw [UInt32.toNat_toUInt8, UInt32.toNat_shiftRight, Nat.mod_eq_of_lt (by omega : r.toNat < 32),
      Nat.shiftRight_eq_div_pow]
  have hmod : buffer.toNat / 2 ^ r.toNat % 256 % 2 ^ 8 = buffer.toNat / 2 ^ r.toNat % 2 ^ 8 :=
    Nat.mod_mod _ _
  rw [Nat.add_comm, digits_add, hbyte, digits_congr hmod]

theorem SecretState.bits_push {bits : UInt32} (hleft : s.left.toNat < 8)
    (hbits : bits.toNat < 32) :
    (s.push bits).bits = s.bits ++ digits 2 5 bits.toNat ∧ (s.push bits).left.toNat < 8 := by
  have hadd : (s.left + 5).toNat = s.left.toNat + 5 := by
    have htoNat : (s.left + 5).toNat = (s.left.toNat + 5) % 2 ^ 32 := UInt32.toNat_add _ _
    omega
  let t : SecretState := { s with buffer := (s.buffer <<< 5) ||| bits, left := s.left + 5 }
  have ht : t.bits = s.bits ++ digits 2 5 bits.toNat := by
    rw [SecretState.bits, SecretState.bits, List.append_assoc, ← digits_or hbits hleft, ← hadd]
  have hpush : s.push bits = if t.left ≥ 8 then
      { t with left := t.left - 8, key := t.key ++ [(t.buffer >>> (t.left - 8)).toUInt8] }
    else t := rfl
  rw [hpush, ← ht]
  by_cases hge : t.left ≥ 8
  · have hle : 8 ≤ t.left.toNat := UInt32.le_iff_toNat_le.mp hge
    have hsub : (t.left - 8).toNat = t.left.toNat - 8 := UInt32.toNat_sub_of_le _ _ hge
    have hlt : t.left.toNat < 13 := by
      change (s.left + 5).toNat < 13
      omega
    have hrest : (t.left - 8).toNat < 8 := by omega
    rw [if_pos hge]
    refine ⟨?_, hrest⟩
    rw [SecretState.bits, SecretState.bits, byteBits, List.flatMap_append, List.flatMap_singleton,
      List.append_assoc, digits_byte _ hrest, hsub, Nat.sub_add_cancel hle, ← byteBits]
  · rw [if_neg hge]
    exact ⟨rfl, Nat.lt_of_not_le fun hle => hge (UInt32.le_iff_toNat_le.mpr hle)⟩

theorem secretBits_ascii : ∀ c ∈ base32Alphabet, ∃ bits, secretBits (ascii c) = some bits ∧
    bits.toNat = base32Alphabet.idxOf c ∧ bits.toNat < 32 := by
  have hall : base32Alphabet.all (fun c => decide ((secretBits (ascii c)).map UInt32.toNat =
      some (base32Alphabet.idxOf c) ∧ base32Alphabet.idxOf c < 32)) = true := by decide +kernel
  intro c hc
  obtain ⟨hsome, hlt⟩ := of_decide_eq_true (List.all_eq_true.mp hall c hc)
  obtain ⟨bits, hbits, hindex⟩ := Option.map_eq_some_iff.mp hsome
  exact ⟨bits, hbits, hindex, hindex.symm ▸ hlt⟩

theorem decodeLoop_bits (text : List Char) (hvalid : ∀ c ∈ text, c ∈ base32Alphabet)
    (hleft : s.left.toNat < 8) : ∃ rest, rest.length < 8 ∧
      byteBits (decodeLoop (text.map ascii) s) ++ rest = s.bits ++ base32Bits text := by
  induction text generalizing s with
  | nil =>
    refine ⟨digits 2 s.left.toNat s.buffer.toNat, by simpa using hleft, ?_⟩
    rw [base32Bits, List.flatMap_nil, List.append_nil]
    rfl
  | cons c text ih =>
    obtain ⟨bits, hbits, hindex, hlt⟩ := secretBits_ascii c (hvalid c (by simp))
    obtain ⟨hpush, hleft'⟩ := SecretState.bits_push hleft hlt
    obtain ⟨rest, hrest, heq⟩ := ih (fun c hc => hvalid c (List.mem_cons_of_mem _ hc)) hleft'
    refine ⟨rest, hrest, ?_⟩
    rw [List.map_cons, decodeLoop, hbits]
    rw [heq, hpush, hindex, List.append_assoc]
    rfl

theorem length_byteBits (bytes : List UInt8) : (byteBits bytes).length = 8 * bytes.length := by
  simp [byteBits, List.length_flatMap, Nat.mul_comm]

theorem length_base32Bits (text : List Char) : (base32Bits text).length = 5 * text.length := by
  simp [base32Bits, List.length_flatMap, Nat.mul_comm]

theorem decodeSecret_bits {text : List Char} (hvalid : ∀ c ∈ text, c ∈ base32Alphabet) :
    (decodeSecret (text.map ascii)).length = 5 * text.length / 8 ∧
      byteBits (decodeSecret (text.map ascii)) =
        (base32Bits text).take (8 * (5 * text.length / 8)) := by
  obtain ⟨rest, hrest, heq⟩ := decodeLoop_bits (s := {}) text hvalid (by decide)
  have hbits : byteBits (decodeSecret (text.map ascii)) ++ rest = base32Bits text := heq
  have hcount := congrArg List.length hbits
  rw [List.length_append, length_byteBits, length_base32Bits] at hcount
  have hlength : (decodeSecret (text.map ascii)).length = 5 * text.length / 8 := by omega
  refine ⟨hlength, ?_⟩
  rw [← hbits, ← hlength, ← length_byteBits, List.take_left]

/-- Tokens are one-time passwords of six digits, and keys are the whole bytes of the secrets. -/
theorem authenticator_tokens :
    (∀ (key : List UInt8) (ticks : UInt32), key.length ≤ 64 →
      generateToken key ticks = (hotp key ticks.toNat 6).map ascii) ∧
    ∀ text : List Char, (∀ c ∈ text, c ∈ base32Alphabet) →
      (decodeSecret (text.map ascii)).length = 5 * text.length / 8 ∧
        byteBits (decodeSecret (text.map ascii)) =
          (base32Bits text).take (8 * (5 * text.length / 8)) :=
  ⟨fun _ ticks hkey => generateToken_eq ticks hkey, fun _ hvalid => decodeSecret_bits hvalid⟩

theorem authenticator_tokens_of_secret :
    generateToken [1, 2, 3] 9 = (hotp [1, 2, 3] 9 6).map ascii ∧
      (decodeSecret ("JBSWY".toList.map ascii)).length = 3 :=
  ⟨authenticator_tokens.1 [1, 2, 3] 9 (by decide),
    (authenticator_tokens.2 "JBSWY".toList
      (by decide : "JBSWY".toList ⊆ base32Alphabet)).1⟩

end Eloth
