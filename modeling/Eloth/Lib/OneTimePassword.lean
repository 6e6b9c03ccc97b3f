import Eloth.Lib.Sha1

/-!
# One-time passwords

HMAC over any hash of bytes, the password of a counter (HOTP) made from HMAC-SHA1, and the bits
of a secret in base 32.
-/

namespace Eloth.OneTimePassword

open Positional

/-! ## HMAC -/

/-- The key at the block size of the hash; a longer key is hashed first. -/
def blockKey (hash : List UInt8 → List UInt8) (size : ℕ) (key : List UInt8) : List UInt8 :=
  let key := if key.length > size then hash key else key
  key ++ List.replicate (size - key.length) 0

def hmac (hash : List UInt8 → List UInt8) (size : ℕ) (key message : List UInt8) : List UInt8 :=
  let key := blockKey hash size key
  hash (key.map (· ^^^ 0x5c) ++ hash (key.map (· ^^^ 0x36) ++ message))

/-! ## HOTP -/

/-- The last 31 bits of the four bytes that the low four bits of byte 19 point to. -/
def dynamicTruncation (hs : List UInt8) : ℕ :=
  let offset := (hs.getD 19 0).toNat % 16
  value 256 (((hs.drop offset).take 4).map UInt8.toNat) % 2 ^ 31

def hotp (key : List UInt8) (counter : ℕ) (width : ℕ) : List Char :=
  let hs := hmac Sha1.digest 64 key (Sha1.bigEndian 8 counter)
  (digits 10 width (dynamicTruncation hs % 10 ^ width)).map Nat.digitChar

/-! ## Base 32 -/

/-- The letters stand for 0 to 25, the digits from 2 on for 26 to 31. -/
def base32Alphabet : List Char := "ABCDEFGHIJKLMNOPQRSTUVWXYZ234567".toList

def base32Bits (text : List Char) : List ℕ :=
  text.flatMap fun c => digits 2 5 (base32Alphabet.idxOf c)

def byteBits (bytes : List UInt8) : List ℕ := bytes.flatMap fun byte => digits 2 8 byte.toNat

end Eloth.OneTimePassword
