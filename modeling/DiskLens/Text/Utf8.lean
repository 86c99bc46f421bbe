/-!
# UTF-8

Texts as bytes. Decoding reads one byte at a time and keeps what it knows of an unfinished
character; a byte that cannot continue it ends an ill-formed part and is then read afresh, so each
ill-formed part is as long as some well-formed character would have allowed.

* `encode`: the bytes of a text.
* `decodeParts`: the characters of a byte sequence, with `none` for each ill-formed part.
* **`decode?`**, **`decodeLossy`**: decoding that refuses ill-formed parts, and decoding that puts
  U+FFFD for each of them.
-/

namespace DiskLens

/-- The content of a file. -/
abbrev Bytes := List UInt8

namespace Utf8

/-- The bytes of one character. -/
def encodeChar (c : Char) : Bytes :=
  let n := c.toNat
  if n < 0x80 then [UInt8.ofNat n]
  else if n < 0x800 then [UInt8.ofNat (0xC0 + n / 64), UInt8.ofNat (0x80 + n % 64)]
  else if n < 0x10000 then
    [UInt8.ofNat (0xE0 + n / 4096), UInt8.ofNat (0x80 + n / 64 % 64), UInt8.ofNat (0x80 + n % 64)]
  else
    [UInt8.ofNat (0xF0 + n / 262144), UInt8.ofNat (0x80 + n / 4096 % 64),
      UInt8.ofNat (0x80 + n / 64 % 64), UInt8.ofNat (0x80 + n % 64)]

/-- The bytes of a text. -/
def encode (s : List Char) : Bytes := s.flatMap encodeChar

/-- A character whose first bytes have been read: the bits so far, how many bytes are missing, and
the range of the next one. -/
structure Pending where
  bits : Nat
  missing : Nat
  low : Nat
  high : Nat
deriving DecidableEq, Repr

/-- What a byte at the start of a character says. -/
inductive Lead
  | char (c : Char)
  | pending (p : Pending)
  | invalid
deriving DecidableEq, Repr

/-- Reads the first byte of a character. The ranges exclude overlong forms, surrogates and code
points above U+10FFFF. -/
def lead (b : Nat) : Lead :=
  if b < 0x80 then .char (Char.ofNat b)
  else if b < 0xC2 then .invalid
  else if b < 0xE0 then .pending ⟨b - 0xC0, 1, 0x80, 0xBF⟩
  else if b = 0xE0 then .pending ⟨0, 2, 0xA0, 0xBF⟩
  else if b = 0xED then .pending ⟨0xD, 2, 0x80, 0x9F⟩
  else if b < 0xF0 then .pending ⟨b - 0xE0, 2, 0x80, 0xBF⟩
  else if b = 0xF0 then .pending ⟨0, 3, 0x90, 0xBF⟩
  else if b < 0xF4 then .pending ⟨b - 0xF0, 3, 0x80, 0xBF⟩
  else if b = 0xF4 then .pending ⟨4, 3, 0x80, 0x8F⟩
  else .invalid

/-- The characters of a byte sequence that starts inside `pending`, with `none` for each ill-formed
part. -/
def partsFrom : Option Pending → Bytes → List (Option Char)
  | none, [] => []
  | some _, [] => [none]
  | none, b :: bs =>
    match lead b.toNat with
    | .char c => some c :: partsFrom none bs
    | .pending p => partsFrom (some p) bs
    | .invalid => none :: partsFrom none bs
  | some p, b :: bs =>
    if p.low ≤ b.toNat ∧ b.toNat ≤ p.high then
      let bits := 64 * p.bits + b.toNat % 64
      if p.missing = 1 then some (Char.ofNat bits) :: partsFrom none bs
      else partsFrom (some ⟨bits, p.missing - 1, 0x80, 0xBF⟩) bs
    else
      match lead b.toNat with
      | .char c => none :: some c :: partsFrom none bs
      | .pending q => none :: partsFrom (some q) bs
      | .invalid => none :: none :: partsFrom none bs

/-- The characters of a byte sequence, with `none` for each ill-formed part. -/
def decodeParts (bytes : Bytes) : List (Option Char) := partsFrom none bytes

/-- **The text of well-formed bytes.** -/
def decode? (bytes : Bytes) : Option (List Char) := (decodeParts bytes).mapM id

/-- **The text of any bytes**, with U+FFFD for each ill-formed part. -/
def decodeLossy (bytes : Bytes) : List Char := (decodeParts bytes).map (·.getD '�')

end Utf8

end DiskLens
