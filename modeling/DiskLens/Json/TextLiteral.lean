import DiskLens.Text.CodePoint

/-!
# Text literals

A text in quotes, with escapes. A character beyond U+FFFF may be escaped as a surrogate pair. Halves
make a pair only if both are escaped; all others stand alone.

* `readUnits`: the code points and escapes of a literal.
* `joinEscapes`: the text that they make.
* **`readText`**: the text of a literal.
-/

namespace DiskLens

namespace Json

/-- The value of a digit of base sixteen, of either case. -/
def hexValue? (c : Char) : Option Nat :=
  if '0' ≤ c && c ≤ '9' then some (c.toNat - 0x30)
  else if 'a' ≤ c && c ≤ 'f' then some (c.toNat - 0x57)
  else if 'A' ≤ c && c ≤ 'F' then some (c.toNat - 0x37)
  else none

/-- The number with four digits of base sixteen. -/
def unit? (a b c d : Char) : Option Nat := do
  let a ← hexValue? a
  let b ← hexValue? b
  let c ← hexValue? c
  let d ← hexValue? d
  pure (((a * 16 + b) * 16 + c) * 16 + d)

/-- The character behind a backslash, apart from `u`. -/
def simpleEscape? : Char → Option Char
  | '"' => some '"'
  | '\\' => some '\\'
  | '/' => some '/'
  | 'b' => some '\x08'
  | 'f' => some '\x0c'
  | 'n' => some '\n'
  | 'r' => some '\r'
  | 't' => some '\t'
  | _ => none

/-- A part of a literal: a code point as it stands, or the code of an escape. -/
inductive LiteralUnit
  | plain (p : CodePoint)
  | escaped (code : Nat)
deriving DecidableEq, Repr

/-- The parts of a literal from behind its opening quote on, and what follows its closing quote.
Control characters have to be escaped. -/
def readUnits : WideText → Option (List LiteralUnit × WideText)
  | [] => none
  | .char '"' :: rest => some ([], rest)
  | .char '\\' :: .char 'u' :: .char a :: .char b :: .char c :: .char d :: rest => do
    let n ← unit? a b c d
    let (units, rest) ← readUnits rest
    pure (.escaped n :: units, rest)
  | .char '\\' :: .char e :: rest => do
    let c ← simpleEscape? e
    let (units, rest) ← readUnits rest
    pure (.plain (.char c) :: units, rest)
  | .char c :: rest =>
    if c.toNat < 0x20 ∨ c = '\\' then none
    else do
      let (units, rest) ← readUnits rest
      pure (.plain (.char c) :: units, rest)
  | .half n :: rest => do
    let (units, rest) ← readUnits rest
    pure (.plain (.half n) :: units, rest)

/-- The text of the parts of a literal: surrogate pairs of escapes are joined. -/
def joinEscapes : List LiteralUnit → WideText
  | [] => []
  | .plain p :: units => p :: joinEscapes units
  | .escaped n :: .escaped m :: units =>
    if isHighSurrogate n && isLowSurrogate m then .ofNat (pairCode n m) :: joinEscapes units
    else .ofNat n :: joinEscapes (.escaped m :: units)
  | .escaped n :: units => .ofNat n :: joinEscapes units

/-- **A text** from behind its opening quote on, and what follows its closing quote. -/
def readText (s : WideText) : Option (WideText × WideText) :=
  (readUnits s).map fun (units, rest) => (joinEscapes units, rest)

end Json

end DiskLens
