import DiskLens.Text.Blank

/-!
# Lines of the initialisation phase

Two kinds of log lines carry a name: ` INIT_CHEMISTRY: ...` starts an initialisation phase, and
`   INIT SYS CO ...` sets up one heating or cooling system.

* `foldCase`, `isPhaseChar`: letters when case is ignored.
* **`initPhase?`**: the token of a phase line.
* **`initSystem?`**: the shortest system name of a system line.
-/

namespace DiskLens

/-! ## Letters without case -/

/-- The lower-case letter that a character stands for when case is ignored. The dotted capital and
the dotless small i count as `i`, the long s as `s`, the Kelvin sign as `k`. -/
def foldCase (c : Char) : Char :=
  if 'A' ≤ c && c ≤ 'Z' then Char.ofNat (c.toNat + 32)
  else if c.toNat = 0x130 || c.toNat = 0x131 then 'i'
  else if c.toNat = 0x17F then 's'
  else if c.toNat = 0x212A then 'k'
  else c

/-- Letters, digits and the underscore, case ignored. -/
def isPhaseChar (c : Char) : Bool :=
  let d := foldCase c
  ('a' ≤ d && d ≤ 'z') || ('0' ≤ d && d ≤ '9') || d == '_'

/-! ## Phases -/

/-- The text without one space at its start. -/
def dropSpace : List Char → List Char
  | ' ' :: cs => cs
  | cs => cs

/-- The characters `INIT_`, in lower case. -/
def phaseStem : List Char := ['i', 'n', 'i', 't', '_']

/-- **The token of a phase line**: after at most one space, `INIT_` and one or more letters, digits
or underscores, with a colon or a space behind them. -/
def initPhase? (line : List Char) : Option (List Char) :=
  let body := dropSpace line
  let stem := body.take 5
  let name := (body.drop 5).takeWhile isPhaseChar
  match (body.drop 5).dropWhile isPhaseChar with
  | c :: _ =>
    if stem.map foldCase = phaseStem ∧ name ≠ [] ∧ (c = ':' ∨ c = ' ') then some (stem ++ name)
    else none
  | [] => none

/-! ## Systems -/

/-- Three dots stand at the start of the text, blanks left aside. -/
def dotsAhead (s : List Char) : Bool := ['.', '.', '.'].isPrefixOf (s.dropWhile isBlank)

/-- The shortest word at the start of the text that has three dots behind it. -/
def shortestName? : List Char → Option (List Char)
  | [] => none
  | c :: cs =>
    if isBlank c then none
    else if dotsAhead cs then some [c]
    else (shortestName? cs).map (c :: ·)

/-- What a system line says in front of the name. -/
def systemStem : List Char := "INIT SYS ".toList

/-- **The system name of a system line**: any spaces, `INIT SYS `, the name, and three dots. -/
def initSystem? (line : List Char) : Option (List Char) :=
  let body := line.dropWhile (· == ' ')
  if systemStem.isPrefixOf body then shortestName? (body.drop systemStem.length) else none

end DiskLens
