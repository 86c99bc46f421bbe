import DiskLens.Http.Body
import DiskLens.Json.Writer

/-!
# Reports of faults

A refused body is answered with a report of its faults, each with the value at fault. Entries with
a reserved key are left out of it. The report is sent as JSON in UTF-8, so it can show neither a
number outside of JSON nor a lone half of a surrogate pair.

* `isReserved`: the reserved keys.
* `FieldError.record`, `reportText`: a report as JSON and as text.
* `WriteFailure`: why JSON cannot be sent.
* **`reportFailure?`**: why a report cannot be sent.
-/

namespace DiskLens

/-! ## Reports -/

namespace FieldFault

/-- A choice of words in messages. -/
def choice (words : List String) : String := " or ".intercalate (words.map quoted)

/-- What a report says of a fault. -/
def message : FieldFault → String
  | missing => "Field required"
  | invalidJson => "JSON decode error"
  | notObject => "Input should be a valid dictionary or object to extract fields from"
  | notText => "Input should be a valid string"
  | loneHalf => "Input should be a valid string, unable to parse raw data as a unicode string"
  | notLiteral words => "Input should be " ++ choice words
  | offset .wrongType => "Input should be a valid integer"
  | offset .unreadable => "Input should be a valid integer, unable to parse string as an integer"
  | offset .tooLarge => "Unable to parse input string as an integer, exceeded maximum size"
  | offset .fraction => "Input should be a valid integer, got a number with a fractional part"
  | offset .notFinite => "Input should be a finite number"
  | offset .negative => "Input should be greater than or equal to 0"

/-- What a report adds to the message. -/
def context : FieldFault → List (String × Json)
  | notLiteral words => [("ctx", .obj [("expected", .str (choice words))])]
  | offset .negative => [("ctx", .obj [("ge", .int 0)])]
  | _ => []

end FieldFault

/-- Keys that start with `_sa` are reserved for bookkeeping and never shown. -/
def isReserved (key : WideText) : Bool := (WideText.ofString "_sa").isPrefixOf key

namespace FieldError

/-- The value at fault as a report shows it. -/
def shownInput (e : FieldError) : WideJson := e.input.withoutKeys isReserved

/-- A fault in a report. -/
def record (e : FieldError) : WideJson :=
  let plain (entries : List (String × Json)) : List (WideText × WideJson) :=
    entries.map fun (key, j) => (.ofString key, j.mapText WideText.ofString)
  .obj (plain [("type", .str e.fault.name), ("loc", .arr (e.place.map .str)),
    ("msg", .str e.fault.message)] ++ (.ofString "input", e.shownInput) :: plain e.fault.context)

end FieldError

/-- A report as it is sent. -/
def reportText (errors : List FieldError) : WideText :=
  Json.compact (.obj [(.ofString "detail", .arr (errors.map FieldError.record))])

/-! ## Failures -/

/-- Why JSON cannot be sent: it holds a number that is not finite, or a lone half of a surrogate
pair. Of a report it is known where the first halves stand. -/
inductive WriteFailure
  | notFinite
  | loneHalf
  | halvesAt (place : Nat) (halves : List Nat)
deriving DecidableEq, Repr

namespace WriteFailure

/-- The message of the cause. One half is shown, of several only the place. -/
def message : WriteFailure → String
  | notFinite => "Out of range float values are not JSON compliant"
  | loneHalf => "str is not valid UTF-8: surrogates not allowed"
  | halvesAt place [half] =>
    "'utf-8' codec can't encode character '" ++ String.ofList (codeEscape half) ++
      "' in position " ++ toString place ++ ": surrogates not allowed"
  | halvesAt place halves =>
    "'utf-8' codec can't encode characters in position " ++ toString place ++ "-" ++
      toString (place + halves.length - 1) ++ ": surrogates not allowed"

end WriteFailure

/-- Where the first lone halves of a text stand, and which they are. -/
def firstHalves? (s : WideText) : Option (Nat × List Nat) :=
  match s.dropWhile (!·.isHalf) with
  | [] => none
  | rest => some (s.length - rest.length, (rest.takeWhile (·.isHalf)).filterMap (·.half?))

/-- **Why a report cannot be sent**, if so. Numbers are looked at first. -/
def reportFailure? (errors : List FieldError) : Option WriteFailure :=
  if errors.any (·.shownInput.holdsNonFinite) then some .notFinite
  else (firstHalves? (reportText errors)).map fun (place, halves) => .halvesAt place halves

end DiskLens
