import DiskLens.Completion.Context
import DiskLens.Hover
import DiskLens.Http.BodyText
import DiskLens.Http.Offset
import DiskLens.Http.Route
import DiskLens.Outline.ContentType

/-!
# Request bodies

The body of a request is a JSON object with fixed fields; other fields are ignored. All fields are
looked at, and every field at fault is reported, in the order of the fields. A text may have lone
halves of surrogate pairs.

* `FieldFault`, `FieldError`: what may be wrong with a body.
* `ApiCall`: a request that is well formed.
* **`decodeCall`**: the call of a request.
-/

namespace DiskLens

/-! ## Faults -/

/-- What may be wrong with a field, or with the body as a whole. -/
inductive FieldFault
  | missing
  | invalidJson
  | notObject
  | notText
  | loneHalf
  | notLiteral (words : List String)
  | offset (fault : OffsetFault)
deriving DecidableEq, Repr

namespace FieldFault

/-- The name of a fault in answers. -/
def name : FieldFault → String
  | missing => "missing"
  | invalidJson => "json_invalid"
  | notObject => "model_attributes_type"
  | notText => "string_type"
  | loneHalf => "string_unicode"
  | notLiteral _ => "literal_error"
  | offset .wrongType => "int_type"
  | offset .unreadable => "int_parsing"
  | offset .tooLarge => "int_parsing_size"
  | offset .fraction => "int_from_float"
  | offset .notFinite => "finite_number"
  | offset .negative => "greater_than_equal"

end FieldFault

/-- **A fault in a body**: the field it is in, none for the body as a whole, and the value that is
reported with it. -/
structure FieldError where
  field : Option String
  fault : FieldFault
  input : WideJson
deriving Repr

/-- The place of a fault. -/
def FieldError.place (e : FieldError) : List String := "body" :: e.field.toList

/-! ## Fields -/

/-- The fields of a body. -/
abbrev Fields := List (WideText × WideJson)

/-- A field that has to be there. The report of a missing field shows the whole body. -/
def requiredField {α : Type} (key : String) (read : WideJson → Except FieldFault α)
    (fields : Fields) : Except FieldError α :=
  match Json.entry? (.ofString key) fields with
  | none => .error ⟨some key, .missing, .obj fields⟩
  | some j => (read j).mapError (⟨some key, ·, j⟩)

/-- A field with a value for when it is not there. -/
def optionalField {α : Type} (key : String) (standard : α)
    (read : WideJson → Except FieldFault α) (fields : Fields) : Except FieldError α :=
  match Json.entry? (.ofString key) fields with
  | none => .ok standard
  | some j => (read j).mapError (⟨some key, ·, j⟩)

/-- A text. -/
def textValue : WideJson → Except FieldFault WideText
  | .str s => .ok s
  | _ => .error .notText

/-- A text that is read as something else has no lone halves. -/
def wholeValue {α : Type} (read : Json → Except FieldFault α) (j : WideJson) :
    Except FieldFault α :=
  match j with
  | .str s => if s.hasHalf then .error .loneHalf else read (.str s.fill)
  | j => read j.fill

/-- An offset. -/
def offsetValue : WideJson → Except FieldFault Nat :=
  wholeValue fun j => (readOffset j).mapError .offset

/-- One of some texts. -/
def literalValue {α : Type} (all : List α) (text : α → String) : WideJson → Except FieldFault α :=
  wholeValue fun
    | .str s =>
      match all.find? (text · = s) with
      | some a => .ok a
      | none => .error (.notLiteral (all.map text))
    | _ => .error (.notLiteral (all.map text))

/-- A value, or null for none. -/
def nullableValue {α : Type} (read : WideJson → Except FieldFault α) :
    WideJson → Except FieldFault (Option α)
  | .null => .ok none
  | j => (read j).map some

/-- The fault of a field, if it has one. -/
def faultOf {α : Type} : Except FieldError α → List FieldError
  | .ok _ => []
  | .error e => [e]

/-! ## Calls -/

/-- **A request that is well formed.** -/
inductive ApiCall
  | health
  | outline (text contentType : WideText)
  | completion (ctx : CompletionContext)
  | hover (line : String) (cursor : Nat)
  | parameter (name : String)
deriving DecidableEq, Repr

/-- The call with the fields of an outline request. -/
def outlineCall (fields : Fields) : Except (List FieldError) ApiCall :=
  let text := requiredField "text" textValue fields
  let contentType :=
    optionalField "content_type" (.ofString ContentType.parameters.name) textValue fields
  match text, contentType with
  | .ok text, .ok contentType => .ok (.outline text contentType)
  | _, _ => .error (faultOf text ++ faultOf contentType)

/-- The call with the fields of a completion request. No rule tells lone halves from other
characters. -/
def completionCall (fields : Fields) : Except (List FieldError) ApiCall :=
  let line := requiredField "line_text" textValue fields
  let cursor := requiredField "cursor_offset" offsetValue fields
  let trigger := optionalField "trigger_char" none
    (nullableValue (literalValue TriggerChar.all TriggerChar.text)) fields
  let kind := optionalField "trigger_kind" .keyboard
    (literalValue TriggerKind.all TriggerKind.name) fields
  match line, cursor, trigger, kind with
  | .ok line, .ok cursor, .ok trigger, .ok kind =>
    .ok (.completion ⟨line.fill.toList, cursor, trigger, kind⟩)
  | _, _, _, _ => .error (faultOf line ++ faultOf cursor ++ faultOf trigger ++ faultOf kind)

/-- The line to look for a parameter in. No parameter has a lone half in its name, so nothing is
looked for if the name under the cursor has one. -/
def hoverLine (line : WideText) (cursor : Nat) : String :=
  if line.halvesMatter fun s => nameAt? s.toList cursor then "" else line.fill

/-- The call with the fields of a hover request. -/
def hoverCall (fields : Fields) : Except (List FieldError) ApiCall :=
  let line := requiredField "line_text" textValue fields
  let cursor := requiredField "cursor_offset" offsetValue fields
  match line, cursor with
  | .ok line, .ok cursor => .ok (.hover (hoverLine line cursor) cursor)
  | _, _ => .error (faultOf line ++ faultOf cursor)

/-! ## Bodies -/

/-- Why a request is refused: faults in the body, or a body that cannot be taken in at all. -/
inductive BodyError
  | invalid (errors : List FieldError)
  | unreadable
deriving Repr

/-- The value of a body. -/
def bodyValue (body : String) : Except BodyError WideJson :=
  if body = "" then .error (.invalid [⟨none, .missing, .null⟩])
  else match bodyText? body with
    | none => .error .unreadable
    | some text =>
      match Json.readWide .body text with
      | .ok j => .ok j
      | .error .malformed => .error (.invalid [⟨none, .invalidJson, .obj []⟩])
      | .error _ => .error .unreadable

/-- The call with the fields of a body. -/
def callOfBody (body : String) (call : Fields → Except (List FieldError) ApiCall) :
    Except BodyError ApiCall := do
  match ← bodyValue body with
  | .obj fields => (call fields).mapError .invalid
  | j => throw (.invalid [⟨none, .notObject, j⟩])

/-- **The call of a request** to an endpoint. -/
def decodeCall (body : String) : Endpoint → Except BodyError ApiCall
  | .health => .ok .health
  | .outline => callOfBody body outlineCall
  | .completion => callOfBody body completionCall
  | .hover => callOfBody body hoverCall
  | .parameter name => .ok (.parameter name)

end DiskLens
