import DiskLens.Catalog.Load
import DiskLens.Completion.Situation

/-!
# Suggestions

For a name, every parameter of the catalog is offered, in its order. What is inserted is the name
with what its situation needs before it, and at the end of a line also the unit and the
description. All but this ending is the same for every request of a situation.

* `Suggestion`: what an editor shows and inserts.
* `BaseSuggestion`: a suggestion without its ending, and the parameter it is for.
* **`suggestionsFor`**: the suggestions of a situation.
* `complete`: the suggestions for a request.
-/

namespace DiskLens

/-- **A suggestion**: what an editor shows and what it inserts. -/
structure Suggestion where
  label : String
  insertText : String
  detail : String
  documentation : String
deriving DecidableEq, Repr

namespace Suggestion

/-- A suggestion as a JSON record. -/
def record (s : Suggestion) : Json :=
  .obj [("label", .str s.label), ("insertText", .str s.insertText), ("detail", .str s.detail),
    ("documentation", .str s.documentation)]

end Suggestion

/-- The logical literals, without the point that was typed. -/
def logicalSuggestions : List Suggestion :=
  [⟨".true.", "true. ", "logical", "Fortran logical \x60.true.\x60"⟩,
    ⟨".false.", "false.     ", "logical", "Fortran logical \x60.false.\x60"⟩]

/-! ## Texts of a parameter -/

namespace Parameter

/-- Type, default and unit as a list in Markdown. -/
def documentation (p : Parameter) : String :=
  let unit := if p.hasUnit then ["- **Unit:** " ++ p.unit] else []
  "\n".intercalate (["- **Type:** " ++ p.type, "- **Default:** " ++ p.default] ++ unit) ++ "\n"

/-- Unit and description, for the end of a line. -/
def lineEnding (p : Parameter) : String :=
  (if p.hasUnit then "   [" ++ p.unit ++ "] " else "") ++
    if isBlankText p.description.toList then "" else "   : " ++ p.description

end Parameter

/-! ## Suggestions for names -/

/-- What is inserted before a name; `none` where no name is asked for. -/
def Situation.lead? : Situation → Option String
  | explicitBang => some " "
  | implicitBang => some "! "
  | booleanLiteral | noCompletion => none

/-- A suggestion without its ending, and the parameter it is for. -/
structure BaseSuggestion where
  parameter : Parameter
  suggestion : Suggestion
deriving DecidableEq, Repr

namespace BaseSuggestion

/-- The suggestion of a parameter behind a lead. -/
def of (lead : String) (p : Parameter) : BaseSuggestion :=
  ⟨p, ⟨p.name, lead ++ p.name ++ " ", p.description, p.documentation⟩⟩

/-- The suggestion as it is offered: at the end of a line it has its ending. -/
def finish (atEndOfLine : Bool) (b : BaseSuggestion) : Suggestion :=
  if atEndOfLine then
    { b.suggestion with insertText := b.suggestion.insertText ++ b.parameter.lineEnding }
  else b.suggestion

end BaseSuggestion

/-- The suggestions of a catalog without their endings. -/
def baseSuggestions (c : Catalog) (lead : String) : List BaseSuggestion :=
  c.parameters.map (.of lead)

/-- **The suggestions of a situation.** -/
def suggestionsFor (c : Catalog) (s : Situation) (ctx : CompletionContext) : List Suggestion :=
  match s.lead? with
  | some lead => (baseSuggestions c lead).map (·.finish ctx.atEndOfLine)
  | none => if s = .booleanLiteral then logicalSuggestions else []

/-- **The suggestions for a request.** -/
def complete (c : Catalog) (ctx : CompletionContext) : List Suggestion :=
  suggestionsFor c (situation ctx) ctx

end DiskLens
