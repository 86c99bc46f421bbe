import DiskLens.Catalog.Load

/-!
# Hover texts

In a parameter file the name of a parameter follows a `!` and a space. A line with two such marks
names no parameter. Over the name an editor shows the description, the unit and links to the
reference pages.

* `splitAtMark?`: the line around its first mark.
* `nameIn?`, `nameAt?`: the name in a line, and the name under a cursor.
* `Parameter.hoverText`: the text for a parameter.
* **`hover`**: the text under a cursor.
-/

namespace DiskLens

/-! ## The name under a cursor -/

/-- The text before and behind the first mark. -/
def splitAtMark? : List Char → Option (List Char × List Char)
  | [] => none
  | '!' :: ' ' :: rest => some ([], rest)
  | c :: rest => (splitAtMark? rest).map fun (before, behind) => (c :: before, behind)

/-- How many characters a mark has. -/
def markWidth : Nat := 2

/-- **The name in a line**: the first word behind the only mark, and where it starts. -/
def nameIn? (line : List Char) : Option (Nat × List Char) :=
  match splitAtMark? line with
  | none => none
  | some (before, behind) =>
    if (splitAtMark? behind).isSome then none
    else
      let name := (behind.dropWhile isBlank).takeWhile (!isBlank ·)
      let start := before.length + markWidth + (behind.takeWhile isBlank).length
      if name ≠ [] then some (start, name) else none

/-- **The name under a cursor.** The place right behind the name counts as on it. -/
def nameAt? (line : List Char) (cursor : Int) : Option (List Char) :=
  match nameIn? line with
  | none => none
  | some (start, name) => if start ≤ cursor ∧ cursor ≤ start + name.length then some name else none

/-! ## Hover texts -/

/-- The address of the reference pages. -/
def defaultWikiBase : String := "https://prodimo.iwf.oeaw.ac.at/wiki/"

/-- The ending of a page that is served as HTML. -/
def pageEnding : List Char := ".md".toList

/-- The name of a page without its ending, if it has it. -/
def pageStem? (page : List Char) : Option (List Char) :=
  if pageEnding.isSuffixOf page then some (page.take (page.length - pageEnding.length)) else none

/-- A list item with a link to a page. -/
def pageLink (base page : String) : String :=
  let (label, target) := match pageStem? page.toList with
    | some stem => (String.ofList stem, String.ofList stem ++ ".html")
    | none => (page, page)
  "- [" ++ label ++ "](" ++ base ++ target ++ ")"

/-- **The text for a parameter**: what it has of description, unit and links, in paragraphs. The
description stands as it is. -/
def Parameter.hoverText (p : Parameter) (base : String) : String :=
  let description := if p.description = "" then [] else [p.description]
  let unit := if p.hasUnit then ["Unit: " ++ p.unit] else []
  let links := if p.wiki = [] then [] else ["\n".intercalate (p.wiki.map (pageLink base))]
  "\n\n".intercalate (description ++ unit ++ links)

/-- **The text under a cursor**, if the cursor is on the name of a known parameter. -/
def hover (c : Catalog) (base line : String) (cursor : Int) : Option String := do
  let name ← nameAt? line.toList cursor
  let p ← c.lookup (String.ofList name)
  pure (p.hoverText base)

/-- A hover text as a JSON record. -/
def hoverRecord : Option String → Json
  | none => .null
  | some text => .obj [("markdown", .str text)]

end DiskLens
