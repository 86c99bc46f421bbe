import DiskLens.Http.Server
import DiskLens.Proofs.Json.Printed

/-!
# Requests with plain fields

What a client posts are texts, whole numbers and nulls under fixed keys.

* `completionFields`, `hoverFields`, `outlineFields`: the fields of the requests.
* **`HttpRequest.Posts`**: a request whose body has some fields.
* `HttpRequest.Posts.completion`, `.hover`, `.outline`: what such a request asks for.
* **`HttpRequest.posts_pretty`**: the fields, as they are written, are such a body.
-/

namespace DiskLens

/-! ## Plain texts -/

namespace WideText

/-- Only one text is filled to a plain text that does without the filler. -/
theorem fill_eq_iff {s : WideText} {t : String} (h : filler ∉ t.toList) :
    s.fill = t ↔ s = ofString t := by
  refine ⟨fun hfill => ?_, fun hs => by rw [hs, fill_ofString]⟩
  have hchars : s.map (CodePoint.charOr filler) = t.toList := by
    rw [← hfill, fill, fillWith, String.toList_ofList]
  rw [ofString, ofChars, ← hchars, List.map_map]
  refine (List.map_id s).symm.trans (List.map_congr_left fun p hp => ?_)
  cases p with
  | char c => rfl
  | half n =>
    have hmem : filler ∈ s.map (CodePoint.charOr filler) := List.mem_map.mpr ⟨_, hp, rfl⟩
    exact absurd (hchars ▸ hmem) h

@[simp] theorem halvesMatter_ofString {α : Type} [DecidableEq α] (s : String) (make : String → α) :
    (ofString s).halvesMatter make = false := by
  simp [halvesMatter, fillWith_ofString]

end WideText

/-! ## Fields -/

/-- A trigger character in a request. -/
def triggerField : Option TriggerChar → Json
  | none => .null
  | some t => .str t.text

/-- The fields of a completion request. -/
def completionFields (line : String) (cursor : Nat) (trigger : Option TriggerChar)
    (kind : TriggerKind) : List (String × Json) :=
  [("line_text", .str line), ("cursor_offset", .int cursor),
    ("trigger_char", triggerField trigger), ("trigger_kind", .str kind.name)]

/-- The fields of a hover request. -/
def hoverFields (line : String) (cursor : Nat) : List (String × Json) :=
  [("line_text", .str line), ("cursor_offset", .int cursor)]

/-- The fields of an outline request. -/
def outlineFields (text : String) (type : ContentType) : List (String × Json) :=
  [("text", .str text), ("content_type", .str type.name)]

/-- **The request posts some fields**: its body is an object that has them, and a field that is not
there counts as null. -/
structure HttpRequest.Posts (r : HttpRequest) (path : String) (fields : List (String × Json)) :
    Prop where
  method : r.method = "POST"
  path : r.path = path
  body : ∃ all, bodyValue r.body = .ok (.obj all) ∧ ∀ field ∈ fields,
    (Json.entry? (.ofString field.1) all).getD .null = field.2.mapText .ofString

section Values

variable {α : Type} {key : String} {value : WideJson} {fields : Fields}
  {read : WideJson → Except FieldFault α} {a : α}

theorem requiredField_eq (h : (Json.entry? (.ofString key) fields).getD .null = value)
    (hvalue : value ≠ .null) (hread : read value = .ok a) :
    requiredField key read fields = .ok a := by
  unfold requiredField
  cases hentry : Json.entry? (WideText.ofString key) fields with
  | none =>
    rw [hentry] at h
    exact absurd h.symm hvalue
  | some j =>
    obtain rfl : j = value := by simpa [hentry] using h
    simp only [hread]
    rfl

theorem optionalField_eq (h : (Json.entry? (.ofString key) fields).getD .null = value)
    {standard : α} (hvalue : value = .null → a = standard) (hread : read value = .ok a) :
    optionalField key standard read fields = .ok a := by
  unfold optionalField
  cases hentry : Json.entry? (WideText.ofString key) fields with
  | none =>
    rw [hentry] at h
    exact congrArg _ (hvalue h.symm).symm
  | some j =>
    obtain rfl : j = value := by simpa [hentry] using h
    simp only [hread]
    rfl

theorem textField_eq {text : String}
    (h : (Json.entry? (.ofString key) fields).getD .null = JsonOf.mapText .ofString (.str text)) :
    requiredField key textValue fields = .ok (.ofString text) :=
  requiredField_eq h (by simp [JsonOf.mapText]) (by simp [JsonOf.mapText, textValue])

theorem offsetField_eq {n : Nat}
    (h : (Json.entry? (.ofString key) fields).getD .null = JsonOf.mapText .ofString (.int n)) :
    requiredField key offsetValue fields = .ok n := by
  refine requiredField_eq h (by simp [JsonOf.mapText]) ?_
  have hoffset : readOffset (.int n) = .ok n := by
    have hn : ¬ (n : Int) < 0 := by omega
    simp only [readOffset, wholeNumber, bind, Except.bind, if_neg hn]
    rfl
  simp [JsonOf.mapText, offsetValue, wholeValue, WideJson.fill, hoffset, Except.mapError]

theorem nullableValue_triggerField (trigger : Option TriggerChar) :
    nullableValue (literalValue TriggerChar.all TriggerChar.text)
      ((triggerField trigger).mapText .ofString) = .ok trigger := by
  cases trigger with
  | none => rfl
  | some t => cases t <;> rfl

theorem literalValue_kind (kind : TriggerKind) :
    literalValue TriggerKind.all TriggerKind.name (.str (.ofString kind.name)) = .ok kind := by
  cases kind <;> rfl

end Values

/-! ## What a request asks for -/

namespace HttpRequest

variable {r : HttpRequest}

theorem Posts.decodeCall {path : String} {fields : List (String × Json)} (h : r.Posts path fields)
    {call : Fields → Except (List FieldError) ApiCall} {c : ApiCall}
    (hcall : ∀ all : Fields, (∀ field ∈ fields,
      (Json.entry? (.ofString field.1) all).getD .null = field.2.mapText .ofString) →
        call all = .ok c) :
    callOfBody r.body call = .ok c := by
  obtain ⟨all, hbody, hfields⟩ := h.body
  rw [callOfBody, hbody]
  simp only [bind, Except.bind, hcall all hfields]
  rfl

theorem Posts.completion {line : String} {cursor : Nat} {trigger : Option TriggerChar}
    {kind : TriggerKind}
    (h : r.Posts "/api/completion" (completionFields line cursor trigger kind)) :
    route r.method r.path = .endpoint .completion ∧
      DiskLens.decodeCall r.body .completion =
        .ok (.completion ⟨line.toList, cursor, trigger, kind⟩) := by
  refine ⟨by rw [h.method, h.path]; decide +kernel, h.decodeCall fun all hall => ?_⟩
  simp only [completionFields, List.forall_mem_cons] at hall
  obtain ⟨hline, hcursor, htrigger, hkind, -⟩ := hall
  -- a trigger that is left out is read as one that is null
  have hnull : (triggerField trigger).mapText WideText.ofString = .null → trigger = none := by
    intro h
    cases trigger with
    | none => rfl
    | some t => cases h
  rw [completionCall, textField_eq hline, offsetField_eq hcursor,
    optionalField_eq htrigger hnull (nullableValue_triggerField trigger),
    optionalField_eq hkind (by simp [JsonOf.mapText]) (literalValue_kind kind)]
  simp only [WideText.fill_ofString]

theorem Posts.hover {line : String} {cursor : Nat}
    (h : r.Posts "/api/hover" (hoverFields line cursor)) :
    route r.method r.path = .endpoint .hover ∧
      DiskLens.decodeCall r.body .hover = .ok (.hover line cursor) := by
  refine ⟨by rw [h.method, h.path]; decide +kernel, h.decodeCall fun all hall => ?_⟩
  simp only [hoverFields, List.forall_mem_cons] at hall
  obtain ⟨hline, hcursor, -⟩ := hall
  rw [hoverCall, textField_eq hline, offsetField_eq hcursor]
  simp [hoverLine]

theorem Posts.outline {text : String} {type : ContentType}
    (h : r.Posts "/api/outline" (outlineFields text type)) :
    route r.method r.path = .endpoint .outline ∧
      DiskLens.decodeCall r.body .outline =
        .ok (.outline (.ofString text) (.ofString type.name)) := by
  refine ⟨by rw [h.method, h.path]; decide +kernel, h.decodeCall fun all hall => ?_⟩
  simp only [outlineFields, List.forall_mem_cons] at hall
  obtain ⟨htext, htype, -⟩ := hall
  have htype' : optionalField "content_type" (.ofString ContentType.parameters.name) textValue all =
      .ok (.ofString type.name) :=
    optionalField_eq htype (by simp [JsonOf.mapText]) (by simp [JsonOf.mapText, textValue])
  rw [outlineCall, textField_eq htext, htype']

end HttpRequest

/-! ## Written requests -/

/-- A written object is in UTF-8, by its first bytes. -/
theorem bodyText?_pretty {fields : List (String × Json)} (hne : fields ≠ []) :
    bodyText? (Json.pretty (.obj fields)) = some (.ofString (Json.pretty (.obj fields))) := by
  obtain ⟨⟨key, value⟩, fields, rfl⟩ := List.exists_cons_of_ne_nil hne
  obtain ⟨cs, hcs⟩ : ∃ cs, (Json.pretty (.obj ((key, value) :: fields))).toList =
      '{' :: '\n' :: ' ' :: ' ' :: cs :=
    ⟨_, by simp [Json.pretty, Json.prettyAt, Json.newLine]; rfl⟩
  have hbytes : Utf8.encode ('{' :: '\n' :: ' ' :: ' ' :: cs) =
      0x7B :: 0x0A :: 0x20 :: 0x20 :: Utf8.encode cs := rfl
  rw [bodyText?, WideText.ofString, hcs, hbytes]
  rfl

theorem bodyValue_pretty {fields : List (String × Json)} (hne : fields ≠ [])
    (hkeys : (fields.map Prod.fst).Nodup) (hplain : ∀ field ∈ fields, field.2.Writable 0) :
    bodyValue (Json.pretty (.obj fields)) = .ok (.obj (JsonOf.mapEntries .ofString fields)) := by
  have hempty : Json.pretty (.obj fields) ≠ "" := by
    obtain ⟨⟨key, value⟩, fields, rfl⟩ := List.exists_cons_of_ne_nil hne
    simp [Json.pretty, Json.prettyAt, String.append_eq_empty_iff]
  have hwritable : Json.Writable JsonDialect.body.maxDepth (.obj fields) :=
    (Json.Writable.obj hkeys hplain).mono (by decide)
  have hread : Json.readWide .body (.ofString (Json.pretty (.obj fields))) = _ :=
    List.append_nil _ ▸ Json.readWide_pretty hwritable rfl rfl
  rw [bodyValue, if_neg hempty, bodyText?_pretty hne]
  simp only [hread]
  rfl

theorem entry?_mapEntries {fields : List (String × Json)} (hkeys : (fields.map Prod.fst).Nodup)
    {field : String × Json} (hfield : field ∈ fields) :
    Json.entry? (WideText.ofString field.1) (JsonOf.mapEntries WideText.ofString fields) =
      some (field.2.mapText WideText.ofString) := by
  induction fields with
  | nil => cases hfield
  | cons first fields ih =>
    rw [List.map_cons, List.nodup_cons] at hkeys
    rw [JsonOf.mapEntries, Json.entry?_cons]
    rcases List.mem_cons.mp hfield with rfl | hfield
    · exact if_pos rfl
    · rw [if_neg, ih hkeys.2 hfield]
      intro heq
      rw [WideText.ofString_inj.mp heq] at hkeys
      exact hkeys.1 (List.mem_map_of_mem hfield)

/-- **Fields without arrays and objects can be posted.** -/
theorem HttpRequest.posts_pretty (path : String) {fields : List (String × Json)} (hne : fields ≠ [])
    (hkeys : (fields.map Prod.fst).Nodup) (hplain : ∀ field ∈ fields, field.2.Writable 0) :
    HttpRequest.Posts ⟨"POST", path, Json.pretty (.obj fields)⟩ path fields := by
  refine ⟨rfl, rfl, _, bodyValue_pretty hne hkeys hplain, fun field hfield => ?_⟩
  rw [entry?_mapEntries hkeys hfield]
  rfl

section Exists

variable {cursor : Nat} (hcursor : (Nat.toDigits 10 cursor).length ≤ maxDigits)

include hcursor

theorem exists_completion_post (line : String) (trigger : Option TriggerChar)
    (kind : TriggerKind) :
    ∃ r : HttpRequest, r.Posts "/api/completion" (completionFields line cursor trigger kind) := by
  have htrigger : (triggerField trigger).Writable 0 := by
    cases trigger with
    | none => exact .null
    | some t => exact .str t.text
  refine ⟨_, HttpRequest.posts_pretty _ (by simp [completionFields]) ?_ ?_⟩
  · simp [completionFields]
  · simp only [completionFields, List.forall_mem_cons]
    exact ⟨.str line, .nat hcursor, htrigger, .str kind.name, by simp⟩

theorem exists_hover_post (line : String) :
    ∃ r : HttpRequest, r.Posts "/api/hover" (hoverFields line cursor) := by
  refine ⟨_, HttpRequest.posts_pretty _ (by simp [hoverFields]) ?_ ?_⟩
  · simp [hoverFields]
  · simp only [hoverFields, List.forall_mem_cons]
    exact ⟨.str line, .nat hcursor, by simp⟩

end Exists

theorem exists_outline_post (text : String) (type : ContentType) :
    ∃ r : HttpRequest, r.Posts "/api/outline" (outlineFields text type) := by
  refine ⟨_, HttpRequest.posts_pretty _ (by simp [outlineFields]) ?_ ?_⟩
  · simp [outlineFields]
  · simp only [outlineFields, List.forall_mem_cons]
    exact ⟨.str text, .str type.name, by simp⟩

end DiskLens
