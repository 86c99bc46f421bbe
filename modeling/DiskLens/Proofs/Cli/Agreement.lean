import DiskLens.Cli.Run
import DiskLens.Proofs.Catalog.Layouts
import DiskLens.Proofs.Cli.Cursors
import DiskLens.Proofs.Http.Snapshot
import DiskLens.Proofs.Outline.LineEnds
import DiskLens.Proofs.Service.Answers
import DiskLens.Proofs.Text.Utf8

/-!
# The command line and the API give the same answers

Both put one request to a service with the settings of the environment. What the one prints stands
for the body that the other sends, and where there is no answer, both say so in their own way. The
two may load the catalog under different limits. A load that is stopped breaks either of them off.

* **`Agree`**: a run of the command line agrees with a reply of the API; `AgreeUnlessStopped`: it
  does so unless a load is stopped.
* `firstReply`: what a service that nobody has asked says; `Server.handle_start`, `askService_eq`.
* `firstReply_limits`: it says the same under other limits.
* `agree_ask`, `agree_call`: one request, put by both.
* **`commandLine_agrees`**: the commands and their requests.
* **`param_exit_of_stopped`**: a run that exits as if a parameter were unknown.
-/

namespace DiskLens

/-! ## Agreement -/

/-- The exit status that goes with an answer: a hover over nothing is a failure. -/
def answerStatus (body : Json) : Nat :=
  match body.get? "hover" with
  | some .null => 1
  | _ => 0

/-- **A run of the command line agrees with a reply of the API**: what it prints is read as the
body, or both say that something is unknown, or that there is no catalog. `shown` is what the
command line makes of a body before it is printed. -/
inductive Agree (shown : Json → Json) : CliResult → HttpReply → Prop
  | answered {text : String} {body : Json} (h : Json.decoded? text = some (shown body))
      (events : List LogEvent) :
    Agree shown ⟨text, events, .exit (answerStatus body) ""⟩ (.response 200 body)
  | unknown (text : String) (events : List LogEvent) :
    Agree shown ⟨"", events, .exit 1 (text ++ "\n")⟩ (.detail 404 text)
  | unavailable (e : LoadError) (events : List LogEvent) :
    Agree shown ⟨"", events, .exit 2 ("Error: " ++ e.message ++ "\n")⟩
      (.detail 503 ("Parameter catalog unavailable: " ++ e.message))

namespace Agree

variable {shown : Json → Json} {cli : CliResult} {http : HttpReply}

theorem of_writable {body : Json} {depth : Nat} (h : (shown body).Writable depth)
    (hdepth : depth ≤ JsonDialect.body.maxDepth) (events : List LogEvent) :
    Agree shown (.print (answerStatus body) events (shown body)) (.response 200 body) :=
  .answered (Json.decoded?_pretty (h.mono hdepth)) events

/-- Where something is always found, the command line exits with 1 exactly if the hover is null. -/
theorem status_one_iff (h : Agree shown cli http) (hfound : ∀ body, http ≠ .response 404 body) :
    cli.finish.status = 1 ↔
      ∃ body, http = .response 200 body ∧ body.get? "hover" = some .null := by
  cases h with
  | @answered text body _ events =>
    have hstatus : answerStatus body = 1 ↔ body.get? "hover" = some .null := by
      unfold answerStatus
      split
      next h => simp [h]
      next h => simpa using h
    simp [CliEnd.status, hstatus]
  | unknown text events => exact absurd rfl (hfound _)
  | unavailable e events => simp [CliEnd.status, HttpReply.detail]

/-- The command line prints nothing and exits with 1 exactly if nothing was found. -/
theorem status_one_empty_iff (h : Agree shown cli http) :
    cli.stdout = "" ∧ cli.finish.status = 1 ↔ ∃ body, http = .response 404 body := by
  cases h with
  | @answered text body h events =>
    -- an empty text is no value
    have hne : text ≠ "" := by
      rintro rfl
      cases h
    simp [hne]
  | unknown text events => simp [CliEnd.status, HttpReply.detail]
  | unavailable e events => simp [CliEnd.status, HttpReply.detail]

end Agree

/-- **A run agrees with a reply unless a load is stopped.** If that of the command line is
(`stopped`), the run breaks off, and if that of the server is (`stopped'`), there is no reply. -/
structure AgreeUnlessStopped (shown : Json → Json) (stopped stopped' : Prop) (cli : CliResult)
    (http : HttpReply) : Prop where
  agree : ¬ stopped → ¬ stopped' → Agree shown cli http
  breaks : stopped → cli.stdout = "" ∧ cli.finish.status = 1
  fails : stopped' → ∃ e, http = .failed e

namespace AgreeUnlessStopped

variable {shown : Json → Json} {stopped stopped' : Prop} {cli : CliResult} {http : HttpReply}

theorem status_one_iff (h : AgreeUnlessStopped shown stopped stopped' cli http)
    (hserved : ¬ stopped') (hfound : ∀ body, http ≠ .response 404 body) :
    cli.finish.status = 1 ↔
      stopped ∨ ∃ body, http = .response 200 body ∧ body.get? "hover" = some .null := by
  by_cases hstopped : stopped
  · simp [hstopped, (h.breaks hstopped).2]
  · rw [(h.agree hstopped hserved).status_one_iff hfound, or_iff_right hstopped]

theorem status_one_empty_iff (h : AgreeUnlessStopped shown stopped stopped' cli http)
    (hserved : ¬ stopped') :
    cli.stdout = "" ∧ cli.finish.status = 1 ↔ stopped ∨ ∃ body, http = .response 404 body := by
  by_cases hstopped : stopped
  · simp [hstopped, h.breaks hstopped]
  · rw [(h.agree hstopped hserved).status_one_empty_iff, or_iff_right hstopped]

end AgreeUnlessStopped

/-! ## One request, put by both -/

section Ask

variable {env : Environment} {loader : Loader} {settings : Settings}

/-- What a service that nobody has asked says to its first request. -/
def firstReply (loader : Loader) (settings : Settings) (r : Request) : Reply r.Answer :=
  ((Service.of 0 settings).respond loader r).1

theorem askService_eq (r : Request) (use : List LogEvent → r.Answer → CliResult) :
    askService loader settings r use =
      match (firstReply loader settings r).answer with
      | .ok answer => use (firstReply loader settings r).events answer
      | .error e => .refuse (firstReply loader settings r).events e := by
  have hservice : (Session.start [settings]).services[0]? = some (.of 0 settings) := rfl
  have hfirst : ((Session.start [settings]).request loader 0 r).1 = firstReply loader settings r :=
    (Service.answer_eq_respond (.start [settings]) hservice loader r).1
  cases hanswer : (firstReply loader settings r).answer <;> simp only [askService, hfirst, hanswer]

theorem Server.handle_start (henv : Settings.ofEnvironment env = .ok settings) (r : HttpRequest) :
    (Server.start.handle env loader r).1 = match r.decode with
      | .error reply => reply
      | .ok c => c.reply (firstReply loader settings c.request).answer := by
  rw [Server.handle_eq]
  cases r.decode with
  | error reply => rfl
  | ok c => exact ((Server.hosts_start henv).call loader c).1

/-- The request names a known content type, if any. -/
def Request.Typed : Request → Prop
  | .outline _ name _ => ∃ type : ContentType, name = type.name
  | _ => True

/-- The answer of the catalog of a service that nobody has asked. -/
theorem get_answer (loader : Loader) (settings : Settings) :
    ((Service.of 0 settings).catalog.get loader).answer.map (·.catalog) =
      loadCatalog loader settings.source 0 :=
  (LazyCatalog.get_of settings.source loader).1

/-- Without a catalog every call fails. -/
theorem firstReply_of_error {f : LoadFailure}
    (h : loadCatalog loader settings.source 0 = .error f) (c : ApiCall) :
    (firstReply loader settings c.request).answer = .error (.load f) := by
  have hget := get_answer loader settings
  rw [h] at hget
  cases hanswer : ((Service.of 0 settings).catalog.get loader).answer with
  | ok found =>
    rw [hanswer] at hget
    cases hget
  | error f' =>
    rw [hanswer] at hget
    cases hget
    cases c <;> simp only [ApiCall.request, firstReply, Service.respond, Service.reply, hanswer]

/-- With a catalog every call with a known content type is answered. -/
theorem exists_firstReply {found : Catalog}
    (h : loadCatalog loader settings.source 0 = .ok found) {c : ApiCall}
    (htyped : c.request.Typed) :
    ∃ answer, (firstReply loader settings c.request).answer = .ok answer := by
  have hget := get_answer loader settings
  rw [h] at hget
  cases hanswer : ((Service.of 0 settings).catalog.get loader).answer with
  | error f =>
    rw [hanswer] at hget
    cases hget
  | ok found =>
    cases c with
    | health | completion | hover | parameter =>
      simp only [ApiCall.request, firstReply, Service.respond, Service.reply, hanswer]
      exact ⟨_, rfl⟩
    | outline text name =>
      obtain ⟨type, htype⟩ := htyped
      simp only [ApiCall.request, firstReply, Service.respond, Service.reply, hanswer, htype,
        outlineNamed_name]
      exact ⟨_, rfl⟩

/-- An outline that is given is the one of its text. -/
theorem outlineNamed_of_firstReply {text name : String} {symbols : List Symbol}
    (h : (firstReply loader settings (.outline text name none)).answer = .ok symbols) :
    outlineNamed text name none = .ok symbols := by
  simp only [firstReply, Service.respond, Service.reply] at h
  split at h
  next => cases h
  next =>
    cases houtline : outlineNamed text name none with
    | error e => rw [houtline] at h; cases h
    | ok symbols' => rw [houtline] at h; cases h; rfl

/-- **One request, put by both.** They agree if they do on its answers, unless the load is
stopped. -/
theorem agree_ask {shown : Json → Json} {c : ApiCall} (hc : c ≠ .health) (htyped : c.request.Typed)
    (hload : settings.snapshot? loader ≠ none)
    {use : List LogEvent → c.request.Answer → CliResult}
    (hok : ∀ events answer, (firstReply loader settings c.request).answer = .ok answer →
      Agree shown (use events answer) (c.reply (.ok answer))) :
    Agree shown (askService loader settings c.request use)
      (c.reply (firstReply loader settings c.request).answer) := by
  obtain ⟨S, hS⟩ := Option.ne_none_iff_exists'.mp hload
  have hS := Snapshot.ofLoad?_eq_some_iff.mp hS
  rw [askService_eq]
  cases S with
  | ok found =>
    obtain ⟨answer, hanswer⟩ := exists_firstReply hS htyped
    rw [hanswer]
    exact hok _ answer hanswer
  | error e =>
    rw [firstReply_of_error hS c]
    cases c with
    | health => exact absurd rfl hc
    | outline | completion | hover | parameter => exact .unavailable e _

/-- A load that is stopped breaks the command line off. -/
theorem askService_of_stopped (hload : settings.snapshot? loader = none) (c : ApiCall)
    (use : List LogEvent → c.request.Answer → CliResult) :
    (askService loader settings c.request use).stdout = "" ∧
      (askService loader settings c.request use).finish.status = 1 := by
  obtain ⟨f, hf, hne⟩ := Snapshot.ofLoad?_eq_none_iff.mp hload
  rw [askService_eq, firstReply_of_error hf c]
  cases f with
  | source e => exact absurd rfl (hne e)
  | nullByte | blankSource | tooDeep => exact ⟨rfl, rfl⟩

/-- A load that is stopped leaves the API without a reply. -/
theorem reply_of_stopped (hload : settings.snapshot? loader = none) (c : ApiCall) :
    ∃ e, c.reply (firstReply loader settings c.request).answer = .failed e := by
  obtain ⟨f, hf, hne⟩ := Snapshot.ofLoad?_eq_none_iff.mp hload
  exact ⟨_, ApiCall.reply_of_stopped hne ((get_answer loader settings).trans hf)⟩

/-- The limits make no difference to the first reply of a service unless they stop a load. -/
theorem firstReply_limits {read : Store} {limits limits' : ShowLimits}
    (h : settings.snapshot? ⟨read, limits⟩ ≠ none) (h' : settings.snapshot? ⟨read, limits'⟩ ≠ none)
    (c : ApiCall) :
    firstReply ⟨read, limits⟩ settings c.request =
      firstReply ⟨read, limits'⟩ settings c.request := by
  have hload := loadParameters_limits (mt Settings.snapshot?_of_tooDeep h)
    (mt Settings.snapshot?_of_tooDeep h')
  have hget : (Service.of 0 settings).catalog.get ⟨read, limits⟩ =
      (Service.of 0 settings).catalog.get ⟨read, limits'⟩ := by
    simp only [Service.of, LazyCatalog.of, LazyCatalog.get, LazyCatalog.load, loadCatalog, hload]
  cases c <;> simp only [ApiCall.request, firstReply, Service.respond, hget]

/-- **A command and a request for one call** agree if they do on its answers. -/
theorem agree_call (henv : Settings.ofEnvironment env = .ok settings) (read : Store)
    (limits limits' : ShowLimits) {shown : Json → Json} {r : HttpRequest} {c : ApiCall}
    (hr : r.decode = .ok c) (hc : c ≠ .health) (htyped : c.request.Typed)
    {use : List LogEvent → c.request.Answer → CliResult}
    (hok : ∀ events answer, (firstReply ⟨read, limits⟩ settings c.request).answer = .ok answer →
      Agree shown (use events answer) (c.reply (.ok answer))) :
    AgreeUnlessStopped shown (settings.snapshot? ⟨read, limits⟩ = none)
      (settings.snapshot? ⟨read, limits'⟩ = none)
      (askService ⟨read, limits⟩ settings c.request use)
      (Server.start.handle env ⟨read, limits'⟩ r).1 := by
  have hhttp : (Server.start.handle env ⟨read, limits'⟩ r).1 =
      c.reply (firstReply ⟨read, limits'⟩ settings c.request).answer := by
    rw [Server.handle_start henv, hr]
  rw [hhttp]
  refine ⟨fun h h' => ?_, fun h => askService_of_stopped h c use, fun h' => reply_of_stopped h' c⟩
  rw [← firstReply_limits h h' c]
  exact agree_ask hc htyped h hok

end Ask

/-! ## Documents -/

theorem fileText_encode (t : String) :
    fileText (Utf8.encode t.toList) = String.ofList (unifyLineEnds t.toList) := by
  rw [fileText, Utf8.decodeLossy_encode]

theorem askService_outline_congr {loader : Loader} {settings : Settings} {s s' name name' : String}
    (h : outlineNamed s name none = outlineNamed s' name' none)
    (use : List LogEvent → List Symbol → CliResult) :
    askService loader settings (.outline s name none) use =
      askService loader settings (.outline s' name' none) use := by
  have hreply : firstReply loader settings (.outline s name none) =
      firstReply loader settings (.outline s' name' none) := by
    simp only [firstReply, Service.respond, h]
  rw [askService_eq, askService_eq, hreply]
  cases (firstReply loader settings (.outline s' name' none)).answer <;> rfl

/-! ## Parameters -/

theorem dropLineFeed_append (s : List Char) {t : List Char} (ht : t ≠ []) :
    dropLineFeed (s ++ t) = s ++ dropLineFeed t := by
  unfold dropLineFeed
  rw [List.getLast?_append, List.getLast?_eq_some_getLast ht, Option.some_or]
  split
  next => rw [List.dropLast_append_of_ne_nil ht]
  next => rfl

/-- Every name without a slash has a path. -/
theorem route_parameter {name : String} (hname : name ≠ "") (hslash : '/' ∉ name.toList) :
    route "GET" (Endpoint.parameterBase ++ name) = .endpoint (.parameter name) := by
  have hne : name.toList ≠ [] := by simpa using hname
  have hpath : (Endpoint.parameterBase ++ name).toList =
      Endpoint.parameterBase.toList ++ name.toList := String.toList_append
  -- no fixed path starts as those of parameters do
  have hfixed : Endpoint.fixed.find?
      (·.1.toList = dropLineFeed (Endpoint.parameterBase ++ name).toList) = none := by
    rw [hpath, dropLineFeed_append _ hne]
    simp [Endpoint.fixed, Endpoint.parameterBase]
  have hend : endpointAt? (Endpoint.parameterBase ++ name).toList = some (.parameter name) := by
    rw [endpointAt?, hfixed]
    simp [hpath, hne, hslash]
  rw [route, hend]
  rfl

/-! ## Commands -/

section Commands

variable {env : Environment} {settings : Settings} {read : Store} {limits limits' : ShowLimits}

theorem runCommandLine_eq (henv : Settings.ofEnvironment env = .ok settings) (loader : Loader)
    {arguments : List String} {options : CommandOptions}
    {command : Command} (hargs : parseCommandLine arguments = .ok (options, command))
    (hcatalog : options.catalog = .unset) (hwiki : options.wikiBase = none) :
    runCommandLine env loader arguments = runCommand loader settings command := by
  have hsettings : settingsOf env options = .ok settings := by
    simp [settingsOf, henv, sourceOf, hcatalog, hwiki, Settings.override, Except.map]
  simp only [runCommandLine, hargs, hsettings]

theorem agree_complete (henv : Settings.ofEnvironment env = .ok settings)
    {line : String} {cursor : Nat} {trigger : Choice TriggerChar} (htrigger : trigger ≠ .blank)
    {keyboard : Bool} {kind : TriggerKind}
    (hkind : kind = .character ↔ trigger.toOption.isSome ∧ keyboard = false) {r : HttpRequest}
    (hr : r.Posts "/api/completion" (completionFields line cursor trigger.toOption kind)) :
    AgreeUnlessStopped id (settings.snapshot? ⟨read, limits⟩ = none)
      (settings.snapshot? ⟨read, limits'⟩ = none)
      (runCommand ⟨read, limits⟩ settings (.complete line (.value cursor) trigger keyboard))
      (Server.start.handle env ⟨read, limits'⟩ r).1 := by
  have hctx : completionContext line (some cursor) trigger.toOption keyboard =
      ⟨line.toList, cursor, trigger.toOption, kind⟩ := by
    have hkind' : kind =
        if trigger.toOption.isSome && !keyboard then .character else .keyboard := by
      cases kind <;> split <;> simp_all
    rw [hkind']
    rfl
  have hrun : runCommand ⟨read, limits⟩ settings (.complete line (.value cursor) trigger keyboard) =
      let ctx := completionContext line (some cursor) trigger.toOption keyboard
      askService ⟨read, limits⟩ settings (.complete ctx) fun events items =>
        .print 0 events (completionBody (situation ctx) items) := by
    cases trigger with
    | blank => exact absurd rfl htrigger
    | unset | value => rfl
  obtain ⟨hroute, hcall⟩ := hr.completion
  have hdecode := HttpRequest.decode_of_call hroute hcall
  rw [hrun, hctx]
  refine agree_call henv read limits limits' hdecode (by simp) trivial fun events items _ => ?_
  exact .of_writable (completionBody_writable _ items) (by decide) events

theorem agree_hover (henv : Settings.ofEnvironment env = .ok settings)
    {line : String} {cursor : Nat} {r : HttpRequest}
    (hr : r.Posts "/api/hover" (hoverFields line cursor)) :
    AgreeUnlessStopped id (settings.snapshot? ⟨read, limits⟩ = none)
      (settings.snapshot? ⟨read, limits'⟩ = none)
      (runCommand ⟨read, limits⟩ settings (.hover line (some cursor)))
      (Server.start.handle env ⟨read, limits'⟩ r).1 := by
  obtain ⟨hroute, hcall⟩ := hr.hover
  have hdecode := HttpRequest.decode_of_call hroute hcall
  simp only [runCommand, Option.isNone_some, Bool.false_and, Bool.false_eq_true, if_false,
    Option.getD_some]
  refine agree_call henv read limits limits' hdecode (by simp) trivial fun events text _ => ?_
  have hbody : (hoverBody text).Writable 2 := hoverBody_writable text
  cases text <;> exact .of_writable hbody (by decide) events

/-- A hover over nothing is an answer. -/
theorem handle_hover_ne_unknown (henv : Settings.ofEnvironment env = .ok settings) (loader : Loader)
    {line : String} {cursor : Nat} {r : HttpRequest}
    (hr : r.Posts "/api/hover" (hoverFields line cursor)) (body : Json) :
    (Server.start.handle env loader r).1 ≠ .response 404 body := by
  obtain ⟨hroute, hcall⟩ := hr.hover
  rw [Server.handle_start henv, HttpRequest.decode_of_call hroute hcall]
  dsimp only
  generalize (firstReply loader settings (ApiCall.hover line cursor).request).answer = answer
  cases answer with
  | ok text => simp [ApiCall.reply]
  | error e =>
    have hreply : (ApiCall.hover line cursor).reply (.error e) = ApiCall.refusal e := rfl
    rw [hreply]
    unfold ApiCall.refusal
    split <;> simp [HttpReply.detail]

theorem agree_param (henv : Settings.ofEnvironment env = .ok settings)
    {name : String} (hname : name ≠ "") (hslash : '/' ∉ name.toList) (body : String) :
    let r : HttpRequest := ⟨"GET", Endpoint.parameterBase ++ name, body⟩
    AgreeUnlessStopped id (settings.snapshot? ⟨read, limits⟩ = none)
      (settings.snapshot? ⟨read, limits'⟩ = none)
      (runCommand ⟨read, limits⟩ settings (.param name))
      (Server.start.handle env ⟨read, limits'⟩ r).1 := by
  intro r
  have hcall : decodeCall body (.parameter name) = .ok (.parameter name) := rfl
  have hdecode : r.decode = .ok (.parameter name) :=
    HttpRequest.decode_of_call (route_parameter hname hslash) hcall
  rw [runCommand]
  refine agree_call henv read limits limits' hdecode (by simp) trivial fun events found _ => ?_
  cases found with
  | none => exact .unknown _ events
  | some p => exact .of_writable p.record_writable (by decide) events

/-- The body of an outline with the file that it is of. -/
def withFile (path : Path) : Json → Json
  | .obj entries => .obj (("file", .str path.text) :: entries)
  | j => j

theorem agree_outline (henv : Settings.ofEnvironment env = .ok settings)
    {file t u : String} {type : ContentType}
    (hread : read (Path.ofText file) = .ok (Utf8.encode t.toList))
    (hu : splitLines u.toList = splitLines (unifyLineEnds t.toList))
    (hlength : u.length < 10 ^ maxDigits) {r : HttpRequest}
    (hr : r.Posts "/api/outline" (outlineFields u type)) :
    AgreeUnlessStopped (withFile (Path.ofText file)) (settings.snapshot? ⟨read, limits⟩ = none)
      (settings.snapshot? ⟨read, limits'⟩ = none)
      (runCommand ⟨read, limits⟩ settings (.outline file (some type)))
      (Server.start.handle env ⟨read, limits'⟩ r).1 := by
  obtain ⟨hroute, hcall⟩ := hr.outline
  have hdecode := HttpRequest.decode_of_call hroute hcall
  have hsame : outlineNamed (fileText (Utf8.encode t.toList)) type.name none =
      outlineNamed (WideText.ofString u).fill (WideText.ofString type.name).fill none := by
    rw [WideText.fill_ofString, WideText.fill_ofString]
    exact outlineNamed_congr (by rw [fileText_encode, String.toList_ofList, hu]) type.name none
  simp only [runCommand, hread, Option.getD_some]
  rw [askService_outline_congr hsame]
  refine agree_call henv read limits limits' hdecode (by simp) ⟨type, by simp⟩
    fun events symbols hsymbols => ?_
  have hreply : ApiCall.reply (.outline (.ofString u) (.ofString type.name)) (.ok symbols) =
      .response 200 (.obj (outlineEntries type.name symbols)) := by
    simp [ApiCall.reply, ApiCall.outlined]
  have houtline : outlineNamed u type.name none = .ok symbols := by
    simpa using outlineNamed_of_firstReply hsymbols
  have hbody : (withFile (Path.ofText file) (.obj (outlineEntries type.name symbols))).Writable 9 :=
    outlineEntries_writable (outlineNamed_writable houtline hlength) type.name _
  rw [hreply]
  exact .of_writable hbody (by decide) _

end Commands

/-- **The command line and the API give the same answers.** A command and a request for the same
agree, whatever the environment, the files and the catalog are; there is such a request for every
command. The command line and the server have limits of their own, and a load that they stop makes
the one exit with 1, as if nothing had been found, and leaves the other without a reply. The text of
an outline may be posted with unified line ends, or as it is if every carriage return belongs to a
line feed; that its length has at most `maxDigits` digits lets the places in it be read back. -/
theorem commandLine_agrees {env : Environment} {settings : Settings}
    (henv : Settings.ofEnvironment env = .ok settings) (read : Store) (limits limits' : ShowLimits)
    {arguments : List String} {options : CommandOptions} {command : Command}
    (hargs : parseCommandLine arguments = .ok (options, command))
    (hcatalog : options.catalog = .unset) (hwiki : options.wikiBase = none) :
    let cli := runCommandLine env ⟨read, limits⟩ arguments
    let http (r : HttpRequest) := (Server.start.handle env ⟨read, limits'⟩ r).1
    let stopped := settings.snapshot? ⟨read, limits⟩ = none
    let stopped' := settings.snapshot? ⟨read, limits'⟩ = none
    (∀ (line : String) (cursor : Nat) (trigger : Choice TriggerChar) (keyboard : Bool)
        (kind : TriggerKind), command = .complete line (.value cursor) trigger keyboard →
      trigger ≠ .blank → (kind = .character ↔ trigger.toOption.isSome ∧ keyboard = false) →
      let fields := completionFields line cursor trigger.toOption kind
      (∃ r : HttpRequest, r.Posts "/api/completion" fields) ∧
      ∀ r : HttpRequest, r.Posts "/api/completion" fields →
        AgreeUnlessStopped id stopped stopped' cli (http r)) ∧
    (∀ (line : String) (cursor : Nat), command = .hover line (some (cursor : Int)) →
      let fields := hoverFields line cursor
      (∃ r : HttpRequest, r.Posts "/api/hover" fields) ∧
      ∀ r : HttpRequest, r.Posts "/api/hover" fields →
        AgreeUnlessStopped id stopped stopped' cli (http r) ∧
        (¬ stopped' → (cli.finish.status = 1 ↔
          stopped ∨ ∃ body, http r = .response 200 body ∧ body.get? "hover" = some .null))) ∧
    (∀ name body : String, command = .param name → name ≠ "" → '/' ∉ name.toList →
      let r : HttpRequest := ⟨"GET", "/api/parameters/" ++ name, body⟩
      AgreeUnlessStopped id stopped stopped' cli (http r) ∧
      (¬ stopped' → (cli.stdout = "" ∧ cli.finish.status = 1 ↔
        stopped ∨ ∃ body, http r = .response 404 body))) ∧
    (∀ (file t u : String) (type : ContentType), command = .outline file (some type) →
      read (Path.ofText file) = .ok (Utf8.encode t.toList) → t.length < 10 ^ maxDigits →
      (u = String.ofList (unifyLineEnds t.toList) ∨ u = t ∧
        ∀ before behind, t.toList = before ++ '\r' :: behind → behind.head? = some '\n') →
      let fields := outlineFields u type
      (∃ r : HttpRequest, r.Posts "/api/outline" fields) ∧
      ∀ r : HttpRequest, r.Posts "/api/outline" fields →
        AgreeUnlessStopped (withFile (Path.ofText file)) stopped stopped' cli (http r)) := by
  intro cli http stopped stopped'
  have hcli : cli = runCommand ⟨read, limits⟩ settings command :=
    runCommandLine_eq henv _ hargs hcatalog hwiki
  rw [hcli]
  refine ⟨?_, ?_, ?_, ?_⟩
  · rintro line cursor trigger keyboard kind rfl htrigger hkind
    exact ⟨exists_completion_post (parseCommandLine_complete hargs) ..,
      fun r hr => agree_complete henv htrigger hkind hr⟩
  · rintro line cursor rfl
    refine ⟨exists_hover_post (parseCommandLine_hover hargs) .., fun r hr => ?_⟩
    have h : AgreeUnlessStopped id stopped stopped' _ (http r) := agree_hover henv hr
    exact ⟨h, fun hserved => h.status_one_iff hserved (handle_hover_ne_unknown henv _ hr)⟩
  · rintro name body rfl hname hslash r
    have h : AgreeUnlessStopped id stopped stopped' _ (http r) := agree_param henv hname hslash body
    exact ⟨h, h.status_one_empty_iff⟩
  · rintro file t u type rfl hread hlength hu
    refine ⟨exists_outline_post .., fun r hr => ?_⟩
    obtain rfl | ⟨rfl, hreturns⟩ := hu
    · have hunified : (unifyLineEnds t.toList).length ≤ t.length :=
        (length_unifyLineEnds_le t.toList).trans_eq String.length_toList
      exact agree_outline henv hread (by rw [String.toList_ofList])
        (by simpa using hunified.trans_lt hlength) hr
    · exact agree_outline henv hread (splitLines_unifyLineEnds hreturns).symm hlength hr

/-- Four commands with the built-in catalog: a completion that was typed, a hover over nothing, an
unknown parameter, and an outline of a file with both kinds of line ends. -/
theorem commandLine_agrees_with_built_in :
    let env : Environment := ⟨"", "", "", []⟩
    let read : Store := fun _ => .ok (Utf8.encode "- a -\r\n- b -\n".toList)
    let cli := runCommandLine env ⟨read, .narrow⟩
    let http (r : HttpRequest) := (Server.start.handle env ⟨read, .ample⟩ r).1
    (∃ r : HttpRequest,
      r.Posts "/api/completion" (completionFields "1 !" 3 (some .bang) .character) ∧
      Agree id (cli ["complete", "1 !", "--cursor", "3", "--trigger", "!"]) (http r)) ∧
    (∃ r : HttpRequest, r.Posts "/api/hover" (hoverFields "1 !" 3) ∧
      Agree id (cli ["hover", "1 !", "--cursor", "3"]) (http r)) ∧
    Agree id (cli ["param", "no such name"]) (http ⟨"GET", "/api/parameters/no such name", ""⟩) ∧
    (∃ r : HttpRequest,
      r.Posts "/api/outline" (outlineFields "- a -\r\n- b -\n" .parameters) ∧
      Agree (withFile (Path.ofText "p.in"))
        (cli ["outline", "p.in", "--content-type", "prodimoparam"]) (http r)) := by
  intro env read cli http
  have henv : Settings.ofEnvironment env = .ok .standard := by decide +kernel
  have hload : ∀ limits, Settings.standard.snapshot? ⟨read, limits⟩ ≠ none := by
    intro limits h
    cases h
  have hcomplete : parseCommandLine ["complete", "1 !", "--cursor", "3", "--trigger", "!"] =
      .ok (⟨.unset, none, false⟩, .complete "1 !" (.value 3) (.value .bang) false) := by
    decide +kernel
  have hhover : parseCommandLine ["hover", "1 !", "--cursor", "3"] =
      .ok (⟨.unset, none, false⟩, .hover "1 !" (some 3)) := by
    decide +kernel
  have hparam : parseCommandLine ["param", "no such name"] =
      .ok (⟨.unset, none, false⟩, .param "no such name") := by
    decide +kernel
  have houtline : parseCommandLine ["outline", "p.in", "--content-type", "prodimoparam"] =
      .ok (⟨.unset, none, false⟩, .outline "p.in" (some .parameters)) := by
    decide +kernel
  have hreturns : ∀ before behind, "- a -\r\n- b -\n".toList = before ++ '\r' :: behind →
      behind.head? = some '\n' := by
    intro before behind h
    have hall : ∀ i < 13, "- a -\r\n- b -\n".toList[i]? = some '\r' →
        ("- a -\r\n- b -\n".toList.drop (i + 1)).head? = some '\n' := by
      decide
    have hlength := congrArg List.length h
    simp at hlength
    have hhead := hall before.length (by omega) (by rw [h]; simp)
    rw [h] at hhead
    simpa using hhead
  have hlength : "- a -\r\n- b -\n".length < 10 ^ maxDigits := by
    have hsmall : 10 ^ 2 ≤ 10 ^ maxDigits := Nat.pow_le_pow_right (by decide) (by decide)
    exact Nat.lt_of_lt_of_le (by decide) hsmall
  refine ⟨?_, ?_, ?_, ?_⟩
  · obtain ⟨⟨r, hr⟩, hagree⟩ := (commandLine_agrees henv read .narrow .ample hcomplete rfl rfl).1
      "1 !" 3 (.value .bang) false .character rfl (by simp) (by simp [Choice.toOption])
    exact ⟨r, hr, (hagree r hr).agree (hload _) (hload _)⟩
  · obtain ⟨⟨r, hr⟩, hagree⟩ := (commandLine_agrees henv read .narrow .ample hhover rfl rfl).2.1
      "1 !" 3 rfl
    exact ⟨r, hr, (hagree r hr).1.agree (hload _) (hload _)⟩
  · exact ((commandLine_agrees henv read .narrow .ample hparam rfl rfl).2.2.1 "no such name" "" rfl
      (by decide) (by decide)).1.agree (hload _) (hload _)
  · obtain ⟨⟨r, hr⟩, hagree⟩ := (commandLine_agrees henv read .narrow .ample houtline rfl rfl).2.2.2
      "p.in" "- a -\r\n- b -\n" "- a -\r\n- b -\n" .parameters rfl rfl hlength
      (.inr ⟨rfl, hreturns⟩)
    exact ⟨r, hr, (hagree r hr).agree (hload _) (hload _)⟩

/-- **A run can exit as if a parameter were unknown** where the API does not answer that it is. -/
theorem param_exit_of_stopped :
    let env : Environment := ⟨"c.json", "", "", []⟩
    let loader : Loader := ⟨World.nestedFiles.read, .narrow⟩
    let cli := runCommandLine env loader ["param", "Mdisk"]
    let http := (Server.start.handle env loader ⟨"GET", "/api/parameters/Mdisk", ""⟩).1
    ¬ (cli.stdout = "" ∧ cli.finish.status = 1 ↔ ∃ body, http = .response 404 body) := by
  intro env loader cli http h
  obtain ⟨settings, henv, hsource⟩ : ∃ settings, Settings.ofEnvironment env = .ok settings ∧
      settings.source = .file ⟨.relative, ["c.json"]⟩ :=
    ⟨⟨.file ⟨.relative, ["c.json"]⟩, Settings.standard.wikiBase⟩, by decide +kernel, rfl⟩
  have hload : settings.snapshot? loader = none := by
    apply Settings.snapshot?_of_tooDeep
    rw [hsource]
    exact World.loadParameters_nestedFiles (by decide)
  have hargs : parseCommandLine ["param", "Mdisk"] =
      .ok (⟨.unset, none, false⟩, .param "Mdisk") := by
    decide +kernel
  have hcli : cli = runCommand loader settings (.param "Mdisk") :=
    runCommandLine_eq henv loader hargs rfl rfl
  have hagree : AgreeUnlessStopped id (settings.snapshot? loader = none)
      (settings.snapshot? loader = none) cli http := by
    rw [hcli]
    exact agree_param henv (by decide) (by decide) ""
  obtain ⟨body, hbody⟩ := h.mp (hagree.breaks hload)
  obtain ⟨e, he⟩ := hagree.fails hload
  cases hbody.symm.trans he

end DiskLens
