import DiskLens.Catalog.Load
import DiskLens.Hover

/-!
# Settings

A service needs a catalog and the address of the reference pages. Both have defaults, which the
environment replaces, which the command line replaces.

* `Environment`: what the environment says.
* `expandHome`: a path that starts at a home directory.
* **`Settings`**: the settings; `Settings.ofEnvironment` and `Settings.override`.
-/

namespace DiskLens

/-- **The environment.** A text that is not set is empty. `users` has the home directories of the
users of the machine. -/
structure Environment where
  catalog : String
  wikiBase : String
  home : String
  users : List (String × String)
deriving DecidableEq, Repr

/-- A path starts at a home directory that nobody knows. -/
inductive SettingsError
  | noHome
deriving DecidableEq, Repr

namespace SettingsError

/-- The message does not name the user. -/
def message : SettingsError → String
  | noHome => "Could not determine home directory."

end SettingsError

namespace Environment

/-- The home directory that the first name of a path stands for: the own one for `~`, that of a user
for `~user`. -/
def homeOf? (env : Environment) (name : String) : Option String :=
  if name = "~" then some env.home
  else (env.users.find? fun user => "~" ++ user.1 = name).map (·.2)

end Environment

/-- A home directory without the slashes at its end; the root keeps its own. -/
def homeText (home : String) : String :=
  let body := dropTail (· == '/') home.toList
  if body = [] then "/" else String.ofList body

/-- **The path with its first name replaced by a home directory**, if it stands for one. -/
def expandHome (env : Environment) (p : Path) : Except SettingsError Path :=
  match p.root, p.names with
  | .relative, name :: names =>
    if !name.startsWith "~" then .ok p
    else match env.homeOf? name with
      | none => .error .noHome
      | some home =>
        if (homeText home).startsWith "~" then .error .noHome
        else .ok ((Path.ofText (homeText home)).below names)
  | _, _ => .ok p

/-- **Settings of a service.** -/
structure Settings where
  source : CatalogSource
  wikiBase : String
deriving DecidableEq, Repr

namespace Settings

/-- The settings when nobody says anything. -/
def standard : Settings := ⟨.builtIn, defaultWikiBase⟩

/-- **The settings in an environment.** -/
def ofEnvironment (env : Environment) : Except SettingsError Settings := do
  let source ←
    if env.catalog = "" then pure standard.source
    else do
      let path ← expandHome env (Path.ofText env.catalog)
      pure (.file path)
  pure ⟨source, if env.wikiBase = "" then standard.wikiBase else env.wikiBase⟩

/-- **The settings with replacements.** A catalog is replaced by any source, the address only by a
text that is not empty. -/
def override (s : Settings) (catalog : Option CatalogSource) (wikiBase : Option String) :
    Settings :=
  ⟨catalog.getD s.source,
    if wikiBase.getD "" = "" then s.wikiBase else wikiBase.getD ""⟩

end Settings

end DiskLens
