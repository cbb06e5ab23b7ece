import MetadataStore.Fault
import MetadataStore.Settings.Basic
import MetadataStore.Settings.Toml.Document

/-!
# `Settings.Load` — settings from a file and the environment

Settings come in layers: what nothing is said of has its default, a file goes over that, and variables
of the environment go over the file. A variable names section and setting after a word of its own, with
two underscores between the parts, in any case. Sections and settings that are not known are ignored.

## Contents
- `Setting.ofVariable`, `SettingPath.ofVariable?`, `Setting.withVariables`.
- `Setting.natural`, `Setting.path`, the settings of a section.
- `Settings.ofSetting`, `Settings.load`.
-/

namespace MetadataStore

/-! ## The environment -/

/-- How the name of a variable begins that holds a setting, in lower case. -/
def variableMark : List Char :=
  "metarepo__".toList

/-- A text with points for pairs of underscores, taken from the front. -/
def pointed : List Char → List Char
  | '_' :: '_' :: rest => '.' :: pointed rest
  | c :: rest => c :: pointed rest
  | [] => []

/-- The place of the setting that a variable holds, if it holds one. -/
def SettingPath.ofVariable? (name : String) : Option SettingPath :=
  let cs := (Text.lower name).toList
  if variableMark.isPrefixOf cs then
    some (.ofKey (String.ofList (pointed (cs.drop variableMark.length))))
  else none

/-- The setting that the text of a variable denotes: a truth value in any case, an integer, a double,
or else the text itself. -/
def Setting.ofVariable (value : String) : Setting :=
  match Text.lower value, Number.int64? value, Number.double? value with
  | "true", _, _ => .boolean true
  | "false", _, _ => .boolean false
  | _, some i, _ => .integer i.toInt
  | _, _, some x => .double x
  | _, _, _ => .text value

/-- Settings with those of variables over them. -/
def Setting.withVariables (setting : Setting) : List (String × String) → Setting
  | [] => setting
  | (name, value) :: rest =>
    match SettingPath.ofVariable? name with
    | some path => (put (.ofVariable value) path setting).withVariables rest
    | none => setting.withVariables rest

/-! ## Sections -/

namespace Setting

/-- A setting of a section, which is a table with the setting under its name or a list with the setting
at its place. -/
def field (place : Nat) (name : String) : Setting → Except Fault (Option Setting)
  | .table entries => .ok (entries.lookup name)
  | .list items => .ok items[place]?
  | _ => .error (.badSettings "a section is no table")

/-- A natural number of a section, or its default. -/
def natural (place : Nat) (name : String) (default : Nat) (section_ : Setting) : Except Fault Nat := do
  match ← section_.field place name with
  | none => pure default
  | some setting =>
    match setting.natural? with
    | some n => pure n
    | none => .error (.badSettings (name ++ " is no natural number"))

/-- A natural number of a section that is kept in thirty-two bits, or its default. -/
def word (place : Nat) (name : String) (default : Nat) (section_ : Setting) : Except Fault Nat := do
  let n ← section_.natural place name default
  pure (n % UInt32.size)

/-- A text of a section, if there is one. -/
def textField (place : Nat) (name : String) (section_ : Setting) : Except Fault (Option String) := do
  match ← section_.field place name with
  | none | some .absent => pure none
  | some setting =>
    match setting.text? with
    | some words => pure (some words)
    | none => .error (.badSettings (name ++ " is no text"))

/-- A section, empty if nothing is said of it. -/
def sectionOf (setting : Setting) (name : String) : Setting :=
  (setting.entries.lookup name).getD (.table [])

end Setting

namespace Settings

/-- The settings that a tree says. -/
def ofSetting (setting : Setting) : Except Fault Settings := do
  let database := setting.sectionOf "database"
  let cache := setting.sectionOf "cache"
  let repository := setting.sectionOf "repository"
  pure {
    path := ← database.textField 0 "path"
    maxRetries := ← database.word 1 "deadlock_max_retries" default.maxRetries
    backoffMillis := ← database.natural 2 "deadlock_backoff_ms" default.backoffMillis
    busyTimeoutMillis := ← database.natural 3 "busy_timeout_ms" default.busyTimeoutMillis
    cacheSize := ← cache.natural 0 "max_size" default.cacheSize
    sweepSeconds := ← cache.natural 1 "idle_check_interval" default.sweepSeconds
    disposeBatch := ← repository.word 0 "dispose_batch_size" default.disposeBatch }

/-- The tree of a file, each key at its top being a place. -/
def ofFile (toml : String) : Except Fault Setting :=
  match Setting.ofToml? toml with
  | none => .error (.badSettings "the file is not well-formed")
  | some entries =>
    .ok (entries.foldl (fun setting entry => Setting.put entry.2 (.ofKey entry.1) setting) (.table []))

/-- The settings of a file, if there is one, and of an environment. -/
def load (file : Option String) (environment : List (String × String)) : Except Fault Settings := do
  let setting ← match file with
    | none => pure (.table [])
    | some toml => ofFile toml
  ofSetting (setting.withVariables environment)

end Settings

end MetadataStore
