import MetadataStore.Command
import MetadataStore.Database.Snapshot
import MetadataStore.Settings.Load

/-!
# `Main` — the command line

Reads settings and database, runs one command, keeps the database, and prints the lines of the answer.
Messages go to the error stream, and a command that fails ends with code 1.
-/

namespace MetadataStore.Main

/-- The variables that settings are taken from. -/
def variableNames : List String :=
  ["METAREPO__DATABASE__PATH", "METAREPO__DATABASE__DEADLOCK_MAX_RETRIES",
    "METAREPO__DATABASE__DEADLOCK_BACKOFF_MS", "METAREPO__DATABASE__BUSY_TIMEOUT_MS",
    "METAREPO__CACHE__MAX_SIZE", "METAREPO__CACHE__IDLE_CHECK_INTERVAL",
    "METAREPO__REPOSITORY__DISPOSE_BATCH_SIZE"]

/-- The variables that are set. -/
def environment : IO (List (String × String)) := do
  let mut found := []
  for name in variableNames do
    if let some value ← IO.getEnv name then found := found ++ [(name, value)]
  pure found

/-- The text of a file, if it can be read. -/
def readText (file : String) : IO (Option String) := do
  try
    let text ← IO.FS.readFile file
    pure (some text)
  catch _ => pure none

/-- The database at a path, a new one if there is no file. -/
def readDatabase (path : String) : IO (Option Database) := do
  match ← readText path with
  | some text => pure (Snapshot.ofText? text)
  | none => pure (some .empty)

/-- Keeps a database at a path; whether that was possible is the result. -/
def writeDatabase (path : String) (db : Database) : IO Bool := do
  try
    IO.FS.writeFile path (Snapshot.text db)
    pure true
  catch _ => pure false

/-- Gives up with a message. -/
def giveUp (fault : Fault) : IO UInt32 := do
  IO.eprintln fault.message
  pure 1

/-- Runs the command of some words under settings. -/
def runCommand (settings : Settings) (words : List String) : IO UInt32 := do
  let found ← match settings.path with
    | some path => readDatabase path
    | none => pure none
  match Repository.connect settings found .epoch 0 with
  | .error fault => giveUp fault
  | .ok r =>
    let (outcome, r) := Command.run words r
    if let some path := settings.path then
      unless ← writeDatabase path r.database do return ← giveUp (.cannotOpen path)
    match outcome with
    | .error fault => giveUp fault
    | .ok lines =>
      for line in lines do IO.println line
      pure 0

end MetadataStore.Main

open MetadataStore in
/-- Settings and command come from the arguments. -/
def main (arguments : List String) : IO UInt32 := do
  let (file, words) := Command.cutSettings arguments
  let text ← match file with
    | some file => Main.readText file
    | none => pure none
  match Settings.load text (← Main.environment) with
  | .error fault => Main.giveUp fault
  | .ok settings => Main.runCommand settings words
