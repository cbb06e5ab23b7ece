/-!
# `Settings.Basic` — how a repository is set up

## Contents
- `Settings` with its defaults; `Settings.inMemory`, the settings of a private repository.
- `Settings.sweepInterval?`, `Settings.batch`.
-/

namespace MetadataStore

/-- The settings of a repository. -/
structure Settings where
  /-- Where the database is; none means a private one in memory. -/
  path : Option String
  /-- How often a transaction is attempted, zero counting as one. -/
  maxRetries : Nat
  /-- The pause between attempts in milliseconds. -/
  backoffMillis : Nat
  /-- How long the engine itself waits for the database, in milliseconds. -/
  busyTimeoutMillis : Nat
  /-- How many units the cache holds. -/
  cacheSize : Nat
  /-- Seconds between sweeps of the cache, zero meaning none. -/
  sweepSeconds : Nat
  /-- How many units a step of disposal looks at, zero counting as one. -/
  disposeBatch : Nat
  deriving DecidableEq, Repr

namespace Settings

/-- The settings where nothing else is said. -/
def default : Settings :=
  ⟨none, 100, 200, 0, 1000, 60, 1000⟩

/-- The settings of a private repository without sweeps. -/
def inMemory : Settings :=
  { default with sweepSeconds := 0 }

/-- The seconds between sweeps, if there are any sweeps. -/
def sweepInterval? (settings : Settings) : Option Nat :=
  if settings.sweepSeconds = 0 then none else some settings.sweepSeconds

/-- How many units a step of disposal looks at. -/
def batch (settings : Settings) : Nat :=
  max settings.disposeBatch 1

theorem batch_pos (settings : Settings) : 0 < settings.batch :=
  Nat.lt_of_lt_of_le Nat.zero_lt_one (Nat.le_max_right _ _)

end Settings

end MetadataStore
