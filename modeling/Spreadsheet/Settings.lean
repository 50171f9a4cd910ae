import Spreadsheet.CellRef
import Spreadsheet.Text.Uppercase

/-!
# Settings

How large a sheet may be, and how much is to be logged. Settings come from an environment of named
texts; a name that is absent, or blank where a number is wanted, leaves the default: the bounds of a
common spreadsheet program, and warnings.

A log level is any name until it is put to use. `logSeverity` says which names mean something.
-/

namespace Spreadsheet

open Text Numeral

/-- The bounds of sheets, and the log level. -/
structure Settings where
  maxRows : Nat
  maxCols : Nat
  logLevel : String
  deriving DecidableEq, Repr

namespace Settings

/-- The settings of an environment that says nothing. -/
def standard : Settings := ⟨1048576, 16384, "WARNING"⟩

instance : Inhabited Settings := ⟨standard⟩

/-! ## Reading -/

/-- An environment gives some names a text. -/
abbrev Environment := String → Option String

/-- Reads a positive number, or takes the default where there is none. -/
def readBound (env : Environment) (name : String) (default : Nat) : Except Fault Nat :=
  match env name with
  | none => .ok default
  | some text =>
    if (strip text).isEmpty then .ok default
    else match readSigned? text.toList with
      | none => .error (.setting (.notInteger name text))
      | some value =>
        if 1 ≤ value then .ok value.toNat else .error (.setting (.belowOne name value))

/-- Reads the settings of an environment. -/
def ofEnvironment (env : Environment) : Except Fault Settings := do
  let maxRows ← readBound env "SHEETCALC_MAX_ROWS" standard.maxRows
  let maxCols ← readBound env "SHEETCALC_MAX_COLS" standard.maxCols
  return ⟨maxRows, maxCols, upper ((env "SHEETCALC_LOG_LEVEL").getD standard.logLevel)⟩

theorem readBound_pos {env : Environment} {name : String} {default bound : Nat}
    (hdefault : 0 < default) (h : readBound env name default = .ok bound) : 0 < bound := by
  unfold readBound at h
  split at h
  · cases h; exact hdefault
  · split at h
    · cases h; exact hdefault
    · split at h
      · cases h
      · split at h
        · cases h; omega
        · cases h

/-! ## Use -/

/-- Whether a position lies inside the bounds. -/
def inBounds (s : Settings) (p : Position) : Bool :=
  decide (1 ≤ p.row) && decide (p.row ≤ s.maxRows) &&
    (decide (1 ≤ p.col) && decide (p.col ≤ s.maxCols))

/-- The severity that a log level stands for. -/
def logSeverity (s : Settings) : Except Fault Nat :=
  match s.logLevel with
  | "CRITICAL" | "FATAL" => .ok 50
  | "ERROR" => .ok 40
  | "WARNING" | "WARN" => .ok 30
  | "INFO" => .ok 20
  | "DEBUG" => .ok 10
  | "NOTSET" => .ok 0
  | level => .error (.setting (.logLevel level))

/-- Settings in one line. -/
def display (s : Settings) : String :=
  "<Settings max_rows=" ++ write s.maxRows ++ " max_cols=" ++ write s.maxCols
    ++ " log_level=" ++ s.logLevel ++ ">"

end Settings

end Spreadsheet
