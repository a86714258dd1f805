set_option autoImplicit false

/-! Result codes of SQLite, the errors they turn into, and the two ways a call
can fail to return: an error the caller may catch, or a tripped safety check. -/

namespace WatershedOracle

/-- The primary result codes listed in sqliteErrors.zig. -/
inductive SqliteErrorEnum
  | SQLITE_OK | SQLITE_ERROR | SQLITE_INTERNAL | SQLITE_PERM | SQLITE_ABORT | SQLITE_BUSY
  | SQLITE_LOCKED | SQLITE_NOMEM | SQLITE_READONLY | SQLITE_INTERRUPT | SQLITE_IOERR
  | SQLITE_CORRUPT | SQLITE_NOTFOUND | SQLITE_FULL | SQLITE_CANTOPEN | SQLITE_PROTOCOL
  | SQLITE_EMPTY | SQLITE_SCHEMA | SQLITE_TOOBIG | SQLITE_CONSTRAINT | SQLITE_MISMATCH
  | SQLITE_MISUSE | SQLITE_NOLFS | SQLITE_AUTH | SQLITE_FORMAT | SQLITE_RANGE | SQLITE_NOTADB
  | SQLITE_NOTICE | SQLITE_WARNING | SQLITE_ROW | SQLITE_DONE
  deriving DecidableEq, Repr

inductive SqliteError
  | UnknownSQLiteError
  | SQLITE_ERROR | SQLITE_INTERNAL | SQLITE_PERM | SQLITE_ABORT | SQLITE_BUSY
  | SQLITE_LOCKED | SQLITE_NOMEM | SQLITE_READONLY | SQLITE_INTERRUPT | SQLITE_IOERR
  | SQLITE_CORRUPT | SQLITE_NOTFOUND | SQLITE_FULL | SQLITE_CANTOPEN | SQLITE_PROTOCOL
  | SQLITE_EMPTY | SQLITE_SCHEMA | SQLITE_TOOBIG | SQLITE_CONSTRAINT | SQLITE_MISMATCH
  | SQLITE_MISUSE | SQLITE_NOLFS | SQLITE_AUTH | SQLITE_FORMAT | SQLITE_RANGE | SQLITE_NOTADB
  | SQLITE_NOTICE | SQLITE_WARNING
  deriving DecidableEq, Repr

/-- Every error name the modelled code raises or passes on. -/
inductive ZigError
  | pointNotInDataset | updateWKT | updateXY | updateNullPoint
  | OutOfMemory | sqlite (e : SqliteError)
  | invalidNMEA | InvalidCharacter | Overflow
  | NoMorePoints | EndOfStream
  | SyntaxError | UnexpectedEndOfInput | UnexpectedToken
  | UnknownField | DuplicateField | MissingField | InvalidNumber
  deriving DecidableEq, Repr

/-- The safety checks of a Debug or ReleaseSafe build. -/
inductive SafetyCheck
  | integerOverflow | indexOutOfBounds | nullUnwrap | unreachableReached
  deriving DecidableEq, Repr

inductive Fault
  | error (e : ZigError)
  | panic (check : SafetyCheck)
  deriving DecidableEq, Repr

/-- Converts an SQLite return code into a Zig error, if applicable. -/
def check : SqliteErrorEnum → Except ZigError Unit
  | .SQLITE_OK => .ok ()
  | .SQLITE_ERROR => .error (.sqlite .SQLITE_ERROR)
  | .SQLITE_INTERNAL => .error (.sqlite .SQLITE_INTERNAL)
  | .SQLITE_PERM => .error (.sqlite .SQLITE_PERM)
  | .SQLITE_ABORT => .error (.sqlite .SQLITE_ABORT)
  | .SQLITE_BUSY => .error (.sqlite .SQLITE_BUSY)
  | .SQLITE_LOCKED => .error (.sqlite .SQLITE_LOCKED)
  | .SQLITE_NOMEM => .error (.sqlite .SQLITE_NOMEM)
  | .SQLITE_READONLY => .error (.sqlite .SQLITE_READONLY)
  | .SQLITE_INTERRUPT => .error (.sqlite .SQLITE_INTERRUPT)
  | .SQLITE_IOERR => .error (.sqlite .SQLITE_IOERR)
  | .SQLITE_CORRUPT => .error (.sqlite .SQLITE_CORRUPT)
  | .SQLITE_NOTFOUND => .error (.sqlite .SQLITE_NOTFOUND)
  | .SQLITE_FULL => .error (.sqlite .SQLITE_FULL)
  | .SQLITE_CANTOPEN => .error (.sqlite .SQLITE_CANTOPEN)
  | .SQLITE_PROTOCOL => .error (.sqlite .SQLITE_PROTOCOL)
  | .SQLITE_EMPTY => .error (.sqlite .SQLITE_EMPTY)
  | .SQLITE_SCHEMA => .error (.sqlite .SQLITE_SCHEMA)
  | .SQLITE_TOOBIG => .error (.sqlite .SQLITE_TOOBIG)
  | .SQLITE_CONSTRAINT => .error (.sqlite .SQLITE_CONSTRAINT)
  | .SQLITE_MISMATCH => .error (.sqlite .SQLITE_MISMATCH)
  | .SQLITE_MISUSE => .error (.sqlite .SQLITE_MISUSE)
  | .SQLITE_NOLFS => .error (.sqlite .SQLITE_NOLFS)
  | .SQLITE_AUTH => .error (.sqlite .SQLITE_AUTH)
  | .SQLITE_FORMAT => .error (.sqlite .SQLITE_FORMAT)
  | .SQLITE_RANGE => .error (.sqlite .SQLITE_RANGE)
  | .SQLITE_NOTADB => .error (.sqlite .SQLITE_NOTADB)
  | .SQLITE_NOTICE => .error (.sqlite .SQLITE_NOTICE)
  | .SQLITE_WARNING => .error (.sqlite .SQLITE_WARNING)
  | .SQLITE_ROW => .ok ()
  | .SQLITE_DONE => .ok ()

/-- The check made on sqlite3_step(): ROW and DONE are returned, all else is raised. -/
def stepCheck (err : SqliteErrorEnum) : Except ZigError SqliteErrorEnum :=
  match err with
  | .SQLITE_ROW | .SQLITE_DONE => .ok err
  | other => do
      check other
      throw (.sqlite .UnknownSQLiteError)

/-- A code that `check` turns into an error. -/
abbrev FailureCode := { code : SqliteErrorEnum // ∃ e, check code = .error (.sqlite e) }

theorem stepCheck_failure (code : FailureCode) : ∃ e, stepCheck code.val = .error (.sqlite e) := by
  obtain ⟨code, e, failed⟩ := code
  -- Neither ROW nor DONE fails the plain check, so the code takes the second branch.
  have passedOn : stepCheck code = (do check code; throw (.sqlite .UnknownSQLiteError)) := by
    cases code <;> first | rfl | cases failed
  exact ⟨e, by rw [passedOn, failed]; rfl⟩

end WatershedOracle
