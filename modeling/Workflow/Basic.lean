import Mathlib.Order.Fin.Basic
import Workflow.Lib.Decimal
import Workflow.Lib.SortedMap
import Workflow.Lib.Utf8

/-!
# Strings, exceptions, results and log entries

`std::string` is a byte list, `Result<T>` (Result.hpp) the sum of its two
factory functions: its constructor is private, so nothing else can be built.
-/

namespace Workflow

abbrev Byte := Fin 256
abbrev Str := List Byte

-- All byte literals are taken modulo this one number.
instance byteNeZero : NeZero 256 := ⟨by decide⟩

/-- A source text literal (all of them are ASCII). -/
def lit (s : String) : Str := s.toList.map fun c => Fin.ofNat 256 c.toNat

def natToString (n : ℕ) : Str := Decimal.render n

def intToString (z : ℤ) : Str := Decimal.renderInt z

/-- A thrown value: a `std::exception` with its `what()`, or anything else. -/
inductive Exn where
  | std (what : Str)
  | other
  deriving DecidableEq, Repr

/-- `Result<T>` (Result.hpp:20-89). -/
inductive Result (α : Type) where
  | ok (value : α)
  | error (message : Str) (code : Int32)

namespace Result

variable {α : Type}

def isOk : Result α → Bool
  | .ok _ => true
  | .error _ _ => false

def isError (r : Result α) : Bool := !r.isOk

/-- Empty on success (Result.hpp:44). -/
def errorMessage : Result α → Str
  | .ok _ => []
  | .error message _ => message

/-- Zero on success (Result.hpp:88). -/
def errorCode : Result α → Int32
  | .ok _ => 0
  | .error _ code => code

/-- `Result::value()` throws on an error (Result.hpp:55-73). -/
def value : Result α → Except Exn α
  | .ok a => .ok a
  | .error message _ => .error (.std (lit "Result::value() called on error: " ++ message))

end Result

/-- The severities of ILogger.hpp:12-18 that the engine or a command uses. -/
inductive LogLevel where
  | Trace
  | Debug
  | Info
  | Warn
  | Error
  deriving DecidableEq, Repr

structure LogEntry where
  level : LogLevel
  message : Str
  deriving DecidableEq, Repr

theorem valid_natToString (n : ℕ) : Utf8.Valid (natToString n) :=
  Utf8.valid_of_ascii (Decimal.render_ascii n)

end Workflow
