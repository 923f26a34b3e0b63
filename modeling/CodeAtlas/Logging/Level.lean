import CodeAtlas.Text.LetterCase

/-!
# Levels of a log

A level has a name and a number; two names share a number where one is an older form of the other. A
level is found under its name in capital letters, by the rules of Unicode.
-/

namespace CodeAtlas

/-- A level of a log. -/
inductive Level where
  | critical
  | fatal
  | error
  | warn
  | warning
  | info
  | debug
  | notset
  deriving DecidableEq, Inhabited

namespace Level

/-- All levels. -/
def all : List Level := [critical, fatal, error, warn, warning, info, debug, notset]

/-- The name of a level. -/
def name : Level → String
  | critical => "CRITICAL"
  | fatal => "FATAL"
  | error => "ERROR"
  | warn => "WARN"
  | warning => "WARNING"
  | info => "INFO"
  | debug => "DEBUG"
  | notset => "NOTSET"

/-- The name of a level in small letters. -/
def lowerName (l : Level) : Text := (Text.ofString l.name).lower

/-- The number of a level. -/
def number : Level → Nat
  | critical | fatal => 50
  | error => 40
  | warn | warning => 30
  | info => 20
  | debug => 10
  | notset => 0

/-- The level that a text names, whatever the case of its letters. -/
def ofText? (t : Text) : Option Level := all.find? fun l ↦ Text.ofString l.name = t.upper

/-- Every level is listed. -/
theorem mem_all (l : Level) : l ∈ all := by cases l <;> decide

end Level

end CodeAtlas
