import GeneticProgram.Text.Capital
import GeneticProgram.Text.Quoted

/-!
# Logging

Records carry a level, and a journal keeps those whose level reaches its threshold.  A threshold is
given as a number or as the name of a level.
-/

namespace GeneticProgram

/-- How important a record is. -/
inductive Level
  | notset
  | debug
  | info
  | warning
  | error
  | critical
deriving DecidableEq

namespace Level

/-- The number of a level. -/
def number : Level → Int
  | .notset => 0
  | .debug => 10
  | .info => 20
  | .warning => 30
  | .error => 40
  | .critical => 50

/-- The name of a level in records. -/
def name : Level → String
  | .notset => "NOTSET"
  | .debug => "DEBUG"
  | .info => "INFO"
  | .warning => "WARNING"
  | .error => "ERROR"
  | .critical => "CRITICAL"

/-- The level of a name in capitals; two levels have a second name. -/
def ofName? : String → Option Level
  | "NOTSET" => some .notset
  | "DEBUG" => some .debug
  | "INFO" => some .info
  | "WARNING" => some .warning
  | "WARN" => some .warning
  | "ERROR" => some .error
  | "CRITICAL" => some .critical
  | "FATAL" => some .critical
  | _ => none

end Level

/-- A threshold as it is given. -/
inductive LevelSetting
  | unset
  | flag (value : Bool)
  | number (value : Int)
  | named (name : String)
deriving DecidableEq

/-- A threshold that is not a level. -/
structure LevelError where
  /-- What was given. -/
  setting : LevelSetting
deriving DecidableEq

namespace LevelSetting

/-- The number of a threshold; the case of a name does not matter. -/
def resolve : LevelSetting → Except LevelError Int
  | .unset => .error ⟨.unset⟩
  | .flag value => .ok (if value then 1 else 0)
  | .number value => .ok value
  | .named name =>
    match Level.ofName? (Text.capitals name) with
    | some level => .ok level.number
    | none => .error ⟨.named name⟩

/-- A threshold in a message. -/
def text : LevelSetting → String
  | .unset => "None"
  | .flag value => if value then "True" else "False"
  | .number value => toString value
  | .named name => Text.quoted name

end LevelSetting

/-- The wording of a refusal. -/
def LevelError.message (error : LevelError) : String :=
  "Unknown log level: " ++ error.setting.text

/-- A record. -/
structure LogRecord where
  /-- How important it is. -/
  level : Level
  /-- The part of the program that made it. -/
  origin : String
  /-- What it says. -/
  message : String
deriving DecidableEq

namespace LogRecord

/-- A program was read. -/
def parsed (source : String) : LogRecord := ⟨.debug, "epox.parser", "Parsed program: " ++ source⟩

/-- A function was registered, for the first time or again. -/
def registered (name : String) (again : Bool) : LogRecord :=
  ⟨.debug, "epox.registry",
    (if again then "Overwriting function " else "Registering function ") ++ name⟩

/-- A phase is announced to a number of listeners. -/
def announced (phase : String) (listeners : Nat) : LogRecord :=
  ⟨.debug, "epox.life", s!"Pool selection {phase} -> {listeners} listeners"⟩

/-- A record as one line, behind the time at which it was made; the level fills eight columns. -/
def line (record : LogRecord) (time : String) : String :=
  let padding := String.ofList (List.replicate (8 - record.level.name.length) ' ')
  s!"{time} {record.level.name}" ++ padding ++ s!" {record.origin}: {record.message}\n"

end LogRecord

/-- The name of the logger to which thresholds belong. -/
def loggerName : String := "epox"

/-- A threshold of zero stands for the one that holds when none is set. -/
def effectiveThreshold (threshold : Int) : Int :=
  if threshold = 0 then Level.warning.number else threshold

/-- The record reaches a threshold. -/
def LogRecord.passes (record : LogRecord) (threshold : Int) : Bool :=
  effectiveThreshold threshold ≤ record.level.number

/-- The records that were kept, under the threshold at the time. -/
structure Journal where
  /-- The threshold; zero if none is set. -/
  threshold : Int := 0
  /-- The records, the first one first. -/
  records : List LogRecord := []

namespace Journal

/-- Keep a record if it reaches the threshold. -/
def add (journal : Journal) (record : LogRecord) : Journal :=
  if record.passes journal.threshold then
    { journal with records := journal.records ++ [record] }
  else journal

/-- Hand out the records and forget them. -/
def drain (journal : Journal) : List LogRecord × Journal :=
  (journal.records, { journal with records := [] })

end Journal
end GeneticProgram
