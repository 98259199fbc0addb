import Assay.Fault
import Assay.Text.Case

/-!
# Log records

An operation can report what it does, record by record. Each record has a level and the
part of the program that wrote it. `Logged` is a computation with such records: they are
kept also when it fails.

## Main definitions

* `Log.Level`, `Log.Part`, `Log.Record` — levels, parts and records
* `Log.threshold`, `Log.partName` — the rank set by a name, and the full name of a part
* `Logged` — computations that write log records
-/

namespace Assay

namespace Log

/-- The name of the part of the program above all others. -/
def rootName : String := "inspection_framework"

/-- How detailed a record is. -/
inductive Level where
  | debug | info | warning | error
  deriving DecidableEq, Repr

namespace Level

/-- The name of a level. -/
def name : Level → String
  | debug => "DEBUG"
  | info => "INFO"
  | warning => "WARNING"
  | error => "ERROR"

/-- The rank of a level: more severe levels rank higher. -/
def rank : Level → Nat
  | debug => 10
  | info => 20
  | warning => 30
  | error => 40

/-- All levels. -/
def all : List Level := [debug, info, warning, error]

end Level

/-- The ranks that can be set by a name. -/
def rankNames : List (String × Nat) :=
  [("CRITICAL", 50), ("FATAL", 50), ("ERROR", 40), ("WARNING", 30), ("WARN", 30), ("INFO", 20),
   ("DEBUG", 10), ("NOTSET", 0)]

/-- The default format of records, as it is shown. -/
def recordFormat : String := "'%(levelname)s:%(name)s:%(message)s'"

/-- The styles in which formats of records are written, as they are shown. -/
def recordStyles : String :=
  "\x7b'%': (<class 'logging.PercentStyle'>, " ++ recordFormat ++ "), " ++
    "'\x7b': (<class 'logging.StrFormatStyle'>, " ++
    "'\x7blevelname\x7d:\x7bname\x7d:\x7bmessage\x7d'), " ++
    "'$': (<class 'logging.StringTemplateStyle'>, " ++
    "'$\x7blevelname\x7d:$\x7bname\x7d:$\x7bmessage\x7d')\x7d"

/-- The rank from which records are written, by a name in any case. A name that is not
known stands for warnings; the names of record formats are not names of ranks. -/
def threshold (name : String) : Except Fault Nat :=
  let name := String.ofList (Text.raised name.toList)
  if name = "BASIC_FORMAT" then .error (.unknownLevel recordFormat)
  else if name = "_STYLES" then .error (.notALevel recordStyles)
  else .ok ((rankNames.lookup name).getD 30)

/-- The parts of the program that write log records. -/
inductive Part where
  | reader | statistics | profiler | library | scanner | analyzer
  deriving DecidableEq, Repr

/-- The full name of a part. -/
def Part.name : Part → String
  | reader => rootName ++ ".profiler.structure_parser"
  | statistics => rootName ++ ".profiler.statistics_calculator"
  | profiler => rootName ++ ".profiler.engine"
  | library => rootName ++ ".io_scanner.patterns"
  | scanner => rootName ++ ".io_scanner.scanner"
  | analyzer => rootName ++ ".io_scanner.analyzer"

/-- A log record. -/
structure Record where
  level : Level
  part : Part
  message : String
  deriving DecidableEq, Repr

/-- The full name of a part that gives its name inside or outside the program. -/
def partName (name : String) : String :=
  if name = rootName ∨ (rootName ++ ".").toList.isPrefixOf name.toList then name
  else rootName ++ "." ++ name

end Log

/-- A computation that writes log records, and then succeeds or fails. -/
structure Logged (ε α : Type) where
  log : List Log.Record
  result : Except ε α

namespace Logged

variable {ε α β : Type}

/-- A result without records. -/
def ofExcept (result : Except ε α) : Logged ε α := ⟨[], result⟩

/-- One record. -/
def write (level : Log.Level) (part : Log.Part) (message : String) : Logged ε Unit :=
  ⟨[⟨level, part, message⟩], .ok ()⟩

/-- A computation, then one that depends on its result. -/
def andThen (x : Logged ε α) (f : α → Logged ε β) : Logged ε β :=
  match x.result with
  | .ok a => ⟨x.log ++ (f a).log, (f a).result⟩
  | .error e => ⟨x.log, .error e⟩

instance : Monad (Logged ε) where
  pure a := ⟨[], .ok a⟩
  bind := andThen

instance : MonadLift (Except ε) (Logged ε) := ⟨ofExcept⟩

@[simp] theorem result_ofExcept (x : Except ε α) : (ofExcept x).result = x := rfl

/-- The results are computed as if there were no records. -/
theorem result_bind (x : Logged ε α) (f : α → Logged ε β) :
    (x >>= f).result = x.result >>= fun a => (f a).result := by
  cases h : x.result <;> simp [bind, andThen, Except.bind, h]

end Logged

end Assay
