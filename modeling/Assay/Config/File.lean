import Assay.Config.Basic
import Assay.Yaml.Value

/-!
# Configuration files

A configuration file is a YAML document in UTF-8 of limited size, whose value is a
record within the limits on depth, size and lengths. A document without a value sets
nothing.

## Main definitions

* `Config.ofYaml` — the settings of a document
* `Config.ofFile` — the settings of a file
-/

namespace Assay.Config

/-- A failure to read a document, as one to read a configuration. -/
def yamlFailure : Failure Yaml.Error → Failure ConfigError :=
  Failure.map fun e => if e = .badEncoding then .notUtf8 else .notYaml

/-- The settings of the value of a document. -/
def ofDocument (v : Setting) : Except (Failure ConfigError) Config := do
  match v with
  | .null => ofFields []
  | .record fs =>
    (checkShape v).mapError .declared
    ofFields fs
  | _ => declare .rootNotARecord

/-- The settings of a document. Its value is read as far as the limits reach. -/
def ofYaml (source : Yaml.Source) : Except (Failure ConfigError) Config := do
  ofDocument (← (source.value (maxDepth + 1) maxKeys).mapError yamlFailure)

/-- The settings of the file of a path, which may not exist. -/
def ofFile (path : String) (bytes : Option ByteArray) : Except (Failure ConfigError) Config :=
  match bytes with
  | none => declare (.fileNotFound path)
  | some bytes =>
    if maxFileSize < bytes.size then declare (.fileTooLarge bytes.size)
    else ofYaml (.ofBytes bytes)

end Assay.Config
