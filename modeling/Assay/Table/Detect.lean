import Assay.FileName
import Assay.Table.Error

/-!
# Formats of file names

The extension of a file name suggests a format, and sometimes a delimiter.

## Main definitions

* `Format.detect` — the format and the delimiter that a file name suggests
-/

namespace Assay

/-- The format that a file name suggests, and the delimiter if it implies one. -/
def Format.detect (path : String) : Format × Option String :=
  let e := FileName.extension path
  (if e = ".json" then .nested else .delimited, if e = ".tsv" then some "\t" else none)

end Assay
