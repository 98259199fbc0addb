import Assay.FileName

/-!
# Archives

An archive holds a file in blocks of 512 bytes behind a header. The fields of a header are
texts and octal numbers, each filled up with zeros to its width, and one of them is the sum
of all bytes, in which it counts as blanks itself. A name that is not ASCII or does not fit
into its field stands in a row of attributes in front of the file. Two blocks of zeros end
an archive, which is filled up to a multiple of 20 blocks.

## Main definitions

* `Archive.nameOf?` — the name of the file in an archive of a path
* `Archive.header` — the header of a file
* `Archive.ofFile` — the archive of a file
-/

namespace Assay.Archive

/-- The extension of a path of an archive. -/
def mark : String := ".tar"

/-- The name of the file in an archive, which is the one of the archive without its extension,
if the path is one of an archive. An extension in capitals is kept. -/
def nameOf? (path : String) : Option String :=
  let name := FileName.last path
  if !mark.toList.isSuffixOf (Text.lowered path.toList) then none
  else if mark.toList.isSuffixOf name.toList ∧ FileName.extension path = mark then
    some (String.ofList (name.toList.take (name.length - mark.length)))
  else some name

/-- The number of bytes of a text. -/
def size (cs : List Char) : Nat := (String.ofList cs).utf8ByteSize

/-- A row of zeros. -/
def zeros (n : Nat) : List Char := List.replicate n '\x00'

/-- A text, filled up with zeros to a multiple of so many bytes. -/
def filled (unit : Nat) (cs : List Char) : List Char :=
  cs ++ zeros ((unit - size cs % unit) % unit)

/-- A field of a width with an ASCII text, of which it holds what fits. -/
def field (width : Nat) (cs : List Char) : List Char := (cs ++ zeros width).take width

/-- A field of a width with an octal number and a zero behind it. -/
def octal (width n : Nat) : List Char :=
  let ds := Nat.toDigits 8 n
  List.replicate (width - 1 - ds.length) '0' ++ ds ++ zeros 1

/-- The header of a file of a kind, with its permissions and its size. -/
def header (name : List Char) (permissions fileSize : Nat) (kind : Char) : List Char :=
  let front := field 100 name ++ octal 8 permissions ++ octal 8 0 ++ octal 8 0 ++
    octal 12 fileSize ++ octal 12 0
  let back := kind :: field 100 [] ++ field 6 "ustar".toList ++ field 2 ['0', '0'] ++ zeros 235
  let sum := (front ++ back).foldl (fun sum c => sum + c.toNat) (8 * ' '.toNat)
  filled 512 (front ++ octal 7 sum ++ ' ' :: back)

/-- A row with the name of a file, behind the number of its own bytes. -/
def nameRow (name : List Char) : List Char :=
  let row := " path=".toList ++ name ++ ['\n']
  let count (n : Nat) : Nat := size row + (Nat.toDigits 10 n).length
  Nat.toDigits 10 (count (count (count (size row)))) ++ row

/-- The attributes in front of a file whose name does not fit into its header. -/
def attributes (name : List Char) : List Char :=
  if name.all (·.toNat < 128) ∧ name.length ≤ 100 then []
  else
    let row := nameRow name
    header "././@PaxHeader".toList 0 (size row) 'x' ++ filled 512 row

/-- The archive of a file. -/
def ofFile (name content : String) : String :=
  let shown := name.toList.map fun c => if c.toNat < 128 then c else '?'
  String.ofList (filled 10240 (attributes name.toList ++
    header shown 420 content.utf8ByteSize '0' ++ filled 512 content.toList ++ zeros 1024))

end Assay.Archive
