import Assay.Command.Folder
import Assay.Text.Split
import Assay.Value.Shown

/-!
# Addresses

Where a summary is saved, a path can be an address: a scheme, a colon, and what the scheme
makes of the rest. Some schemes are fetched from the network or from the folder, all others
need a file system that is not there. Nothing is ever put at an address; at best something
is found there.

## Main definitions

* `Address`, `Address.ofPath?` — addresses, and the one that a path is
* `Address.find` — whether something is found at an address
-/

namespace Assay

/-- A path that leads out of all folders. -/
inductive Address where
  /-- By a scheme, to a machine that can have a name. -/
  | fetched (scheme host rest : String)
  /-- Into another file system. -/
  | mounted
  deriving DecidableEq, Repr

namespace Address

/-- The schemes that are fetched. -/
def schemes : List String :=
  ["file", "ftp", "git", "git+ssh", "gopher", "hdl", "http", "https", "imap", "mms",
   "nfs", "nntp", "prospero", "rsync", "rtsp", "rtsps", "rtspu", "sftp", "shttp", "sip",
   "sips", "snews", "svn", "svn+ssh", "tel", "telnet", "wais", "ws", "wss"]

/-- A character that a scheme can have. -/
def isSchemeChar (c : Char) : Bool := c.isAlphanum || "+-.".toList.contains c

/-- The scheme of a path, in lower case, and what stands behind its colon. -/
def splitScheme? (path : List Char) : Option (String × List Char) :=
  match path.span (· ≠ ':') with
  | ([], _) | (_, []) => none
  | (before, _ :: rest) =>
    if before.all isSchemeChar then some (String.ofList (before.map Char.toLower), rest) else none

/-- The name of a machine between two slashes and a third one, and the rest. -/
def splitHost (rest : List Char) : String × String :=
  match rest with
  | '/' :: '/' :: cs =>
    let (host, path) := cs.span fun c => !"/?#".toList.contains c
    (String.ofList host, String.ofList path)
  | cs => ("", String.ofList cs)

/-- The path leads into another file system: behind its schemes stand a colon and two
slashes. -/
def isMounted (path : List Char) : Bool :=
  match (Text.splitOn "://".toList path).map (Text.splitOn "::".toList) with
  | ((first :: more) :: _ :: _) =>
    first.head?.any Char.isAlpha && (first :: more).all fun s => !s.isEmpty && s.all isSchemeChar
  | _ => false

/-- The address that a path is, if it is one. -/
def ofPath? (path : String) : Option Address :=
  match splitScheme? (path.toList.dropWhile (·.toNat ≤ 32)) with
  | some (scheme, rest) =>
    if schemes.contains scheme then
      let (host, rest) := splitHost (rest.takeWhile (· ≠ '#'))
      some (.fetched scheme host rest)
    else if isMounted path.toList then some .mounted
    else none
  | none => if isMounted path.toList then some .mounted else none

/-- The machine where the program runs. -/
def isLocal (host : String) : Bool :=
  host.startsWith "localhost" || host.startsWith "127."

/-- Why a machine is not reached: there is no network. -/
def noRoute (host : String) : Fault :=
  .unreachable (if isLocal host then "[Errno 111] Connection refused"
    else "[Errno -3] Temporary failure in name resolution")

/-- Find a file of the folder. -/
def findFile (f : Folder) (path : String) : Except Fault Unit :=
  let failed (e : PathError) : Except Fault Unit :=
    .error (.unreachable (e.message (Text.quote path)))
  match f.place path with
  | .error .zeroCharacter => .error (.badPath .zeroCharacter path)
  | .error e => failed e
  | .ok place =>
    match f.at? place with
    | none => failed .missing
    | some .directory => failed .isADirectory
    | some (.file _) => .ok ()

/-- Find what is at an address. -/
def find (f : Folder) : Address → Except Fault Unit
  | mounted => .error (.lacksPackage "fsspec")
  | fetched scheme host rest =>
    if scheme = "file" then findFile f rest
    else if scheme = "http" ∨ scheme = "https" then
      .error (if host = "" then .unreachable "no host given" else noRoute host)
    else if scheme = "ftp" then
      .error (if host = "" then .unreachable "ftp error: no host given" else noRoute host)
    else .error (.unreachable ("unknown url type: " ++ scheme))

end Address

end Assay
