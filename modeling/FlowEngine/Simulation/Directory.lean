import FlowEngine.Cli.Session

/-!
# Directories

A simulated directory that holds files of text, perhaps in directories of its own, and that is the
working directory of the program. Around it there are only the usual directories of a system, and
the file that is always empty.

## Main definitions

* `Directory`: files of text by their paths.
* `Directory.Place`, `Directory.locate`: where a path leads.
* `Directory.content`, `Directory.writable`: what can be read and written there.
* `Directory.textAfter`: what is there in the end.
* `Surroundings.ofDirectory`: the surroundings of a program that is started there.
-/

namespace FlowEngine

/-- Files of text by their paths. -/
abbrev Directory := Dict String

namespace Directory

/-- Why there is nothing to open. -/
inductive Fault where
  | missing
  | notDirectory
  | isDirectory
  | nameTooLong
  deriving DecidableEq

/-- The reason that a fault is given. -/
def Fault.message : Fault → String
  | .missing => "No such file or directory (os error 2)"
  | .notDirectory => "Not a directory (os error 20)"
  | .isDirectory => "Is a directory (os error 21)"
  | .nameTooLong => "File name too long (os error 36)"

/-- A place: the names of the directories on the way to it, and its own. -/
inductive Place where
  /-- In the directory itself. -/
  | inside (names : List String)
  /-- In the system around it. -/
  | outside (names : List String)
  deriving DecidableEq

/-- What stands at a place. -/
inductive Item where
  | file (text : String)
  | directory

/-- The names that a path consists of. A path that ends in a slash has an empty name at its end. -/
def names (path : String) : List String := path.splitOn "/"

/-- A name that leads to where it stands. -/
def staysPut (name : String) : Bool := name == "" || name == "."

/-- The names of a path that ends in a slash, without its end. -/
def ofDirectory? (names : List String) : Option (List String) :=
  match names.reverse with
  | "" :: rest => some (rest.dropWhile (· == "")).reverse
  | _ => none

/-- The names that count in the path of a file of the directory. -/
def filePath (path : String) : List String := (names path).filter fun name => !staysPut name

/-- The usual directories of a system. -/
def systemDirectories : List String :=
  ["bin", "dev", "etc", "home", "lib", "opt", "proc", "root", "run", "sbin", "srv", "sys", "tmp",
    "usr", "var"]

/-- The file that is always empty. -/
def emptyFile : List String := ["dev", "null"]

/-- The directory that the simulated one lies in. -/
def parent : Place := .outside ["tmp"]

/-- What stands at a place. -/
def item? (d : Directory) : Place → Option Item
  | .inside path =>
    match List.find? (fun e => filePath e.1 == path) d.entries with
    | some (_, text) => some (.file text)
    | none =>
      if path.isEmpty || List.any d.entries fun e => path.isPrefixOf (filePath e.1) then
        some .directory
      else none
  | .outside [] => some .directory
  | .outside [name] => if systemDirectories.contains name then some .directory else none
  | .outside path => if path = emptyFile then some (.file "") else none

/-- The greatest number of bytes of a name. -/
def longestName : Nat := 255

/-- The greatest number of bytes of a path. -/
def longestPath : Nat := 4095

/-- Where a name leads from a place. -/
def step (d : Directory) (place : Place) (name : String) : Except Fault Place :=
  match d.item? place with
  | none => .error .missing
  | some (.file _) => .error .notDirectory
  | some .directory =>
    if staysPut name then .ok place
    else if longestName < name.utf8ByteSize then .error .nameTooLong
    else match place with
      | .inside path =>
        if name != ".." then .ok (.inside (path ++ [name]))
        else .ok (if path.isEmpty then parent else .inside path.dropLast)
      | .outside path =>
        .ok (.outside (if name == ".." then path.dropLast else path ++ [name]))

/-- Where names lead, from the root of the system if the first one is empty. -/
def follow (d : Directory) (names : List String) : Except Fault Place :=
  let start : Place := if names.head? = some "" then .outside [] else .inside []
  names.foldlM d.step start

/-- The names that a path consists of, unless there are none or the path is too long. -/
def checkedNames (path : String) : Except Fault (List String) :=
  if path.isEmpty then .error .missing
  else if longestPath < path.utf8ByteSize then .error .nameTooLong
  else .ok (names path)

/-- Where a path leads. -/
def locate (d : Directory) (path : String) : Except Fault Place := do
  d.follow (← checkedNames path)

/-- The content of the file at a path. -/
def content (d : Directory) (path : String) : Except String ByteArray :=
  let opened : Except Fault ByteArray := do
    match d.item? (← d.locate path) with
    | some (.file text) => return text.toUTF8
    | some .directory => throw .isDirectory
    | none => throw .missing
  opened.mapError Fault.message

/-- Whether a file can be written at a path. A path that ends like that of a directory is never one
of a file, whatever stands there. -/
def writable (d : Directory) (path : String) : Except String Unit :=
  let opened : Except Fault Unit := do
    match ofDirectory? (← checkedNames path) with
    | some names =>
      let _ ← d.follow names.dropLast
      throw .isDirectory
    | none =>
      match d.item? (← d.locate path) with
      | some .directory => throw .isDirectory
      | _ => return
  opened.mapError Fault.message

/-- The text of the file at a path after the program has run. -/
def textAfter (d : Directory) (t : Transcript) (path : String) : Option String :=
  match d.locate path with
  | .error _ => none
  | .ok place =>
    let written := t.written.filter fun w => match d.locate w.1 with
      | .ok there => there = place
      | .error _ => false
    (written.map Prod.snd).or <| match d.item? place with
      | some (.file text) => some text
      | _ => none

end Directory

/-- The surroundings of a program that is started in a directory, without any variables. -/
def Surroundings.ofDirectory (d : Directory) (supply : Supply) : Surroundings where
  environment := fun _ => none
  content := d.content
  writable := d.writable
  supply := supply

end FlowEngine
