/-
Scripts carried out on files that are held in memory.

A path is followed name by name from the working directory. The directories above it, the root and a few that every
system has are there too, but nothing is known to be in them besides what is written there.
-/
import RoadRules.Command.Script

namespace RoadRules

/-- why a file cannot be read or written -/
inductive FileError where
  | noSuchFile
  | notADirectory
  | isADirectory
  | nameTooLong
  deriving DecidableEq, Repr

def FileError.message : FileError → String
  | .noSuchFile => "No such file or directory (os error 2)"
  | .notADirectory => "Not a directory (os error 20)"
  | .isADirectory => "Is a directory (os error 21)"
  | .nameTooLong => "File name too long (os error 36)"

/-- the names on the way from the working directory, with `..` in front for those above it, or from the root `/` -/
abbrev Trail := List String

/-- the directory that holds a directory; the root holds itself -/
def Trail.parent (t : Trail) : Trail :=
  if t == ["/"] then t
  else if t.all (· == "..") then t ++ [".."]
  else t.dropLast

/-- where a path leads to -/
inductive Place where
  | directory (trail : Trail)
  | file (trail : Trail)
  /-- a name in a directory that bears nothing -/
  | vacant (trail : Trail)

structure Directory where
  files : List (Trail × String)

namespace Directory

/-- the names that a path is made of, besides the root -/
def names (path : String) : List String := (path.splitOn "/").filter (!·.isEmpty)

def start (path : String) : Trail := if path.startsWith "/" then ["/"] else []

def ofFiles (files : List (String × String)) : Directory := ⟨files.map fun f => (start f.1 ++ names f.1, f.2)⟩

/-- the file that is always empty, whatever is written to it -/
def void : Trail := ["/", "dev", "null"]

def systemDirectories : List Trail := ["dev", "etc", "home", "tmp", "usr", "var"].map fun name => ["/", name]

def find? (d : Directory) (t : Trail) : Option String := if t = void then some "" else d.files.lookup t

/-- is there a directory? one with a file somewhere in it is -/
def hasDirectory (d : Directory) (t : Trail) : Bool :=
  t.all (· == "..") || t == ["/"] || systemDirectories.contains t ||
    d.files.any fun f => t.isPrefixOf f.1 && f.1 != t

/-- one name further from a directory; a name has at most 255 bytes -/
def enter (d : Directory) (t : Trail) (name : String) : Except FileError Place :=
  if name == "." then .ok (.directory t)
  else if name == ".." then .ok (.directory t.parent)
  else if 255 < name.utf8ByteSize then .error .nameTooLong
  else if (d.find? (t ++ [name])).isSome then .ok (.file (t ++ [name]))
  else if d.hasDirectory (t ++ [name]) then .ok (.directory (t ++ [name]))
  else .ok (.vacant (t ++ [name]))

/-- follows names from a place -/
def follow (d : Directory) : Place → List String → Except FileError Place
  | place, [] => .ok place
  | .file _, _ :: _ => .error .notADirectory
  | .vacant _, _ :: _ => .error .noSuchFile
  | .directory t, name :: rest => do d.follow (← d.enter t name) rest

/-- a path has at most 4095 bytes -/
def checkLength (path : String) : Except FileError Unit :=
  if path.isEmpty then .error .noSuchFile
  else if 4095 < path.utf8ByteSize then .error .nameTooLong
  else .ok ()

/-- the contents of a file; a slash at the end of a path calls for a directory -/
def read (d : Directory) (path : String) : Except FileError String := do
  checkLength path
  match ← d.follow (.directory (start path)) (names path) with
  | .directory _ => .error .isADirectory
  | .vacant _ => .error .noSuchFile
  | .file t =>
    if path.endsWith "/" then .error .notADirectory
    else match d.find? t with
      | some text => .ok text
      | none => .error .noSuchFile

/-- puts a text into a file, which is created if its directory is there; a slash at the end of a path is refused before
the last name is looked up -/
def write (d : Directory) (path text : String) : Except FileError Directory := do
  checkLength path
  match ← d.follow (.directory (start path)) (names path).dropLast, (names path).getLast? with
  | .file _, _ => .error .notADirectory
  | .vacant _, _ => .error .noSuchFile
  | .directory _, none => .error .isADirectory
  | .directory t, some name =>
    if path.endsWith "/" then .error .isADirectory
    else match ← d.enter t name with
      | .directory _ => .error .isADirectory
      | .file t | .vacant t => .ok (if t = void then d else ⟨(t, text) :: d.files.filter (·.1 != t)⟩)

end Directory

/-- what a program has left behind -/
structure Transcript where
  code : Nat := 0
  stdout : String := ""
  stderr : String := ""
  directory : Directory

namespace Transcript

/-- ends with an error -/
def fail (t : Transcript) (message : String) : Transcript :=
  { t with code := 1, stderr := t.stderr ++ s!"Error: {message}\n" }

end Transcript

/-- carries out actions one after the other, and then ends with the failure -/
def Script.runIn (t : Transcript) (failure : Option String) : List Action → Transcript
  | [] =>
    match failure with
    | none => t
    | some e => t.fail e
  | .print text :: rest => runIn { t with stdout := t.stdout ++ text ++ "\n" } failure rest
  | .note line :: rest => runIn { t with stderr := t.stderr ++ line ++ "\n" } failure rest
  | .write path text :: rest =>
    match t.directory.write path text with
    | .ok directory => runIn { t with directory } failure rest
    | .error e => t.fail e.message

/-- the program with some arguments in a directory; arguments that are not understood give the code 2 -/
def Directory.run (d : Directory) (args : List String) : Transcript :=
  match Command.ofArguments args with
  | .error .help => { stdout := Command.usage, directory := d }
  | .error .version => { stdout := Command.version, directory := d }
  | .error .rejected => { code := 2, stderr := Command.usage, directory := d }
  | .ok c =>
    let s := c.script fun path => (d.read path).mapError FileError.message
    s.actions |> Script.runIn { directory := d } s.failure

end RoadRules
