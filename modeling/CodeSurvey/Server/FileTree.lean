import CodeSurvey.Config.File
import CodeSurvey.Text.Quoted

/-!
# File trees

The files and directories around a working directory, and what a path leads to among them. Paths
are followed from the working directory or from the root of the file system, where only the usual
directories are known.
-/

namespace CodeSurvey

/-- The directory that a location is counted from. -/
inductive Base where
  /-- So many directories above the working directory. -/
  | above (ups : Nat)
  /-- The root of the file system. -/
  | root
deriving DecidableEq, Repr

/-- A path that has been followed: its base, and the names down from there. -/
structure Location where
  base : Base
  names : List Text
deriving DecidableEq, Repr

/-- Files by their locations; an entry without content is a directory. -/
structure FileTree where
  entries : List (Location × Option Text)

/-- What stands at a location of a tree. -/
inductive TreeEntry where
  | missing
  | directory
  | device
  | file (content : Text)
deriving DecidableEq, Repr

/-- What stands there for one who reads: every file of a tree can be read to its end. -/
def TreeEntry.state : TreeEntry → FileState
  | missing => .missing
  | directory => .directory
  | device => .device
  | file content => .file ⟨content, none⟩

/-- Why a file cannot be opened. -/
inductive OpenFault where
  | noSuchFile
  | notDirectory
  | isDirectory
  | nameTooLong
  /-- There is a null character in the path. -/
  | nullCharacter
deriving DecidableEq, Repr

namespace OpenFault

/-- The class of a fault. -/
def className : OpenFault → String
  | noSuchFile => "FileNotFoundError"
  | notDirectory => "NotADirectoryError"
  | isDirectory => "IsADirectoryError"
  | nameTooLong => "OSError"
  | nullCharacter => "ValueError"

/-- The message of a fault, with the path that was asked for. -/
def message (path : Text) : OpenFault → Text
  | noSuchFile => "[Errno 2] No such file or directory: ".toList ++ Text.quoted path
  | notDirectory => "[Errno 20] Not a directory: ".toList ++ Text.quoted path
  | isDirectory => "[Errno 21] Is a directory: ".toList ++ Text.quoted path
  | nameTooLong => "[Errno 36] File name too long: ".toList ++ Text.quoted path
  | nullCharacter => "embedded null byte".toList

/-- Whether a fault comes from the file system, and not from the path alone. -/
def fromSystem (f : OpenFault) : Bool :=
  f != nullCharacter

end OpenFault

namespace Location

/-- The working directory. -/
def here : Location :=
  ⟨.above 0, []⟩

/-- The location one part on, which has to start from a directory. -/
def step (l : Location) (part : Text) : Location :=
  if part.isEmpty || part = ['.'] then l
  else if part = ['.', '.'] then
    match l.base, l.names with
    | .above n, [] => ⟨.above (n + 1), []⟩
    | .root, [] => l
    | base, names => ⟨base, names.dropLast⟩
  else { l with names := l.names ++ [part] }

/-- The directories that every file system has, by their names from the root. -/
def usual : List (List Text) :=
  ["bin", "dev", "etc", "home", "lib", "opt", "proc", "root", "run", "sbin", "sys", "tmp", "usr",
    "var"].map fun name => [name.toList]

/-- The location of the device that forgets what is written to it. -/
def nowhere : Location :=
  ⟨.root, ["dev".toList, "null".toList]⟩

end Location

namespace FileTree

/-- The parts of a path. -/
def parts (path : Text) : List Text :=
  Text.splitWhen (· == '/') path

/-- The tree of named files. -/
def ofNames (l : List (Text × Option Text)) : FileTree :=
  ⟨l.map fun f =>
    (⟨.above 0, (parts f.1).filter fun p => !p.isEmpty && p ≠ ['.']⟩, f.2)⟩

/-- Whether a location is that of a directory that holds another location. -/
def holds (l inner : Location) : Bool :=
  l.base == inner.base && l.names.isPrefixOf inner.names

/-- What stands at a location. -/
def entryAt (tree : FileTree) (l : Location) : TreeEntry :=
  if l = .nowhere then .device
  else if l.names.isEmpty || (l.base == .root && Location.usual.contains l.names) then .directory
  else
    match tree.entries.lookup l with
    | some (some content) => .file content
    | some none => .directory
    | none => if tree.entries.any fun e => holds l e.1 then .directory else .missing

/-- The number of bytes of a text. -/
def byteLength (t : Text) : Nat :=
  (t.map Char.utf8Size).foldl (· + ·) 0

/-- The most bytes of a name in a directory. -/
def nameLimit : Nat := 255

/-- The least number of bytes that is too much for a path. -/
def pathLimit : Nat := 4096

/-- Follows the parts of a path from a location, or tells what is in the way. -/
def follow (tree : FileTree) (l : Location) : List Text → Except OpenFault Location
  | [] => .ok l
  | part :: rest =>
    match tree.entryAt l with
    | .directory =>
      if nameLimit < byteLength part then .error .nameTooLong
      else follow tree (l.step part) rest
    | .file _ | .device => .error .notDirectory
    | .missing => .error .noSuchFile

/-- What is wrong with a path, whatever it leads to. -/
def pathFault? (path : Text) : Option OpenFault :=
  if path.contains '\x00' then some .nullCharacter
  else if path.isEmpty then some .noSuchFile
  else if pathLimit ≤ byteLength path then some .nameTooLong
  else none

/-- The location of a path. -/
def locate (tree : FileTree) (path : Text) : Except OpenFault Location :=
  match pathFault? path, path with
  | some fault, _ => .error fault
  | none, '/' :: rest => tree.follow ⟨.root, []⟩ (parts rest)
  | none, _ => tree.follow .here (parts path)

/-- What stands at a path. -/
def state (tree : FileTree) (path : Text) : FileState :=
  match tree.locate path with
  | .ok l => (tree.entryAt l).state
  | .error _ => .missing

/-- The tree with some text at the end of the file at a location. -/
def append (tree : FileTree) (l : Location) (t : Text) : FileTree :=
  if l = .nowhere then tree
  else
    match tree.entries.lookup l with
    | some _ => ⟨tree.entries.map fun e => if e.1 = l then (l, e.2.map (· ++ t)) else e⟩
    | none => ⟨tree.entries ++ [(l, some t)]⟩

/-- The path of the directory that holds what a path leads to. -/
def holder (path : Text) : Text :=
  ((path.reverse.dropWhile (· == '/')).dropWhile (· != '/')).reverse ++ ['.']

/-- The file at a path, to be written at its end, and the tree in which it exists. A path that ends
with a slash cannot be one of a file. -/
def openToAppend (tree : FileTree) (path : Text) : Except OpenFault (Location × FileTree) :=
  match pathFault? path with
  | some fault => .error fault
  | none =>
    if path.getLast? == some '/' then
      match tree.locate (holder path) with
      | .error fault => .error fault
      | .ok _ => .error .isDirectory
    else
      match tree.locate path with
      | .error fault => .error fault
      | .ok l =>
        match tree.entryAt l with
        | .directory => .error .isDirectory
        | .file _ | .device => .ok (l, tree)
        | .missing => .ok (l, tree.append l [])

end FileTree

end CodeSurvey
