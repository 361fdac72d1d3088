import Peripheral.Storage.Media
import Peripheral.Text.Utf8

/-!
# Files of the host

A small model of a file system as seen from a working directory: the directories and regular files
that are known, below it or from the top on. Names are resolved against a base directory, if one is
given.

* `HostFiles.walk` : follow a path to a directory or a file;
* `HostFiles.openMedium`, `length`, `read`, `write` : calls on files, with their failures;
* `HostFiles.readText` : a whole file as text.
-/

namespace Peripheral

/-- The directories and files known, by the names that lead to them from the working directory, or
from the top of the file system after an empty name. -/
structure HostFiles where
  /-- The base directory of names, or none for the working directory. -/
  root : Option String
  directories : List (List String)
  files : List (List String × Bytes)
deriving DecidableEq, Repr, Inhabited

namespace HostFiles

inductive Place where
  /-- Below the directory that many levels above the working directory, or that directory. -/
  | relative (up : Nat) (names : List String)
  /-- Below the top of the file system, or the top itself. -/
  | rooted (names : List String)
deriving DecidableEq, Repr

namespace Place

def start (path : String) : Place := if path.startsWith "/" then .rooted [] else .relative 0 []

def names : Place → List String
  | .relative up names => List.replicate up ".." ++ names
  | .rooted names => "" :: names

/-- The directory around a place; the top is its own. -/
def parent : Place → Place
  | .relative up [] => .relative (up + 1) []
  | .relative up names => .relative up names.dropLast
  | .rooted names => .rooted names.dropLast

def inside (name : String) : Place → Place
  | .relative up names => .relative up (names ++ [name])
  | .rooted names => .rooted (names ++ [name])

end Place

inductive Node where
  | directory
  | file (data : Bytes)
deriving DecidableEq, Repr

def fileAt? (names : List String) (fs : HostFiles) : Option Bytes :=
  (fs.files.find? fun f => f.1 == names).map Prod.snd

def node? (fs : HostFiles) : Place → Option Node
  | .relative _ [] | .rooted [] => some .directory
  | place =>
    match fs.fileAt? place.names with
    | some data => some (.file data)
    | none => if place.names ∈ fs.directories then some .directory else none

def nameLimit : Nat := 255

def pathLimit : Nat := 4095

def offsetLimit : Nat := Nat.pow 2 44 - Nat.pow 2 12

def step (fs : HostFiles) (place : Place) (name : String) : Except IoFault Place :=
  match fs.node? place with
  | none => .error .noSuchFile
  | some (.file _) => .error .notDirectory
  | some .directory =>
    if name = "" ∨ name = "." then .ok place
    else if name = ".." then .ok place.parent
    else if nameLimit < name.utf8ByteSize then .error .nameTooLong
    else
      let inner := place.inside name
      if (fs.node? inner).isSome then .ok inner else .error .noSuchFile

def walk (fs : HostFiles) (path : String) : Except IoFault Place :=
  if path.toList.contains (Char.ofNat 0) then .error .embeddedNul
  else if path = "" then .error .noSuchFile
  else if pathLimit < path.utf8ByteSize then .error .nameTooLong
  else (path.splitOn "/").foldlM fs.step (.start path)

def lookup (fs : HostFiles) (path : String) : Except IoFault Node := do
  let place ← fs.walk path
  match fs.node? place with
  | some node => .ok node
  | none => .error .noSuchFile

/-- The path that a name stands for: as it is if it starts at the top, else below the base
directory. -/
def resolve (fs : HostFiles) (name : String) : String :=
  match fs.root with
  | none => name
  | some root =>
    if name.startsWith "/" || root = "" then name
    else if root.endsWith "/" then root ++ name
    else root ++ "/" ++ name

/-- Open a file. A directory can be opened for reading only. -/
def openMedium (name : String) (readOnly : Bool) (fs : HostFiles) : Except Status Handle :=
  let path := fs.resolve name
  match fs.lookup path with
  | .error fault => .error (.openFailed path fault)
  | .ok .directory =>
    if readOnly then .ok { name, readOnly } else .error (.openFailed path .isDirectory)
  | .ok (.file _) => .ok { name, readOnly }

def behind (medium : Handle) (fs : HostFiles) : Except Status Node :=
  match fs.lookup (fs.resolve medium.name) with
  | .error fault => .error (.io fault)
  | .ok node => .ok node

/-- The size of a file; a directory takes one block. -/
def length (medium : Handle) (fs : HostFiles) : Except Status Nat :=
  (fs.behind medium).map fun
    | .directory => 4096
    | .file data => data.size

def read (medium : Handle) (offset : UInt64) (count : Nat) (fs : HostFiles) :
    Except Status Bytes := do
  let node ← fs.behind medium
  if offsetLimit < offset.toNat then .error (.io .invalidOffset)
  else
    match node with
    | .file data => .ok (data.extract offset.toNat (offset.toNat + count))
    | .directory => if count = 0 then .ok #[] else .error (.io .isDirectory)

def setFile (names : List String) (data : Bytes) (fs : HostFiles) : HostFiles :=
  { fs with files := (names, data) :: fs.files.filter fun f => f.1 != names }

/-- Put `data` at `offset`; an empty write changes nothing. -/
def write (medium : Handle) (offset : UInt64) (data : Bytes) (fs : HostFiles) :
    Result × HostFiles :=
  if offsetLimit < offset.toNat then (.error (.io .invalidOffset), fs)
  else if data.isEmpty then (.ok (), fs)
  else if medium.readOnly then (.error (.io .badDescriptor), fs)
  else
    match fs.walk (fs.resolve medium.name) with
    | .error fault => (.error (.io fault), fs)
    | .ok place =>
      match fs.fileAt? place.names with
      | some old => (.ok (), fs.setFile place.names (old.overwrite offset.toNat data))
      | none => (.error (.io .badDescriptor), fs)

/-- The whole of the file that a name stands for. -/
def contents? (name : String) (fs : HostFiles) : Option Bytes :=
  match fs.lookup (fs.resolve name) with
  | .ok (.file data) => some data
  | _ => none

def isName (name : String) : Bool :=
  name != "" && name.utf8ByteSize ≤ nameLimit && !name.toList.contains (Char.ofNat 0)

/-- Create the file that a name stands for, or replace its bytes; nothing happens where no directory
can hold it. -/
def install (name : String) (data : Bytes) (fs : HostFiles) : HostFiles :=
  let path := fs.resolve name
  match fs.walk path with
  | .ok place =>
    match fs.fileAt? place.names with
    | some _ => fs.setFile place.names data
    | none => fs
  | .error _ =>
    let names := path.splitOn "/"
    match names.dropLast.foldlM fs.step (.start path), names.getLast? with
    | .ok place, some last =>
      if fs.node? place = some .directory ∧ isName last then
        fs.setFile (place.inside last).names data
      else fs
    | _, _ => fs

def readText (path : String) (fs : HostFiles) : Except Status String :=
  match fs.lookup path with
  | .error fault => .error (.io fault)
  | .ok .directory => .error (.io .isDirectory)
  | .ok (.file data) =>
    match Utf8.decode? data.toList with
    | some text => .ok text
    | none => .error (.io .invalidUtf8)

/-- Go to a name from a place, making it a directory if nothing stands there. -/
def makeStep : HostFiles × Place → String → HostFiles × Place
  | (fs, place), name =>
    if name = "" ∨ name = "." then (fs, place)
    else if name = ".." then (fs, place.parent)
    else
      let inner := place.inside name
      if (fs.node? inner).isSome then (fs, inner)
      else ({ fs with directories := inner.names :: fs.directories }, inner)

/-- Follow names from where a path starts, making the directories that are not there yet. -/
def makeDirectories (path : String) (names : List String) (fs : HostFiles) : HostFiles :=
  (names.foldl makeStep (fs, .start path)).1

/-- Make the directories on the way to a file. -/
def makeWay (path : String) (fs : HostFiles) : HostFiles :=
  fs.makeDirectories path (path.splitOn "/").dropLast

/-- An empty working directory, with the base directory made in it. -/
def empty (root : Option String) : HostFiles :=
  let fs : HostFiles := { root, directories := [], files := [] }
  match root with
  | none => fs
  | some path => fs.makeDirectories path (path.splitOn "/")

instance : MediaStore HostFiles where
  openMedium name readOnly fs := (fs.openMedium name readOnly, fs)
  length medium fs := (fs.length medium, fs)
  read medium offset count fs := (fs.read medium offset count, fs)
  write medium offset data fs := fs.write medium offset data
  flush _ fs := (.ok (), fs)
  contents? name fs := fs.contents? name
  install name data fs := fs.install name data
  writeCount? _ _ := none

end HostFiles

end Peripheral
