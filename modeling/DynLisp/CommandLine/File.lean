import DynLisp.Text.LineEnd
import DynLisp.Text.Quoted
import DynLisp.Text.Utf8

/-! # Source files

A source file is UTF-8 text with any line ends.  Its path is taken in its shortest form, without
empty and `.` components. -/

namespace DynLisp.CommandLine

open Text

/-- Why a file cannot be opened. -/
inductive FileFault where
  | missing
  | permissionDenied
  | notADirectory
  | isADirectory
  | nameTooLong
  | other (number : Nat) (text : String)
deriving DecidableEq, Repr

namespace FileFault

/-- The number of the fault. -/
def number : FileFault → Nat
  | missing => 2
  | permissionDenied => 13
  | notADirectory => 20
  | isADirectory => 21
  | nameTooLong => 36
  | other number _ => number

def text : FileFault → String
  | missing => "No such file or directory"
  | permissionDenied => "Permission denied"
  | notADirectory => "Not a directory"
  | isADirectory => "Is a directory"
  | nameTooLong => "File name too long"
  | other _ text => text

end FileFault

/-! ### Paths -/

/-- A path in its shortest form. -/
structure SourcePath where
  /-- What an absolute path begins with. -/
  root : String
  components : List String
deriving DecidableEq, Repr

namespace SourcePath

/-- One slash at the beginning, or exactly two, make a root of their own. -/
def rootOf (cs : List Char) : String :=
  match (cs.takeWhile (· == '/')).length with
  | 0 => ""
  | 2 => "//"
  | _ => "/"

/-- Characters between slashes, and the parts before them in reverse. -/
def splitAtSlashes (part : List Char) (parts : List String) : List Char → List String
  | [] => (.ofList part.reverse :: parts).reverse
  | '/' :: rest => splitAtSlashes [] (.ofList part.reverse :: parts) rest
  | c :: rest => splitAtSlashes (c :: part) parts rest

def ofText (s : String) : SourcePath :=
  ⟨rootOf s.toList, (splitAtSlashes [] [] s.toList).filter fun part => part ≠ "" ∧ part ≠ "."⟩

def text (p : SourcePath) : String :=
  match p.root ++ "/".intercalate p.components with
  | "" => "."
  | s => s

end SourcePath

/-! ### Contents -/

/-- Why a source file cannot be read. -/
inductive ReadError where
  | file (fault : FileFault) (path : SourcePath)
  | decoding (e : Utf8.DecodeError)

def ReadError.message : ReadError → String
  | file fault path =>
    "[Errno " ++ toString fault.number ++ "] " ++ fault.text ++ ": " ++ quoted path.text
  | decoding e => e.message

/-- A way to get at the bytes of files. -/
abbrev Reader := SourcePath → Except FileFault (List UInt8)

/-- The text of a file. -/
def Reader.source (read : Reader) (file : String) : Except ReadError String :=
  let path := SourcePath.ofText file
  match read path with
  | .error fault => .error (.file fault path)
  | .ok bytes =>
    match Utf8.decode bytes with
    | .error e => .error (.decoding e)
    | .ok cs => .ok (.ofList (unifyLineEnds cs))

/-! ### Files in memory -/

/-- A directory that holds nothing but files, each with a name and its bytes. -/
structure Folder where
  files : List (String × List UInt8)

namespace Folder

/-- The length of the longest name and of the longest path, in bytes. -/
def maxName : Nat := 255

def maxPath : Nat := 4095

/-- Why nothing is read along a path from a directory around the folder.  Such a directory is taken
to hold no files.  The outermost one is around itself. -/
def faultAround : List String → FileFault
  | [] => .isADirectory
  | name :: rest =>
    if name = ".." then faultAround rest
    else if maxName < name.utf8ByteSize then .nameTooLong
    else .missing

/-- Looks a path up from within the folder. -/
def readWithin (folder : Folder) : List String → Except FileFault (List UInt8)
  | [] => .error .isADirectory
  | name :: rest =>
    if name = ".." then .error (faultAround rest)
    else if maxName < name.utf8ByteSize then .error .nameTooLong
    else
      match folder.files.lookup name, rest with
      | none, _ => .error .missing
      | some bytes, [] => .ok bytes
      | some _, _ :: _ => .error .notADirectory

/-- Looks a path up, from within the folder or, if it is absolute, from the outermost directory. -/
def read (folder : Folder) : Reader := fun path =>
  if maxPath < path.text.utf8ByteSize then .error .nameTooLong
  else if path.root = "" then folder.readWithin path.components
  else .error (faultAround path.components)

end Folder
end DynLisp.CommandLine
