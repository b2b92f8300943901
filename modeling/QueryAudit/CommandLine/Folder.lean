/-! Reading files by path. A folder in memory holds files by their paths below it and answers as
a file system does. -/
namespace QueryAudit.CommandLine

/-- Why a file could not be read. -/
inductive ReadFault where
  | notFound
  | notDirectory
  | isDirectory
  | notText
  | other (description : String)
  deriving DecidableEq

namespace ReadFault

def message : ReadFault → String
  | notFound => "No such file or directory (os error 2)"
  | notDirectory => "Not a directory (os error 20)"
  | isDirectory => "Is a directory (os error 21)"
  | notText => "stream did not contain valid UTF-8"
  | other description => description

end ReadFault

/-- The text that bytes encode. -/
def decodeText (bytes : ByteArray) : Except ReadFault String :=
  match String.fromUTF8? bytes with
  | some text => .ok text
  | none => .error .notText

/-- Files with the names of the folders they are in, outermost first. -/
structure Folder where
  files : List (List String × ByteArray)

namespace Folder

/-- The folder that holds files under paths with slashes. -/
def ofList (files : List (String × ByteArray)) : Folder :=
  ⟨files.map fun (path, bytes) => (path.splitOn "/", bytes)⟩

def file? (folder : Folder) (path : List String) : Option ByteArray :=
  folder.files.lookup path

def isFolder (folder : Folder) (path : List String) : Bool :=
  folder.files.any fun file => path.isPrefixOf file.1 && path != file.1

/-- Whether a part of a path names no file but stays in a folder or leaves it. -/
def isStep (part : String) : Bool :=
  part == "" || part == "." || part == ".."

/-- The answer outside the folder, where nothing is known but the folders around it. -/
def outside (parts : List String) : ReadFault :=
  if parts.all isStep then .isDirectory else .notFound

/-- Follows the parts of a path from an inner folder, of which the names are given innermost
first. -/
def walk (folder : Folder) (inside : List String) : List String → Except ReadFault ByteArray
  | [] => .error .isDirectory
  | part :: rest =>
    if part = "" ∨ part = "." then folder.walk inside rest
    else if part = ".." then
      match inside with
      | [] => .error (outside rest)
      | _ :: outer => folder.walk outer rest
    else
      let path := (part :: inside).reverse
      match folder.file? path with
      | some bytes => if rest.isEmpty then .ok bytes else .error .notDirectory
      | none =>
        if folder.isFolder path then folder.walk (part :: inside) rest else .error .notFound

/-- Reads the text of a file. A path from the root leads outside. -/
def read (folder : Folder) (path : String) : Except ReadFault String :=
  match path.splitOn "/" with
  | "" :: parts => .error (outside parts)
  | parts => folder.walk [] parts >>= decodeText

end Folder
end QueryAudit.CommandLine
