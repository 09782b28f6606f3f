/-!
# File trees

A tree of directories that holds nothing but the given text files.  A path is followed name by
name: every directory on the way has to be there, and only the last name may be a file.
-/

namespace Equational

inductive ReadFault where
  | notFound
  | notDirectory
  | isDirectory
  | other (message : String)
  deriving DecidableEq, Repr

def ReadFault.message : ReadFault → String
  | notFound => "No such file or directory (os error 2)"
  | notDirectory => "Not a directory (os error 20)"
  | isDirectory => "Is a directory (os error 21)"
  | other text => text

structure FileTree where
  /-- Names from the top directory down to the file, and the text of the file. -/
  files : List (List String × String)

namespace FileTree

def isPlace (name : String) : Bool := name = "" || name = "."

def pathNames (path : String) : List String :=
  (path.toList.splitOn '/').map String.ofList

def ofPaths (files : List (String × String)) : FileTree :=
  ⟨files.map fun (path, text) => ((pathNames path).filter (!isPlace ·), text)⟩

def file? (tree : FileTree) (location : List String) : Option String := tree.files.lookup location

def isDirectory (tree : FileTree) (location : List String) : Bool :=
  tree.files.any fun (names, _) => location.isPrefixOf names && location ≠ names

/-- Outside the tree there are directories above it, and no files. -/
def followOutside (names : List String) : Except ReadFault String :=
  if names.all fun name => isPlace name || name = ".." then .error .isDirectory
  else .error .notFound

def follow (tree : FileTree) : List String → List String → Except ReadFault String
  | _, [] => .error .isDirectory
  | location, name :: rest =>
    if isPlace name then follow tree location rest
    else if name = ".." then
      if location.isEmpty then followOutside rest else follow tree location.dropLast rest
    else
      let inner := location ++ [name]
      match tree.file? inner with
      | some text => if rest.isEmpty then .ok text else .error .notDirectory
      | none =>
        if tree.isDirectory inner then follow tree inner rest else .error .notFound

def read (tree : FileTree) (path : String) : Except ReadFault String :=
  match path.toList with
  | [] => .error .notFound
  | '/' :: _ => followOutside (pathNames path)
  | _ => tree.follow [] (pathNames path)

end FileTree

end Equational
