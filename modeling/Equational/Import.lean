import Equational.Statement

/-!
# Imported modules

A script names the modules it imports; whether there are such modules is a question to whoever
keeps them.  A module named by an identifier is a file of that name in one of the search paths; a
module named by a path is tried as it stands, and then in each search path.
-/

namespace Equational

def Script.importedModules (script : Script) : List ModuleSpec :=
  script.body.flatMap fun
    | .imports _ specs _ => specs
    | .importsFrom spec _ _ _ => [spec]
    | _ => []

def Script.unknownImports (script : Script) (isKnown : ModuleName → Bool) : List Diagnostic :=
  (script.importedModules.filter fun spec => !isKnown spec.moduleName).map fun spec =>
    ⟨.unknownModule spec.moduleName.text, spec.span⟩

/-! ## Search paths -/

def isAbsolutePath (path : String) : Bool := path.toList.head? = some '/'

def joinPath (directory path : String) : String :=
  if isAbsolutePath path || directory.isEmpty then path
  else if directory.toList.getLast? = some '/' then directory ++ path
  else directory ++ "/" ++ path

namespace ModuleName

/-- The files that a module may be in, in the order in which they are tried. -/
def candidates (searchPaths : List String) : ModuleName → List String
  | identifier name => searchPaths.map fun directory => joinPath directory (name ++ ".q")
  | path p =>
    if isAbsolutePath p then [p]
    else p :: searchPaths.map fun directory => joinPath directory p

end ModuleName

end Equational
