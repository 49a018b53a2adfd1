import StateActions.Text.Basic

namespace StateActions

inductive PathProblem
  | notFound
  | permissionDenied
  | notADirectory
  | nameTooLong
  | nulByte
  | other (message : String)
deriving DecidableEq, Repr, Inhabited

def PathProblem.message : PathProblem → String
  | .notFound => "No such file or directory (os error 2)"
  | .permissionDenied => "Permission denied (os error 13)"
  | .notADirectory => "Not a directory (os error 20)"
  | .nameTooLong => "File name too long (os error 36)"
  | .nulByte => "file name contained an unexpected NUL byte"
  | .other message => message

-- The length that the system tells of a file is apart from what reading the file gives.
inductive FileNode
  | file (length : Nat) (content : Except PathProblem ByteArray)
  | directory
deriving Inhabited

def FileNode.ofBytes (bytes : ByteArray) : FileNode := .file bytes.size (.ok bytes)

abbrev Host := String → Except PathProblem FileNode

namespace Host

def readText (host : Host) (path : String) : Except String String :=
  match host path with
  | .error problem => .error problem.message
  | .ok .directory => .error "Is a directory (os error 21)"
  | .ok (.file _ (.error problem)) => .error problem.message
  | .ok (.file _ (.ok content)) =>
    match Text.decodeUtf8 content with
    | .ok text => .ok text
    | .error _ => .error "stream did not contain valid UTF-8"

end Host

abbrev FileTree := List (List String × FileNode)

namespace FileTree

-- What stands at a path of names: what was written there last. A directory is there if something
-- stands below it.
def node? (tree : FileTree) (names : List String) : Option FileNode :=
  if names.isEmpty then some .directory
  else match tree.reverse.find? (·.1 == names) with
    | some found => some found.2
    | none =>
      if tree.any fun entry => names.length < entry.1.length && names.isPrefixOf entry.1 then
        some .directory
      else none

def pathLimit : Nat := 4095

def nameLimit : Nat := 255

-- Walks from a place down the steps of a path. `outside` counts the levels above the working
-- directory, where nothing is known but the way.
def walk (tree : FileTree) (outside : Nat) (names : List String) :
    List String → Except PathProblem FileNode
  | [] =>
    if outside > 0 then .ok .directory
    else match tree.node? names with
      | some node => .ok node
      | none => .error .notFound
  | step :: rest =>
    match if outside > 0 then some .directory else tree.node? names with
    | none => .error .notFound
    | some (.file ..) => .error .notADirectory
    | some .directory =>
      if step = "" ∨ step = "." then tree.walk outside names rest
      else if step = ".." then
        if names.isEmpty then tree.walk (outside + 1) [] rest
        else tree.walk outside names.dropLast rest
      else if step.utf8ByteSize > nameLimit then .error .nameTooLong
      else if outside > 0 then .error .notFound
      else tree.walk outside (names ++ [step]) rest

def host (tree : FileTree) : Host := fun path =>
  if path = "" then .error .notFound
  else if path.contains '\x00' then .error .nulByte
  else if path.utf8ByteSize > pathLimit then .error .nameTooLong
  else
    let steps := path.splitOn "/"
    if path.startsWith "/" then tree.walk 1 [] steps else tree.walk 0 [] steps

end FileTree

end StateActions
