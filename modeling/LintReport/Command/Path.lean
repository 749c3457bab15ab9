/-
  LintReport.Command.Path — paths of files, and what is found when one is opened.

  A path is kept without empty components and dots that stand for the directory they are in. A tree
  holds files and directories below a working directory; nothing is known of what lies outside it
  but that it is a directory.
-/

import LintReport.Command.Failure

namespace LintReport.Command

/-- The slashes a path begins with and its components. -/
structure Path where
  root : Text
  components : List Text
  deriving DecidableEq, Repr

namespace Path

def pieces : Text → List Text
  | [] => [[]]
  | c :: cs =>
    if c = '/' then [] :: pieces cs
    else
      match pieces cs with
      | [] => [[c]]
      | p :: ps => (c :: p) :: ps

/-- Exactly two slashes at the beginning are kept, any other number of them is one. -/
def rootOf (s : Text) : Text :=
  match (s.takeWhile (· = '/')).length with
  | 0 => []
  | 2 => ['/', '/']
  | _ => ['/']

def ofText (s : Text) : Path :=
  ⟨rootOf s, (pieces s).filter fun p => p ≠ [] ∧ p ≠ ['.']⟩

def write (p : Path) : Text :=
  if p.root = [] ∧ p.components = [] then ['.'] else p.root ++ Text.join ['/'] p.components

end Path

inductive Opened where
  | bytes (content : List UInt8)
  | missing
  | refused (error : OpenError)
  | nullInPath
  deriving DecidableEq, Repr

/-! ## Trees -/

/-- Files with their content and directories, by their components. The directories on the way to an
entry are there too. -/
abbrev Tree := List (List Text × Option (List UInt8))

namespace Tree

/-- A place on the way along a path: in the tree, the components of the place last to first, or
outside it. -/
inductive Place where
  | inside (reversed : List Text)
  | outside
  deriving DecidableEq, Repr

inductive Node where
  | directory
  | file (content : List UInt8)
  deriving DecidableEq, Repr

def find? (t : Tree) : Place → Option Node
  | .outside => some .directory
  | .inside reversed =>
    let components := reversed.reverse
    match t.lookup components with
    | some (some content) => some (.file content)
    | some none => some .directory
    | none =>
      if components = [] ∨ t.any (components.isPrefixOf ·.1) then some .directory else none

def greatestName : Nat := 255

def greatestPath : Nat := 4095

def enter (t : Tree) (place : Place) (name : Text) : Except Opened Place :=
  match t.find? place with
  | some .directory =>
    if name = ['.', '.'] then
      match place with
      | .inside (_ :: parent) => .ok (.inside parent)
      | _ => .ok .outside
    else if greatestName < (Text.Utf8.encode name).length then .error (.refused .nameTooLong)
    else
      match place with
      | .outside => .error .missing
      | .inside reversed =>
        if (t.find? (.inside (name :: reversed))).isSome then .ok (.inside (name :: reversed))
        else .error .missing
  | some (.file _) => .error (.refused .notDirectory)
  | none => .error .missing

def openFile (t : Tree) (path : Path) : Opened :=
  if '\x00' ∈ path.write then .nullInPath
  else if greatestPath < (Text.Utf8.encode path.write).length then .refused .nameTooLong
  else
    let start : Place := if path.root = [] then .inside [] else .outside
    match path.components.foldlM t.enter start with
    | .error opened => opened
    | .ok place =>
      match t.find? place with
      | some (.file content) => .bytes content
      | some .directory => .refused .isDirectory
      | none => .missing

end Tree

end LintReport.Command
