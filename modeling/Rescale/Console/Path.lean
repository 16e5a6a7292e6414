/-!
# Paths

Paths of files as they are written on a command line.

A path is a list of steps from the working folder, or from the root if it begins
with a slash. A step is the name of something in the folder that was reached, or
a dot, which stays there, or two dots, which go back. Slashes that follow each
other count once, and a slash at the end asks for a folder, as a dot at the end
does. Slashes count as they are written where it matters how long a path is.

Which file a path leads to cannot be told from the path alone. A step back out of
a folder that is not there leads nowhere, so steps are never cancelled against
each other.

## Main definitions

* `Path`: The steps of a path.
* `Path.ofText`: Take a path apart.
* `Path.names`: The names to follow.
* `Path.parentSteps`: The way to the folder in which the end of a path is to stand.
* `PathError`: Why a path leads nowhere.
-/

namespace Rescale

/-- Why a path leads nowhere, or why no folder can be made there. -/
inductive PathError where
  | missing
  /-- Something stands there already. -/
  | taken
  /-- A step leads on from what is no folder. -/
  | notFolder
  /-- A name, or the path as a whole, is too long. -/
  | tooLong
  /-- A name has a character that cannot be in a name. -/
  | badName
  deriving DecidableEq, Repr

namespace PathError

/-- The wording of an error. -/
def message : PathError → String
  | missing => "No such file or directory (os error 2)"
  | taken => "File exists (os error 17)"
  | notFolder => "Not a directory (os error 20)"
  | tooLong => "File name too long (os error 36)"
  | badName => "file name contained an unexpected NUL byte"

end PathError

/-- A step of a path. -/
structure Path.Step where
  name : String
  /-- The bytes of the path up to the end of the step. -/
  size : Nat
  deriving DecidableEq, Repr

/-- A path, by its steps. -/
structure Path where
  /-- Whether the path begins at the root. -/
  absolute : Bool := false
  steps : List Path.Step := []
  /-- Whether there is a slash behind the last step. -/
  slashed : Bool := false
  /-- The bytes of the path as it is written. -/
  size : Nat := 0
  deriving DecidableEq, Repr

namespace Path

/-- The step that stays. -/
def stay : String := "."

/-- The step that goes back. -/
def back : String := ".."

/-- The steps between slashes, from a place in the path that is given in bytes. -/
def stepsFrom (size : Nat) : List (List Char) → List Step
  | [] => []
  | cs :: rest =>
    let name := String.ofList cs
    let size := size + name.utf8ByteSize
    let steps := stepsFrom (size + 1) rest
    if cs.isEmpty then steps else ⟨name, size⟩ :: steps

/-- Take a path apart. -/
def ofText (s : String) : Path :=
  let cs := s.toList
  { absolute := cs.head? == some '/'
    steps := stepsFrom 0 (cs.splitOn '/')
    slashed := cs.getLast? == some '/'
    size := s.utf8ByteSize }

/-- The names to follow. A slash at the end is a step that stays. -/
def names (p : Path) : List String :=
  p.steps.map (·.name) ++ if p.slashed then [stay] else []

/-- A path as text, with one slash between steps. -/
def text (p : Path) : String :=
  (if p.absolute then "/" else "") ++ String.intercalate "/" p.names

/-- Whether a path is written with nothing. -/
def isEmpty (p : Path) : Bool := p.size == 0

/-- The bytes that a name may have. -/
def longestName : Nat := 255

/-- The bytes that a path may have, slashes included. -/
def longestPath : Nat := 4095

/-- What is wrong with a path whatever it leads to. -/
def fault? (p : Path) : Option PathError :=
  if p.isEmpty then some .missing
  else if p.steps.any fun step => step.name.toList.contains '\x00' then some .badName
  else if longestPath < p.size then some .tooLong
  else none

/-- Whether a path ends with a name, so that something new can be made there. -/
def endsWithName (p : Path) : Bool :=
  match p.names.getLast? with
  | some name => name != stay && name != back
  | none => false

/-- The path to something in the folder that a path leads to. -/
def child (p : Path) (name : String) : Path :=
  let size := p.size + (if p.slashed then 0 else 1) + name.utf8ByteSize
  { p with steps := p.steps ++ [⟨name, size⟩], slashed := false, size }

/-- The path that ends with the last of some steps, which are given from the last
    to the first. -/
def ofReversed (absolute : Bool) (steps : List Step) : Path :=
  { absolute, steps := steps.reverse, size := (steps.head?.map (·.size)).getD 0 }

/-- The steps without those that stay, except for one at the beginning, from the
    last to the first. -/
def reversedSteps (p : Path) : List Step :=
  match p.absolute, p.steps with
  | false, first :: rest => (first :: rest.filter (·.name != stay)).reverse
  | _, steps => (steps.filter (·.name != stay)).reverse

/-- The steps to the folder in which the end of a path is to stand, from the last to
    the first; none if that is the working folder or the root. -/
def parentSteps (p : Path) : List Step := p.reversedSteps.drop 1

end Path

end Rescale
