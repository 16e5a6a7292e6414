import Rescale.Console.Command
import Rescale.Console.Path
import Rescale.Lookup

/-!
# Workspaces

A working folder that is kept in memory.

What stands in it is known by its place, the names that lead there from the
working folder. Paths are followed step by step, and each step needs a folder to
go on from. What lies above the working folder is there, but nothing is known of
it, and so it is with the root.

A store is no text, and a text is no store unless it is empty.

## Main definitions

* `Workspace`: What stands in a working folder.
* `Workspace.follow`: Where a path leads.
* `Workspace.find`: What stands where a path leads.
* `Workspace.makeFolders`: Make a folder, with those on the way to it.
* `Workspace.listing?`: The files directly inside a folder.
* `Workspace.files`: Access for commands.

## Theorems

* `at?_put`: What is put somewhere stands there, and all else stays.
-/

namespace Rescale

namespace Workspace

/-- The names that lead to something from the working folder. Above the working
    folder they are steps back, and under the root they begin with a slash. -/
abbrev Place := List String

namespace Place

/-- The working folder. -/
def here : Place := []

/-- The root. -/
def root : Place := ["/"]

/-- Whether a place is the working folder or above it, or the root. -/
def isGiven (p : Place) : Bool := p == root || p.all (· == Path.back)

/-- The place one step back. -/
def back (p : Place) : Place :=
  if p == root then root
  else if p.all (· == Path.back) then p ++ [Path.back]
  else p.dropLast

/-- Where a path begins. -/
def start (p : Path) : Place := if p.absolute then root else here

end Place

/-- What stands at a place. -/
inductive Content where
  | folder
  | text (s : String)
  | store (s : Store)
  deriving DecidableEq

end Workspace

/-- What stands in a working folder, by its place. -/
structure Workspace where
  entries : List (Workspace.Place × Workspace.Content) := []
  deriving DecidableEq

namespace Workspace

instance : Inhabited Workspace := ⟨{}⟩

/-! ### Places -/

/-- What stands at a place. -/
def at? (w : Workspace) (p : Place) : Option Content :=
  if p.isGiven then some .folder else w.entries.lookup p

/-- Put something at a place, instead of what stands there. -/
def put (w : Workspace) (p : Place) (c : Content) : Workspace :=
  ⟨(p, c) :: w.entries.filter fun e => e.1 != p⟩

/-- What is put somewhere stands there, unless the place is given, and all else
    stays. -/
theorem at?_put (w : Workspace) (p q : Place) (c : Content) (h : p.isGiven = false) :
    (w.put p c).at? q = if q = p then some c else w.at? q := by
  unfold at? put
  rw [Lookup.lookup_replace]
  by_cases hq : q = p
  · rw [hq, h, if_neg Bool.false_ne_true, if_pos rfl, if_pos rfl]
  · rw [if_neg hq, if_neg hq]

/-- Follow some steps from a place. The last of them may lead to where nothing
    stands; every other one has to reach a folder. -/
def follow (w : Workspace) : Place → List String → Except PathError Place
  | p, [] => .ok p
  | p, step :: rest =>
    match w.at? p with
    | none => .error .missing
    | some .folder =>
      if step == Path.stay then w.follow p rest
      else if step == Path.back then w.follow p.back rest
      else if Path.longestName < step.utf8ByteSize then .error .tooLong
      else w.follow (p ++ [step]) rest
    | some _ => .error .notFolder

/-- Where a path leads. -/
def place (w : Workspace) (p : Path) : Except PathError Place :=
  match p.fault? with
  | some e => .error e
  | none => w.follow (Place.start p) p.names

/-- What stands where a path leads. -/
def find (w : Workspace) (p : Path) : Except PathError Content := do
  match w.at? (← w.place p) with
  | some c => return c
  | none => throw .missing

/-- Whether a path leads to a folder. -/
def isFolder (w : Workspace) (p : Path) : Bool :=
  match w.find p with
  | .ok .folder => true
  | _ => false

/-- The text of a file. -/
def text? (w : Workspace) (p : Path) : Option String :=
  match w.find p with
  | .ok (.text s) => some s
  | _ => none

/-- The names of what stands directly inside a folder. -/
def namesIn (w : Workspace) (folder : Place) : List String :=
  w.entries.filterMap fun e => if e.1.dropLast == folder then e.1.getLast? else none

/-- The files directly inside a folder, with their texts, as far as the paths to
    them are not too long. -/
def listing? (w : Workspace) (p : Path) : Option (List (String × Option String)) :=
  match w.place p with
  | .error _ => none
  | .ok folder =>
    if w.at? folder == some .folder then
      some <| (w.namesIn folder).filterMap fun name =>
        match w.find (p.child name) with
        | .ok (.text s) => some (name, some s)
        | .ok (.store _) => some (name, none)
        | _ => none
    else none

/-! ### Making folders -/

/-- Make a folder, in a folder that is there. -/
def makeFolder (w : Workspace) (p : Path) : Except PathError Workspace := do
  let place ← w.place p
  match w.at? place with
  | some _ => throw .taken
  | none => return w.put place .folder

/-- What is left of an error in making a folder: none if a folder is there. -/
def unlessFolder (w : Workspace) (p : Path) (e : PathError) : Option PathError :=
  if w.isFolder p then none else some e

/-- Make a folder, given by its steps from the last to the first, and those on the
    way to it that are missing. What was made before an error stays. -/
def makeFolders (w : Workspace) (absolute : Bool) :
    List Path.Step → Workspace × Option PathError
  | [] => (w, none)
  | last :: before =>
    let p := Path.ofReversed absolute (last :: before)
    match w.makeFolder p with
    | .ok w => (w, none)
    | .error .missing =>
      match w.makeFolders absolute before with
      | (w, some e) => (w, some e)
      | (w, none) =>
        match w.makeFolder p with
        | .ok w => (w, none)
        | .error e => (w, w.unlessFolder p e)
    | .error e => (w, w.unlessFolder p e)

/-- Make the folder in which the end of a path is to stand. -/
def makeParent (w : Workspace) (p : Path) : Workspace × Option PathError :=
  w.makeFolders p.absolute p.parentSteps

/-! ### Files -/

/-- Put something where a path leads, if it can stand there. -/
def putAt (w : Workspace) (p : Path) (c : Content) : Workspace :=
  match w.place p with
  | .ok place => w.put place c
  | .error _ => w

/-- A working folder with some texts in it. -/
def ofTexts (texts : List (String × String)) : Workspace :=
  texts.foldl
    (fun w e =>
      let p := Path.ofText e.1
      (w.makeParent p).1.putAt p (.text e.2))
    {}

/-- The store in a file. A path that ends with a name and leads to nothing, or to
    an empty file, leads to an empty store. -/
def store? (w : Workspace) (p : Path) : Option Store :=
  if p.endsWithName then
    match w.find p with
    | .ok (.store s) => some s
    | .ok (.text s) => if s.isEmpty then some {} else none
    | .ok .folder => none
    | .error _ => (w.place p).toOption.map fun _ => {}
  else none

/-- Access to the files of the working folder at hand. -/
def files : Files (StateM Workspace) where
  readText path := return (← get).text? (Path.ofText path)
  isFolder path := return (← get).isFolder (Path.ofText path)
  makeParent path := do
    let (w, error) := (← get).makeParent (Path.ofText path)
    set w
    match error with
    | some e => return .error e.message
    | none => return .ok ()
  openStore path := do
    let p := Path.ofText path
    match (← get).store? p with
    | some s =>
      modify fun w => w.putAt p (.store s)
      return some s
    | none => return none
  saveStore path s := modify fun w => w.putAt (Path.ofText path) (.store s)

end Workspace

end Rescale
