import Rescale.Record.Snapshot

/-!
# Snapshot Folders

A folder of snapshot documents as a source.

Each file with the extension `json` holds the snapshot of one job, and the job is
named inside the file. The files are taken in the order of their names, so it does
not matter in which order the folder lists them. What holds no snapshot is passed
over; of several snapshots of a job the first one counts.

## Main definitions

* `SnapshotFolder`: The files of a folder.
* `SnapshotFolder.snapshots`: The snapshots in it.
* `SnapshotFolder.source`: The folder as a source.
* `Source.missingFolder`: A folder that cannot be read, as a source.
-/

namespace Rescale

/-- The files of a folder: their texts by name, as far as they can be read. -/
structure SnapshotFolder where
  files : SortedMap String (Option String) := ∅
  deriving DecidableEq

namespace SnapshotFolder

instance : Inhabited SnapshotFolder := ⟨{}⟩

/-- A folder, from its files in any order. -/
def ofListing (files : List (String × Option String)) : SnapshotFolder :=
  ⟨SortedMap.ofList files⟩

/-- The end of the name of a snapshot file. -/
def extension : List Char := ['.', 'j', 's', 'o', 'n']

/-- Whether a file is a snapshot file by its name: something has to stand in front
    of the extension. -/
def isSnapshotName (name : String) : Bool :=
  let cs := name.toList
  extension.length < cs.length && extension.isSuffixOf cs

/-- The snapshots of the folder, in the order of the names of their files. -/
def snapshots (f : SnapshotFolder) : List Snapshot :=
  f.files.toList.filterMap fun e =>
    if isSnapshotName e.1 then e.2.bind Snapshot.ofText? else none

/-- The jobs that have a snapshot, in order. -/
def jobs (f : SnapshotFolder) : List JobId :=
  (SortedMap.ofList (f.snapshots.map fun s => (s.job, ()))).keys

/-- The first snapshot of a job. -/
def snapshot? (f : SnapshotFolder) (job : JobId) : Option Snapshot :=
  f.snapshots.find? fun s => s.job == job

/-- The folder as a source. -/
def source (f : SnapshotFolder) : Source where
  jobs := .ok f.jobs
  snapshot? job := .ok (f.snapshot? job)

end SnapshotFolder

/-- A folder that cannot be read, as a source. -/
def Source.missingFolder (path : String) : Source :=
  let why := "failed to read snapshot directory " ++ path
  { jobs := .error why, snapshot? := fun _ => .error why }

end Rescale
