import Rescale.Job.Metric

/-!
# Job Topology

The graph of a job, as far as scaling needs it.

Each vertex knows the vertices that feed it and the slot-sharing group it is
placed in, if any. A topology is a snapshot for one cycle; it is built edge by
edge, and naming a vertex anywhere adds it.

## Main definitions

* `Stage`: What is known of one vertex.
* `Topology`: The vertices of a job.
* `Topology.groups`: The members of each slot-sharing group.
-/

namespace Rescale

/-- What is known of one vertex of a job's graph. -/
structure Stage where
  /-- The vertices that feed this one. -/
  inputs : SortedSet VertexId := ∅
  /-- The group of vertices that share slots with this one. -/
  group : Option String := none
  deriving DecidableEq

namespace Stage

instance : Inhabited Stage := ⟨{}⟩

end Stage

/-- The graph of a job. -/
structure Topology where
  stages : SortedMap VertexId Stage := ∅
  deriving DecidableEq

namespace Topology

instance : Inhabited Topology := ⟨{}⟩

/-- What is known of a vertex. -/
def get? (t : Topology) (v : VertexId) : Option Stage := t.stages.get? v

/-- Change what is known of a vertex, adding the vertex if need be. -/
def adjust (t : Topology) (v : VertexId) (f : Stage → Stage) : Topology :=
  ⟨t.stages.update v fun s => f (s.getD {})⟩

/-- Add a vertex. -/
def addVertex (t : Topology) (v : VertexId) : Topology := t.adjust v id

/-- Add an edge and its ends. -/
def addEdge (t : Topology) (source target : VertexId) : Topology :=
  (t.addVertex source).adjust target fun s => { s with inputs := s.inputs.insert source () }

/-- Place a vertex in a slot-sharing group. -/
def setGroup (t : Topology) (v : VertexId) (group : String) : Topology :=
  t.adjust v fun s => { s with group := some group }

/-- The topology of a list of edges. -/
def ofEdges (edges : List (VertexId × VertexId)) : Topology :=
  edges.foldl (fun t e => t.addEdge e.1 e.2) {}

/-- The members of each slot-sharing group. -/
def groups (t : Topology) : SortedMap String (SortedSet VertexId) :=
  t.stages.toList.foldl
    (fun groups e =>
      match e.2.group with
      | some g => groups.update g fun members => (members.getD ∅).insert e.1 ()
      | none => groups)
    ∅

end Topology

end Rescale
