import Mathlib
import Rescale.Placement.Capacity
import Rescale.Proofs.Store.Writes

/-!
# The Room of a Cluster

How many task managers a cluster takes, whichever way they are placed.

A node takes as many instances of a shape as go into what is free on it, in each
dimension that the shape asks for, and a placement on it leaves room for one
less. The other nodes are not concerned, so the room of the cluster, which is
the sum over the nodes that may be used, also goes down by one. As long as there
is room, some node takes an instance. So a number of instances can be placed
exactly if it is at most the room at the start.

Nothing of this depends on the scores. What the argument asks of the rule that
picks the nodes is that it picks one that takes the shape where there is one,
and the best fit is such a rule.

## Main definitions

* `Node.fits`: How many instances of a shape fit on a node.
* `clusterRoom`: How many fit on the nodes that may be used.
* `Node.Takes`: A node takes an instance of a shape.
* `Picks`: A rule picks nodes that take a shape.
* `placeOneBy`, `placeAllBy`: Placement by a rule.
* `bestFit`: The rule of the highest score.

## Theorems

* `le_fits_iff`: What fits on a node goes into each dimension.
* `fits_allocate`: A placement leaves room for one less on its node.
* `picks_bestFit`: The best fit picks nodes that take a shape.
* `placement_of_placeOneBy`: What a single placement changes.
* `clusterRoom_of_placeOneBy`, `placeAllBy_isSome_iff`: The room after one
  placement, and how many of them succeed.
* `hasRoom_exact`: The simulation is exact.
-/

namespace Rescale

/-! ### Nodes -/

/-- A shape asks for something, CPU or memory. -/
def Shape.Asks (s : Shape) : Prop := 0 < s.cpu ∨ 0 < s.memory

namespace Node

/-- How many instances of a shape fit on a node alone: the least of what goes
    into the dimensions that the shape asks for. -/
def fits (n : Node) (s : Shape) : Nat :=
  if s.cpu = 0 then n.memoryFree / s.memory
  else if s.memory = 0 then n.cpuFree / s.cpu
  else min (n.cpuFree / s.cpu) (n.memoryFree / s.memory)

/-- A node takes an instance: it may be used, and there is room. -/
def Takes (n : Node) (s : Shape) : Prop := n.unschedulable = false ∧ 0 < n.fits s

variable {n : Node} {s : Shape}

/-- So many instances fit on a node as go into it in both dimensions. A dimension
    that is not asked for takes any number. -/
theorem le_fits_iff (hs : s.Asks) {k : Nat} :
    k ≤ n.fits s ↔ k * s.cpu ≤ n.cpuFree ∧ k * s.memory ≤ n.memoryFree := by
  unfold fits
  by_cases hcpu : s.cpu = 0
  · have hmemory : 0 < s.memory := hs.resolve_left hcpu.not_gt
    rw [if_pos hcpu, Nat.le_div_iff_mul_le hmemory, hcpu, Nat.mul_zero]
    exact (and_iff_right n.cpuFree.zero_le).symm
  · rw [if_neg hcpu]
    by_cases hmemory : s.memory = 0
    · rw [if_pos hmemory, Nat.le_div_iff_mul_le (Nat.pos_of_ne_zero hcpu), hmemory, Nat.mul_zero]
      exact (and_iff_left n.memoryFree.zero_le).symm
    · rw [if_neg hmemory, Nat.le_min, Nat.le_div_iff_mul_le (Nat.pos_of_ne_zero hcpu),
        Nat.le_div_iff_mul_le (Nat.pos_of_ne_zero hmemory)]

theorem fits_pos_iff (hs : s.Asks) :
    0 < n.fits s ↔ s.cpu ≤ n.cpuFree ∧ s.memory ≤ n.memoryFree := by
  rw [Nat.lt_iff_add_one_le, le_fits_iff hs, Nat.zero_add, Nat.one_mul, Nat.one_mul]

/-- A placement leaves room for one less on its node. -/
theorem fits_allocate (hs : s.Asks) (h : 0 < n.fits s) :
    (n.allocate s).fits s + 1 = n.fits s := by
  rcases (fits_pos_iff hs).1 h with ⟨hcpu, hmemory⟩
  have hcpuFree : (n.allocate s).cpuFree = n.cpuFree - s.cpu := Nat.sub_add_eq _ _ _
  have hmemoryFree : (n.allocate s).memoryFree = n.memoryFree - s.memory := Nat.sub_add_eq _ _ _
  -- Both sides have the same numbers below them.
  refine eq_of_forall_le_iff fun k => ?_
  cases k with
  | zero => exact iff_of_true (Nat.zero_le _) (Nat.zero_le _)
  | succ k =>
      rw [Nat.add_le_add_iff_right, le_fits_iff hs, le_fits_iff hs, hcpuFree, hmemoryFree,
        Nat.le_sub_iff_add_le hcpu, Nat.le_sub_iff_add_le hmemory, Nat.succ_mul, Nat.succ_mul]

/-- Where an instance fits, placing it uses no dimension that is asked for beyond
    its capacity. -/
theorem used_le_capacity (hs : s.Asks) (h : 0 < n.fits s) :
    (0 < s.cpu → (n.allocate s).cpuUsed ≤ n.cpuCapacity) ∧
      (0 < s.memory → (n.allocate s).memoryUsed ≤ n.memoryCapacity) := by
  rcases (fits_pos_iff hs).1 h with ⟨hcpu, hmemory⟩
  unfold cpuFree at hcpu
  unfold memoryFree at hmemory
  simp only [allocate]
  omega

theorem fitsInto_pos_iff {free asked : Nat} : 0 < fitsInto free asked ↔ asked ≤ free := by
  unfold fitsInto
  by_cases hasked : 0 < asked
  · rw [if_pos hasked, Nat.div_pos_iff]
    exact and_iff_right hasked
  · rw [if_neg hasked]
    exact iff_of_true (by decide) (by omega)

/-- The count that a score goes by is zero exactly if nothing fits. -/
theorem instancesThatFit_eq_zero_iff (hs : s.Asks) :
    n.instancesThatFit s = 0 ↔ n.fits s = 0 := by
  have hpos : 0 < n.instancesThatFit s ↔ 0 < n.fits s := by
    rw [instancesThatFit, Nat.lt_min, fitsInto_pos_iff, fitsInto_pos_iff, fits_pos_iff hs, and_comm]
  omega

/-- A node has a score exactly if it takes an instance, and the score is its
    own. -/
theorem score?_spec (hs : s.Asks) :
    (n.Takes s → ∃ x, n.score? s = some x) ∧
      ∀ x, n.score? s = some x → n.Takes s ∧ x.id = n.id := by
  unfold score? Takes
  rw [Nat.pos_iff_ne_zero, ne_eq, ← instancesThatFit_eq_zero_iff hs]
  cases n.unschedulable with
  | true => exact ⟨fun h => absurd h.1 (by decide), nofun⟩
  | false =>
      by_cases hzero : n.instancesThatFit s = 0
      · simp only [hzero, BEq.rfl, Bool.or_true, if_true, not_true, and_false, false_implies,
          reduceCtorEq, implies_true, and_self]
      · simp only [Bool.false_or, beq_iff_eq, hzero, if_false, not_false_eq_true, and_self,
          Option.some.injEq, exists_eq', true_and, forall_eq', implies_true]

end Node

/-! ### Clusters -/

/-- How many instances of a shape fit on the nodes of a cluster that may be
    used, each taken alone. -/
def clusterRoom (s : Shape) (nodes : List Node) : Nat :=
  ((nodes.filter fun n => !n.unschedulable).map (·.fits s)).sum

section Cluster

variable {s : Shape} {nodes nodes' : List Node}

theorem clusterRoom_append (l l' : List Node) :
    clusterRoom s (l ++ l') = clusterRoom s l + clusterRoom s l' := by
  rw [clusterRoom, List.filter_append, List.map_append, List.sum_append]
  rfl

theorem clusterRoom_cons_of_schedulable {n : Node} (hn : n.unschedulable = false)
    (l : List Node) : clusterRoom s (n :: l) = n.fits s + clusterRoom s l := by
  rw [clusterRoom, List.filter_cons_of_pos (by rw [hn]; rfl), List.map_cons, List.sum_cons]
  rfl

theorem clusterRoom_perm (h : nodes.Perm nodes') : clusterRoom s nodes = clusterRoom s nodes' :=
  ((h.filter _).map _).sum_eq

theorem clusterRoom_eq_zero (h : ∀ n ∈ nodes, ¬n.Takes s) : clusterRoom s nodes = 0 := by
  refine List.sum_eq_zero fun x hx => ?_
  rcases List.mem_map.1 hx with ⟨n, hn, rfl⟩
  rcases List.mem_filter.1 hn with ⟨hmem, hschedulable⟩
  exact Nat.eq_zero_of_not_pos fun hpos =>
    h n hmem ⟨by simpa only [Bool.not_eq_true'] using hschedulable, hpos⟩

/-- With identifiers that differ, the node that is found is the one that was
    meant. -/
theorem allocateOn_of_mem {n : Node} (hids : (nodes.map (·.id)).Nodup) (hn : n ∈ nodes) :
    ∃ pre post, nodes = pre ++ n :: post ∧
      allocateOn n.id s nodes = some (pre ++ n.allocate s :: post) := by
  induction nodes with
  | nil => cases hn
  | cons first rest ih =>
      rw [List.map_cons, List.nodup_cons] at hids
      rw [allocateOn]
      by_cases hid : first.id = n.id
      · -- No later node has the identifier of the first one.
        have hfirst : n = first := (List.mem_cons.1 hn).resolve_right fun hrest =>
          hids.1 (List.mem_map.2 ⟨n, hrest, hid.symm⟩)
        subst hfirst
        exact ⟨[], rest, rfl, if_pos BEq.rfl⟩
      · have hrest : n ∈ rest := (List.mem_cons.1 hn).resolve_left fun heq => hid (heq ▸ rfl)
        rcases ih hids.2 hrest with ⟨pre, post, rfl, hallocate⟩
        refine ⟨first :: pre, post, rfl, ?_⟩
        rw [if_neg (mt beq_iff_eq.1 hid), hallocate]
        rfl

end Cluster

/-! ### Placement by a rule -/

/-- A rule picks the identifier of a node that takes a shape, and none only if
    no node does. -/
structure Picks (s : Shape) (pick : List Node → Option String) : Prop where
  takes : ∀ nodes id, pick nodes = some id → ∃ n ∈ nodes, n.id = id ∧ n.Takes s
  full : ∀ nodes, pick nodes = none → ∀ n ∈ nodes, ¬n.Takes s

/-- Place one instance on the node that a rule picks. -/
def placeOneBy (pick : List Node → Option String) (s : Shape) (nodes : List Node) :
    Option (List Node) :=
  (pick nodes).bind fun id => allocateOn id s nodes

/-- Place a number of instances, each on the node that a rule picks. -/
def placeAllBy (pick : List Node → Option String) (s : Shape) :
    Nat → List Node → Option (List Node)
  | 0, nodes => some nodes
  | k + 1, nodes => (placeOneBy pick s nodes).bind (placeAllBy pick s k)

section Rule

variable {s : Shape} {pick : List Node → Option String} {nodes nodes' : List Node}

/-- A placement is one on a node that takes the shape, and no other node is
    concerned. -/
theorem placement_of_placeOneBy (hpick : Picks s pick) (hids : (nodes.map (·.id)).Nodup)
    (h : placeOneBy pick s nodes = some nodes') :
    ∃ pre n post, nodes = pre ++ n :: post ∧ nodes' = pre ++ n.allocate s :: post ∧ n.Takes s := by
  rcases Option.bind_eq_some_iff.1 h with ⟨id, hid, hallocate⟩
  rcases hpick.takes nodes id hid with ⟨n, hn, rfl, htakes⟩
  rcases allocateOn_of_mem (s := s) hids hn with ⟨pre, post, hnodes, hallocate'⟩
  exact ⟨pre, n, post, hnodes, Option.some.inj (hallocate.symm.trans hallocate'), htakes⟩

/-- A placement keeps the identifiers of the nodes. -/
theorem ids_of_placeOneBy (hpick : Picks s pick) (hids : (nodes.map (·.id)).Nodup)
    (h : placeOneBy pick s nodes = some nodes') : nodes'.map (·.id) = nodes.map (·.id) := by
  rcases placement_of_placeOneBy hpick hids h with ⟨pre, n, post, rfl, rfl, _⟩
  rw [List.map_append, List.map_append]
  rfl

/-- A placement leaves room for one less in the cluster. -/
theorem clusterRoom_of_placeOneBy (hs : s.Asks) (hpick : Picks s pick)
    (hids : (nodes.map (·.id)).Nodup) (h : placeOneBy pick s nodes = some nodes') :
    clusterRoom s nodes' + 1 = clusterRoom s nodes := by
  rcases placement_of_placeOneBy hpick hids h with ⟨pre, n, post, rfl, rfl, hn, hpos⟩
  have hallocated : (n.allocate s).unschedulable = false := hn
  rw [clusterRoom_append, clusterRoom_append, clusterRoom_cons_of_schedulable hn,
    clusterRoom_cons_of_schedulable hallocated, ← Node.fits_allocate hs hpos]
  omega

/-- An instance can be placed exactly if there is room. -/
theorem placeOneBy_isSome_iff (hs : s.Asks) (hpick : Picks s pick)
    (hids : (nodes.map (·.id)).Nodup) :
    (placeOneBy pick s nodes).isSome = true ↔ 0 < clusterRoom s nodes := by
  cases hid : pick nodes with
  | none =>
      rw [placeOneBy, hid, clusterRoom_eq_zero (hpick.full nodes hid)]
      exact iff_of_false Bool.false_ne_true (lt_irrefl 0)
  | some id =>
      rcases hpick.takes nodes id hid with ⟨n, hn, rfl, _⟩
      rcases allocateOn_of_mem (s := s) hids hn with ⟨pre, post, _, hallocate⟩
      have hplaced : placeOneBy pick s nodes = some (pre ++ n.allocate s :: post) := by
        rw [placeOneBy, hid]
        exact hallocate
      have hroom := clusterRoom_of_placeOneBy hs hpick hids hplaced
      exact iff_of_true (by rw [hplaced]; rfl) (by omega)

/-- By induction on the number of instances: as many can be placed as there is
    room for, since each of them takes up the room of one. -/
theorem placeAllBy_isSome_iff (hs : s.Asks) (hpick : Picks s pick) (k : Nat) :
    ∀ nodes, (nodes.map (·.id)).Nodup →
      ((placeAllBy pick s k nodes).isSome = true ↔ k ≤ clusterRoom s nodes) := by
  induction k with
  | zero => exact fun nodes _ => iff_of_true rfl (Nat.zero_le _)
  | succ k ih =>
      intro nodes hids
      rw [placeAllBy]
      cases hplaced : placeOneBy pick s nodes with
      | none =>
          have hfull := (placeOneBy_isSome_iff hs hpick hids).not.1 (by rw [hplaced]; decide)
          exact iff_of_false Bool.false_ne_true (by omega)
      | some nodes' =>
          have hids' : (nodes'.map (·.id)).Nodup := by
            rwa [ids_of_placeOneBy hpick hids hplaced]
          rw [Option.bind_some, ih nodes' hids', ← clusterRoom_of_placeOneBy hs hpick hids hplaced,
            Nat.add_le_add_iff_right]

/-- By induction on the number of instances: placing them keeps the identifiers
    of the nodes. -/
theorem ids_of_placeAllBy (hpick : Picks s pick) (k : Nat) :
    ∀ nodes, (nodes.map (·.id)).Nodup → placeAllBy pick s k nodes = some nodes' →
      nodes'.map (·.id) = nodes.map (·.id) := by
  induction k with
  | zero => exact fun nodes _ h => by rw [Option.some.inj h]
  | succ k ih =>
      intro nodes hids h
      rcases Option.bind_eq_some_iff.1 h with ⟨m, hm, hrest⟩
      have hsame := ids_of_placeOneBy hpick hids hm
      rw [← hsame]
      exact ih m (by rwa [hsame]) hrest

end Rule

/-! ### The best fit -/

/-- The rule of the highest score. -/
def bestFit (s : Shape) (nodes : List Node) : Option String :=
  (rankNodes nodes s).head?.map (·.id)

theorem mem_rankNodes_iff {s : Shape} {nodes : List Node} {x : NodeScore} :
    x ∈ rankNodes nodes s ↔ ∃ n ∈ nodes, n.score? s = some x := by
  rw [rankNodes, List.mem_mergeSort, List.mem_filterMap]

/-- Only nodes that take a shape are ranked, and all of these are. -/
theorem picks_bestFit {s : Shape} (hs : s.Asks) : Picks s (bestFit s) where
  takes := by
    intro nodes id h
    rcases Option.map_eq_some_iff.1 h with ⟨x, hx, rfl⟩
    rcases mem_rankNodes_iff.1 (List.mem_of_head? hx) with ⟨n, hn, hscore⟩
    rcases (Node.score?_spec hs).2 x hscore with ⟨htakes, hid⟩
    exact ⟨n, hn, hid.symm, htakes⟩
  full := by
    intro nodes h n hn htakes
    rcases (Node.score?_spec hs).1 htakes with ⟨x, hx⟩
    have hmem := mem_rankNodes_iff.2 ⟨n, hn, hx⟩
    rw [List.head?_eq_none_iff.1 (Option.map_eq_none_iff.1 h)] at hmem
    cases hmem

theorem placeOne_eq (s : Shape) (nodes : List Node) :
    placeOne s nodes = placeOneBy (bestFit s) s nodes := by
  unfold placeOne placeOneBy bestFit
  cases rankNodes nodes s with
  | nil => rfl
  | cons best rest => rfl

theorem placeAll_eq (s : Shape) (k : Nat) :
    ∀ nodes, placeAll s k nodes = placeAllBy (bestFit s) s k nodes := by
  induction k with
  | zero => exact fun _ => rfl
  | succ k ih =>
      intro nodes
      rw [placeAll, placeAllBy, placeOne_eq, funext ih]

namespace Capacity

variable {nodes : List Node} {current target : Nat} {cores : Float} {memory : Nat}

/-- Going up to a number of task managers is placing the ones that are
    missing. -/
theorem hasRoom_iff_placeAll :
    (Capacity.nodes nodes).hasRoom current target cores memory = true ↔
      target ≤ current ∨
        (placeAll (.ofCores cores memory) (target - current) nodes).isSome = true := by
  rw [hasRoom, Bool.or_eq_true, decide_eq_true_iff]

theorem hasRoom_iff (hs : (Shape.ofCores cores memory).Asks) (hids : (nodes.map (·.id)).Nodup) :
    (Capacity.nodes nodes).hasRoom current target cores memory = true ↔
      target ≤ current ∨ target - current ≤ clusterRoom (.ofCores cores memory) nodes := by
  rw [hasRoom_iff_placeAll, placeAll_eq,
    placeAllBy_isSome_iff hs (picks_bestFit hs) (target - current) nodes hids]

/-- The simulation answers that there is room exactly if no task manager is
    missing or as many as are missing fit on the nodes that may be used, each
    node taken alone. So the order of the nodes does not matter, and any rule
    that picks nodes which take the shape gives the same answer. Each placement
    on the way is on a node that may be used, and uses no dimension that is
    asked for beyond its capacity. -/
theorem hasRoom_exact (nodes : List Node) (current target : Nat) (cores : Float) (memory : Nat)
    (hs : (Shape.ofCores cores memory).Asks) (hids : (nodes.map (·.id)).Nodup) :
    ((Capacity.nodes nodes).hasRoom current target cores memory = true ↔
      target ≤ current ∨ target - current ≤ clusterRoom (.ofCores cores memory) nodes) ∧
    (∀ nodes', nodes'.Perm nodes → (Capacity.nodes nodes').hasRoom current target cores memory =
      (Capacity.nodes nodes).hasRoom current target cores memory) ∧
    (∀ pick, Picks (.ofCores cores memory) pick →
      ((Capacity.nodes nodes).hasRoom current target cores memory = true ↔ target ≤ current ∨
        (placeAllBy pick (.ofCores cores memory) (target - current) nodes).isSome = true)) ∧
    ∀ k m m', placeAll (.ofCores cores memory) k nodes = some m →
      placeOne (.ofCores cores memory) m = some m' →
      ∃ pre n post, m = pre ++ n :: post ∧ n.unschedulable = false ∧
        m' = pre ++ n.allocate (.ofCores cores memory) :: post ∧
        (0 < (Shape.ofCores cores memory).cpu →
          (n.allocate (.ofCores cores memory)).cpuUsed ≤ n.cpuCapacity) ∧
        (0 < memory → (n.allocate (.ofCores cores memory)).memoryUsed ≤ n.memoryCapacity) := by
  have hpick := picks_bestFit hs
  refine ⟨hasRoom_iff hs hids, fun nodes' hperm => ?_, fun pick hpick' => ?_,
    fun k m m' hm hm' => ?_⟩
  · have hids' : (nodes'.map (·.id)).Nodup := (hperm.map _).nodup_iff.2 hids
    rw [Bool.eq_iff_iff, hasRoom_iff hs hids, hasRoom_iff hs hids', clusterRoom_perm hperm]
  · rw [hasRoom_iff hs hids, placeAllBy_isSome_iff hs hpick' _ nodes hids]
  · -- The nodes have their identifiers also after some placements.
    rw [placeAll_eq] at hm
    rw [placeOne_eq] at hm'
    have hidsM : (m.map (·.id)).Nodup := by rwa [ids_of_placeAllBy hpick k nodes hids hm]
    rcases placement_of_placeOneBy hpick hidsM hm' with ⟨pre, n, post, hnodes, hm', hn, hpos⟩
    rcases Node.used_le_capacity hs hpos with ⟨hcpu, hmemory⟩
    exact ⟨pre, n, post, hnodes, hn, hm', hcpu, hmemory⟩

end Capacity

namespace SmallCluster

/-- A node with all the CPU that there can be. -/
def node (id : String) (capacity used : Nat) (unschedulable : Bool := false) : Node where
  id
  cpuCapacity := Text.wordLimit - 1
  memoryCapacity := capacity
  cpuUsed := 0
  memoryUsed := used
  unschedulable

/-- On such a node one instance fits or none, depending on its memory. -/
theorem fits_node (id : String) (capacity used : Nat) (cores : Float)
    (h : capacity - used < 2000) :
    (node id capacity used).fits (.ofCores cores 1000) = (capacity - used) / 1000 := by
  have hs : (Shape.ofCores cores 1000).Asks := Or.inr (Nat.succ_pos 999)
  have hcpu : (Shape.ofCores cores 1000).cpu < Text.wordLimit := UInt64.toNat_lt _
  refine eq_of_forall_le_iff fun k => ?_
  rw [Node.le_fits_iff hs, Nat.le_div_iff_mul_le (by decide)]
  refine and_iff_right_of_imp fun hk => ?_
  -- The memory is not enough for two.
  have hk' : k * 1000 ≤ capacity - used := hk
  have hone : k ≤ 1 := by omega
  calc k * (Shape.ofCores cores 1000).cpu
      ≤ 1 * (Shape.ofCores cores 1000).cpu := Nat.mul_le_mul_right _ hone
    _ ≤ Text.wordLimit - 1 := by omega

/-- Two nodes with room for one instance each, one in which more is in use than
    there is, and one that is cordoned. -/
def store : Store :=
  [.putNode (node "left" 1500 0), .putNode (node "right" 3500 2000),
    .putNode (node "crowded" 1000 1500),
    .putNode (node "cordoned" 9000 0 true)].foldl Store.apply {}

theorem nodeList_store : store.nodeList =
    [node "cordoned" 9000 0 true, node "crowded" 1000 1500, node "left" 1500 0,
      node "right" 3500 2000] := by
  decide +kernel

/-- There is room for two more, so a job with one task manager can grow to three
    of them and not to four. -/
theorem hasRoom_exact_one_to_three :
    (Shape.ofCores 1.0 1000).Asks ∧ (store.nodeList.map (·.id)).Nodup ∧
      (Capacity.nodes store.nodeList).hasRoom 1 3 1.0 1000 = true ∧
      ¬(Capacity.nodes store.nodeList).hasRoom 1 4 1.0 1000 = true := by
  have hs : (Shape.ofCores 1.0 1000).Asks := Or.inr (by decide)
  have hids := Store.nodup_id_nodeList (s := store)
    (Store.filed_of_reachable (Store.reachable_foldl _ .empty))
  have hroom : clusterRoom (.ofCores 1.0 1000) store.nodeList = 2 := by
    rw [nodeList_store]
    change (node "crowded" 1000 1500).fits _ + ((node "left" 1500 0).fits _ +
      ((node "right" 3500 2000).fits _ + 0)) = 2
    rw [fits_node _ _ _ _ (by decide), fits_node _ _ _ _ (by decide),
      fits_node _ _ _ _ (by decide)]
  refine ⟨hs, hids, ?_, ?_⟩
  · rw [(Capacity.hasRoom_exact _ 1 3 _ _ hs hids).1, hroom]
    decide
  · rw [(Capacity.hasRoom_exact _ 1 4 _ _ hs hids).1, hroom]
    decide

end SmallCluster

end Rescale
