import Mathlib.Data.String.Basic
import Rescale.SnapshotFolder
import Rescale.SortedMap.Lemmas

/-!
# One Folder, Two Questions

What a folder of snapshots answers, read off from the files in it.

A folder is asked which jobs it knows and what it knows about one of them, and
each question goes through the files on its own: one sorts the jobs and drops
repetitions, the other one stops at the first file that fits. Nothing is kept in
between, so that the two agree is not for free. It holds because both see the same
snapshots in the same order, that of the names of the files.

The names are what makes this an order at all. A folder lists its files as it
likes, but no two of them share a name, so what is said here about the answers
mentions only which files there are: a file counts if its name ends in `.json`
and its text is a snapshot, and of those that name the same job the one with the
smallest name counts. Listings that have these files in common give the same
answers, in whatever order they are and whatever else is in the folder.

Names and jobs are ordered as texts, which is the order of their bytes.

## Main definitions

* `SnapshotFolder.Holds`: A file that holds a snapshot.
* `SnapshotFolder.First`: The first file that holds a snapshot of a job.
* `SnapshotFolder.snapshotIn?`: The snapshot that a file holds.

## Theorems

* `isSnapshotName_iff`: The names that end in `.json`.
* `holds_iff`: What a file holds is what is read from it.
* `mem_jobs_iff`: A job is listed if there is a snapshot of it.
* `pairwise_jobs`: The jobs ascend.
* `snapshot?_eq_some_iff`: The snapshot of a job is that of the first file.
* `First.congr`: Files without a snapshot do not matter.
* `source_agrees`: The answers of a folder.
-/

namespace Rescale

namespace SnapshotFolder

/-- A file that holds a snapshot: its name has something in front of `.json`, and
    its text can be read and is a snapshot document. -/
def Holds (e : String × Option String) (s : Snapshot) : Prop :=
  ∃ stem text, stem ≠ "" ∧ e = (stem ++ ".json", some text) ∧ Snapshot.ofText? text = some s

/-- Of the listed files that hold a snapshot of the job, `e` has the smallest
    name, and `s` is what it holds. -/
structure First (files : List (String × Option String)) (job : JobId)
    (e : String × Option String) (s : Snapshot) : Prop where
  listed : e ∈ files
  holds : Holds e s
  job_eq : s.job = job
  first : ∀ e' ∈ files, ∀ s', Holds e' s' → s'.job = job → e.1 ≤ e'.1

/-- The snapshot that a file holds. -/
def snapshotIn? (e : String × Option String) : Option Snapshot :=
  if isSnapshotName e.1 then e.2.bind Snapshot.ofText? else none

/-! ### What a file holds -/

theorem isSnapshotName_iff {name : String} :
    isSnapshotName name = true ↔ ∃ stem, stem ≠ "" ∧ name = stem ++ ".json" := by
  have htoList : ".json".toList = extension := rfl
  simp only [isSnapshotName, Bool.and_eq_true, decide_eq_true_eq, List.isSuffixOf_iff_suffix]
  constructor
  · rintro ⟨hlength, front, hfront⟩
    refine ⟨String.ofList front, ?_, ?_⟩
    · intro hempty
      have hnil : front = [] := by rw [← String.toList_ofList (l := front), hempty]; rfl
      rw [← hfront, hnil, List.nil_append] at hlength
      exact absurd hlength (Nat.lt_irrefl _)
    · rw [← String.toList_inj, String.toList_append, String.toList_ofList, htoList, hfront]
  · rintro ⟨stem, hstem, rfl⟩
    rw [String.toList_append, htoList]
    refine ⟨?_, List.suffix_append _ _⟩
    have hlength : 0 < stem.toList.length := by
      refine List.length_pos_iff.2 fun hnil => hstem ?_
      rw [← String.toList_inj, hnil]
      rfl
    rw [List.length_append]
    omega

/-- What a file holds is what is read from it. -/
theorem holds_iff {e : String × Option String} {s : Snapshot} :
    Holds e s ↔ snapshotIn? e = some s := by
  rcases e with ⟨name, content⟩
  rw [snapshotIn?]
  constructor
  · rintro ⟨stem, text, hstem, heq, hs⟩
    obtain ⟨rfl, rfl⟩ := Prod.mk.inj heq
    rw [if_pos (isSnapshotName_iff.2 ⟨stem, hstem, rfl⟩)]
    exact hs
  · intro h
    by_cases hname : isSnapshotName name = true
    · rw [if_pos hname, Option.bind_eq_some_iff] at h
      rcases h with ⟨text, rfl, hs⟩
      rcases isSnapshotName_iff.1 hname with ⟨stem, hstem, rfl⟩
      exact ⟨stem, text, hstem, rfl, hs⟩
    · rw [if_neg hname] at h
      cases h

theorem snapshots_eq (f : SnapshotFolder) : f.snapshots = f.files.toList.filterMap snapshotIn? :=
  rfl

/-! ### The two questions -/

/-- A job is listed if there is a snapshot of it. Both questions come down to
    whether one of the snapshots is of the job. -/
theorem mem_jobs_iff {f : SnapshotFolder} {job : JobId} :
    job ∈ f.jobs ↔ ∃ s, f.snapshot? job = some s := by
  rw [jobs, SortedMap.mem_keys_ofList, List.map_map, ← Option.isSome_iff_exists, snapshot?,
    List.find?_isSome, List.mem_map]
  simp only [Function.comp_apply, beq_iff_eq]

/-- The jobs ascend, so none is listed twice. -/
theorem pairwise_jobs (f : SnapshotFolder) : f.jobs.Pairwise (· < ·) :=
  (SortedMap.pairwise_keys _).imp Std.LawfulLTCmp.eq_lt_iff_lt.1

/-- The snapshot of a job is that of the first file that has one. -/
theorem snapshot?_eq_some_iff {f : SnapshotFolder} {job : JobId} {s : Snapshot} :
    f.snapshot? job = some s ↔ ∃ e, First f.files.toList job e s := by
  have hof : ∀ e, ((snapshotIn? e).any fun s => s.job == job) = true ↔
      ∃ s, Holds e s ∧ s.job = job := by
    intro e
    simp only [holds_iff, Option.any_eq_true, beq_iff_eq]
  rw [snapshot?, snapshots_eq, List.find?_filterMap, Option.bind_eq_some_iff]
  refine exists_congr fun e => ?_
  rw [SortedMap.find?_toList_eq_some_iff, hof, ← holds_iff]
  constructor
  · rintro ⟨⟨hmem, ⟨s', hs', hjob⟩, hleast⟩, hs⟩
    obtain rfl : s' = s := Option.some.inj ((holds_iff.1 hs').symm.trans (holds_iff.1 hs))
    refine ⟨hmem, hs, hjob, fun e' he' s'' hs'' hjob' => ?_⟩
    exact compare_le_iff_le.1 (hleast e' he' ((hof e').2 ⟨s'', hs'', hjob'⟩))
  · intro h
    refine ⟨⟨h.listed, ⟨s, h.holds, h.job_eq⟩, fun e' he' hp => ?_⟩, h.holds⟩
    rcases (hof e').1 hp with ⟨s', hs', hjob⟩
    exact compare_le_iff_le.2 (h.first e' he' s' hs' hjob)

/-! ### Listings -/

/-- Only the files that hold a snapshot decide which one is the first. -/
theorem First.congr {l l' : List (String × Option String)}
    (h : ∀ e s, Holds e s → (e ∈ l' ↔ e ∈ l)) {job : JobId} {e : String × Option String}
    {s : Snapshot} (hfirst : First l job e s) : First l' job e s := by
  refine ⟨(h e s hfirst.holds).2 hfirst.listed, hfirst.holds, hfirst.job_eq, ?_⟩
  intro e' he' s' hs' hjob
  exact hfirst.first e' ((h e' s' hs').1 he') s' hs' hjob

/-- The snapshot of a job in a folder with some listed files. -/
theorem snapshot?_ofListing {l : List (String × Option String)} (hl : (l.map Prod.fst).Nodup)
    {job : JobId} {s : Snapshot} :
    (ofListing l).snapshot? job = some s ↔ ∃ e, First l job e s := by
  have hfiles : ∀ e, e ∈ (ofListing l).files.toList ↔ e ∈ l :=
    fun e => SortedMap.mem_toList_ofList hl
  rw [snapshot?_eq_some_iff]
  constructor
  · rintro ⟨e, h⟩
    exact ⟨e, h.congr fun e _ _ => (hfiles e).symm⟩
  · rintro ⟨e, h⟩
    exact ⟨e, h.congr fun e _ _ => hfiles e⟩

/-- Folders with the same snapshots list the same jobs. -/
theorem jobs_congr {f g : SnapshotFolder} (h : ∀ job, f.snapshot? job = g.snapshot? job) :
    f.jobs = g.jobs := by
  refine SortedMap.keys_eq_of_contains fun job => ?_
  rw [Bool.eq_iff_iff, SortedMap.contains_iff, SortedMap.contains_iff, ← SortedMap.mem_keys_iff,
    ← SortedMap.mem_keys_iff]
  change job ∈ f.jobs ↔ job ∈ g.jobs
  rw [mem_jobs_iff, mem_jobs_iff, h job]

/-- Listings with the same snapshot files give the same answers. -/
theorem source_congr {l l' : List (String × Option String)} (hl : (l.map Prod.fst).Nodup)
    (hl' : (l'.map Prod.fst).Nodup) (h : ∀ e s, Holds e s → (e ∈ l' ↔ e ∈ l)) :
    (ofListing l').source = (ofListing l).source := by
  have hsnapshot : ∀ job, (ofListing l').snapshot? job = (ofListing l).snapshot? job := by
    intro job
    refine Option.ext fun s => ?_
    rw [snapshot?_ofListing hl', snapshot?_ofListing hl]
    constructor
    · rintro ⟨e, hfirst⟩
      exact ⟨e, hfirst.congr fun e s hs => (h e s hs).symm⟩
    · rintro ⟨e, hfirst⟩
      exact ⟨e, hfirst.congr h⟩
  rw [source, source, jobs_congr hsnapshot, funext hsnapshot]

/-- The two questions to a folder have answers that agree, whatever files it has
    and however it lists them.

    The jobs ascend strictly; a job has a snapshot if and only if it is listed; and
    its snapshot is of this job, from the first file by name that holds one. All
    answers stay the same if the files are listed in another order, and if files
    that hold no snapshot come, go or change. -/
theorem source_agrees (l : List (String × Option String)) (hl : (l.map Prod.fst).Nodup) :
    ∃ (jobs : List JobId) (answer : JobId → Option Snapshot),
      (ofListing l).source.jobs = .ok jobs ∧
      (∀ job, (ofListing l).source.snapshot? job = .ok (answer job)) ∧
      jobs.Pairwise (· < ·) ∧
      (∀ job, (∃ s, answer job = some s) ↔ job ∈ jobs) ∧
      (∀ job s, answer job = some s ↔ ∃ e, First l job e s) ∧
      ∀ l' : List (String × Option String), (l'.map Prod.fst).Nodup →
        (∀ e s, Holds e s → (e ∈ l' ↔ e ∈ l)) → (ofListing l').source = (ofListing l).source := by
  refine ⟨(ofListing l).jobs, (ofListing l).snapshot?, rfl, fun _ => rfl, pairwise_jobs _, ?_, ?_,
    ?_⟩
  · intro job
    exact mem_jobs_iff.symm
  · intro job s
    exact snapshot?_ofListing hl
  · intro l' hl' h
    exact source_congr hl hl' h

namespace Shared

/-- A snapshot of a job with nothing but its task-manager memory. -/
def document (memory : String) : String :=
  "\x7b\"job_id\": \"orders\", \"task_manager_memory\": " ++ memory ++ "\x7d"

/-- Two snapshots of one job, the later one listed first, another one under a name
    that does not count, and a file that holds none. -/
def listing : List (String × Option String) :=
  [("b.json", some (document "2")), ("notes.txt", some (document "3")),
    ("a.json", some (document "1")), ("broken.json", some "\x7b not json")]

/-- The two snapshots alone, in order. -/
def tidied : List (String × Option String) :=
  [("a.json", some (document "1")), ("b.json", some (document "2"))]

/-- The job is listed once, the snapshot in `a.json` counts, and the other two files
    might as well not be there. -/
theorem source_agrees_shared :
    (listing.map Prod.fst).Nodup ∧ (ofListing listing).source.jobs = .ok ["orders"] ∧
    (∃ e s, First listing "orders" e s ∧ e.1 = "a.json" ∧ s.memory = some 1) ∧
    (ofListing tidied).source = (ofListing listing).source := by
  have hnames : (listing.map Prod.fst).Nodup := by decide
  have hjobs : (ofListing listing).jobs = ["orders"] := by decide +kernel
  rcases source_agrees listing hnames with
    ⟨jobs, answer, hlisted, -, -, hagree, hfirst, hsame⟩
  refine ⟨hnames, congrArg Except.ok hjobs, ?_, ?_⟩
  · have hmem : "orders" ∈ jobs := by
      rw [← Except.ok.inj hlisted, hjobs]
      exact List.mem_singleton_self _
    rcases (hagree "orders").2 hmem with ⟨s, hs⟩
    rcases (hfirst "orders" s).1 hs with ⟨e, he⟩
    -- The file in front of all others is the one whose name is the smallest.
    have hone : snapshotIn? ("a.json", some (document "1")) =
        some { job := "orders", memory := some 1 } := by decide +kernel
    have hle := he.first _ (by decide) _ (holds_iff.2 hone) rfl
    have hleast : ∀ e' ∈ listing, e'.1 ≤ "a.json" → e' = ("a.json", some (document "1")) := by
      decide
    obtain rfl := hleast e he.listed hle
    obtain rfl := Option.some.inj (hone.symm.trans (holds_iff.1 he.holds))
    exact ⟨_, _, he, rfl, rfl⟩
  · have htidied : ∀ e ∈ tidied, e ∈ listing := by decide
    have hrest : ∀ e ∈ listing, snapshotIn? e = none ∨ e ∈ tidied := by decide +kernel
    refine hsame tidied (by decide) fun e s hs => ⟨htidied e, fun he => ?_⟩
    rcases hrest e he with hnone | hmem
    · rw [holds_iff.1 hs] at hnone
      cases hnone
    · exact hmem

end Shared

end SnapshotFolder

end Rescale
