import Magellan.Runtime.Validation
import Mathlib.Data.String.Basic

/-!
# The step that discovery selects

Files that are too young are left out one by one before the files of a step are counted, so a step
can look complete without them. Of ranks only the number is compared.
-/

namespace Magellan.Dendro

open Checkpoint

variable {Content : Type} (p : Patterns) (spec : DendroCheckpointDiscoverySpec)
  (manifestPath : String) (now : Int) (directory : Directory Content)

/-! ## The files of a step -/

def isGlobbed (path : String) : Bool := spec.fileGlobs.any fun pattern => p.glob pattern path

/-- The step and the rank that the patterns find in a path. -/
def numbers (path : String) : Option (Int × Option Int) :=
  match extractNumber p spec.stepRegex path "step", extractNumber p spec.rankRegex path "rank" with
  | .ok (some step), .ok rank =>
      if spec.rankRegex.isSome ∧ rank.isNone then none else some (step, rank)
  | _, _ => none

/-- A path in which a group of a pattern is not a number. -/
def Misnumbered (path : String) : Prop :=
  isGlobbed p spec path = true ∧ path ≠ manifestPath ∧
    ((∃ e, extractNumber p spec.stepRegex path "step" = .error e) ∨
      ∃ step e, extractNumber p spec.stepRegex path "step" = .ok (some step) ∧
        extractNumber p spec.rankRegex path "rank" = .error e)

/-- A file with its path and rank. -/
abbrev Member (Content : Type) := String × Option Int × StoredFile Content

/-- The matching files of a step, of any age. -/
def matching (step : Int) : List (Member Content) :=
  directory.entries.filterMap fun (path, file) =>
    if isGlobbed p spec path ∧ path ≠ manifestPath then
      (numbers p spec path).bind fun found =>
        if found.1 = step then some (path, found.2, file) else none
    else none

/-- Those that are old enough. -/
def stable (step : Int) : List (Member Content) :=
  (matching p spec manifestPath directory step).filter fun x => ¬ tooYoung spec now x.2.2

def ranksIn (members : List (Member Content)) : List Int :=
  (members.filterMap fun x => x.2.1).dedup

/-- The numbers of files and of ranks are the expected ones. -/
structure Counted (members : List (Member Content)) : Prop where
  files : ∀ n, spec.expectedFileCount = some n → members.length = n
  ranks : ∀ n, spec.expectedRankCount = some n → (ranksIn members).length = n

/-- Each expected rank has a file. -/
def Ranked (members : List (Member Content)) : Prop :=
  ∀ n, spec.expectedRankCount = some n → ∀ k < n, (k : Int) ∈ ranksIn members

/-- All matching files of the step are old enough, and they are what is expected. -/
structure Complete (step : Int) : Prop where
  nonempty : matching p spec manifestPath directory step ≠ []
  settled : ∀ x ∈ matching p spec manifestPath directory step, ¬ tooYoung spec now x.2.2
  counted : Counted spec (matching p spec manifestPath directory step)
  ranked : Ranked spec (matching p spec manifestPath directory step)

/-- The step is the greatest one whose files that are old enough have the expected numbers. -/
structure Newest (step : Int) : Prop where
  nonempty : stable p spec manifestPath now directory step ≠ []
  counted : Counted spec (stable p spec manifestPath now directory step)
  newest : ∀ later > step, stable p spec manifestPath now directory later = [] ∨
    ¬ Counted spec (stable p spec manifestPath now directory later)

/-- No matching file of the step is too young, and no expected rank is without a file. -/
structure Whole (step : Int) : Prop where
  settled : ∀ x ∈ matching p spec manifestPath directory step, ¬ tooYoung spec now x.2.2
  ranked : Ranked spec (stable p spec manifestPath now directory step)

def listing (members : List (Member Content)) : List (String × Option Int) :=
  members.map fun x => (x.1, x.2.1)

def selectionOf (step : Int) : Selection :=
  ⟨step, none, sortedByName (listing (stable p spec manifestPath now directory step))⟩

section

variable {p spec manifestPath now directory}

theorem stable_eq_matching {step : Int}
    (settled : ∀ x ∈ matching p spec manifestPath directory step, ¬ tooYoung spec now x.2.2) :
    stable p spec manifestPath now directory step = matching p spec manifestPath directory step := by
  rw [stable, List.filter_eq_self]
  exact fun x mem => decide_eq_true (settled x mem)

theorem Newest.complete_iff {step : Int} (newest : Newest p spec manifestPath now directory step) :
    Complete p spec manifestPath now directory step ↔ Whole p spec manifestPath now directory step := by
  constructor
  · intro complete
    refine ⟨complete.settled, ?_⟩
    rw [stable_eq_matching complete.settled]
    exact complete.ranked
  · intro whole
    have same := stable_eq_matching whole.settled
    exact ⟨same ▸ newest.nonempty, whole.settled, same ▸ newest.counted, same ▸ whole.ranked⟩

theorem mem_matching {step : Int} {path : String} {rank : Option Int} {file : StoredFile Content} :
    (path, rank, file) ∈ matching p spec manifestPath directory step ↔
      directory.get? path = some file ∧ isGlobbed p spec path = true ∧ path ≠ manifestPath ∧
        numbers p spec path = some (step, rank) := by
  simp only [matching, List.mem_filterMap, ← Dict.mem_entries_iff]
  constructor
  · rintro ⟨⟨path', file'⟩, mem, found⟩
    dsimp only at found
    split_ifs at found with globbed
    obtain ⟨⟨step', rank'⟩, numbered, found⟩ := Option.bind_eq_some_iff.mp found
    dsimp only at found
    split_ifs at found with same
    cases found
    subst same
    exact ⟨mem, globbed.1, globbed.2, numbered⟩
  · rintro ⟨mem, globbed, other, numbered⟩
    refine ⟨(path, file), mem, ?_⟩
    simp [globbed, other, numbered]

theorem mem_stable {step : Int} {path : String} {rank : Option Int} {file : StoredFile Content} :
    (path, rank, file) ∈ stable p spec manifestPath now directory step ↔
      (path, rank, file) ∈ matching p spec manifestPath directory step ∧ ¬ tooYoung spec now file := by
  rw [stable, List.mem_filter, decide_eq_true_iff]

theorem nodup_matching (step : Int) :
    ((matching p spec manifestPath directory step).map Prod.fst).Nodup := by
  have sub : ((matching p spec manifestPath directory step).map Prod.fst).Sublist directory.keys := by
    unfold matching Dict.keys
    induction directory.entries with
    | nil => exact .slnil
    | cons entry entries ih =>
        rw [List.filterMap_cons]
        split
        · exact ih.cons _
        · rename_i x found
          have path : x.1 = entry.1 := by
            dsimp only at found
            split_ifs at found
            obtain ⟨numbered, -, found⟩ := Option.bind_eq_some_iff.mp found
            split_ifs at found
            cases found
            rfl
          rw [List.map_cons, List.map_cons, path]
          exact ih.cons_cons _
  exact sub.nodup directory.nodup

/-! ## The search -/

/-- What a globbed file counts for, if no group fails to be a number. -/
def counts (p : Patterns) (spec : DendroCheckpointDiscoverySpec) (manifestPath : String) (now : Int)
    (directory : Directory Content) (path : String) : Option (Int × Option Int) :=
  (directory.get? path).bind fun file =>
    if path = manifestPath ∨ tooYoung spec now file then none else numbers p spec path

theorem candidate_eq (pattern : spec.stepRegex.isSome) {path : String} {file : StoredFile Content}
    (found : directory.get? path = some file) (globbed : isGlobbed p spec path = true)
    (numbered : ¬ Misnumbered p spec manifestPath path) :
    candidate p spec manifestPath now path file =
      .ok (counts p spec manifestPath now directory path) := by
  unfold candidate counts
  rw [found, Option.bind_some]
  by_cases own : path = manifestPath
  · rw [if_pos own, if_pos (.inl own)]
  rw [if_neg own]
  have steps : ∀ e, extractNumber p spec.stepRegex path "step" ≠ .error e :=
    fun e raised => numbered ⟨globbed, own, .inl ⟨e, raised⟩⟩
  unfold numbers
  cases step : extractNumber p spec.stepRegex path "step" with
  | error e => exact absurd step (steps e)
  | ok step_ =>
      cases step_ with
      | none => simp [pattern]
      | some step_ =>
          have ranks : ∀ e, extractNumber p spec.rankRegex path "rank" ≠ .error e :=
            fun e raised => numbered ⟨globbed, own, .inr ⟨step_, e, step, raised⟩⟩
          cases rank : extractNumber p spec.rankRegex path "rank" with
          | error e => exact absurd rank (ranks e)
          | ok rank_ =>
              by_cases young : tooYoung spec now file
              · simp [own, young]
              · simp only [own, young, false_or, if_false, Option.isNone_some, Bool.false_eq_true,
                  and_false, Option.getD_some]
                split_ifs <;> rfl

theorem candidates_ok {files : List (String × StoredFile Content)}
    {c : String → Option (Int × Option Int)}
    (each : ∀ file ∈ files, candidate p spec manifestPath now file.1 file.2 = .ok (c file.1))
    (found : Dict String (Int × Option Int)) :
    ∃ found', candidates p spec manifestPath now files found = .ok found' ∧ ∀ path,
      found'.get? path = if path ∈ files.map Prod.fst ∧ (c path).isSome then c path
        else found.get? path := by
  induction files generalizing found with
  | nil => exact ⟨found, rfl, by simp⟩
  | cons file files ih =>
      obtain ⟨here, rest⟩ := List.forall_mem_cons.mp each
      obtain ⟨path, file⟩ := file
      rw [candidates, here]
      cases counted : c path with
      | none =>
          obtain ⟨found', ok, get⟩ := ih rest found
          refine ⟨found', ok, fun path' => ?_⟩
          rw [get]
          by_cases same : path' = path
          · simp [same, counted]
          · simp only [List.map_cons, List.mem_cons, same, false_or]
      | some numbered =>
          obtain ⟨found', ok, get⟩ := ih rest (found.set path numbered)
          refine ⟨found', ok, fun path' => ?_⟩
          rw [get, Dict.get?_set]
          by_cases same : path' = path
          · simp [same, counted]
          · simp only [List.map_cons, List.mem_cons, same, false_or, if_false]

theorem candidates_error {files : List (String × StoredFile Content)}
    (file : String × StoredFile Content) (mem : file ∈ files) {e : Exn}
    (raises : candidate p spec manifestPath now file.1 file.2 = .error e)
    (found : Dict String (Int × Option Int)) :
    ∃ e, candidates p spec manifestPath now files found = .error e := by
  induction files generalizing found with
  | nil => cases mem
  | cons other files ih =>
      obtain ⟨path, stored⟩ := other
      rw [candidates]
      rcases List.mem_cons.mp mem with rfl | later
      · rw [raises]
        exact ⟨e, rfl⟩
      · cases candidate p spec manifestPath now path stored with
        | error e' => exact ⟨e', rfl⟩
        | ok numbered =>
            cases numbered with
            | none => exact ih later found
            | some numbered => exact ih later (found.set path numbered)

theorem mem_globbed {path : String} {file : StoredFile Content} :
    (path, file) ∈ globbed p spec directory ↔
      directory.get? path = some file ∧ isGlobbed p spec path = true := by
  simp only [globbed, List.mem_flatMap, List.mem_filter, ← Dict.mem_entries_iff, isGlobbed,
    List.any_eq_true]
  constructor
  · rintro ⟨pattern, mem, here, found⟩
    exact ⟨here, pattern, mem, found⟩
  · rintro ⟨here, pattern, mem, found⟩
    exact ⟨pattern, mem, here, found⟩

/-- Some file of the directory has a group that is not a number. -/
def Misnumbers (p : Patterns) (spec : DendroCheckpointDiscoverySpec) (manifestPath : String)
    (directory : Directory Content) : Prop :=
  ∃ path file, directory.get? path = some file ∧ Misnumbered p spec manifestPath path

theorem candidates_globbed_error (now : Int)
    (misnumbers : Misnumbers p spec manifestPath directory) :
    ∃ e, candidates p spec manifestPath now (globbed p spec directory) .empty = .error e := by
  obtain ⟨path, file, found, globbed, other, bad⟩ := misnumbers
  have raises : ∃ e, candidate p spec manifestPath now path file = .error e := by
    unfold candidate
    rw [if_neg other]
    rcases bad with ⟨e, step⟩ | ⟨step_, e, step, rank⟩
    · rw [step]
      exact ⟨e, rfl⟩
    · rw [step, rank]
      exact ⟨e, by simp⟩
  obtain ⟨e, raises⟩ := raises
  exact candidates_error (path, file) (mem_globbed.mpr ⟨found, globbed⟩) raises _

theorem candidates_globbed (now : Int) (pattern : spec.stepRegex.isSome)
    (numbered : ¬ Misnumbers p spec manifestPath directory) :
    ∃ found, candidates p spec manifestPath now (globbed p spec directory) .empty = .ok found ∧
      ∀ path step rank, found.get? path = some (step, rank) ↔
        ∃ file, (path, rank, file) ∈ stable p spec manifestPath now directory step := by
  have each : ∀ file ∈ globbed p spec directory, candidate p spec manifestPath now file.1 file.2 =
      .ok (counts p spec manifestPath now directory file.1) := by
    rintro ⟨path, file⟩ mem
    obtain ⟨found, globbed⟩ := mem_globbed.mp mem
    exact candidate_eq pattern found globbed fun bad => numbered ⟨path, file, found, bad⟩
  obtain ⟨found, ok, get⟩ := candidates_ok each .empty
  refine ⟨found, ok, fun path step rank => ?_⟩
  rw [get]
  constructor
  · intro here
    split_ifs at here with listed
    swap
    · cases here
    obtain ⟨⟨path', file⟩, mem, same⟩ := List.mem_map.mp listed.1
    cases same
    obtain ⟨present, globbed⟩ := mem_globbed.mp mem
    rw [counts, present, Option.bind_some] at here
    split_ifs at here with excluded
    obtain ⟨other, old⟩ := not_or.mp excluded
    exact ⟨file, mem_stable.mpr ⟨mem_matching.mpr ⟨present, globbed, other, here⟩, old⟩⟩
  · rintro ⟨file, mem⟩
    obtain ⟨mem, old⟩ := mem_stable.mp mem
    obtain ⟨present, globbed, other, here⟩ := mem_matching.mp mem
    have counted : counts p spec manifestPath now directory path = some (step, rank) := by
      rw [counts, present, Option.bind_some, if_neg (not_or.mpr ⟨other, old⟩), here]
    rw [if_pos ⟨List.mem_map_of_mem (mem_globbed.mpr ⟨present, globbed⟩), by rw [counted]; rfl⟩,
      counted]

/-! ## The selection -/

/-- What the search has found for a step. -/
theorem group_perm {found : Dict String (Int × Option Int)}
    (get : ∀ path step rank, found.get? path = some (step, rank) ↔
      ∃ file, (path, rank, file) ∈ stable p spec manifestPath now directory step) (step : Int) :
    ((found.entries.filter fun item => item.2.1 = step).map fun item => (item.1, item.2.2)).Perm
      (listing (stable p spec manifestPath now directory step)) := by
  have first : (((found.entries.filter fun item => item.2.1 = step).map fun item =>
      (item.1, item.2.2)).map Prod.fst).Nodup := by
    rw [List.map_map]
    exact (List.filter_sublist.map _).nodup found.nodup
  have second : ((listing (stable p spec manifestPath now directory step)).map Prod.fst).Nodup := by
    rw [listing, List.map_map]
    exact (List.filter_sublist.map _).nodup (nodup_matching step)
  rw [List.perm_ext_iff_of_nodup first.of_map second.of_map]
  rintro ⟨path, rank⟩
  simp only [listing, List.mem_map, List.mem_filter, decide_eq_true_eq]
  constructor
  · rintro ⟨⟨path', step', rank'⟩, ⟨mem, rfl⟩, same⟩
    cases same
    obtain ⟨file, mem⟩ := (get _ _ _).mp (Dict.mem_entries_iff.mp mem)
    exact ⟨_, mem, rfl⟩
  · rintro ⟨⟨path', rank', file⟩, mem, same⟩
    cases same
    exact ⟨(path', step, rank'), ⟨Dict.mem_entries_iff.mpr ((get _ _ _).mpr ⟨file, mem⟩), rfl⟩, rfl⟩

theorem sortedByName_perm {a b : List (String × Option Int)} (same : a.Perm b)
    (nodup : (b.map Prod.fst).Nodup) : sortedByName a = sortedByName b := by
  have total : Std.Total fun a b : String × Option Int => a.1 ≤ b.1 := ⟨fun a b => le_total a.1 b.1⟩
  have trans : IsTrans (String × Option Int) fun a b => a.1 ≤ b.1 := ⟨fun _ _ _ => le_trans⟩
  refine List.Perm.eq_of_pairwise ?_ (List.pairwise_insertionSort _ a)
    (List.pairwise_insertionSort _ b)
    ((List.perm_insertionSort _ a).trans (same.trans (List.perm_insertionSort _ b).symm))
  intro x y memx memy le ge
  have memx := same.mem_iff.mp ((List.perm_insertionSort _ a).mem_iff.mp memx)
  have memy := (List.perm_insertionSort _ b).mem_iff.mp memy
  exact List.inj_on_of_nodup_map nodup memx memy (le_antisymm le ge)

theorem completeGroup_eq {found : Dict String (Int × Option Int)}
    (get : ∀ path step rank, found.get? path = some (step, rank) ↔
      ∃ file, (path, rank, file) ∈ stable p spec manifestPath now directory step) (step : Int) :
    (Counted spec (stable p spec manifestPath now directory step) ∧
      completeGroup spec found step = some (selectionOf p spec manifestPath now directory step)) ∨
    (¬ Counted spec (stable p spec manifestPath now directory step) ∧
      completeGroup spec found step = none) := by
  have perm := group_perm get step
  have second : ((listing (stable p spec manifestPath now directory step)).map Prod.fst).Nodup := by
    rw [listing, List.map_map]
    exact (List.filter_sublist.map _).nodup (nodup_matching step)
  unfold completeGroup
  dsimp only
  rw [perm.length_eq, ((perm.filterMap Prod.snd).dedup).length_eq, sortedByName_perm perm second]
  have ranks : ((listing (stable p spec manifestPath now directory step)).filterMap Prod.snd).dedup =
      ranksIn (stable p spec manifestPath now directory step) := by
    rw [ranksIn, listing, List.filterMap_map]
    rfl
  have length : (listing (stable p spec manifestPath now directory step)).length =
      (stable p spec manifestPath now directory step).length := List.length_map _
  rw [ranks, length]
  have expected : ∀ (given : Option Nat) (n : Nat), (given.isSome ∧ given ≠ some n) ↔
      ¬ ∀ m, given = some m → n = m := by
    intro given n
    cases given with
    | none => simp
    | some m => simp [eq_comm]
  simp only [expected]
  by_cases files : ∀ n, spec.expectedFileCount = some n →
      (stable p spec manifestPath now directory step).length = n
  · rw [if_neg (not_not.mpr files)]
    by_cases ranks : ∀ n, spec.expectedRankCount = some n →
        (ranksIn (stable p spec manifestPath now directory step)).length = n
    · rw [if_neg (not_not.mpr ranks)]
      exact .inl ⟨⟨files, ranks⟩, rfl⟩
    · rw [if_pos ranks]
      exact .inr ⟨fun counted => ranks counted.ranks, rfl⟩
  · rw [if_pos files]
    exact .inr ⟨fun counted => files counted.files, rfl⟩

/-- Discovery selects the files of the newest step, if there is one. -/
theorem selectGeneric_cases (p : Patterns) (manifestPath : String) (now : Int)
    (directory : Directory Content) (pattern : spec.stepRegex.isSome) :
    (Misnumbers p spec manifestPath directory ∧
      ∃ e, selectGeneric p spec manifestPath now directory = .error e) ∨
    (¬ Misnumbers p spec manifestPath directory ∧
      ((∃ step, Newest p spec manifestPath now directory step ∧
        selectGeneric p spec manifestPath now directory =
          .ok (some (selectionOf p spec manifestPath now directory step))) ∨
      ((∀ step, ¬ Newest p spec manifestPath now directory step ∧
          ¬ Complete p spec manifestPath now directory step) ∧
        selectGeneric p spec manifestPath now directory = .ok none))) := by
  by_cases misnumbers : Misnumbers p spec manifestPath directory
  · obtain ⟨e, raised⟩ := candidates_globbed_error now misnumbers
    refine .inl ⟨misnumbers, e, ?_⟩
    rw [selectGeneric, raised]
  refine .inr ⟨misnumbers, ?_⟩
  obtain ⟨found, ok, get⟩ := candidates_globbed now pattern misnumbers
  rw [selectGeneric, ok]
  dsimp only
  have listed : ∀ step, step ∈ (found.values.map Prod.fst).dedup.insertionSort (· ≥ ·) ↔
      stable p spec manifestPath now directory step ≠ [] := by
    intro step
    rw [List.mem_insertionSort, List.mem_dedup, List.mem_map]
    constructor
    · rintro ⟨⟨step', rank⟩, mem, rfl⟩
      obtain ⟨path, here⟩ := Dict.mem_values_iff.mp mem
      obtain ⟨file, mem⟩ := (get _ _ _).mp here
      exact List.ne_nil_of_mem mem
    · intro nonempty
      obtain ⟨⟨path, rank, file⟩, mem⟩ := List.exists_mem_of_ne_nil _ nonempty
      exact ⟨(step, rank), Dict.mem_values_iff.mpr ⟨path, (get _ _ _).mpr ⟨file, mem⟩⟩, rfl⟩
  have descending := List.pairwise_insertionSort (· ≥ ·) (found.values.map Prod.fst).dedup
  generalize (found.values.map Prod.fst).dedup.insertionSort (· ≥ ·) = steps at listed descending ⊢
  cases chosen : steps.findSome? (completeGroup spec found) with
  | none =>
      right
      have uncounted : ∀ step, stable p spec manifestPath now directory step ≠ [] →
          ¬ Counted spec (stable p spec manifestPath now directory step) := by
        intro step nonempty
        have failed := List.findSome?_eq_none_iff.mp chosen step ((listed step).mpr nonempty)
        rcases completeGroup_eq get step with ⟨-, group⟩ | ⟨bad, -⟩
        · rw [group] at failed
          cases failed
        · exact bad
      refine ⟨fun step => ⟨fun newest => uncounted step newest.nonempty newest.counted,
        fun complete => ?_⟩, rfl⟩
      have same := stable_eq_matching complete.settled
      exact uncounted step (same ▸ complete.nonempty) (same ▸ complete.counted)
  | some selected =>
      left
      obtain ⟨before, step, after, split, group, failed⟩ := List.findSome?_eq_some_iff.mp chosen
      subst split
      have nonempty := (listed step).mp (List.mem_append_right _ (List.mem_cons_self ..))
      rcases completeGroup_eq get step with ⟨counted, here⟩ | ⟨-, here⟩
      swap
      · rw [group] at here
        cases here
      rw [group] at here
      cases here
      refine ⟨step, ⟨nonempty, counted, fun later greater => ?_⟩, ?_⟩
      · rw [or_iff_not_imp_left]
        intro some_
        rcases List.mem_append.mp ((listed later).mpr some_) with earlier | rest
        · rcases completeGroup_eq get later with ⟨-, group'⟩ | ⟨bad, -⟩
          · rw [failed later earlier] at group'
            cases group'
          · exact bad
        · rcases List.mem_cons.mp rest with same | smaller
          · exact absurd greater (same ▸ lt_irrefl _)
          · have le : step ≥ later :=
              List.rel_of_pairwise_cons (List.pairwise_append.mp descending).2.1 smaller
            exact absurd greater (not_lt.mpr le)
      · refine if_neg fun empty => ?_
        obtain ⟨x, mem⟩ := List.exists_mem_of_ne_nil _ nonempty
        have listed' : (x.1, x.2.1) ∈ sortedByName (listing (stable p spec manifestPath now directory step)) :=
          (List.mem_insertionSort _).mpr (List.mem_map_of_mem mem)
        rw [show sortedByName (listing (stable p spec manifestPath now directory step)) = [] from empty]
          at listed'
        cases listed'

theorem Newest.unique {step other : Int} (newest : Newest p spec manifestPath now directory step)
    (newest' : Newest p spec manifestPath now directory other) : step = other := by
  have excluded : ∀ {a b}, Newest p spec manifestPath now directory a →
      Newest p spec manifestPath now directory b → ¬ a < b := by
    intro a b ha hb less
    rcases ha.newest b less with empty | uncounted
    · exact hb.nonempty empty
    · exact uncounted hb.counted
  exact le_antisymm (not_lt.mp (excluded newest' newest)) (not_lt.mp (excluded newest newest'))

end

/-! ## Manifests -/

open CheckpointManager

variable (r : Encoding Content) (manifest : ManifestPath)

/-- The manifest lists every matching file of one step and no other, none of them too young, the
numbers and the ranks are the expected ones, and no greater step is complete. -/
structure ListsNewest (m : CheckpointManifest String) (step : Int) : Prop where
  named : m.checkpointStep = some step
  files : ∀ path rank, (∃ item ∈ m.files, item.path = path ∧ item.rank = rank) ↔
    ∃ file, (path, rank, file) ∈ matching p spec manifest.text directory step
  settled : ∀ item ∈ m.files, ∀ file, directory.get? item.path = some file →
    ¬ tooYoung spec now file
  fileCount : ∀ n, spec.expectedFileCount = some n → m.files.length = n
  rankCount : ∀ n, spec.expectedRankCount = some n →
    (m.files.filterMap fun item => item.rank).dedup.length = n
  ranks : ∀ n, spec.expectedRankCount = some n → ∀ k < n, ∃ item ∈ m.files, item.rank = some (k : Int)
  newest : ∀ later > step, ¬ Complete p spec manifest.text now directory later

/-- The manifest in place does not keep discovery from writing one for the selection. -/
def Overwrites (selected : Selection) : Prop :=
  match directory.get? manifest.text with
  | none => True
  | some file =>
      match r.loads file.content with
      | .error (.jsonDecodeError _) => True
      | .error (.other _ _) => False
      | .ok existing => keeps r spec directory selected existing = .ok false

variable {p spec now directory r manifest}

theorem findManifest_selected {selected : Selection}
    (chosen : select p r.toReading spec manifest.text now directory = .ok (some selected)) :
    (Overwrites spec directory r manifest selected ∧
      findManifest p r spec manifest now directory = .ok (.new (CheckpointManager.newManifest r spec directory selected))) ∨
    (¬ Overwrites spec directory r manifest selected ∧
      findManifest p r spec manifest now directory ≠ .ok .nothing ∧
        ∀ m, findManifest p r spec manifest now directory ≠ .ok (.new m)) := by
  unfold Overwrites findManifest
  rw [chosen]
  dsimp only
  cases directory.get? manifest.text with
  | none => exact .inl ⟨trivial, rfl⟩
  | some file =>
      dsimp only
      cases r.loads file.content with
      | error e =>
          cases e with
          | jsonDecodeError message => exact .inl ⟨trivial, rfl⟩
          | other cls message => exact .inr ⟨id, by simp, by simp⟩
      | ok existing =>
          dsimp only
          cases keeps r spec directory selected existing with
          | error e => exact .inr ⟨by simp, by simp, by simp⟩
          | ok b =>
              cases b with
              | false => exact .inl ⟨rfl, rfl⟩
              | true => exact .inr ⟨by simp, by simp, by simp⟩

/-- The manifest that discovery writes for a step. -/
def manifestOf (p : Patterns) (r : Encoding Content) (spec : DendroCheckpointDiscoverySpec)
    (manifest : ManifestPath) (now : Int) (directory : Directory Content) (step : Int) :
    CheckpointManifest String :=
  CheckpointManager.newManifest r spec directory (selectionOf p spec manifest.text now directory step)

theorem manifestOf_perm (p : Patterns) (r : Encoding Content)
    (spec : DendroCheckpointDiscoverySpec) (manifest : ManifestPath) (now : Int)
    (directory : Directory Content) (step : Int) :
    ((manifestOf p r spec manifest now directory step).files.map fun item =>
      (item.path, item.rank)).Perm (listing (stable p spec manifest.text now directory step)) := by
  rw [manifestOf, CheckpointManager.newManifest, List.map_map]
  have same : ((fun item : ManifestItem String => (item.path, item.rank)) ∘
      fun item : String × Option Int => ({
        path := item.1
        sizeBytes := ((directory.get? item.1).map fun file => r.size file.content).getD 0
        rank := item.2
        sha256 := if spec.includeSha256 then (directory.get? item.1).map fun file =>
          r.sha256 file.content else none } : ManifestItem String)) = id := rfl
  rw [same, List.map_id]
  exact List.perm_insertionSort _ _

theorem mem_manifestOf {step : Int} {path : String} {rank : Option Int} :
    (∃ item ∈ (manifestOf p r spec manifest now directory step).files,
        item.path = path ∧ item.rank = rank) ↔
      ∃ file, (path, rank, file) ∈ stable p spec manifest.text now directory step := by
  have same := (manifestOf_perm p r spec manifest now directory step).mem_iff (a := (path, rank))
  simp only [listing, List.mem_map, Prod.mk.injEq] at same
  rw [same]
  constructor
  · rintro ⟨⟨path', rank', file⟩, mem, rfl, rfl⟩
    exact ⟨file, mem⟩
  · rintro ⟨file, mem⟩
    exact ⟨_, mem, rfl, rfl⟩

theorem length_manifestOf (step : Int) :
    (manifestOf p r spec manifest now directory step).files.length =
      (stable p spec manifest.text now directory step).length := by
  have same := (manifestOf_perm p r spec manifest now directory step).length_eq
  rwa [List.length_map, listing, List.length_map] at same

theorem ranks_manifestOf (step : Int) :
    ((manifestOf p r spec manifest now directory step).files.filterMap fun item =>
      item.rank).dedup.length = (ranksIn (stable p spec manifest.text now directory step)).length := by
  have same := ((manifestOf_perm p r spec manifest now directory step).filterMap Prod.snd).dedup.length_eq
  rw [List.filterMap_map, listing, List.filterMap_map] at same
  exact same

theorem mem_ranksIn {members : List (Member Content)} {rank : Int} :
    rank ∈ ranksIn members ↔ ∃ path file, (path, some rank, file) ∈ members := by
  rw [ranksIn, List.mem_dedup, List.mem_filterMap]
  constructor
  · rintro ⟨⟨path, rank', file⟩, mem, same⟩
    cases same
    exact ⟨path, file, mem⟩
  · rintro ⟨path, file, mem⟩
    exact ⟨_, mem, rfl⟩

/-- A manifest that is written for the newest step is what it should be if the step is whole. -/
theorem listsNewest_iff {step : Int} (newest : Newest p spec manifest.text now directory step) :
    (∃ step', ListsNewest p spec now directory manifest
      (manifestOf p r spec manifest now directory step) step') ↔
      Whole p spec manifest.text now directory step := by
  constructor
  · rintro ⟨step', lists⟩
    cases lists.named
    refine ⟨?_, ?_⟩
    · rintro ⟨path, rank, file⟩ mem
      obtain ⟨item, listed, rfl, -⟩ := (lists.files path rank).mpr ⟨file, mem⟩
      exact lists.settled item listed file (mem_matching.mp mem).1
    · intro n expected k less
      obtain ⟨item, listed, rank⟩ := lists.ranks n expected k less
      obtain ⟨file, mem⟩ := mem_manifestOf.mp ⟨item, listed, rfl, rank⟩
      exact mem_ranksIn.mpr ⟨item.path, file, mem⟩
  · intro whole
    have same := stable_eq_matching whole.settled
    refine ⟨step, rfl, ?_, ?_, ?_, ?_, ?_, ?_⟩
    · intro path rank
      rw [mem_manifestOf, same]
    · intro item listed file present
      obtain ⟨file', mem⟩ := mem_manifestOf.mp ⟨item, listed, rfl, rfl⟩
      obtain ⟨mem, old⟩ := mem_stable.mp mem
      rw [(mem_matching.mp mem).1] at present
      cases present
      exact old
    · intro n expected
      rw [length_manifestOf]
      exact newest.counted.files n expected
    · intro n expected
      rw [ranks_manifestOf]
      exact newest.counted.ranks n expected
    · intro n expected k less
      obtain ⟨path, file, mem⟩ := mem_ranksIn.mp (whole.ranked n expected k less)
      obtain ⟨item, listed, -, rank⟩ := mem_manifestOf.mpr ⟨file, mem⟩
      exact ⟨item, listed, rank⟩
    · intro later greater complete
      have same' := stable_eq_matching complete.settled
      rcases newest.newest later greater with empty | uncounted
      · exact complete.nonempty (same' ▸ empty)
      · exact uncounted (same' ▸ complete.counted)

/-- What discovery promises: a manifest that it writes is of the newest complete step, and where no
step is complete it returns nothing and writes nothing. -/
def SelectsNewest (p : Patterns) (r : Encoding Content) (spec : DendroCheckpointDiscoverySpec)
    (manifest : ManifestPath) (now : Int) (tree : CheckpointManager.Tree Content) : Prop :=
  (∀ m, findManifest p r spec manifest now tree.files = .ok (.new m) →
    ∃ step, ListsNewest p spec now tree.files manifest m step) ∧
  ((∀ step, ¬ Complete p spec manifest.text now tree.files step) →
    CheckpointManager.discover p r spec manifest now tree = (.ok none, tree))

/-- Discovery keeps its promise where the step that it selects is whole, or where it writes nothing
and some step is complete. -/
theorem selectsNewest_iff {tree : CheckpointManager.Tree Content} (pattern : spec.stepRegex.isSome)
    (generic : spec.nativeBssnPrefix = none) :
    SelectsNewest p r spec manifest now tree ↔
      (Misnumbers p spec manifest.text tree.files →
        ∃ step, Complete p spec manifest.text now tree.files step) ∧
      (¬ Misnumbers p spec manifest.text tree.files → ∀ step,
        Newest p spec manifest.text now tree.files step →
          Whole p spec manifest.text now tree.files step ∨
            (¬ Overwrites spec tree.files r manifest
              (selectionOf p spec manifest.text now tree.files step) ∧
              ∃ step, Complete p spec manifest.text now tree.files step)) := by
  have chosen : select p r.toReading spec manifest.text now tree.files =
      selectGeneric p spec manifest.text now tree.files := by rw [select, generic]
  unfold SelectsNewest CheckpointManager.discover
  rcases selectGeneric_cases p manifest.text now tree.files pattern with
    ⟨misnumbers, e, raised⟩ | ⟨numbered, ⟨step, newest, selected⟩ | ⟨none_, selected⟩⟩
  · have failed : findManifest p r spec manifest now tree.files =
        .error (.other e.cls.name e.message) := by rw [findManifest, chosen, raised]
    simp only [failed, misnumbers, not_true_eq_false, false_implies, and_true, true_implies]
    simp
  · have only : ∀ {q : Int → Prop}, (∀ s, Newest p spec manifest.text now tree.files s → q s) ↔ q step :=
      ⟨fun h => h step newest, fun h s newest' => newest.unique newest' ▸ h⟩
    simp only [numbered, false_implies, not_false_eq_true, true_and, true_implies, only]
    rcases findManifest_selected (r := r) (chosen.trans selected) with
      ⟨overwrites, finding⟩ | ⟨kept, something, unwritten⟩
    · rw [finding]
      constructor
      · exact fun h => .inl ((listsNewest_iff newest).mp (h.1 _ rfl))
      · rintro (whole | ⟨kept, -⟩)
        · refine ⟨?_, fun none_ => absurd (newest.complete_iff.mpr whole) (none_ step)⟩
          rintro m same
          cases same
          exact (listsNewest_iff newest).mpr whole
        · exact absurd overwrites kept
    · constructor
      · rintro ⟨-, returns⟩
        refine .inr ⟨kept, ?_⟩
        by_contra none_
        have nothing := returns (not_exists.mp none_)
        split at nothing
        · cases nothing
        · exact something ‹_›
        · cases nothing
        · exact unwritten _ ‹_›
      · intro whole
        have complete : ∃ step, Complete p spec manifest.text now tree.files step :=
          whole.elim (fun whole => ⟨step, newest.complete_iff.mpr whole⟩) And.right
        exact ⟨fun m written => absurd written (unwritten m),
          fun none_ => absurd complete (not_exists.mpr none_)⟩
  · have nothing : findManifest p r spec manifest now tree.files = .ok .nothing := by
      rw [findManifest, chosen, selected]
    simp only [nothing]
    refine iff_of_true ⟨by simp, by simp⟩
      ⟨fun misnumbers => absurd misnumbers numbered, fun _ step newest => absurd newest (none_ step).1⟩

/-! ## A step whose second file is still being written -/

/-- Every path belongs to step 5. -/
def stepFive : Patterns where
  glob _ path := path.length = 6
  search _ _ _ := .ok (some 5)

def stepFiveSpec : DendroCheckpointDiscoverySpec where
  fileGlobs := ["*.cp"]
  stepRegex := some "(?P<step>[0-9]+)"

/-- The first file of the step, which is old. -/
def oldFile : CheckpointManager.Tree SampleBytes := sampleTree ⟨"5_0.cp", by decide⟩ .binary

/-- With a second file, written one second ago. -/
def youngFile : CheckpointManager.Tree SampleBytes :=
  oldFile.set "5_1.cp" (by decide) ⟨.binary, 9000000000⟩

theorem oldFile_selected :
    SelectsNewest stepFive sampleEncoding stepFiveSpec sampleManifest 10000000000 oldFile := by
  refine (selectsNewest_iff rfl rfl).mpr ⟨?_, fun _ step _ => .inl ⟨?_, ?_⟩⟩
  · rintro ⟨path, file, -, -, -, ⟨e, raised⟩ | ⟨s, e, -, raised⟩⟩ <;> cases raised
  · rintro ⟨path, rank, file⟩ mem
    have present : oldFile.files.get? path = some file := (mem_matching.mp mem).1
    rw [oldFile, sampleTree, CheckpointManager.Tree.set, Dict.get?_set] at present
    split at present
    · cases present
      show ¬ tooYoung stepFiveSpec 10000000000 (⟨.binary, 0⟩ : StoredFile SampleBytes)
      decide +kernel
    · cases present
  · intro n impossible
    cases impossible

/-- The manifest is written anew, for the step and with the files. -/
def isNew (step : Int) (paths : List String) : Except Raised Finding → Bool
  | .ok (.new m) => m.checkpointStep = some step ∧ m.files.map (·.path) = paths
  | _ => false

theorem isNew_ok {step : Int} {paths : List String} {found : Except Raised Finding}
    (h : isNew step paths found = true) :
    ∃ m, found = .ok (.new m) ∧ m.checkpointStep = some step ∧ m.files.map (·.path) = paths := by
  unfold isNew at h
  split at h
  · rename_i m
    exact ⟨m, rfl, of_decide_eq_true h⟩
  · cases h

/-- The manifest lists the first file only. -/
theorem youngFile_missed :
    ¬ SelectsNewest stepFive sampleEncoding stepFiveSpec sampleManifest 10000000000 youngFile := by
  intro selects
  have written : isNew 5 ["5_0.cp"] (findManifest stepFive sampleEncoding stepFiveSpec
      sampleManifest 10000000000 youngFile.files) = true := by
    decide +kernel
  obtain ⟨m, finding, named, paths⟩ := isNew_ok written
  obtain ⟨step, lists⟩ := selects.1 m finding
  rw [lists.named] at named
  cases named
  have there : ("5_1.cp", none, ⟨.binary, 9000000000⟩) ∈
      matching stepFive stepFiveSpec sampleManifest.text youngFile.files 5 :=
    mem_matching.mpr ⟨rfl, rfl, by decide, rfl⟩
  obtain ⟨item, listed, path, -⟩ := (lists.files _ _).mpr ⟨_, there⟩
  have mem : item.path ∈ m.files.map (·.path) := List.mem_map_of_mem listed
  rw [paths, path] at mem
  simp at mem

end Magellan.Dendro
