import Mathlib.Data.List.ReduceOption
import Mathlib.Data.List.Sort
import Magellan.Carbon.Trends

/-!
# Carbon datasets

The tables of a deployment, as the carbon store loads them and as they are checked before. Parsing is
the work of `pandas`. An instant or a value that is missing in a table is `none` here.
-/

namespace Magellan.Deployment

open Planning

structure Pandas where
  toDatetime : List String → Except String (List (Option Instant))
  toNumeric : List String → Except String (List (Option Rat))
  timestamp : String → Except String (Option Instant)
  isoformat : Option Instant → String
  length_toDatetime : ∀ {cells times}, toDatetime cells = .ok times → times.length = cells.length
  length_toNumeric : ∀ {cells values}, toNumeric cells = .ok values → values.length = cells.length

structure Frame where
  columns : List String
  rows : List (String → String)

def Frame.column (frame : Frame) (name : String) : List String := frame.rows.map (· name)

/-- A file, with what `read_csv` makes of it. -/
structure DatasetFile where
  sha256 : String
  contents : Except String Frame

def timeColumn : String := "Datetime (UTC)"

inductive CarbonMetric where
  | direct
  | lifecycle
  deriving DecidableEq

def CarbonMetric.column : CarbonMetric → String
  | direct => "Carbon intensity gCO₂eq/kWh (direct)"
  | lifecycle => "Carbon intensity gCO₂eq/kWh (Life cycle)"

def carbonColumn : String := CarbonMetric.direct.column

/-- A sorted list of strings in an f-string. -/
def listText (items : List String) : String :=
  "[" ++ ", ".intercalate (items.map fun item => s!"'{item}'") ++ "]"

/-- The required columns that a table lacks, sorted. -/
def Frame.missingColumns (frame : Frame) (column : String) : List String :=
  [column, timeColumn].filter (· ∉ frame.columns)

/-! ## Loading -/

abbrev RawSeries := List (Option Instant × Option Rat)

/-- The order of an index. What is missing comes last. -/
def missingLast : Option Instant → Option Instant → Bool
  | _, none => true
  | none, some _ => false
  | some a, some b => a ≤ b

/-- The order of the values of an index. What is missing comes first. -/
def missingFirst : Option Instant → Option Instant → Bool
  | none, _ => true
  | some _, none => false
  | some a, some b => a ≤ b

def sortIndex (series : RawSeries) : RawSeries :=
  series.insertionSort fun a b => missingLast a.1 b.1

/-- The mean of the values that are not missing. -/
def meanKnown (values : List (Option Rat)) : Option Rat :=
  match values.reduceOption with
  | [] => none
  | known => some (mean known)

/-- `groupby(level=0).mean()`. -/
def groupMean (series : RawSeries) : RawSeries :=
  (series.map (·.1)).reduceOption.dedup.map fun t =>
    (some t, meanKnown ((series.filter (·.1 = some t)).map (·.2)))

/-- `CarbonStore._load_series`. -/
def loadSeries (pandas : Pandas) (path column : String) : Option DatasetFile → Except Exn RawSeries
  | none => .error ⟨.fileNotFoundError, s!"Carbon CSV does not exist: {path}"⟩
  | some file => do
    let frame ← file.contents.mapError valueError
    let missing := frame.missingColumns column
    if missing ≠ [] then
      .error (valueError s!"{path} is missing required columns: {listText missing}")
    else
      let timestamps ← (pandas.toDatetime (frame.column timeColumn)).mapError valueError
      let values ← (pandas.toNumeric (frame.column column)).mapError valueError
      let series := sortIndex (timestamps.zip values)
      let series := if (series.map (·.1)).Nodup then series else groupMean series
      if series = [] then .error (valueError s!"Carbon CSV has no rows: {path}") else .ok series

/-! ## Checking -/

structure DatasetSummary where
  nodeId : NodeId
  datasetFile : String
  rowCount : Nat
  startUtc : String
  endUtc : String
  medianIntervalSeconds : Option Rat
  maximumGapSeconds : Option Rat
  sha256 : String

/-- What `_load_dataset_summary` adds to the report and returns. -/
structure DatasetCheck where
  errors : List String := []
  warnings : List String := []
  summary : Option DatasetSummary := none
  range : Option (Option Instant × Option Instant) := none

/-- The instants between the neighbours of an index. -/
def intervals (index : List (Option Instant)) : List Rat :=
  (index.zip index.tail).filterMap fun (before, after) => do return (← after) - (← before)

def median (values : List Rat) : Option Rat :=
  let sorted := values.insertionSort (· ≤ ·)
  let upper := sorted[sorted.length / 2]?
  if sorted.length % 2 = 1 then upper
  else do return ((← sorted[sorted.length / 2 - 1]?) + (← upper)) / 2

/-- `f"{value:.0f}"`. -/
def wholeText (value : Rat) : String :=
  let below := ⌊value⌋
  if value - below < 1 / 2 ∨ value - below = 1 / 2 ∧ below % 2 = 0 then s!"{below}" else s!"{below + 1}"

def gapWarnings (nodeId : NodeId) (datasetFile : String) : Option Rat → Option Rat → List String
  | some medianInterval, some maximumGap =>
    if 5 / 2 * medianInterval < maximumGap then
      [s!"{nodeId}: {datasetFile} has a maximum timestamp gap of " ++
        s!"{wholeText maximumGap}s versus median {wholeText medianInterval}s"]
    else []
  | _, _ => []

/-- The part of `_load_dataset_summary` after the columns have been parsed. -/
def summarize (pandas : Pandas) (nodeId : NodeId) (datasetFile sha256 : String)
    (timestamps : List (Option Instant)) (values : List (Option Rat)) : DatasetCheck :=
  let index := timestamps.insertionSort fun a b => missingFirst a b
  let uniqueIndex := index.dedup
  let duplicateCount := index.length - uniqueIndex.length
  let gaps := intervals uniqueIndex
  let medianInterval := median gaps
  let maximumGap := gaps.max?
  let start := uniqueIndex.head?.join
  let finish := uniqueIndex.getLast?.join
  { errors :=
      (if values.any (·.isNone) then [s!"{nodeId}: {datasetFile} contains missing carbon values"] else []) ++
      (if values.reduceOption.any (· < 0) then
        [s!"{nodeId}: {datasetFile} contains negative carbon values"] else [])
    warnings :=
      (if duplicateCount ≠ 0 then
        [s!"{nodeId}: {datasetFile} contains {duplicateCount} duplicate timestamps; " ++
          "CarbonStore will average duplicates"] else []) ++
      gapWarnings nodeId datasetFile medianInterval maximumGap
    summary := some {
      nodeId
      datasetFile
      rowCount := timestamps.length
      startUtc := pandas.isoformat start
      endUtc := pandas.isoformat finish
      medianIntervalSeconds := medianInterval
      maximumGapSeconds := maximumGap
      sha256 }
    range := some (start, finish) }

def loadDatasetSummary (pandas : Pandas) (nodeId : NodeId) (datasetFile path : String) :
    Option DatasetFile → DatasetCheck
  | none => { errors := [s!"{nodeId}: missing carbon dataset {path}"] }
  | some file =>
    match file.contents with
    | .error text => { errors := [s!"{nodeId}: cannot read {path}: {text}"] }
    | .ok frame =>
      let missing := frame.missingColumns carbonColumn
      if missing ≠ [] then
        { errors := [s!"{nodeId}: {datasetFile} is missing columns {listText missing}"] }
      else
        match pandas.toDatetime (frame.column timeColumn), pandas.toNumeric (frame.column carbonColumn) with
        | .error text, _ | .ok _, .error text =>
          { errors := [s!"{nodeId}: invalid carbon dataset values in {datasetFile}: {text}"] }
        | .ok timestamps, .ok values =>
          if frame.rows = [] then { errors := [s!"{nodeId}: {datasetFile} contains no rows"] }
          else summarize pandas nodeId datasetFile file.sha256 timestamps values

/-! ## Rows without a gap -/

def Sample.raw (sample : Planning.Sample) : Option Instant × Option Rat := (some sample.at_, some sample.value)

section

variable {samples : List Planning.Sample}

theorem sortIndex_raw : sortIndex (samples.map Sample.raw) =
    (samples.insertionSort fun a b => a.at_ ≤ b.at_).map Sample.raw := by
  unfold sortIndex
  rw [List.map_insertionSort _ (fun a b => missingLast a.1 b.1 = true)]
  intro a _ b _
  simp [Sample.raw, missingLast]

theorem meanKnown_some {values : List Rat} (some_ : values ≠ []) :
    meanKnown (values.map some) = some (mean values) := by
  have known : (values.map some).reduceOption = values := by
    simp [List.reduceOption, List.filterMap_map]
  unfold meanKnown
  rw [known]
  cases values with
  | nil => contradiction
  | cons => rfl

theorem times_raw : ((samples.map Sample.raw).map (·.1)).reduceOption = samples.map (·.at_) := by
  simp [List.reduceOption, Sample.raw, Function.comp_def]

/-- The values at an instant. -/
def valuesAt (samples : List Planning.Sample) (t : Instant) : List Rat :=
  (samples.filter (·.at_ = t)).map (·.value)

theorem valuesAt_ne_nil {t : Instant} (member : t ∈ samples.map (·.at_)) : valuesAt samples t ≠ [] := by
  obtain ⟨sample, inside, rfl⟩ := List.mem_map.mp member
  have found : sample.value ∈ valuesAt samples sample.at_ :=
    List.mem_map.mpr ⟨sample, List.mem_filter.mpr ⟨inside, by simp⟩, rfl⟩
  exact List.ne_nil_of_mem found

theorem groupMean_raw : groupMean (samples.map Sample.raw) =
    ((samples.map (·.at_)).dedup.map fun t => ⟨t, mean (valuesAt samples t)⟩ : List Planning.Sample).map
      Sample.raw := by
  unfold groupMean
  rw [times_raw, List.map_map]
  apply List.map_congr_left
  intro t member
  have values : ((samples.map Sample.raw).filter (·.1 = some t)).map (·.2) =
      (valuesAt samples t).map some := by
    simp [valuesAt, Sample.raw, List.filter_map, Function.comp_def]
  rw [values, meanKnown_some (valuesAt_ne_nil (List.mem_dedup.mp member))]
  rfl

theorem mean_nonneg {values : List Rat} (nonneg : ∀ value ∈ values, 0 ≤ value) : 0 ≤ mean values :=
  div_nonneg (List.sum_nonneg nonneg) (Nat.cast_nonneg _)

end

/-- What the store reads of rows: a series with the instants of the rows. -/
structure Reads (rows : List Planning.Sample) (series : Series) : Prop where
  times : ∀ t, t ∈ series.samples.map (·.at_) ↔ t ∈ rows.map (·.at_)
  nonneg : (∀ row ∈ rows, 0 ≤ row.value) → ∀ sample ∈ series.samples, 0 ≤ sample.value

/-- Rows that are all known become a series: they are sorted and the ones at one instant averaged. -/
theorem exists_reads {rows : List Planning.Sample} (some_ : rows ≠ []) :
    ∃ series : Series, Reads rows series ∧
      (let sorted := sortIndex (rows.map Sample.raw)
       if (sorted.map (·.1)).Nodup then sorted else groupMean sorted) = series.samples.map Sample.raw := by
  set sorted := rows.insertionSort fun a b => a.at_ ≤ b.at_ with sorted_eq
  have perm : sorted.Perm rows := List.perm_insertionSort _ _
  have ordered : (sorted.map (·.at_)).Pairwise (· ≤ ·) := by
    rw [List.pairwise_map]
    have := List.pairwise_insertionSort (fun a b : Planning.Sample => a.at_ ≤ b.at_) rows
    exact this
  have someSorted : sorted ≠ [] := by
    intro none
    exact some_ (List.perm_nil.mp (none ▸ perm.symm))
  have strict {times : List Instant} (le : times.Pairwise (· ≤ ·)) (nodup : times.Nodup) :
      times.Pairwise (· < ·) := by
    apply le.imp₂ _ nodup
    intro a b before apart
    exact lt_of_le_of_ne before apart
  have times : (sorted.map Sample.raw).map (·.1) = (sorted.map (·.at_)).map some := by
    simp [Sample.raw, Function.comp_def]
  simp only [sortIndex_raw, ← sorted_eq, times, List.nodup_map_iff (Option.some_injective _), groupMean_raw]
  split_ifs with nodup
  · refine ⟨⟨sorted, someSorted, List.pairwise_map.mp (strict ordered nodup)⟩, ⟨?_, ?_⟩, rfl⟩
    · intro t
      exact (perm.map _).mem_iff
    · intro nonneg sample member
      exact nonneg sample (perm.mem_iff.mp member)
  · set grouped : List Planning.Sample :=
      (sorted.map (·.at_)).dedup.map fun t => ⟨t, mean (valuesAt sorted t)⟩ with grouped_eq
    have instants : grouped.map (·.at_) = (sorted.map (·.at_)).dedup := by
      simp [grouped_eq, Function.comp_def]
    refine ⟨⟨grouped, ?_, ?_⟩, ⟨?_, ?_⟩, rfl⟩
    · simpa [grouped_eq, List.dedup_eq_nil] using someSorted
    · rw [← List.pairwise_map (f := fun sample : Planning.Sample => sample.at_), instants]
      exact strict (ordered.sublist (List.dedup_sublist _)) (List.nodup_dedup _)
    · intro t
      rw [instants, List.mem_dedup]
      exact (perm.map _).mem_iff
    · intro nonneg sample member
      obtain ⟨t, -, rfl⟩ := List.mem_map.mp member
      apply mean_nonneg
      intro value inside
      obtain ⟨row, among, rfl⟩ := List.mem_map.mp inside
      exact nonneg row (perm.mem_iff.mp (List.mem_of_mem_filter among))

/-- The index that is checked has the instants of the series. -/
theorem Reads.index {rows : List Planning.Sample} {series : Series} (reads : Reads rows series) :
    ((rows.map fun row => some row.at_).insertionSort fun a b => missingFirst a b).dedup =
      series.samples.map fun sample => some sample.at_ := by
  have sorted : (rows.map fun row => some row.at_).insertionSort (fun a b => missingFirst a b) =
      ((rows.map (·.at_)).insertionSort (· ≤ ·)).map some := by
    rw [List.map_insertionSort _ (fun a b => missingFirst a b = true)]
    · simp [Function.comp_def]
    · intro a _ b _
      simp [missingFirst]
  have same : ((rows.map (·.at_)).insertionSort (· ≤ ·)).dedup = series.samples.map (·.at_) := by
    apply List.Pairwise.eq_of_mem_iff (r := (· < ·))
    · have le := List.pairwise_insertionSort (· ≤ ·) (rows.map (·.at_))
      apply (le.sublist (List.dedup_sublist _)).imp₂ _ (List.nodup_dedup _)
      intro a b before apart
      exact lt_of_le_of_ne before apart
    · exact List.pairwise_map.mpr series.increasing
    · intro t
      rw [List.mem_dedup, List.mem_insertionSort, reads.times]
  rw [sorted, List.dedup_map_of_injective (Option.some_injective _), same, List.map_map]
  rfl

theorem Reads.ends {rows : List Planning.Sample} {series : Series} (reads : Reads rows series) :
    let index := ((rows.map fun row => some row.at_).insertionSort fun a b => missingFirst a b).dedup
    index.head?.join = some series.firstAt ∧ index.getLast?.join = some series.lastAt := by
  intro index
  have same : index = series.samples.map fun sample => some sample.at_ := reads.index
  rw [same, List.head?_map, List.getLast?_map, List.head?_eq_some_head series.nonempty,
    List.getLast?_eq_some_getLast series.nonempty]
  exact ⟨rfl, rfl⟩

/-! ## A table that has passed -/

section

variable {pandas : Pandas} {dataset : Option DatasetFile} {rows : List Planning.Sample} {column : String}

/-- The rows of a table, each with an instant and a value. -/
structure Table (pandas : Pandas) (dataset : Option DatasetFile) (column : String)
    (rows : List Planning.Sample) : Prop where
  parsed : ∃ file frame, dataset = some file ∧ file.contents = .ok frame ∧
    frame.missingColumns column = [] ∧
    pandas.toDatetime (frame.column timeColumn) = .ok (rows.map fun row => some row.at_) ∧
    pandas.toNumeric (frame.column column) = .ok (rows.map fun row => some row.value)
  nonempty : rows ≠ []

/-- No row of the table lacks its instant. -/
def Timed (pandas : Pandas) (dataset : Option DatasetFile) : Prop :=
  ∀ file ∈ dataset, ∀ frame, file.contents = .ok frame →
    ∀ timestamps, pandas.toDatetime (frame.column timeColumn) = .ok timestamps → none ∉ timestamps

theorem Table.load (table : Table pandas dataset column rows) (path : String) :
    ∃ series : Series, Reads rows series ∧
      loadSeries pandas path column dataset = .ok (series.samples.map Sample.raw) := by
  obtain ⟨file, frame, rfl, contents, present, times, values⟩ := table.parsed
  obtain ⟨series, reads, loaded⟩ := exists_reads table.nonempty
  refine ⟨series, reads, ?_⟩
  have zipped : (rows.map fun row => some row.at_).zip (rows.map fun row => some row.value) =
      rows.map Sample.raw := List.zip_map'
  have some_ : series.samples.map Sample.raw ≠ [] := by simpa using series.nonempty
  unfold loadSeries
  simp only [contents, present, times, values, zipped, Except.mapError, Except.ok_bind, loaded, if_neg some_]
  simp

/-- The rows of columns without a gap. -/
theorem exists_rows {timestamps : List (Option Instant)} {values : List (Option Rat)}
    (same : timestamps.length = values.length) (timed : none ∉ timestamps) (known : none ∉ values) :
    ∃ rows : List Planning.Sample, timestamps = rows.map (fun row => some row.at_) ∧
      values = rows.map fun row => some row.value := by
  induction timestamps generalizing values with
  | nil =>
      rw [List.length_nil, eq_comm, List.length_eq_zero_iff] at same
      exact ⟨[], rfl, same⟩
  | cons t timestamps ih =>
      cases values with
      | nil => simp at same
      | cons value values =>
          simp only [List.mem_cons, not_or] at timed known
          simp only [List.length_cons, add_left_inj] at same
          obtain ⟨rows, times, numbers⟩ := ih same timed.2 known.2
          obtain ⟨at_, rfl⟩ := Option.ne_none_iff_exists'.mp (Ne.symm timed.1)
          obtain ⟨value, rfl⟩ := Option.ne_none_iff_exists'.mp (Ne.symm known.1)
          exact ⟨⟨at_, value⟩ :: rows, by simp [times], by simp [numbers]⟩

theorem summarize_of_check {nodeId : NodeId} {datasetFile path : String}
    (valid : (loadDatasetSummary pandas nodeId datasetFile path dataset).errors = []) :
    ∃ file frame timestamps values, dataset = some file ∧ file.contents = .ok frame ∧
      frame.missingColumns carbonColumn = [] ∧
      pandas.toDatetime (frame.column timeColumn) = .ok timestamps ∧
      pandas.toNumeric (frame.column carbonColumn) = .ok values ∧ frame.rows ≠ [] ∧
      loadDatasetSummary pandas nodeId datasetFile path dataset =
        summarize pandas nodeId datasetFile file.sha256 timestamps values := by
  cases dataset with
  | none => simp [loadDatasetSummary] at valid
  | some file =>
      cases contents : file.contents with
      | error text => simp [loadDatasetSummary, contents] at valid
      | ok frame =>
          by_cases present : frame.missingColumns carbonColumn = []
          · cases times : pandas.toDatetime (frame.column timeColumn) with
            | error text => simp [loadDatasetSummary, contents, present, times] at valid
            | ok timestamps =>
                cases numbers : pandas.toNumeric (frame.column carbonColumn) with
                | error text => simp [loadDatasetSummary, contents, present, times, numbers] at valid
                | ok values =>
                    by_cases empty : frame.rows = []
                    · simp [loadDatasetSummary, contents, present, times, numbers, empty] at valid
                    · exact ⟨file, frame, timestamps, values, rfl, contents, present, times, numbers, empty,
                        by simp [loadDatasetSummary, contents, present, times, numbers, empty]⟩
          · simp [loadDatasetSummary, contents, present] at valid

/-- A table without errors is one that the store reads, without negative values. -/
theorem table_of_check {nodeId : NodeId} {datasetFile path : String} (timed : Timed pandas dataset)
    (valid : (loadDatasetSummary pandas nodeId datasetFile path dataset).errors = []) :
    ∃ rows, Table pandas dataset carbonColumn rows ∧ ∀ row ∈ rows, 0 ≤ row.value := by
  obtain ⟨file, frame, timestamps, values, rfl, contents, present, times, numbers, some_, summary⟩ :=
    summarize_of_check valid
  rw [summary] at valid
  simp only [summarize, List.append_eq_nil_iff, ite_eq_right_iff, List.cons_ne_nil, imp_false,
    Bool.not_eq_true, List.any_eq_false, decide_eq_true_eq] at valid
  have length : timestamps.length = values.length := by
    rw [pandas.length_toDatetime times, pandas.length_toNumeric numbers, Frame.column, Frame.column,
      List.length_map, List.length_map]
  have known : none ∉ values := by
    intro gap
    simpa using valid.1 none gap
  obtain ⟨rows, rfl, rfl⟩ := exists_rows length (timed file rfl frame contents _ times) known
  refine ⟨rows, ⟨⟨file, frame, rfl, contents, present, times, numbers⟩, ?_⟩, ?_⟩
  · intro empty
    have short := pandas.length_toDatetime times
    simp only [empty, Frame.column, List.map_nil, List.length_nil, List.length_map] at short
    exact some_ (List.length_eq_zero_iff.mp short.symm)
  · intro row member
    apply not_lt.mp
    apply valid.2
    rw [List.reduceOption_mem_iff]
    exact List.mem_map.mpr ⟨row, member, rfl⟩

/-- The range that is found is the one of the series. -/
theorem Table.range (table : Table pandas dataset carbonColumn rows) {series : Series}
    (reads : Reads rows series) (nodeId : NodeId) (datasetFile path : String) :
    (loadDatasetSummary pandas nodeId datasetFile path dataset).range =
      some (some series.firstAt, some series.lastAt) := by
  obtain ⟨file, frame, rfl, contents, present, times, values⟩ := table.parsed
  obtain ⟨first, last⟩ := reads.ends
  have some_ : frame.rows ≠ [] := by
    intro empty
    have length := pandas.length_toDatetime times
    simp only [empty, Frame.column, List.map_nil, List.length_nil, List.length_map] at length
    exact table.nonempty (List.length_eq_zero_iff.mp length)
  simp [loadDatasetSummary, contents, present, times, values, some_, summarize, first, last]

end

end Magellan.Deployment
