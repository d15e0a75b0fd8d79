import Mathlib.Algebra.BigOperators.Group.List.Basic
import Mathlib.Algebra.Order.BigOperators.Group.List
import Mathlib.Data.Rat.Floor
import Mathlib.Tactic.FieldSimp
import Mathlib.Tactic.Linarith
import Mathlib.Tactic.Positivity
import Magellan.Config.Models
import Magellan.Data.Dict

/-!
# The carbon store

The intensities of a node as a series of samples, read at an instant and on average over a window.
Instants are seconds from a fixed one.
-/

namespace Magellan.Planning

abbrev Instant := Rat

structure Sample where
  at_ : Instant
  value : Rat
  deriving DecidableEq

/-- The samples of a file: there is one, and each is later than the one before it. -/
structure Series where
  samples : List Sample
  nonempty : samples ≠ [] := by simp
  increasing : samples.Pairwise fun a b => a.at_ < b.at_

namespace Series

variable (series : Series)

def firstAt : Instant := (series.samples.head series.nonempty).at_

def lastAt : Instant := (series.samples.getLast series.nonempty).at_

end Series

/-- `interpolate(method="time")` on the samples and one more instant that is not before the first. -/
def interpolate : List Sample → Instant → Rat
  | [], _ => 0
  | [sample], _ => sample.value
  | before :: after :: rest, t =>
    if t < after.at_ then
      before.value + (after.value - before.value) * (t - before.at_) / (after.at_ - before.at_)
    else interpolate (after :: rest) t

structure CarbonStore where
  cluster : ClusterConfig
  seriesByNodeId : Dict NodeId Series

namespace CarbonStore

variable (carbonStore : CarbonStore)

def series (nodeId : NodeId) : Except Exn Series :=
  match carbonStore.seriesByNodeId.get? nodeId with
  | some series => .ok series
  | none => .error (keyError nodeId)

def valueAt (nodeId : NodeId) (timestamp : Instant) : Except Exn Rat := do
  let series ← carbonStore.series nodeId
  if timestamp < series.firstAt ∨ series.lastAt < timestamp then
    .error (valueError (s!"Timestamp {timestamp} is outside data range " ++
      s!"[{series.firstAt}, {series.lastAt}] for node {nodeId}"))
  else .ok (interpolate series.samples timestamp)

/-- `date_range` from the start, one minute apart, that ends before `start + durationSeconds`. -/
def sampleIndex (start : Instant) (durationSeconds : Rat) : List Instant :=
  (List.range ⌈durationSeconds / 60⌉.toNat).map fun k : Nat => start + 60 * (k : Rat)

def average (nodeId : NodeId) (start : Instant) (durationSeconds : Rat) : Except Exn Rat :=
  if durationSeconds < 0 then .error (valueError "duration_seconds must be non-negative")
  else if durationSeconds = 0 then carbonStore.valueAt nodeId start
  else do
    let series ← carbonStore.series nodeId
    let finish := start + durationSeconds
    if start < series.firstAt ∨ series.lastAt < finish then
      .error (valueError (s!"Carbon window [{start}, {finish}] is outside data range " ++
        s!"[{series.firstAt}, {series.lastAt}] for node {nodeId}"))
    else
      let values := (sampleIndex start durationSeconds).map (interpolate series.samples)
      if values = [] then carbonStore.valueAt nodeId start
      else .ok (values.sum / values.length)

/-- No sample of the store is negative. -/
def Nonneg : Prop :=
  ∀ nodeId series, carbonStore.seriesByNodeId.get? nodeId = some series →
    ∀ sample ∈ series.samples, 0 ≤ sample.value

end CarbonStore

/-! ## Intensities are non-negative when the samples are -/

theorem interpolate_nonneg {samples : List Sample} {t : Instant}
    (increasing : samples.Pairwise fun a b => a.at_ < b.at_)
    (nonneg : ∀ sample ∈ samples, 0 ≤ sample.value)
    (notBefore : ∀ sample ∈ samples.head?, sample.at_ ≤ t) : 0 ≤ interpolate samples t := by
  fun_induction interpolate samples t with
  | case1 t => exact le_rfl
  | case2 sample t => exact nonneg sample List.mem_cons_self
  | case3 before after rest t earlier =>
      have first := nonneg before List.mem_cons_self
      have second := nonneg after (by simp)
      have start : before.at_ ≤ t := notBefore before rfl
      have span : 0 < after.at_ - before.at_ :=
        sub_pos.mpr (List.rel_of_pairwise_cons increasing List.mem_cons_self)
      -- The value is a mean of the two samples with these weights.
      have weighted : before.value + (after.value - before.value) * (t - before.at_) /
          (after.at_ - before.at_) =
            (before.value * (after.at_ - t) + after.value * (t - before.at_)) /
              (after.at_ - before.at_) := by
        field_simp
        ring
      rw [weighted]
      apply div_nonneg _ span.le
      have left : 0 ≤ after.at_ - t := sub_nonneg.mpr earlier.le
      have right : 0 ≤ t - before.at_ := sub_nonneg.mpr start
      positivity
  | case4 before after rest t later ih =>
      apply ih (List.Pairwise.of_cons increasing)
      · intro sample member
        exact nonneg sample (List.mem_cons_of_mem _ member)
      · intro sample first
        cases first
        exact not_lt.mp later

namespace CarbonStore

variable {carbonStore : CarbonStore} {nodeId : NodeId}

theorem interpolate_series_nonneg (nonneg : carbonStore.Nonneg) {series : Series}
    (found : carbonStore.series nodeId = .ok series) {t : Instant} (inside : series.firstAt ≤ t) :
    0 ≤ interpolate series.samples t := by
  unfold CarbonStore.series at found
  split at found
  · rename_i series' stored
    cases found
    apply interpolate_nonneg series.increasing (nonneg nodeId series stored)
    intro sample first
    rw [List.head?_eq_some_head series.nonempty] at first
    cases first
    exact inside
  · cases found

theorem valueAt_nonneg (nonneg : carbonStore.Nonneg) {t : Instant} {value : Rat}
    (found : carbonStore.valueAt nodeId t = .ok value) : 0 ≤ value := by
  unfold valueAt at found
  cases stored : carbonStore.series nodeId with
  | error e => simp [stored, bind, Except.bind] at found
  | ok series =>
      simp only [stored, bind, Except.bind] at found
      split_ifs at found with outside
      cases found
      push Not at outside
      exact interpolate_series_nonneg nonneg stored outside.1

theorem average_nonneg (nonneg : carbonStore.Nonneg) {start : Instant} {durationSeconds value : Rat}
    (found : carbonStore.average nodeId start durationSeconds = .ok value) : 0 ≤ value := by
  unfold average at found
  split_ifs at found with negative zero
  · exact valueAt_nonneg nonneg found
  · cases stored : carbonStore.series nodeId with
    | error e => simp [stored, bind, Except.bind] at found
    | ok series =>
        simp only [stored, bind, Except.bind] at found
        split_ifs at found with outside empty
        · exact valueAt_nonneg nonneg found
        · cases found
          push Not at outside
          apply div_nonneg _ (Nat.cast_nonneg _)
          apply List.sum_nonneg
          intro value member
          obtain ⟨t, sampled, rfl⟩ := List.mem_map.mp member
          obtain ⟨k, -, rfl⟩ := List.mem_map.mp sampled
          apply interpolate_series_nonneg nonneg stored
          have later : (0 : Rat) ≤ 60 * k := mul_nonneg (by norm_num) (Nat.cast_nonneg k)
          linarith [outside.1]

end CarbonStore

end Magellan.Planning
