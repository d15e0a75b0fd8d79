import Magellan.Coroutine.Rules
import Magellan.Coroutine.System
import Magellan.Workloads.Benchmark

/-!
# Interrupted benchmarks

Runs of one workload, each stopped or killed at some point and started again from the checkpoint that
it left, until one of them completes.
-/

namespace Magellan.Benchmark

open Coroutine Coro

/-! ## Uninterrupted runs -/

section

variable {Text : Type} (py : Language Text)
  (kernels : String → String → Int → Int → PyFloat) (a : Arguments)

/-- The sum of the first so many iterations. -/
def checksumAfter : Nat → PyFloat
  | 0 => .finite 0
  | k + 1 => py.add (checksumAfter k) (kernels a.benchmark a.size a.seed k)

/-- How an uninterrupted run ends. -/
def uninterrupted : Outcome :=
  ⟨a.iterations, checksumAfter py kernels a a.iterations.toNat, true⟩

/-- A result file with the iteration count and the checksum of an uninterrupted run. -/
def IsResult (text : Text) : Prop :=
  ∃ entries, py.loads text = .ok (.object entries) ∧
    PyJson.get? entries "iterations" = some (.number (.int a.iterations)) ∧
    PyJson.get? entries "checksum" =
      some (.number (.float (checksumAfter py kernels a a.iterations.toNat)))

/-- The checkpoint has so many iterations. -/
def Saved (k : Nat) (m : Machine Text) : Prop :=
  (k = 0 ∧ m.files a.checkpointFile = none) ∨
    ∃ text, m.files a.checkpointFile = some text ∧
      py.readState text = .ok (k, checksumAfter py kernels a k)

/-- A run has completed, as far as its exit or its marker shows. -/
def Completed (m : Machine Text) : Prop :=
  (∃ path, a.completion = some path ∧ m.files path ≠ none) ∨ ∃ o ∈ m.exits, o.finished = true

structure Consistent (m : Machine Text) : Prop where
  saved : ∃ k, k ≤ a.iterations.toNat ∧ Saved py kernels a k m
  completed : Completed a m → 1 ≤ a.iterations ∧ Saved py kernels a a.iterations.toNat m
  result : ∀ output text, a.output = some output → m.files (Options.resultFile output) = some text →
    IsResult py kernels a text
  exits : ∀ o ∈ m.exits, o.finished = true → o = uninterrupted py kernels a

/-- The files of the workload and the exits are the same. -/
structure SameView (m m' : Machine Text) : Prop where
  files : ∀ path ∈ a.paths, m'.files path = m.files path
  exits : m'.exits = m.exits

/-- What a run may assume: only the flag changes. -/
def contract : Contract (Op Text) (Choice Text) (Machine Text) where
  allowed _ _ _ := True
  rely m m' := m'.files = m.files ∧ m'.exits = m.exits
  inv := Consistent py kernels a
  guar _ _ := True

end

section

variable {Text : Type} {py : Language Text}
  {kernels : String → String → Int → Int → PyFloat} {a : Arguments} {env : Environment}
  {m m' : Machine Text} {path : String} {text : Text} {j k : Nat}

/-! ## Payloads -/

theorem get?_eq_of_mem {entries : List (String × PyJson)} {key : String} {value : PyJson}
    (distinct : (entries.map Prod.fst).Nodup) (mem : (key, value) ∈ entries) :
    PyJson.get? entries key = some value := by
  unfold PyJson.get?
  cases found : entries.reverse.find? (·.1 = key) with
  | none =>
      have other := List.find?_eq_none.mp found (key, value) (List.mem_reverse.mpr mem)
      simp at other
  | some e =>
      have same : e.1 = key := by simpa using List.find?_some found
      have mem' : e ∈ entries := List.mem_reverse.mp (List.mem_of_find?_eq_some found)
      rw [List.inj_on_of_nodup_map distinct mem' mem same]
      rfl

/-- What is found in a payload is found in what is read back. -/
theorem get?_of_loads {payload : List (String × PyJson)}
    (distinct : (payload.map Prod.fst).Nodup)
    (flat : ∀ e ∈ payload, (∃ n, e.2 = .number n) ∨ ∃ s, e.2 = .string s) :
    ∃ read, py.loads (py.dumps (.object payload)) = .ok (.object read) ∧
      ∀ key value, (key, value) ∈ payload → PyJson.get? read key = some value := by
  obtain ⟨read, same, loaded⟩ := py.loads_dumps payload distinct flat
  exact ⟨read, loaded, fun key value mem =>
    get?_eq_of_mem ((same.map _).nodup_iff.mpr distinct) (same.mem_iff.mpr mem)⟩

theorem readState_statePayload (completed : Int) (checksum : PyFloat) (updatedAt : String) :
    py.readState (py.dumps (.object (statePayload a.toOptions env completed checksum updatedAt))) =
      .ok (completed, checksum) := by
  obtain ⟨read, loaded, found⟩ := @get?_of_loads _ py
    (statePayload a.toOptions env completed checksum updatedAt)
    (by simp [statePayload]) (by simp [statePayload])
  have count := found "completed_iterations" (.number (.int completed)) (by simp [statePayload])
  have sum := found "checksum" (.number (.float checksum)) (by simp [statePayload])
  unfold Language.readState
  rw [loaded]
  show (do
    let completed ← py.int ((PyJson.get? read "completed_iterations").getD _)
    let checksum ← py.float ((PyJson.get? read "checksum").getD _)
    pure (completed, checksum)) = _
  rw [count, sum]
  rfl

theorem isResult_resultPayload (elapsed : PyFloat) (completedAt : String) :
    IsResult py kernels a (py.dumps (.object (resultPayload a.toOptions env a.iterations
      (checksumAfter py kernels a a.iterations.toNat) elapsed completedAt))) := by
  obtain ⟨read, loaded, found⟩ := @get?_of_loads _ py
    (resultPayload a.toOptions env a.iterations
      (checksumAfter py kernels a a.iterations.toNat) elapsed completedAt)
    (by simp [resultPayload]) (by simp [resultPayload])
  exact ⟨read, loaded, found _ _ (by simp [resultPayload]), found _ _ (by simp [resultPayload])⟩

/-! ## Places -/

theorem checkpoint_mem : a.checkpointFile ∈ a.paths := List.mem_cons_self

theorem mem_paths (report : path ∈ a.reports) : path ∈ a.paths := List.mem_cons_of_mem _ report

theorem progress_mem (is : a.progress = some path) : path ∈ a.reports := by
  simp [Options.reports, is]

theorem completion_mem (is : a.completion = some path) : path ∈ a.reports := by
  simp [Options.reports, is]

theorem result_mem {output : String} (is : a.output = some output) :
    Options.resultFile output ∈ a.reports := by
  simp [Options.reports, is]

theorem temporary_not_mem (mem : path ∈ a.paths) : temporary path ∉ a.paths := fun here =>
  (List.nodup_append'.mp a.apart).2.2 here (List.mem_map_of_mem mem)

theorem ne_checkpoint (report : path ∈ a.reports) : path ≠ a.checkpointFile := by
  rintro rfl
  exact (List.nodup_cons.mp (List.nodup_append'.mp a.apart).1).1 report

theorem reports_nodup : a.reports.Nodup := (List.nodup_cons.mp (List.nodup_append'.mp a.apart).1).2

theorem progress_ne_completion {path' : String} (is : a.progress = some path)
    (is' : a.completion = some path') : path ≠ path' := by
  have distinct := reports_nodup (a := a)
  simp only [Options.reports, is, is', Option.toList_some, List.cons_append, List.nil_append,
    List.nodup_cons, List.mem_cons, not_or] at distinct
  exact distinct.1.1

theorem progress_ne_result {output : String} (is : a.progress = some path)
    (is' : a.output = some output) : path ≠ Options.resultFile output := by
  have distinct := (List.nodup_append'.mp (reports_nodup (a := a))).2.2
  rintro rfl
  exact distinct (Option.mem_toList.mpr is) (by simp [is'])

theorem completion_ne_result {output : String} (is : a.completion = some path)
    (is' : a.output = some output) : path ≠ Options.resultFile output := by
  have distinct := (List.nodup_append'.mp (List.nodup_append'.mp (reports_nodup (a := a))).2.1).2.2
  rintro rfl
  exact distinct (Option.mem_toList.mpr is) (by simp [is'])

/-! ## What a change of the files keeps -/

@[simp] theorem write_files (m : Machine Text) (path path' : String) (text : Text) :
    (m.write path text).files path' = if path' = path then some text else m.files path' :=
  Function.update_apply ..

/-- What depends on the files of the workload and the exits only. -/
def Viewed (a : Arguments) (A : Machine Text → Prop) : Prop :=
  ∀ ⦃m m'⦄, SameView a m m' → A m → A m'

theorem saved_of_files (same : m'.files a.checkpointFile = m.files a.checkpointFile) :
    Saved py kernels a k m' ↔ Saved py kernels a k m := by
  unfold Saved
  rw [same]

theorem saved_viewed : Viewed a (Saved py kernels a k) := fun _ _ same =>
  (saved_of_files (same.files _ checkpoint_mem)).mpr

theorem Completed.of_sameView (same : SameView a m m') (h : Completed a m') : Completed a m := by
  rcases h with ⟨path, is, present⟩ | ⟨o, mem, finished⟩
  · exact .inl ⟨path, is, (same.files path (mem_paths (completion_mem is))) ▸ present⟩
  · exact .inr ⟨o, same.exits ▸ mem, finished⟩

theorem Completed.of_write (other : ∀ marker, a.completion = some marker → marker ≠ path)
    (h : Completed a (m.write path text)) : Completed a m := by
  rcases h with ⟨marker, is, present⟩ | finished
  · rw [write_files, if_neg (other marker is)] at present
    exact .inl ⟨marker, is, present⟩
  · exact .inr finished

theorem consistent_viewed : Viewed a (Consistent py kernels a) := by
  intro m m' same h
  obtain ⟨k, bound, saved⟩ := h.saved
  constructor
  · exact ⟨k, bound, saved_viewed same saved⟩
  · intro completed
    obtain ⟨positive, all⟩ := h.completed (completed.of_sameView same)
    exact ⟨positive, saved_viewed same all⟩
  · intro output text is there
    exact h.result output text is ((same.files _ (mem_paths (result_mem is))) ▸ there)
  · intro o mem
    exact h.exits o (same.exits ▸ mem)

/-- A checkpoint has one number of iterations. -/
theorem Saved.unique (h : Saved py kernels a j m) (h' : Saved py kernels a k m) : j = k := by
  rcases h with ⟨rfl, none⟩ | ⟨text, there, state⟩ <;> rcases h' with ⟨rfl, none'⟩ | ⟨text', there', state'⟩
  · rfl
  · rw [none] at there'
    cases there'
  · rw [none'] at there
    cases there
  · cases there.symm.trans there'
    have same := (Prod.mk.inj (Except.ok.inj (state.symm.trans state'))).1
    exact_mod_cast same

/-- A later checkpoint, or the same one again. -/
theorem Consistent.writeCheckpoint (h : Consistent py kernels a m) (saved : Saved py kernels a j m)
    (later : j ≤ k) (bound : k ≤ a.iterations.toNat)
    (state : py.readState text = .ok (k, checksumAfter py kernels a k)) :
    Consistent py kernels a (m.write a.checkpointFile text) ∧
      Saved py kernels a k (m.write a.checkpointFile text) := by
  have saved' : Saved py kernels a k (m.write a.checkpointFile text) :=
    .inr ⟨text, by simp, state⟩
  refine ⟨⟨⟨k, bound, saved'⟩, fun completed => ?_, fun output text' is there => ?_, h.exits⟩, saved'⟩
  · obtain ⟨positive, all⟩ :=
      h.completed (completed.of_write fun _ is => ne_checkpoint (completion_mem is))
    -- nothing is left to be done, so this is the same one again
    obtain rfl := saved.unique all
    obtain rfl : k = a.iterations.toNat := le_antisymm bound later
    exact ⟨positive, saved'⟩
  · rw [write_files, if_neg (ne_checkpoint (result_mem is))] at there
    exact h.result output text' is there

theorem Saved.writeReport (report : path ∈ a.reports) (h : Saved py kernels a k m) :
    Saved py kernels a k (m.write path text) :=
  (saved_of_files (by rw [write_files, if_neg (ne_checkpoint report).symm])).mpr h

theorem Consistent.writeProgress (is : a.progress = some path) (h : Consistent py kernels a m) :
    Consistent py kernels a (m.write path text) := by
  obtain ⟨k, bound, saved⟩ := h.saved
  refine ⟨⟨k, bound, saved.writeReport (progress_mem is)⟩, fun completed => ?_,
    fun output text' is' there => ?_, h.exits⟩
  · obtain ⟨positive, all⟩ :=
      h.completed (completed.of_write fun _ is' => (progress_ne_completion is is').symm)
    exact ⟨positive, all.writeReport (progress_mem is)⟩
  · rw [write_files, if_neg (progress_ne_result is is').symm] at there
    exact h.result output text' is' there

theorem Consistent.writeResult {output : String} (is : a.output = some output)
    (result : IsResult py kernels a text) (h : Consistent py kernels a m) :
    Consistent py kernels a (m.write (Options.resultFile output) text) := by
  obtain ⟨k, bound, saved⟩ := h.saved
  refine ⟨⟨k, bound, saved.writeReport (result_mem is)⟩, fun completed => ?_,
    fun output' text' is' there => ?_, h.exits⟩
  · obtain ⟨positive, all⟩ :=
      h.completed (completed.of_write fun _ is' => completion_ne_result is' is)
    exact ⟨positive, all.writeReport (result_mem is)⟩
  · cases is.symm.trans is'
    rw [write_files, if_pos rfl] at there
    cases there
    exact result

/-- The marker may be written where all iterations are in the checkpoint. -/
theorem Consistent.writeCompletion (is : a.completion = some path) (positive : 1 ≤ a.iterations)
    (saved : Saved py kernels a a.iterations.toNat m) (h : Consistent py kernels a m) :
    Consistent py kernels a (m.write path text) := by
  have saved' : Saved py kernels a a.iterations.toNat (m.write path text) :=
    saved.writeReport (completion_mem is)
  refine ⟨⟨_, le_refl _, saved'⟩, fun _ => ⟨positive, saved'⟩, fun output text' is' there => ?_, h.exits⟩
  rw [write_files, if_neg (completion_ne_result is is').symm] at there
  exact h.result output text' is' there

theorem Consistent.exit {o : Outcome} (h : Consistent py kernels a m)
    (finished : o.finished = true → 1 ≤ a.iterations ∧ o = uninterrupted py kernels a ∧
      Saved py kernels a a.iterations.toNat m) :
    Consistent py kernels a { m with exits := o :: m.exits } := by
  refine ⟨h.saved, fun completed => ?_, h.result, fun o' mem => ?_⟩
  · rcases completed with marker | ⟨o', mem, is⟩
    · exact h.completed (.inl marker)
    · rcases List.mem_cons.mp mem with rfl | earlier
      · obtain ⟨positive, -, saved⟩ := finished is
        exact ⟨positive, saved⟩
      · exact h.completed (.inr ⟨o', earlier, is⟩)
  · rcases List.mem_cons.mp mem with rfl | earlier
    · exact fun is => (finished is).2.1
    · exact h.exits o' earlier

/-! ## One run -/

theorem stable_of_viewed {A : Machine Text → Prop} (viewed : Viewed a A) :
    (contract py kernels a).Stable A := fun _ _ rely =>
  viewed ⟨fun path _ => congrFun rely.1 path, rely.2⟩

/-- An operation that changes nothing. -/
def Op.isQuiet : Op Text → Bool
  | .writeText .. | .replace .. | .exit _ => false
  | _ => true

theorem exec_quiet {o : Op Text} {c : Choice Text} {r : Except Error o.Ret} (quiet : o.isQuiet = true)
    (h : exec o c m = some (r, m')) : m' = m := by
  cases o <;> first | (cases h; rfl) | cases quiet

abbrev Runs {α : Type} (py : Language Text) (kernels : String → String → Int → Int → PyFloat)
    (a : Arguments) (A : Machine Text → Prop) (p : Program Text α)
    (B : α → Machine Text → Prop) : Prop :=
  Triple exec (contract py kernels a) A p B fun _ _ => True

theorem runs_op {A : Machine Text → Prop} {o : Op Text} {B : o.Ret → Machine Text → Prop}
    (stable : (contract py kernels a).Stable A) (stable' : ∀ r, (contract py kernels a).Stable (B r))
    (h : ∀ m c r m', A m → Consistent py kernels a m → exec o c m = some (r, m') →
      Consistent py kernels a m' ∧ ∀ b, r = .ok b → B b m') :
    Runs py kernels a A (step o) B := by
  refine .op stable stable' (fun _ => .top) fun m c r m' before inv _ done => ?_
  obtain ⟨inv', after⟩ := h m c r m' before inv done
  refine ⟨inv', trivial, ?_⟩
  cases r with
  | ok b => exact after b rfl
  | error e => trivial

theorem runs_quiet {A : Machine Text → Prop} {o : Op Text}
    (stable : (contract py kernels a).Stable A) (quiet : o.isQuiet = true) :
    Runs py kernels a A (step o) fun _ => A :=
  runs_op stable (fun _ => stable) fun _ _ _ _ before inv done => by
    obtain rfl := exec_quiet quiet done
    exact ⟨inv, fun _ _ => before⟩

theorem sameView_write_temporary (mem : path ∈ a.paths) :
    SameView a m (m.write (temporary path) text) := by
  refine ⟨fun path' mem' => ?_, rfl⟩
  have other : path' ≠ temporary path := fun same => temporary_not_mem mem (same ▸ mem')
  rw [write_files, if_neg other]

/-- The file is replaced at once, or not at all. -/
theorem runs_atomicJsonWrite {payload : List (String × PyJson)} {A B : Machine Text → Prop}
    (mem : path ∈ a.paths) (viewed : Viewed a A) (viewed' : Viewed a B)
    (h : ∀ m, Consistent py kernels a m → A m →
      Consistent py kernels a (m.write path (py.dumps (.object payload))) ∧
        B (m.write path (py.dumps (.object payload)))) :
    Runs py kernels a A (atomicJsonWrite py path payload) fun _ => B := by
  have stable : (contract py kernels a).Stable A := stable_of_viewed viewed
  refine .bind (runs_quiet stable rfl) fun _ => .bind
    (B := fun _ m => A m ∧ m.files (temporary path) = some (py.dumps (.object payload))) ?_ fun _ => ?_
  · refine runs_op stable (fun _ => stable.and fun _ _ rely => (congrFun rely.1 _).trans)
      fun m c r m' before inv done => ?_
    simp only [exec] at done
    cases fault : c.fault with
    | none =>
        rw [fault] at done
        cases done
        exact ⟨consistent_viewed (sameView_write_temporary mem) inv,
          fun _ _ => ⟨viewed (sameView_write_temporary mem) before, by simp⟩⟩
    | some e =>
        rw [fault] at done
        cases done
        refine ⟨?_, fun _ returned => by cases returned⟩
        cases c.left with
        | none => exact inv
        | some part => exact consistent_viewed (sameView_write_temporary mem) inv
  · refine runs_op (stable.and fun _ _ rely => (congrFun rely.1 _).trans)
      (fun _ => stable_of_viewed viewed') fun m c r m' before inv done => ?_
    obtain ⟨before, there⟩ := before
    simp only [exec, there] at done
    cases fault : c.fault with
    | none =>
        rw [fault] at done
        cases done
        have cleared : SameView a m { m with files := Function.update m.files (temporary path) none } := by
          refine ⟨fun path' mem' => ?_, rfl⟩
          have other : path' ≠ temporary path := fun same => temporary_not_mem mem (same ▸ mem')
          exact Function.update_of_ne other ..
        obtain ⟨inv', after⟩ := h _ (consistent_viewed cleared inv) (viewed cleared before)
        exact ⟨inv', fun _ _ => after⟩
    | some e =>
        rw [fault] at done
        cases done
        exact ⟨inv, fun _ returned => by cases returned⟩

theorem saved_stable : (contract py kernels a).Stable (Saved py kernels a k) :=
  stable_of_viewed saved_viewed

/-- Whatever else is written leaves the checkpoint alone. -/
theorem runs_report {payload : List (String × PyJson)} (report : path ∈ a.reports)
    (h : ∀ m, Consistent py kernels a m → Saved py kernels a k m →
      Consistent py kernels a (m.write path (py.dumps (.object payload)))) :
    Runs py kernels a (Saved py kernels a k) (atomicJsonWrite py path payload)
      fun _ => Saved py kernels a k :=
  runs_atomicJsonWrite (mem_paths report) saved_viewed saved_viewed
    fun m inv saved => ⟨h m inv saved, saved.writeReport report⟩

theorem runs_saveState (later : j ≤ k) (bound : k ≤ a.iterations.toNat) :
    Runs py kernels a (Saved py kernels a j)
      (saveState py a.toOptions env k (checksumAfter py kernels a k))
      fun _ => Saved py kernels a k :=
  .bind (runs_quiet saved_stable rfl) fun _ =>
    runs_atomicJsonWrite checkpoint_mem saved_viewed saved_viewed fun _ inv saved =>
      inv.writeCheckpoint saved later bound (readState_statePayload ..)

theorem runs_writeProgress (completed : Int) :
    Runs py kernels a (Saved py kernels a k) (writeProgress py a.toOptions env completed)
      fun _ => Saved py kernels a k := by
  unfold writeProgress
  cases is : a.progress with
  | none => exact .pure saved_stable fun _ saved => saved
  | some path =>
      exact .bind (runs_quiet saved_stable rfl) fun _ =>
        runs_report (progress_mem is) fun _ inv _ => inv.writeProgress is

/-- The count and the sum that a run goes on with are those in the checkpoint. -/
def InStep (py : Language Text) (kernels : String → String → Int → Int → PyFloat) (a : Arguments)
    (state : Int × PyFloat) (m : Machine Text) : Prop :=
  ∃ k : Nat, k ≤ a.iterations.toNat ∧ state = ((k : Int), checksumAfter py kernels a k) ∧
    Saved py kernels a k m

theorem inStep_stable (state : Int × PyFloat) :
    (contract py kernels a).Stable (InStep py kernels a state) := by
  rintro m m' rely ⟨k, bound, is, saved⟩
  exact ⟨k, bound, is, saved_stable rely saved⟩

theorem orRaise_eq_ok {α : Type} {c : Choice Text} {r : Except Error α} {b : α}
    (h : c.orRaise r = .ok b) : r = .ok b := by
  unfold Choice.orRaise at h
  split at h
  · exact h
  · cases h

theorem runs_loadState :
    Runs py kernels a (fun _ => True) (loadState py a.checkpointFile) (InStep py kernels a) := by
  have stable (present : Bool) : (contract py kernels a).Stable
      fun m => present = (m.files a.checkpointFile).isSome :=
    fun _ _ rely is => is.trans (by rw [rely.1])
  have knows (text : Text) : (contract py kernels a).Stable
      fun m => ∃ state, py.readState text = .ok state ∧ InStep py kernels a state m := by
    rintro m m' rely ⟨state, read, inStep⟩
    exact ⟨state, read, inStep_stable state rely inStep⟩
  refine .bind (B := fun present m => present = (m.files a.checkpointFile).isSome)
    (runs_op .top stable fun m c r m' _ inv done => ?_) fun present => .ite (fun absent => ?_) fun _ => ?_
  · cases done
    exact ⟨inv, fun _ returned => (Except.ok.inj (orRaise_eq_ok returned)).symm⟩
  · refine .pure (inStep_stable _) fun m is => ⟨0, Nat.zero_le _, rfl, .inl ⟨rfl, ?_⟩⟩
    exact Option.not_isSome_iff_eq_none.mp (by simp [← is, absent])
  · refine .bind (B := fun text m => ∃ state, py.readState text = .ok state ∧
      InStep py kernels a state m) (runs_op (stable present) knows fun m c r m' _ inv done => ?_)
      fun text => ?_
    · cases done
      refine ⟨inv, fun text returned => ?_⟩
      obtain ⟨k, bound, saved⟩ := inv.saved
      have there := orRaise_eq_ok returned
      rcases saved with ⟨-, none⟩ | ⟨text', is, state⟩
      · rw [none] at there
        cases there
      · rw [is] at there
        cases there
        exact ⟨_, state, k, bound, rfl, .inr ⟨text, is, state⟩⟩
    · cases read : py.readState text with
      | error e => exact .done (fun _ _ _ _ => trivial) fun _ _ => trivial
      | ok state =>
          refine .done (B := InStep py kernels a) (inStep_stable state) ?_
          rintro m ⟨state', is, inStep⟩
          exact Except.ok.inj is ▸ inStep

/-- The loop: each turn adds the iteration whose number is in the checkpoint. -/
theorem runs_loop (left : Nat) (bound : k ≤ a.iterations.toNat) :
    Runs py kernels a (Saved py kernels a k)
      (loop py kernels a.toOptions env left k (checksumAfter py kernels a k)) (InStep py kernels a) := by
  have here {k : Nat} (bound : k ≤ a.iterations.toNat) :
      Runs py kernels a (Saved py kernels a k)
        (pure ((k : Int), checksumAfter py kernels a k)) (InStep py kernels a) :=
    .pure (inStep_stable _) fun m saved => ⟨k, bound, rfl, saved⟩
  induction left generalizing k with
  | zero => exact here bound
  | succ left ih =>
      refine .ite (fun more => ?_) fun _ => here bound
      have next : k + 1 ≤ a.iterations.toNat := by omega
      refine .bind (runs_quiet saved_stable rfl) fun stop => .ite (fun _ => here bound) fun _ => ?_
      refine .bind (runs_saveState (Nat.le_succ k) next) fun _ => .bind (runs_writeProgress _) fun _ => ?_
      refine .bind (B := fun _ => Saved py kernels a (k + 1)) ?_ fun _ => ih next
      exact .ite (fun _ => runs_quiet saved_stable rfl) fun _ => .pure saved_stable fun _ saved => saved

theorem runs_complete (elapsed : PyFloat) (positive : 1 ≤ a.iterations) :
    Runs py kernels a (Saved py kernels a a.iterations.toNat)
      (complete py a.toOptions env a.iterations (checksumAfter py kernels a a.iterations.toNat) elapsed)
      fun _ => Saved py kernels a a.iterations.toNat := by
  unfold complete
  cases is : a.completion with
  | none => exact .pure saved_stable fun _ saved => saved
  | some completion =>
      cases is' : a.output with
      | none => exact .pure saved_stable fun _ saved => saved
      | some output =>
          refine .bind (runs_quiet saved_stable rfl) fun _ =>
            .bind (runs_quiet saved_stable rfl) fun completedAt => ?_
          refine .bind (runs_report (result_mem is') fun _ inv _ => ?_) fun _ =>
            runs_report (completion_mem is) fun _ inv saved => inv.writeCompletion is positive saved
          exact inv.writeResult is' (isResult_resultPayload ..)

/-- What is known when `main` returns. -/
def Ended (py : Language Text) (kernels : String → String → Int → Int → PyFloat) (a : Arguments)
    (o : Outcome) (m : Machine Text) : Prop :=
  o.finished = true → 1 ≤ a.iterations ∧ o = uninterrupted py kernels a ∧
    Saved py kernels a a.iterations.toNat m

theorem ended_stable (o : Outcome) : (contract py kernels a).Stable (Ended py kernels a o) := by
  intro m m' rely h finished
  obtain ⟨positive, is, saved⟩ := h finished
  exact ⟨positive, is, saved_stable rely saved⟩

theorem runs_main :
    Runs py kernels a (fun _ => True) (main py kernels a.toOptions env) (Ended py kernels a) := by
  have raises {A : Machine Text → Prop} (e : Error) :
      Runs py kernels a A (raise e) (Ended py kernels a) := .raise .top fun _ _ => trivial
  refine .ite (fun _ => raises _) fun enough => .ite (fun _ => raises _) fun _ => ?_
  refine .bind runs_loadState fun state => .ite (fun _ => raises _) fun _ => ?_
  rintro m ⟨k, bound, rfl, saved⟩
  refine Triple.bind (B := fun _ => Saved py kernels a k) (runs_quiet saved_stable rfl) (fun _ => ?_) saved
  refine .bind (runs_writeProgress _) fun _ => .bind (runs_quiet saved_stable rfl) fun started => ?_
  refine .bind (runs_loop _ bound) fun state => ?_
  rintro m ⟨k, bound, rfl, saved⟩
  refine Triple.bind (B := fun _ => Saved py kernels a k) (runs_quiet saved_stable rfl)
    (fun ended => ?_) saved
  refine .bind (runs_saveState (le_refl k) bound) fun _ => .bind (runs_writeProgress _) fun _ => ?_
  refine .bind (runs_quiet saved_stable rfl) fun stop => .ite ?_ fun _ => ?_
  · rintro ⟨-, all⟩
    have positive : 1 ≤ a.iterations := by omega
    obtain rfl : k = a.iterations.toNat := by omega
    have count : ((a.iterations.toNat : Nat) : Int) = a.iterations := by omega
    rw [count]
    refine .bind (runs_complete _ positive) fun _ => .pure (ended_stable _) ?_
    exact fun m saved _ => ⟨positive, rfl, saved⟩
  · exact .pure (ended_stable _) fun _ _ finished => by cases finished

/-- A run of the process, with its exit. -/
theorem runs_process :
    Runs py kernels a (fun _ => True) (process py kernels a.toOptions env) fun _ _ => True := by
  refine .bind runs_main fun o => runs_op (ended_stable o) (fun _ => .top) fun m c r m' ended inv done => ?_
  cases done
  exact ⟨inv.exit ended, fun _ _ => trivial⟩

end

/-! ## An uninterrupted run -/

section

variable {Text : Type} {py : Language Text}
  {kernels : String → String → Int → Int → PyFloat} {a : Arguments} {env : Environment}
  {m m' : Machine Text}

/-- Alone and without a signal, the program can return `r`. -/
def Returns {α : Type} (p : Program Text α) (m : Machine Text) (r : α) : Prop :=
  ∃ v, v.stopRequested = false ∧ Ends exec (fun _ _ => False) p m (.ok r) v

theorem Returns.pure {α : Type} (r : α) (calm : m.stopRequested = false) :
    Returns (Pure.pure r : Program Text α) m r := ⟨m, calm, .done⟩

theorem Returns.bind {α β : Type} {p : Program Text α} {f : α → Program Text β} {r : α} {s : β}
    (h : Returns p m r) (rest : ∀ v, v.stopRequested = false → Returns (f r) v s) :
    Returns (p >>= f) m s := by
  obtain ⟨v, calm, ends⟩ := h
  obtain ⟨u, calm', ends'⟩ := rest v calm
  exact ⟨u, calm', ends.bind ends'⟩

theorem returns_op {o : Op Text} {r : o.Ret} (calm : m'.stopRequested = false)
    (h : exec o {} m = some (.ok r, m')) : Returns (step o) m r := ⟨m', calm, .op {} h⟩

theorem returns_atomicJsonWrite (path : String) (payload : List (String × PyJson))
    (calm : m.stopRequested = false) : Returns (atomicJsonWrite py path payload) m () := by
  refine (returns_op calm rfl).bind fun m calm => ?_
  let written := m.write (temporary path) (py.dumps (.object payload))
  have there : written.files (temporary path) = some (py.dumps (.object payload)) := by
    rw [write_files, if_pos rfl]
  refine ⟨_, ?_, .perform (u := written) {} rfl (.op {} (by simp only [exec, there]; rfl))⟩
  exact calm

theorem returns_saveState (completed : Int) (checksum : PyFloat) (calm : m.stopRequested = false) :
    Returns (saveState py a.toOptions env completed checksum) m () :=
  (returns_op calm rfl).bind fun _ => returns_atomicJsonWrite _ _

theorem returns_writeProgress (completed : Int) (calm : m.stopRequested = false) :
    Returns (writeProgress py a.toOptions env completed) m () := by
  unfold writeProgress
  cases a.progress with
  | none => exact .pure () calm
  | some path => exact (returns_op calm rfl).bind fun _ => returns_atomicJsonWrite _ _

theorem returns_loop {k : Nat} (left : Nat) (all : k + left = a.iterations.toNat)
    (positive : 1 ≤ a.iterations) (calm : m.stopRequested = false) :
    Returns (loop py kernels a.toOptions env left k (checksumAfter py kernels a k)) m
      (a.iterations, checksumAfter py kernels a a.iterations.toNat) := by
  induction left generalizing k m with
  | zero =>
      obtain rfl : k = a.iterations.toNat := all
      have count : ((a.iterations.toNat : Nat) : Int) = a.iterations := by omega
      rw [loop, count]
      exact .pure _ calm
  | succ left ih =>
      rw [loop, if_pos (by omega)]
      refine Returns.bind (r := false) ⟨m, calm, .op {} (by simp only [exec, calm])⟩ fun m calm => ?_
      refine (returns_saveState _ _ calm).bind fun m calm => (returns_writeProgress _ calm).bind ?_
      refine fun m calm => Returns.bind (r := ()) ?_ fun m calm => ih (k := k + 1) (by omega) calm
      unfold printCompleted
      split
      · exact returns_op calm rfl
      · exact .pure () calm

theorem returns_complete (completed : Int) (checksum elapsed : PyFloat)
    (calm : m.stopRequested = false) :
    Returns (complete py a.toOptions env completed checksum elapsed) m () := by
  unfold complete
  split
  · refine (returns_op calm rfl).bind fun m calm => (returns_op calm rfl).bind fun m calm => ?_
    exact (returns_atomicJsonWrite _ _ calm).bind fun _ => returns_atomicJsonWrite _ _
  · exact .pure () calm

/-- From no checkpoint an undisturbed run computes all iterations. -/
theorem returns_main (positive : 1 ≤ a.iterations)
    (together : a.completionFile.isNone ↔ a.outputDir.isNone)
    (fresh : m.files a.checkpointFile = none) (calm : m.stopRequested = false) :
    Returns (main py kernels a.toOptions env) m (uninterrupted py kernels a) := by
  unfold main
  rw [if_neg (by omega), if_neg (not_not_intro together)]
  have loaded : Returns (loadState py a.checkpointFile) m (0, .finite 0) := by
    refine Returns.bind (r := false) ⟨m, calm, .op {} ?_⟩ fun m calm => .pure _ calm
    simp only [exec, fresh]
    rfl
  refine loaded.bind fun m calm => ?_
  rw [if_neg (by show ¬ a.iterations < 0; omega)]
  refine (returns_op calm rfl).bind fun m calm => (returns_writeProgress _ calm).bind fun m calm => ?_
  refine (returns_op calm rfl).bind fun m calm => ?_
  refine (returns_loop (k := 0) _ (by simp) positive calm).bind fun m calm => ?_
  refine (returns_op calm rfl).bind fun m calm => (returns_saveState _ _ calm).bind fun m calm => ?_
  refine (returns_writeProgress _ calm).bind fun m calm => ?_
  refine Returns.bind (r := false) ⟨m, calm, .op {} (by simp only [exec, calm])⟩ fun m calm => ?_
  rw [if_pos ⟨rfl, le_refl _⟩]
  exact (returns_complete _ _ _ calm).bind fun m calm => .pure _ calm

end

/-! ## Interrupted runs -/

/-- A start of the process with the flag down, maybe on another machine, to which the checkpoint has
come but some of the other files have not. -/
structure Launch where
  environment : Environment := {}
  lost : List String := []

section

variable {Text : Type} (py : Language Text)
  (kernels : String → String → Int → Int → PyFloat) (a : Arguments)

/-- One process after another. The event is a signal to stop; a crash ends the process where it is. -/
def system : System (Op Text) Op.Ret Error (Choice Text) (Machine Text) Unit Launch Unit where
  exec _ := exec
  accept _ launch m :=
    if a.checkpointFile ∈ launch.lost then none
    else some { m with
      files := fun path => if path ∈ launch.lost then none else m.files path
      stopRequested := false }
  body _ launch := process py kernels a.toOptions launch.environment
  crash _ m := m
  event _ m := some { m with stopRequested := true }

/-- The workload has not run yet. -/
structure Fresh (m : Machine Text) : Prop where
  checkpoint : m.files a.checkpointFile = none
  completion : ∀ path, a.completion = some path → m.files path = none
  result : ∀ output, a.output = some output → m.files (Options.resultFile output) = none
  exits : m.exits = []

end

section

variable {Text : Type} {py : Language Text}
  {kernels : String → String → Int → Int → PyFloat} {a : Arguments} {m : Machine Text}

theorem Fresh.consistent (h : Fresh a m) : Consistent py kernels a m where
  saved := ⟨0, Nat.zero_le _, .inl ⟨rfl, h.checkpoint⟩⟩
  completed := by
    rintro (⟨path, is, present⟩ | ⟨o, mem, -⟩)
    · exact absurd (h.completion path is) present
    · rw [h.exits] at mem
      cases mem
  result output text is there := by
    rw [h.result output is] at there
    cases there
  exits o mem := by
    rw [h.exits] at mem
    cases mem

theorem Consistent.launch {lost : List String} (h : Consistent py kernels a m)
    (kept : a.checkpointFile ∉ lost) (flag : Bool) :
    Consistent py kernels a { m with
      files := fun path => if path ∈ lost then none else m.files path
      stopRequested := flag } := by
  have same {k : Nat} : Saved py kernels a k { m with
      files := fun path => if path ∈ lost then none else m.files path
      stopRequested := flag } ↔ Saved py kernels a k m := saved_of_files (if_neg kept)
  obtain ⟨k, bound, saved⟩ := h.saved
  refine ⟨⟨k, bound, same.mpr saved⟩, fun completed => ?_, fun output text is there => ?_, h.exits⟩
  · have before : Completed a m := by
      rcases completed with ⟨path, is, present⟩ | finished
      · exact .inl ⟨path, is, fun none => present (by simp [none])⟩
      · exact .inr finished
    exact ⟨(h.completed before).1, same.mpr (h.completed before).2⟩
  · simp only [ite_eq_iff, reduceCtorEq, and_false, false_or] at there
    exact h.result output text is there.2

theorem verified (py : Language Text) (kernels : String → String → Int → Int → PyFloat)
    (a : Arguments) :
    (system py kernels a).Verified {} (Consistent py kernels a)
      (fun _ => (contract py kernels a).rely) (fun _ _ _ => True) fun _ _ => True where
  trans _ _ := trivial
  interference other := absurd (Subsingleton.elim _ _) other
  within _ := trivial
  call := by
    intro n launch v w inv _ accepted
    simp only [system] at accepted
    split_ifs at accepted with lost
    cases accepted
    refine ⟨inv.launch lost false, trivial, ?_⟩
    exact (runs_process trivial).mono fun _ _ _ => trivial
  crash inv _ := ⟨inv, trivial⟩
  event := by
    intro e v w inv _ happened
    cases happened
    have same : SameView a v { v with stopRequested := true } := ⟨fun _ _ => rfl, rfl⟩
    exact ⟨consistent_viewed same inv, fun _ => ⟨rfl, rfl⟩, trivial⟩

/-- However often the processes of a workload are stopped or killed, a run that completes ends with
the iteration count and the checksum of an undisturbed run, the result file has them too, and where
there is a completion marker, they are in the checkpoint. -/
theorem interruptions_do_not_matter {start : Machine Text}
    {cfg : Config (Op Text) Op.Ret Error (Machine Text) Unit} (fresh : Fresh a start)
    (reach : (system py kernels a).Reachable {} { world := start } cfg) :
    (∀ o ∈ cfg.world.exits, o.finished = true → o = uninterrupted py kernels a) ∧
      (∀ output text, a.output = some output →
        cfg.world.files (Options.resultFile output) = some text → IsResult py kernels a text) ∧
      (∀ path, a.completion = some path → cfg.world.files path ≠ none →
        ∃ text, cfg.world.files a.checkpointFile = some text ∧ py.readState text =
          .ok (a.iterations, checksumAfter py kernels a a.iterations.toNat)) ∧
      (1 ≤ a.iterations → (a.completionFile.isNone ↔ a.outputDir.isNone) →
        ∀ env m, Fresh a m → m.stopRequested = false → ∃ v, Ends exec (fun _ _ => False)
          (main py kernels a.toOptions env) m (.ok (uninterrupted py kernels a)) v) := by
  have inv := ((verified py kernels a).reachable fresh.consistent (fun _ => rfl) reach).holds
  refine ⟨inv.exits, inv.result, fun path is present => ?_, fun positive together env m fresh calm => ?_⟩
  · obtain ⟨positive, none | ⟨text, there, state⟩⟩ := inv.completed (.inl ⟨path, is, present⟩)
    · have := none.1
      omega
    · have count : ((a.iterations.toNat : Nat) : Int) = a.iterations := by omega
      exact ⟨text, there, count ▸ state⟩
  · have returned : Returns (main py kernels a.toOptions env) m (uninterrupted py kernels a) :=
      returns_main positive together fresh.checkpoint calm
    obtain ⟨v, -, ends⟩ := returned
    exact ⟨v, ends⟩

end

/-! ## A run that is stopped, killed and completed -/

/-- A text with a value in it, or the beginning of one. -/
inductive SampleText where
  | written (value : PyJson)
  | part

/-- Integers are added and written exactly. -/
def sampleLanguage : Language SampleText where
  add
    | .finite x, .finite y => .finite (x + y)
    | _, _ => .nan
  sub
    | .finite x, .finite y => .finite (x - y)
    | _, _ => .nan
  intOfString s := .error (.valueError s!"invalid literal for int() with base 10: '{s}'")
  floatOfInt z := .ok (.finite z)
  floatOfString s := .error (.valueError s!"could not convert string to float: '{s}'")
  dumps := .written
  loads
    | .written value => .ok value
    | .part => .error (.jsonDecodeError "Expecting value: line 1 column 1 (char 0)")
  loads_dumps entries _ _ := ⟨entries, .refl _, rfl⟩

def sampleKernels : String → String → Int → Int → PyFloat :=
  fun _ _ seed iteration => .finite (seed + iteration)

def sampleArguments : Arguments where
  benchmark := "json"
  iterations := 2
  checkpointFile := "checkpoint/benchmark.json"
  completionFile := some "runtime/completion.json"
  outputDir := some "output"
  apart := by decide

/-- A signal after the first iteration; then the process is killed before it replaces the checkpoint
with the second; then it is left alone. -/
def sampleSchedule : List (Label (Choice SampleText) Unit Launch Unit) :=
  .call () {} {} :: List.replicate 8 (.perform () {}) ++ .event () :: List.replicate 8 (.perform () {}) ++
    .call () {} {} :: List.replicate 7 (.perform () {}) ++ .crash () ::
    .call () {} {} :: List.replicate 23 (.perform () {})

theorem interruptions_do_not_matter_sample : ∃ cfg,
    (system sampleLanguage sampleKernels sampleArguments).Reachable {} { world := {} } cfg ∧
      cfg.world.exits = [⟨2, .finite 3, true⟩, ⟨1, .finite 1, false⟩] ∧
      ∀ o ∈ cfg.world.exits, o.finished = true →
        o = uninterrupted sampleLanguage sampleKernels sampleArguments := by
  have run : ((system sampleLanguage sampleKernels sampleArguments).runTested (fun _ _ _ _ => true)
      sampleSchedule { world := {} }).any (fun cfg =>
        decide (cfg.world.exits = [⟨2, .finite 3, true⟩, ⟨1, .finite 1, false⟩])) = true := by
    decide +kernel
  obtain ⟨cfg, ran, exits⟩ := (Option.any_eq_true _ _).mp run
  have reach := (system sampleLanguage sampleKernels sampleArguments).reachable_of_runTested {}
    (fun _ _ _ _ _ => trivial) (fun _ _ _ => trivial) (fun _ _ => trivial) (fun _ _ => trivial)
    .refl ran
  exact ⟨cfg, reach, of_decide_eq_true exits, (interruptions_do_not_matter
    ⟨rfl, fun _ _ => rfl, fun _ _ => rfl, rfl⟩ reach).1⟩

end Magellan.Benchmark
