import Mathlib.Data.List.Lex
import Magellan.Data.Dict
import Magellan.Data.Text

/-!
# Version constraints

The runtimes that a task requires against those that a node advertises. Versions are compared as
tuples of at most four numbers, and equality is a test for a prefix.
-/

namespace Magellan.Capabilities

/-- `_version_tuple`. -/
def versionTuple (value : List Char) : List Nat :=
  let numbers := ((Text.digitRuns value).take 4).map Text.int
  if numbers = [] then [0] else numbers

inductive VersionOperator where
  | ge
  | le
  | eq
  | gt
  | lt
  deriving DecidableEq

namespace VersionOperator

def text : VersionOperator → List Char
  | ge => ['>', '=']
  | le => ['<', '=']
  | eq => ['=', '=']
  | gt => ['>']
  | lt => ['<']

/-- The operators in the order in which a clause is tested for them. -/
def candidates : List VersionOperator := [ge, le, eq, gt, lt]

def holds (actual expected : List Nat) : VersionOperator → Bool
  | ge => actual ≥ expected
  | le => actual ≤ expected
  | eq => actual.take expected.length = expected
  | gt => actual > expected
  | lt => actual < expected

end VersionOperator

open VersionOperator

/-- The operator of a clause and the text of the version after it. -/
def parseClause (clause : List Char) : VersionOperator × List Char :=
  match candidates.find? fun o => o.text.isPrefixOf clause with
  | some o => (o, Text.strip Text.isSpace (clause.drop o.text.length))
  | none => (eq, clause)

def clauseMatches (actual : List Nat) (rawClause : List Char) : Bool :=
  let clause := Text.strip Text.isSpace rawClause
  if clause = [] then true
  else (parseClause clause).1.holds actual (versionTuple (parseClause clause).2)

/-- `_version_matches`. -/
def versionMatches (actual specification : String) : Bool :=
  (specification.toList.splitOn ',').all (clauseMatches (versionTuple actual.toList))

/-- The reasons of `check_compatibility` that are about runtimes. -/
def checkRuntimes (required advertised : Dict String String) : List String :=
  required.entries.filterMap fun (runtime, specification) =>
    match advertised.get? runtime with
    | none => some s!"destination does not advertise runtime {runtime}"
    | some actual =>
        if versionMatches actual specification then none
        else some s!"task requires {runtime}{specification}; destination advertises {actual}"

/-! ## Tuples -/

section

variable {actual expected : List Nat}

theorem take_eq_iff_prefix : actual.take expected.length = expected ↔ expected <+: actual := by
  rw [List.prefix_iff_eq_take]
  exact eq_comm

/-- Nothing lies between a tuple and the tuple with a zero. -/
theorem lt_append_zero_iff : actual < expected ++ [0] ↔ ¬ expected < actual := by
  induction expected generalizing actual with
  | nil => cases actual <;> simp [List.cons_lt_cons_iff]
  | cons e expected ih =>
      cases actual with
      | nil => simp
      | cons a actual =>
          rw [List.cons_append, List.cons_lt_cons_iff, List.cons_lt_cons_iff, ih]
          rcases lt_trichotomy a e with lt | rfl | gt
          · simp [lt, lt.asymm, lt.ne']
          · simp
          · simp [gt, gt.asymm, gt.ne']

theorem ge_iff_gt_or_eq : ge.holds actual expected = true ↔
    gt.holds actual expected = true ∨ eq.holds actual expected = true := by
  simp only [holds, decide_eq_true_eq, take_eq_iff_prefix, ge_iff_le, gt_iff_lt]
  constructor
  · intro le
    rcases le.lt_or_eq with lt | same
    · exact .inl lt
    · exact .inr (same ▸ List.prefix_refl _)
  · rintro (lt | ⟨rest, rfl⟩)
    · exact lt.le
    · exact not_lt.mp (List.not_lt.mpr List.le_append_left)

/-- A version that extends the expected one is equal to it and greater. -/
theorem le_iff_lt_or_eq_and : le.holds actual expected = true ↔
    lt.holds actual expected = true ∨
      eq.holds actual expected = true ∧ actual.length ≤ expected.length := by
  simp only [holds, decide_eq_true_eq, take_eq_iff_prefix]
  constructor
  · intro le
    rcases le.lt_or_eq with lt | same
    · exact .inl lt
    · exact .inr ⟨same ▸ List.prefix_refl _, same ▸ le_rfl⟩
  · rintro (lt | ⟨extends_, short⟩)
    · exact lt.le
    · exact (extends_.eq_of_length_le short).ge

theorem gt_iff_not_le : gt.holds actual expected = true ↔ ¬ le.holds actual expected = true := by
  simp only [holds, decide_eq_true_eq, not_le]

/-- The same tuple, or one with a zero more. -/
def SameUpToZero (actual expected : List Nat) : Prop :=
  actual = expected ∨ actual = expected ++ [0] ∨ actual ++ [0] = expected

instance : Decidable (SameUpToZero actual expected) := by
  unfold SameUpToZero
  infer_instance

theorem lt_append_zero (other : ¬ SameUpToZero actual expected) :
    actual < expected ++ [0] ↔ actual < expected := by
  rw [lt_append_zero_iff, not_lt]
  exact ⟨fun le => le.lt_of_ne fun same => other (.inl same), le_of_lt⟩

theorem append_zero_lt (other : ¬ SameUpToZero actual expected) :
    expected ++ [0] < actual ↔ expected < actual := by
  rw [← not_not (a := expected < actual), ← lt_append_zero_iff, not_lt]
  exact ⟨le_of_lt, fun le => le.lt_of_ne fun same => other (.inr (.inl same.symm))⟩

theorem SameUpToZero.symm (same : SameUpToZero actual expected) : SameUpToZero expected actual := by
  rcases same with rfl | same | same
  · exact .inl rfl
  · exact .inr (.inr same.symm)
  · exact .inr (.inl same.symm)

/-- A zero at the end of the expected version or of the actual one does not change an order. -/
theorem holds_zeros {o : VersionOperator} (ordering : o ≠ eq)
    (other : ¬ SameUpToZero actual expected) :
    o.holds actual (expected ++ [0]) = o.holds actual expected ∧
      o.holds (actual ++ [0]) expected = o.holds actual expected := by
  have other' : ¬ SameUpToZero expected actual := mt SameUpToZero.symm other
  cases o with
  | eq => exact absurd rfl ordering
  | ge | le | gt | lt =>
      simp only [holds, ge_iff_le, gt_iff_lt, ← not_lt, lt_append_zero other, append_zero_lt other,
        lt_append_zero other', append_zero_lt other', and_self]

end

/-! ## Constraints -/

/-- A dotted numeric version of at most four parts. -/
structure NumericVersion where
  parts : List (List Char)
  nonempty : parts ≠ []
  short : parts.length ≤ 4
  digits : ∀ part ∈ parts, part ≠ [] ∧ ∀ c ∈ part, (Text.decimal? c).isSome

namespace NumericVersion

variable (v : NumericVersion)

def text : List Char := ['.'].intercalate v.parts

def numbers : List Nat := v.parts.map Text.int

/-- The version with a part `0` at its end. -/
def appendZero (room : v.parts.length < 4) : NumericVersion where
  parts := v.parts ++ [['0']]
  nonempty := by simp
  short := by
    rw [List.length_append]
    exact room
  digits := by
    intro part mem
    rcases List.mem_append.mp mem with old | new
    · exact v.digits part old
    · rw [List.mem_singleton.mp new]
      exact ⟨List.cons_ne_nil _ _, List.all_eq_true.mp rfl⟩

/-- The clause that compares with the version. -/
def clause (o : VersionOperator) : String := String.ofList (o.text ++ v.text)

end NumericVersion

section

variable {v : NumericVersion}

theorem digitRuns_intercalate {parts : List (List Char)}
    (digits : ∀ part ∈ parts, part ≠ [] ∧ ∀ c ∈ part, (Text.decimal? c).isSome) :
    Text.digitRuns (['.'].intercalate parts) = parts := by
  induction parts with
  | nil => rfl
  | cons part parts ih =>
      obtain ⟨⟨nonempty, here⟩, rest⟩ := List.forall_mem_cons.mp digits
      cases parts with
      | nil =>
          rw [List.intercalate_singleton]
          exact Text.digitRuns_of_forall nonempty here
      | cons next parts =>
          have dotted : ['.'].intercalate (part :: next :: parts) =
              part ++ '.' :: ['.'].intercalate (next :: parts) := by
            simp [List.intercalate_cons_cons]
          rw [dotted, Text.digitRuns_append (by decide), Text.digitRuns_of_forall nonempty here,
            ih rest]
          rfl

theorem versionTuple_text (v : NumericVersion) : versionTuple v.text = v.numbers := by
  rw [versionTuple, NumericVersion.text, digitRuns_intercalate v.digits,
    List.take_of_length_le v.short, if_neg (by simpa using v.nonempty)]
  rfl

/-- The text of a version has digits and dots only. -/
theorem not_mem_text {c : Char} (noDigit : (Text.decimal? c).isNone) (noDot : c ≠ '.') :
    c ∉ v.text := by
  intro mem
  rcases Text.mem_intercalate mem with dot | ⟨part, mem', inside⟩
  · exact noDot (List.mem_singleton.mp dot)
  · have digit := (v.digits part mem').2 c inside
    rw [Option.isNone_iff_eq_none] at noDigit
    rw [noDigit] at digit
    cases digit

theorem solid_text {c : Char} (mem : c ∈ v.text) : Text.isSpace c = false := by
  by_cases dot : c = '.'
  · rw [dot]
    decide
  · refine Text.not_isSpace_of_decimal ?_
    by_contra noDigit
    rw [Bool.not_eq_true, Option.isSome_eq_false_iff] at noDigit
    exact not_mem_text noDigit dot mem

theorem text_ne_nil (v : NumericVersion) : v.text ≠ [] := by
  intro empty
  have none_ := digitRuns_intercalate v.digits
  rw [← NumericVersion.text, empty] at none_
  exact v.nonempty none_.symm

theorem parseClause_clause (o : VersionOperator) : parseClause (o.text ++ v.text) = (o, v.text) := by
  have found : candidates.find? (fun o' => o'.text.isPrefixOf (o.text ++ v.text)) = some o := by
    obtain ⟨c, rest, text⟩ := List.exists_cons_of_ne_nil (text_ne_nil v)
    have other : ∀ d, (Text.decimal? d).isNone → d ≠ '.' → d ≠ c := by
      rintro d noDigit noDot rfl
      exact not_mem_text noDigit noDot (text ▸ List.mem_cons_self)
    have noEquals : '=' ≠ c := other '=' (by decide) (by decide)
    rw [text]
    cases o <;> simp [candidates, VersionOperator.text, noEquals]
  simp only [parseClause, found, List.drop_left]
  rw [Text.strip_of_forall fun c mem => solid_text mem]

theorem solid_operator (o : VersionOperator) : ∀ c ∈ o.text, Text.isSpace c = false := by
  cases o <;> exact Text.forall_eq_false_of_any rfl

theorem clauseMatches_clause (actual : List Nat) (o : VersionOperator) :
    clauseMatches actual (o.text ++ v.text) = o.holds actual v.numbers := by
  have solid : ∀ c ∈ o.text ++ v.text, Text.isSpace c = false := by
    intro c mem
    rcases List.mem_append.mp mem with inOperator | inVersion
    · exact solid_operator o c inOperator
    · exact solid_text inVersion
  have nonempty : o.text ++ v.text ≠ [] := by simp [text_ne_nil]
  simp only [clauseMatches, Text.strip_of_forall solid, if_neg nonempty, parseClause_clause,
    versionTuple_text]

theorem versionMatches_clause (actual : String) (o : VersionOperator) :
    versionMatches actual (v.clause o) = o.holds (versionTuple actual.toList) v.numbers := by
  have single : ',' ∉ o.text ++ v.text := by
    rw [List.mem_append, not_or]
    exact ⟨by cases o <;> decide, not_mem_text (by decide) (by decide)⟩
  rw [versionMatches, NumericVersion.clause, String.toList_ofList, List.splitOn_eq_singleton single]
  simp [clauseMatches_clause]

theorem numbers_appendZero (room : v.parts.length < 4) :
    (v.appendZero room).numbers = v.numbers ++ [0] := by
  rw [NumericVersion.numbers, NumericVersion.appendZero, List.map_append]
  rfl

/-- With `.0` at its end a version has one zero more, or the same four numbers or none. -/
theorem versionTuple_append_zero (actual : String) :
    versionTuple (actual ++ ".0").toList = versionTuple actual.toList ∨
      versionTuple (actual ++ ".0").toList = versionTuple actual.toList ++ [0] := by
  have runs : Text.digitRuns (actual ++ ".0").toList = Text.digitRuns actual.toList ++ [['0']] := by
    rw [String.toList_append]
    exact Text.digitRuns_append (by decide) _ _
  unfold versionTuple
  rw [runs]
  generalize Text.digitRuns actual.toList = numbers
  by_cases room : numbers.length < 4
  · have long : (numbers ++ [['0']]).length ≤ 4 := by
      rw [List.length_append]
      exact room
    rw [List.take_of_length_le long, List.take_of_length_le room.le]
    cases numbers with
    | nil => exact .inl rfl
    | cons number numbers => exact .inr (by simp; rfl)
  · rw [List.take_append_of_le_length (by omega)]
    exact .inl rfl

/-- A list of clauses matches when each of them does. -/
theorem versionMatches_iff_forall_clause (actual specification : String) :
    versionMatches actual specification ↔
      ∀ clause ∈ specification.toList.splitOn ',', versionMatches actual (String.ofList clause) := by
  rw [versionMatches, List.all_eq_true]
  refine forall₂_congr fun clause mem => ?_
  have single : ',' ∉ clause := fun comma =>
    absurd (Text.forall_of_mem_splitOnP mem _ comma) (by simp)
  rw [versionMatches, String.toList_ofList, List.splitOn_eq_singleton single, List.all_cons,
    List.all_nil, Bool.and_true]

end

def threeEleven : NumericVersion where
  parts := [['3'], ['1', '1']]
  nonempty := by decide
  short := by decide
  digits := List.forall_mem_cons.mpr ⟨⟨List.cons_ne_nil _ _, List.all_eq_true.mp rfl⟩,
    List.forall_mem_singleton.mpr ⟨List.cons_ne_nil _ _, List.all_eq_true.mp rfl⟩⟩

/-- No reason is found just where every required runtime is advertised in a version that meets each
clause. -/
theorem checkRuntimes_eq_nil_iff {required advertised : Dict String String} :
    checkRuntimes required advertised = [] ↔
      ∀ runtime specification, required.get? runtime = some specification →
        ∃ actual, advertised.get? runtime = some actual ∧
          ∀ clause ∈ specification.toList.splitOn ',',
            versionMatches actual (String.ofList clause) := by
  rw [checkRuntimes, List.filterMap_eq_nil_iff, Prod.forall]
  simp only [Dict.mem_entries_iff]
  refine forall₃_congr fun runtime specification _ => ?_
  cases advertised.get? runtime with
  | none => simp
  | some actual =>
      rw [ite_eq_left_iff, versionMatches_iff_forall_clause]
      simp

end Magellan.Capabilities
