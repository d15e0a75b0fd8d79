import Magellan.Data.Dict
import Magellan.Data.Json
import Magellan.Submission.Catalog
import Mathlib.Logic.Relation

/-!
# Canonical digests

How a payload is encoded before it is hashed. A set becomes a list in the order of the encodings, a
dict an object in the order of its keys, and enums, dates and paths become strings, so a digest does
not say which of them it was; the model that a payload belongs to does.
-/

namespace Magellan.Submission

variable {F K D : Type}

/-- The key of a dict. -/
inductive PyKey (K : Type) where
  | str (s : String)
  | other (key : K)

inductive PyValue (F K D : Type) where
  | none
  | bool (b : Bool)
  | int (i : Int)
  | float (x : F)
  | str (s : String)
  | path (p : String)
  /-- A datetime or a date. -/
  | datetime (d : D)
  | enum (value : PyValue F K D)
  /-- A model with its fields, in the order in which the class has them. -/
  | model (fields : List (String × PyValue F K D))
  | dict (items : List (PyKey K × PyValue F K D))
  /-- A set in the order of an iteration. -/
  | set (items : List (PyValue F K D))
  /-- A list or a tuple. -/
  | list (items : List (PyValue F K D))

/-- The functions of Python that the encoding rests on. -/
structure Python (F K D : Type) where
  /-- The text of a float in JSON; `repr` where it is finite. -/
  floatRepr : F → List Char
  isFinite : F → Bool
  /-- `str` of a key that is no string. -/
  strKey : K → String
  isoformat : D → String
  /-- The hex digest of the UTF-8 encoding. -/
  sha256 : List Char → Digest

inductive Number (F : Type) where
  | int (i : Int)
  | float (x : F)

section

variable (py : Python F K D)

namespace Python

def str : PyKey K → String
  | .str s => s
  | .other key => py.strKey key

def numberText : Number F → List Char
  | .int i => Json.intText i
  | .float x => py.floatRepr x

def finite : Number F → Bool
  | .int _ => true
  | .float x => py.isFinite x

/-- `json.dumps` with sorted keys and without spaces, not restricted to ASCII. -/
def dumps (j : Json (Number F)) : List Char := j.sortKeys.write py.numberText

end Python

theorem PyValue.sizeOf_item {κ : Type} [SizeOf κ] {items : List (κ × PyValue F K D)} {e : κ × PyValue F K D}
    (mem : e ∈ items) : sizeOf e.2 < sizeOf items := by
  have item := List.sizeOf_lt_of_mem mem
  obtain ⟨key, value⟩ := e
  rw [Prod.mk.sizeOf_spec] at item
  change sizeOf value < _
  omega

/-- A dict comprehension: of two items with one key the later one counts. -/
def comprehension {α : Type} (items : List (String × α)) : List (String × α) :=
  (Dict.ofList items).entries

def canonicalJsonValue : PyValue F K D → Json (Number F)
  | .none => .null
  | .bool b => .bool b
  | .int i => .number (.int i)
  | .float x => .number (.float x)
  | .str s => .string s
  | .path p => .string p
  | .datetime d => .string (py.isoformat d)
  | .enum value => canonicalJsonValue value
  | .model fields => .object (comprehension (fields.map fun e => (e.1, canonicalJsonValue e.2)))
  | .dict items => .object (comprehension (items.map fun e => (py.str e.1, canonicalJsonValue e.2)))
  | .set items => .array ((items.map canonicalJsonValue).insertionSort
      fun a b => py.dumps a ≤ py.dumps b)
  | .list items => .array (items.map canonicalJsonValue)
decreasing_by
  · decreasing_tactic
  · rename_i mem
    have := PyValue.sizeOf_item mem
    decreasing_tactic
  · rename_i mem
    have := PyValue.sizeOf_item mem
    decreasing_tactic
  · decreasing_tactic
  · decreasing_tactic

def canonicalDigest (value : PyValue F K D) : Except Exn Digest :=
  let payload := canonicalJsonValue py value
  if payload.allNumbers py.finite then .ok (py.sha256 (py.dumps payload))
  else .error (valueError "Out of range float values are not JSON compliant")

/-! ## Equal payloads -/

/-- One difference that the encoding does not show: the order in which a set is iterated, the order
in which the keys of a dict were inserted where they are different strings, a datetime that is
written the same, at any depth. -/
inductive Reorders : PyValue F K D → PyValue F K D → Prop
  | set {items items'} : items.Perm items' → Reorders (.set items) (.set items')
  | dict {items items'} : items.Perm items' → (items.map fun e => py.str e.1).Nodup →
      Reorders (.dict items) (.dict items')
  | datetime {d d'} : py.isoformat d = py.isoformat d' → Reorders (.datetime d) (.datetime d')
  | inEnum {v v'} : Reorders v v' → Reorders (.enum v) (.enum v')
  | inModel {before name v v' after} : Reorders v v' →
      Reorders (.model (before ++ (name, v) :: after)) (.model (before ++ (name, v') :: after))
  | inDict {before key v v' after} : Reorders v v' →
      Reorders (.dict (before ++ (key, v) :: after)) (.dict (before ++ (key, v') :: after))
  | inSet {before v v' after} : Reorders v v' →
      Reorders (.set (before ++ v :: after)) (.set (before ++ v' :: after))
  | inList {before v v' after} : Reorders v v' →
      Reorders (.list (before ++ v :: after)) (.list (before ++ v' :: after))

/-- Payloads with nothing but such differences. -/
def Similar : PyValue F K D → PyValue F K D → Prop := Relation.ReflTransGen (Reorders py)

/-- What Python promises: floats have different texts that are no texts of ints, and no two texts
have one hash. -/
structure Python.Lawful : Prop where
  floats : Function.Injective py.floatRepr
  noInt : ∀ x i, py.floatRepr x ≠ Json.intText i
  floatChars : ∀ x, ∀ c ∈ py.floatRepr x, ¬ Json.Delimits c
  floatBegins : ∀ x, ∃ c rest, py.floatRepr x = c :: rest ∧ Json.kindOf c = .number
  collisionFree : Function.Injective py.sha256

end

variable {py : Python F K D}

theorem numberText_lawful (lawful : py.Lawful) : Json.NumberText py.numberText where
  injective m n h := by
    cases m with
    | int i =>
        cases n with
        | int j => rw [Json.intText_injective h]
        | float y => exact absurd h.symm (lawful.noInt y i)
    | float x =>
        cases n with
        | int j => exact absurd h (lawful.noInt x j)
        | float y => rw [lawful.floats h]
  undelimited n := by
    cases n with
    | int i => exact fun c mem => Json.not_delimits_of_mem_intText mem
    | float x => exact lawful.floatChars x
  begins n := by
    cases n with
    | int i =>
        obtain ⟨c, rest, shape⟩ := List.exists_cons_of_ne_nil (Json.intText_ne_nil i)
        refine ⟨c, rest, shape, Json.kindOf_of_mem_intText (i := i) ?_⟩
        rw [shape]
        exact List.mem_cons_self
    | float x => exact lawful.floatBegins x

/-! ## The encoding of a payload -/

/-- The value that is written. -/
def normal (py : Python F K D) (value : PyValue F K D) : Json (Number F) :=
  (canonicalJsonValue py value).sortKeys

def byText (py : Python F K D) (a b : Json (Number F)) : Prop :=
  a.write py.numberText ≤ b.write py.numberText

instance : DecidableRel (byText py) := fun a b =>
  inferInstanceAs (Decidable (a.write py.numberText ≤ b.write py.numberText))

def byKey (a b : String × Json (Number F)) : Prop := a.1 ≤ b.1

instance : DecidableRel (byKey (F := F)) := fun a b => inferInstanceAs (Decidable (a.1 ≤ b.1))

theorem canonicalDigest_eq (value : PyValue F K D) : canonicalDigest py value =
    if (normal py value).allNumbers py.finite then
      .ok (py.sha256 ((normal py value).write py.numberText))
    else .error (valueError "Out of range float values are not JSON compliant") := by
  rw [normal, Json.allNumbers_sortKeys]
  rfl

theorem normal_list (items : List (PyValue F K D)) :
    normal py (.list items) = .array (items.map (normal py)) := by
  rw [normal, canonicalJsonValue, Json.sortKeys, List.map_map]
  rfl

theorem normal_set (items : List (PyValue F K D)) : normal py (.set items) =
    .array ((items.map (normal py)).insertionSort (byText py)) := by
  have sorted := List.map_insertionSort (fun a b : Json (Number F) => py.dumps a ≤ py.dumps b)
    (byText py) Json.sortKeys (items.map (canonicalJsonValue py)) fun a _ b _ => Iff.rfl
  rw [normal, canonicalJsonValue, Json.sortKeys, sorted, List.map_map]
  rfl

theorem sortKeys_comprehension (items : List (String × Json (Number F))) :
    (Json.object (comprehension items)).sortKeys = .object
      ((comprehension (items.map fun e => (e.1, e.2.sortKeys))).insertionSort byKey) := by
  rw [Json.sortKeys, comprehension, comprehension, ← Dict.map_ofList]
  rfl

theorem normal_dict (items : List (PyKey K × PyValue F K D)) : normal py (.dict items) =
    .object ((comprehension (items.map fun e => (py.str e.1, normal py e.2))).insertionSort byKey) := by
  rw [normal, canonicalJsonValue, sortKeys_comprehension, List.map_map]
  rfl

theorem normal_model (fields : List (String × PyValue F K D)) : normal py (.model fields) =
    .object ((comprehension (fields.map fun e => (e.1, normal py e.2))).insertionSort byKey) := by
  rw [normal, canonicalJsonValue, sortKeys_comprehension, List.map_map]
  rfl

/-! ### Orders -/

theorem insertionSort_eq {α : Type} {r : α → α → Prop} [DecidableRel r] [Std.Total r] [IsTrans α r]
    {l l' : List α} (h : l.Perm l') (antisymm : ∀ a ∈ l, ∀ b ∈ l', r a b → r b a → a = b) :
    l.insertionSort r = l'.insertionSort r := by
  have perm := ((l.perm_insertionSort r).trans h).trans (l'.perm_insertionSort r).symm
  refine perm.eq_of_pairwise (fun a b mem mem' => ?_) (l.pairwise_insertionSort r)
    (l'.pairwise_insertionSort r)
  exact antisymm a ((List.mem_insertionSort r).mp mem) b ((List.mem_insertionSort r).mp mem')

instance : Std.Total (byText py) where
  total a b := le_total (a.write py.numberText) (b.write py.numberText)

instance : IsTrans _ (byText py) where
  trans _ _ _ := le_trans

instance : Std.Total (byKey (F := F)) where
  total a b := le_total a.1 b.1

instance : IsTrans _ (byKey (F := F)) where
  trans _ _ _ := le_trans

theorem comprehension_of_nodup {α : Type} {items : List (String × α)}
    (distinct : (items.map Prod.fst).Nodup) : comprehension items = items :=
  Dict.entries_ofList distinct

theorem sortByKey_eq {l l' : List (String × Json (Number F))} (h : l.Perm l')
    (distinct : (l.map Prod.fst).Nodup) : l.insertionSort byKey = l'.insertionSort byKey := by
  refine insertionSort_eq h fun a mem b mem' le ge => ?_
  exact List.inj_on_of_nodup_map distinct mem (h.mem_iff.mpr mem') (le_antisymm le ge)

section

variable (lawful : py.Lawful)

include lawful

theorem sortByText_eq {l l' : List (Json (Number F))} (h : l.Perm l') :
    l.insertionSort (byText py) = l'.insertionSort (byText py) := by
  refine insertionSort_eq h fun a _ b _ le ge => ?_
  exact Json.write_injective (numberText_lawful lawful) (le_antisymm le ge)

theorem Reorders.normal {v v' : PyValue F K D} (h : Reorders py v v') : normal py v = normal py v' := by
  induction h with
  | set perm => rw [normal_set, normal_set, sortByText_eq lawful (perm.map _)]
  | @dict items items' perm distinct =>
      have keys : ((items.map fun e => (py.str e.1, Submission.normal py e.2)).map Prod.fst).Nodup := by
        rw [List.map_map]
        exact distinct
      have entries := perm.map fun e => (py.str e.1, Submission.normal py e.2)
      rw [normal_dict, normal_dict, comprehension_of_nodup keys,
        comprehension_of_nodup ((entries.map Prod.fst).nodup_iff.mp keys), sortByKey_eq entries keys]
  | datetime same =>
      unfold Submission.normal canonicalJsonValue
      rw [same]
  | inEnum _ ih =>
      unfold Submission.normal at ih ⊢
      rw [canonicalJsonValue, canonicalJsonValue, ih]
  | inModel _ ih =>
      rw [normal_model, normal_model]
      simp only [List.map_append, List.map_cons, ih]
  | inDict _ ih =>
      rw [normal_dict, normal_dict]
      simp only [List.map_append, List.map_cons, ih]
  | inSet _ ih =>
      rw [normal_set, normal_set]
      simp only [List.map_append, List.map_cons, ih]
  | inList _ ih =>
      rw [normal_list, normal_list]
      simp only [List.map_append, List.map_cons, ih]

theorem Similar.normal {v v' : PyValue F K D} (h : Similar py v v') : normal py v = normal py v' := by
  induction h with
  | refl => rfl
  | tail _ step ih => rw [ih, step.normal lawful]

theorem Similar.digest {v v' : PyValue F K D} (h : Similar py v v') :
    canonicalDigest py v = canonicalDigest py v' := by
  rw [canonicalDigest_eq, canonicalDigest_eq, h.normal lawful]

theorem normal_of_digest {v v' : PyValue F K D} {d : Digest} (h : canonicalDigest py v = .ok d)
    (h' : canonicalDigest py v' = .ok d) : Submission.normal py v = Submission.normal py v' := by
  rw [canonicalDigest_eq] at h h'
  split_ifs at h h'
  have same := (Except.ok.inj h).trans (Except.ok.inj h').symm
  exact Json.write_injective (numberText_lawful lawful) (lawful.collisionFree same)

end

end Magellan.Submission
