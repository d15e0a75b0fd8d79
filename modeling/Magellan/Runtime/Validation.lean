import Magellan.Runtime.Manifest
import Magellan.Runtime.Discovery

/-!
# What validation raises

Its callers catch `CheckpointValidationError` only. A manifest can raise others, in discovery, when
it is read, and where one of its paths is looked up.
-/

namespace Magellan.CheckpointManager

open Checkpoint (Directory StoredFile CheckpointSummary CheckpointManifest ManifestItem DigestCache)
open Dendro (DendroCheckpointDiscoverySpec Patterns Selection)
open PyJson (get get?)

variable {Content : Type} {p : Patterns} {r : Encoding Content} {tooLong : String → Bool}
  {root : String} {tree : Tree Content} {cache : DigestCache String} {item : PyJson}
  {manifest : ManifestPath} {now : Int}

/-! ## One entry -/

/-- The entry names a file of the directory with its size. -/
structure Locates (r : Encoding Content) (tree : Tree Content) (item : PyJson)
    (entries : List (String × PyJson)) (text : String) (file : StoredFile Content) : Prop where
  object : item = .object entries
  path : (get entries "path").string? = some text
  safe : SafePath text
  found : tree.find text = some file
  size : (get entries "size_bytes").int? = some (r.size file.content : Int)

/-- The file is there, and it has the listed size and digest. -/
def Truthful (r : Encoding Content) (tree : Tree Content) (item : PyJson) : Prop :=
  ∃ entries text file, Locates r tree item entries text file ∧
    (get entries "sha256" = .null ∨ r.str (get entries "sha256") = r.sha256 file.content)

/-- The entry names a missing file, with a name that is too long to ask for. -/
def Overlong (tooLong : String → Bool) (tree : Tree Content) (item : PyJson) : Prop :=
  ∃ entries text, item = .object entries ∧ (get entries "path").string? = some text ∧
    SafePath text ∧ tree.find text = none ∧ tooLong text = true

/-- The cache has the verdict on a digest that the file no longer has. -/
def Stale (r : Encoding Content) (tree : Tree Content) (cache : DigestCache String) (item : PyJson) :
    Prop :=
  ∃ entries text file, Locates r tree item entries text file ∧ get entries "sha256" ≠ .null ∧
    cache (cacheKey r text file (get entries "sha256")) = some true ∧
      r.str (get entries "sha256") ≠ r.sha256 file.content

def IsValidationError {α : Type} (result : Except Raised α) : Prop :=
  ∃ message, result = .error (.checkpointValidationError message)

/-- What becomes of an entry: it is refused, it cannot be looked up, or it is accepted. -/
inductive ItemOutcome (r : Encoding Content) (tooLong : String → Bool) (tree : Tree Content)
    (cache : DigestCache String) (item : PyJson) (result : Except Raised Unit × DigestCache String) :
    Prop
  | refused (error : IsValidationError result.1) (fine : ¬ Overlong tooLong tree item)
  | failed (cls message : String) (error : result.1 = .error (.other cls message))
      (overlong : Overlong tooLong tree item)
  | unlisted (entries : List (String × PyJson)) (text : String) (file : StoredFile Content)
      (located : Locates r tree item entries text file) (none_ : get entries "sha256" = .null)
      (ok : result = (.ok (), cache))
  | verified (entries : List (String × PyJson)) (text : String) (file : StoredFile Content)
      (located : Locates r tree item entries text file) (some_ : get entries "sha256" ≠ .null)
      (agrees : verdict r cache text file (get entries "sha256") = true)
      (ok : result = (.ok (), Function.update cache
        (cacheKey r text file (get entries "sha256")) (some true)))

theorem validateDigest_outcome (cache : DigestCache String) (root text : String)
    (file : StoredFile Content) (expected : PyJson) :
    (expected = .null ∧ validateDigest r root cache text file expected = (.ok (), cache)) ∨
      (expected ≠ .null ∧ verdict r cache text file expected = true ∧
        validateDigest r root cache text file expected =
          (.ok (), Function.update cache (cacheKey r text file expected) (some true))) ∨
      IsValidationError (validateDigest r root cache text file expected).1 := by
  have compared : ∀ {j : PyJson}, j ≠ .null → validateDigest r root cache text file j =
      (if verdict r cache text file j then .ok ()
        else .error (invalid s!"Checkpoint digest mismatch for {root}/{text}"),
        Function.update cache (cacheKey r text file j) (some (verdict r cache text file j))) := by
    intro j other
    cases j <;> first | rfl | exact absurd rfl other
  by_cases none_ : expected = .null
  · subst none_
    exact .inl ⟨rfl, rfl⟩
  · rw [compared none_]
    cases agrees : verdict r cache text file expected with
    | true => exact .inr (.inl ⟨none_, rfl, rfl⟩)
    | false => exact .inr (.inr ⟨_, rfl⟩)

theorem validateItem_outcome (item : PyJson) :
    ItemOutcome r tooLong tree cache item (validateItem r tooLong root tree cache item) := by
  have no_object : (∀ entries, item ≠ .object entries) → ¬ Overlong tooLong tree item := by
    rintro other ⟨entries, -, same, -⟩
    exact other entries same
  cases item with
  | object entries =>
      cases path : (get entries "path").string? with
      | none =>
          simp only [validateItem, path]
          refine .refused ⟨_, rfl⟩ ?_
          rintro ⟨_, text, same, named, -⟩
          cases same
          rw [path] at named
          cases named
      | some text =>
          have names : ∀ {entries' text'}, Json.object entries = .object entries' →
              (get entries' "path").string? = some text' → text' = text := by
            rintro entries' text' same named
            cases same
            rw [path] at named
            exact (Option.some.inj named).symm
          simp only [validateItem, path]
          by_cases safe : SafePath text
          swap
          · rw [if_pos safe]
            refine .refused ⟨_, rfl⟩ ?_
            rintro ⟨_, _, same, named, safe', -⟩
            rw [names same named] at safe'
            exact safe safe'
          · rw [if_neg (not_not.mpr safe)]
            cases found : tree.find text with
            | none =>
                simp only [Tree.isFile, found]
                split_ifs with long
                · exact .failed _ _ rfl ⟨entries, text, rfl, path, safe, found, long⟩
                · refine .refused ⟨_, rfl⟩ ?_
                  rintro ⟨_, _, same, named, -, -, long'⟩
                  rw [names same named] at long'
                  exact long long'
            | some file =>
                have here : ¬ Overlong tooLong tree (.object entries) := by
                  rintro ⟨_, _, same, named, -, missing, -⟩
                  rw [names same named, found] at missing
                  cases missing
                simp only [Tree.isFile, found]
                split_ifs with size
                · exact .refused ⟨_, rfl⟩ here
                · have located : Locates r tree (.object entries) entries text file :=
                    ⟨rfl, path, safe, found, not_not.mp size⟩
                  rcases validateDigest_outcome cache root text file (get entries "sha256") with
                    ⟨none_, result⟩ | ⟨some_, agrees, result⟩ | refused
                  · exact .unlisted entries text file located none_ result
                  · exact .verified entries text file located some_ agrees result
                  · exact .refused refused here
  | _ => exact .refused ⟨_, rfl⟩ (no_object (by simp))

theorem Locates.not_overlong {entries : List (String × PyJson)} {text : String}
    {file : StoredFile Content} (located : Locates r tree item entries text file) :
    ¬ Overlong tooLong tree item := by
  rintro ⟨entries', text', same, named, -, missing, -⟩
  rw [located.object] at same
  cases same
  rw [located.path] at named
  cases named
  rw [located.found] at missing
  cases missing

theorem validateItem_expected (r : Encoding Content) (tooLong : String → Bool) (root : String)
    (tree : Tree Content) (cache : DigestCache String) (item : PyJson) :
    (Overlong tooLong tree item ∧
      ∃ cls message, (validateItem r tooLong root tree cache item).1 = .error (.other cls message)) ∨
    (¬ Overlong tooLong tree item ∧ ((validateItem r tooLong root tree cache item).1 = .ok () ∨
      IsValidationError (validateItem r tooLong root tree cache item).1)) := by
  have outcome : ItemOutcome r tooLong tree cache item
      (validateItem r tooLong root tree cache item) := validateItem_outcome item
  cases outcome with
  | refused error fine => exact .inr ⟨fine, .inr error⟩
  | failed cls message error overlong => exact .inl ⟨overlong, cls, message, error⟩
  | unlisted entries text file located _ ok => exact .inr ⟨located.not_overlong, .inl (by rw [ok])⟩
  | verified entries text file located _ _ ok =>
      exact .inr ⟨located.not_overlong, .inl (by rw [ok])⟩

/-! ## All entries -/

/-- Validation comes to the entry when those before it have passed. -/
def ComesTo (r : Encoding Content) (tooLong : String → Bool) (root : String) (tree : Tree Content)
    (items : List PyJson) (cache : DigestCache String) (item : PyJson) : Prop :=
  ∃ before after, items = before ++ item :: after ∧
    (validateItems r tooLong root tree before cache).1 = .ok ()

theorem comesTo_cons {items : List PyJson} {item' : PyJson} :
    ComesTo r tooLong root tree (item :: items) cache item' ↔
      item' = item ∨ ((validateItem r tooLong root tree cache item).1 = .ok () ∧
        ComesTo r tooLong root tree items (validateItem r tooLong root tree cache item).2 item') := by
  constructor
  · rintro ⟨before, after, split, passed⟩
    cases before with
    | nil =>
        cases split
        exact .inl rfl
    | cons first before =>
        cases split
        rw [validateItems] at passed
        split at passed
        · cases passed
        · rename_i cache' result
          rw [result]
          exact .inr ⟨rfl, before, after, rfl, passed⟩
  · rintro (rfl | ⟨ok, before, after, rfl, passed⟩)
    · exact ⟨[], items, rfl, rfl⟩
    · refine ⟨item :: before, after, rfl, ?_⟩
      rw [validateItems]
      split
      · rename_i e cache' result
        rw [result] at ok
        cases ok
      · rename_i cache' result
        rw [result] at passed
        exact passed

/-- Every exception but the expected one comes from the look-up of a path. -/
theorem validateItems_expected_iff (r : Encoding Content) (tooLong : String → Bool)
    (root : String) (tree : Tree Content) (items : List PyJson) (cache : DigestCache String) :
    ((validateItems r tooLong root tree items cache).1 = .ok () ∨
      IsValidationError (validateItems r tooLong root tree items cache).1) ↔
    ∀ item, ComesTo r tooLong root tree items cache item → ¬ Overlong tooLong tree item := by
  induction items generalizing cache with
  | nil =>
      refine iff_of_true (.inl rfl) ?_
      rintro item ⟨before, after, split, -⟩
      cases before <;> cases split
  | cons item items ih =>
      simp only [comesTo_cons, forall_eq_or_imp]
      rw [validateItems]
      cases result : validateItem r tooLong root tree cache item with
      | mk outcome cache' =>
        have expected := validateItem_expected r tooLong root tree cache item
        rw [result] at expected
        rcases expected with ⟨overlong, cls, message, rfl⟩ | ⟨fine, rfl | ⟨message, rfl⟩⟩
        · refine iff_of_false ?_ fun h => h.1 overlong
          rintro (ok | ⟨_, error⟩)
          · cases ok
          · cases error
        · simpa [fine] using ih cache'
        · refine iff_of_true (.inr ⟨message, rfl⟩) ⟨fine, ?_⟩
          rintro item' ⟨ok, -⟩
          cases ok

/-- The verdicts in `after` on files of the directory are those of `cache` or right. -/
def Extends (r : Encoding Content) (tree : Tree Content) (cache after : DigestCache String) : Prop :=
  ∀ text file expected, tree.find text = some file →
    after (cacheKey r text file expected) = some true →
      cache (cacheKey r text file expected) = some true ∨ r.str expected = r.sha256 file.content

theorem verdict_right {text : String} {file : StoredFile Content} {expected : PyJson}
    (agrees : verdict r cache text file expected = true) :
    cache (cacheKey r text file expected) = some true ∨ r.str expected = r.sha256 file.content := by
  unfold verdict at agrees
  cases known : cache (cacheKey r text file expected) with
  | none =>
      rw [known] at agrees
      have same : expected.string? = some (r.sha256 file.content) := of_decide_eq_true agrees
      cases expected <;> cases same
      exact .inr (r.str_string _)
  | some answer =>
      rw [known] at agrees
      cases agrees
      exact .inl rfl

theorem Extends.update {after : DigestCache String} (ext : Extends r tree cache after)
    {text : String} {file : StoredFile Content} {expected : PyJson}
    (found : tree.find text = some file) (agrees : verdict r after text file expected = true) :
    Extends r tree cache (Function.update after (cacheKey r text file expected) (some true)) := by
  intro text' file' expected' found' noted
  by_cases key : cacheKey r text' file' expected' = cacheKey r text file expected
  · have path : resolve text' = resolve text := congrArg Prod.fst key
    have same : file' = file := by
      unfold Tree.find at found found'
      rw [path, found] at found'
      exact (Option.some.inj found').symm
    have digest : r.str expected' = r.str expected := congrArg (·.2.2.2) key
    rw [key, digest, same]
    rcases verdict_right agrees with old | right
    · rcases ext text file expected found old with old | right
      · exact .inl old
      · exact .inr right
    · exact .inr right
  · rw [Function.update_of_ne key] at noted
    exact ext text' file' expected' found' noted

/-- Entries that pass are true, but for those whose digest the cache vouches for in vain. -/
theorem validateItems_passed {items : List PyJson} {after : DigestCache String}
    (ext : Extends r tree cache after)
    (passed : (validateItems r tooLong root tree items after).1 = .ok ()) :
    ∀ item ∈ items, Truthful r tree item ∨ Stale r tree cache item := by
  induction items generalizing after with
  | nil => simp
  | cons item items ih =>
      rw [validateItems] at passed
      cases result : validateItem r tooLong root tree after item with
      | mk outcome after' =>
        have expected : ItemOutcome r tooLong tree after item
            (validateItem r tooLong root tree after item) := validateItem_outcome item
        rw [result] at passed expected
        cases expected with
        | refused error _ =>
            obtain ⟨message, rfl⟩ := error
            cases passed
        | failed cls message error _ =>
            cases error
            cases passed
        | unlisted entries text file located none_ ok =>
            cases ok
            exact List.forall_mem_cons.mpr
              ⟨.inl ⟨entries, text, file, located, .inl none_⟩, ih ext passed⟩
        | verified entries text file located some_ agrees ok =>
            cases ok
            refine List.forall_mem_cons.mpr ⟨?_, ih (ext.update located.found agrees) passed⟩
            by_cases right : r.str (get entries "sha256") = r.sha256 file.content
            · exact .inl ⟨entries, text, file, located, .inr right⟩
            · have old : after (cacheKey r text file (get entries "sha256")) = some true :=
                (verdict_right agrees).resolve_right right
              exact .inr ⟨entries, text, file, located, some_,
                (ext text file _ located.found old).resolve_right right, right⟩

theorem Stale.not_truthful (stale : Stale r tree cache item) : ¬ Truthful r tree item := by
  rintro ⟨entries, text, file, located, right⟩
  obtain ⟨entries', text', file', located', some_, -, wrong⟩ := stale
  have same := located.object.symm.trans located'.object
  cases same
  have text_ := located.path.symm.trans located'.path
  cases text_
  have file_ := located.found.symm.trans located'.found
  cases file_
  exact right.elim some_ wrong

theorem validateItems_truthful_iff {items : List PyJson}
    (passed : (validateItems r tooLong root tree items cache).1 = .ok ()) :
    (∀ item ∈ items, Truthful r tree item) ↔ ∀ item ∈ items, ¬ Stale r tree cache item := by
  have each := validateItems_passed (fun _ _ _ _ old => .inl old) passed
  exact forall₂_congr fun item mem =>
    ⟨fun true_ stale => stale.not_truthful true_, fun fresh => (each item mem).resolve_right fresh⟩

/-! ## The manifest -/

/-- The entries of the manifest in place, where it is an object. -/
def Lists (r : Encoding Content) (manifest : ManifestPath) (tree : Tree Content)
    (entries : List (String × PyJson)) : Prop :=
  ∃ file, tree.files.get? manifest.text = some file ∧ r.loads file.content = .ok (.object entries)

/-- `validate` returned a summary whose files are as they are listed, or it raised the expected
exception. -/
def Handled (r : Encoding Content) (manifest : ManifestPath) (tree : Tree Content)
    (result : Except Raised CheckpointSummary) : Prop :=
  (∃ summary, result = .ok summary ∧ ∀ entries, Lists r manifest tree entries →
    ∀ item ∈ listedFiles (get entries "files"), Truthful r tree item) ∨ IsValidationError result

/-- A text that is no JSON at all, or an object. -/
def Readable : Except LoadError PyJson → Prop
  | .error (.jsonDecodeError _) | .ok (.object _) => True
  | _ => False

/-- No path is come to that cannot be looked up. -/
def Walkable (r : Encoding Content) (tooLong : String → Bool) (root : String)
    (manifest : ManifestPath) (tree : Tree Content) (cache : DigestCache String) : Prop :=
  ∀ entries, Lists r manifest tree entries → ∀ item,
    ComesTo r tooLong root tree (listedFiles (get entries "files")) cache item →
      ¬ Overlong tooLong tree item

/-- No verdict of the cache on which a manifest passes is out of date. -/
def Fresh (r : Encoding Content) (tooLong : String → Bool) (root : String)
    (manifest : ManifestPath) (tree : Tree Content) (cache : DigestCache String) : Prop :=
  ∀ entries, Lists r manifest tree entries → stepFits entries = true →
    (validateItems r tooLong root tree (listedFiles (get entries "files")) cache).1 = .ok () →
      ∀ item ∈ listedFiles (get entries "files"), ¬ Stale r tree cache item

/-- What becomes of a manifest that is an object with these items. -/
inductive ManifestOutcome (fits : Bool) (items : List PyJson) (passed : Except Raised Unit)
    (result : Except Raised CheckpointSummary) : Prop
  | refused (error : IsValidationError result) (expected : passed = .ok () ∨ IsValidationError passed)
      (reason : items = [] ∨ fits = false ∨ IsValidationError passed)
  | accepted (summary : CheckpointSummary) (ok : result = .ok summary) (passed : passed = .ok ())
      (fits : fits = true)
  | failed (cls message : String) (items : passed = .error (.other cls message))
      (error : result = .error (.other cls message))

theorem validateManifest_object (r : Encoding Content) (tooLong : String → Bool) (root : String)
    (manifest : ManifestPath) (tree : Tree Content) (cache : DigestCache String)
    (entries : List (String × PyJson)) :
    ManifestOutcome (stepFits entries) (listedFiles (get entries "files"))
      (validateItems r tooLong root tree (listedFiles (get entries "files")) cache).1
      (validateManifest r tooLong root manifest tree cache (.object entries)).1 := by
  unfold validateManifest
  dsimp only
  by_cases empty : listedFiles (get entries "files") = []
  · rw [if_pos empty, empty]
    exact .refused ⟨_, rfl⟩ (.inl rfl) (.inl rfl)
  rw [if_neg empty]
  cases validateItems r tooLong root tree (listedFiles (get entries "files")) cache with
  | mk outcome cache' =>
    cases outcome with
    | error e =>
        cases e with
        | checkpointValidationError message =>
            exact .refused ⟨message, rfl⟩ (.inr ⟨message, rfl⟩) (.inr (.inr ⟨message, rfl⟩))
        | other cls message => exact .failed cls message rfl rfl
    | ok _ =>
        cases fits : stepFits entries with
        | true => exact .accepted _ rfl rfl rfl
        | false => exact .refused ⟨_, rfl⟩ (.inl rfl) (.inr (.inl rfl))

/-- The reading of the manifest in place. -/
theorem readManifest_handled_iff :
    Handled r manifest tree (readManifest r tooLong root manifest tree cache).1 ↔
      (∀ file, tree.files.get? manifest.text = some file → Readable (r.loads file.content)) ∧
        Walkable r tooLong root manifest tree cache ∧ Fresh r tooLong root manifest tree cache := by
  unfold readManifest
  cases found : tree.files.get? manifest.text with
  | none =>
      refine iff_of_true (.inr ⟨_, rfl⟩) ⟨?_, ?_, ?_⟩
      · rintro file impossible
        cases impossible
      · rintro entries ⟨file, found', -⟩
        rw [found] at found'
        cases found'
      · rintro entries ⟨file, found', -⟩
        rw [found] at found'
        cases found'
  | some file =>
      have lists : ∀ {entries}, Lists r manifest tree entries ↔ r.loads file.content = .ok (.object entries) :=
        fun {entries} => ⟨fun ⟨file', found', loaded⟩ => by
          rw [found] at found'
          cases found'
          exact loaded, fun loaded => ⟨file, found, loaded⟩⟩
      simp only [Option.some.injEq, forall_eq', Walkable, Fresh, Handled, lists]
      cases loaded : r.loads file.content with
      | error e =>
          cases e with
          | jsonDecodeError message =>
              refine iff_of_true (.inr ⟨_, rfl⟩) ⟨trivial, ?_, ?_⟩
              · rintro entries impossible
                cases impossible
              · rintro entries impossible
                cases impossible
          | other cls message =>
              refine iff_of_false ?_ fun h => h.1
              rintro (⟨summary, impossible, -⟩ | ⟨_, impossible⟩) <;> cases impossible
      | ok j =>
          cases j with
          | object entries =>
              have walks := validateItems_expected_iff r tooLong root tree
                (listedFiles (get entries "files")) cache
              simp only [Except.ok.injEq, Json.object.injEq, forall_eq', ← walks, Readable, true_and]
              cases validateManifest_object r tooLong root manifest tree cache entries with
              | refused error expected reason =>
                  refine iff_of_true (.inr error) ⟨expected, fun fits passed => ?_⟩
                  rcases reason with empty | unfit | ⟨message, refused⟩
                  · rw [empty]
                    simp
                  · rw [unfit] at fits
                    cases fits
                  · rw [refused] at passed
                    cases passed
              | accepted summary ok passed fits =>
                  rw [ok]
                  have truthful := validateItems_truthful_iff passed
                  constructor
                  · rintro (⟨_, -, each⟩ | ⟨_, impossible⟩)
                    · exact ⟨.inl passed, fun _ _ => truthful.mp each⟩
                    · cases impossible
                  · exact fun h => .inl ⟨summary, rfl, truthful.mpr (h.2 fits passed)⟩
              | failed cls message items error =>
                  rw [items, error]
                  refine iff_of_false ?_ ?_
                  · rintro (⟨_, impossible, -⟩ | ⟨_, impossible⟩) <;> cases impossible
                  · rintro ⟨impossible | ⟨_, impossible⟩, -⟩ <;> cases impossible
          | _ =>
              refine iff_of_false ?_ fun h => h.1
              rintro (⟨summary, impossible, -⟩ | ⟨_, impossible⟩) <;> cases impossible

/-! ## Discovery -/

theorem resolve_plain {path : String} (plain : Plain path) : resolve path = path := by
  have whole : (pathParts path).filter (fun part => part ≠ [] ∧ part ≠ ['.']) = pathParts path := by
    rw [List.filter_eq_self]
    intro part mem
    obtain ⟨some_, other, -⟩ := plain part mem
    simp [some_, other]
  rw [resolve, whole, pathParts, List.intercalate_splitOn, String.ofList_toList]

theorem Tree.find_listed {path : String} {file : StoredFile Content}
    (found : tree.files.get? path = some file) : tree.find path = some file := by
  have listed : path ∈ tree.files.keys :=
    List.mem_map_of_mem (Dict.mem_entries_iff.mpr found)
  rw [Tree.find, resolve_plain (tree.plain path listed)]
  exact found

/-- An entry whose path is the name of a file can be looked up. -/
theorem not_overlong_of_listed {entries : List (String × PyJson)} {path : String}
    (named : (get entries "path").string? = some path) (listed : (tree.files.get? path).isSome) :
    ¬ Overlong tooLong tree (.object entries) := by
  rintro ⟨_, text, same, named', -, missing, -⟩
  cases same
  rw [named] at named'
  cases named'
  obtain ⟨file, found⟩ := Option.isSome_iff_exists.mp listed
  rw [Tree.find_listed found] at missing
  cases missing

/-- What discovery can compare with a selection: a text that is no JSON at all, or an object whose
`files` can be gone through and whose entries have no list or object for a path. -/
def Comparable : Except LoadError PyJson → Prop
  | .error (.jsonDecodeError _) => True
  | .ok (.object existing) => ∃ items,
      ((get? existing "files").getD (.array [])).iterate = some items ∧
        ∀ entries ∈ PyJson.objects items, (get entries "path").hashable = true
  | _ => False

theorem keeps_fails_iff (r : Encoding Content) (spec : DendroCheckpointDiscoverySpec)
    (files : Directory Content) (selected : Selection) (j : PyJson) :
    (∃ cls message, keeps r spec files selected j = .error (.other cls message)) ∧ ¬ Comparable (.ok j) ∨
      (∃ b, keeps r spec files selected j = .ok b) ∧ Comparable (.ok j) := by
  cases j with
  | object existing =>
      simp only [keeps, Comparable]
      cases listed : ((get? existing "files").getD (.array [])).iterate with
      | none => exact .inl ⟨⟨_, _, rfl⟩, by simp⟩
      | some items =>
          simp only [Option.some.injEq, exists_eq_left']
          cases unhashable : (PyJson.objects items).find? fun entries =>
              !(get entries "path").hashable with
          | none =>
              refine .inr ⟨⟨_, rfl⟩, fun entries mem => ?_⟩
              simpa using List.find?_eq_none.mp unhashable entries mem
          | some entries =>
              refine .inl ⟨⟨_, _, rfl⟩, fun all => ?_⟩
              have bad := List.find?_some unhashable
              rw [all entries (List.mem_of_find?_eq_some unhashable)] at bad
              cases bad
  | _ => exact .inl ⟨⟨_, _, rfl⟩, id⟩

/-- How discovery goes on from a selection. -/
inductive Discovered (r : Encoding Content) (spec : DendroCheckpointDiscoverySpec)
    (manifest : ManifestPath) (now : Int) (tree : Tree Content) (selected : Selection)
    (result : Except Raised (Option ManifestPath) × Tree Content) : Prop
  | failed (cls message : String) (file : StoredFile Content)
      (found : tree.files.get? manifest.text = some file) (bad : ¬ Comparable (r.loads file.content))
      (error : result = (.error (.other cls message), tree))
  | kept (file : StoredFile Content) (existing : List (String × PyJson))
      (found : tree.files.get? manifest.text = some file)
      (loaded : r.loads file.content = .ok (.object existing))
      (good : Comparable (r.loads file.content))
      (same : keeps r spec tree.files selected (.object existing) = .ok true)
      (ok : result = (.ok (some manifest), tree))
  | written (good : ∀ file, tree.files.get? manifest.text = some file →
        Comparable (r.loads file.content))
      (ok : result = (.ok (some manifest),
        writeManifest r manifest now tree (newManifest r spec tree.files selected)))

theorem discover_selected {spec : DendroCheckpointDiscoverySpec} {selected : Selection}
    (chosen : Dendro.select p r.toReading spec manifest.text now tree.files = .ok (some selected)) :
    Discovered r spec manifest now tree selected (discover p r spec manifest now tree) := by
  unfold discover findManifest
  rw [chosen]
  dsimp only
  cases found : tree.files.get? manifest.text with
  | none => exact .written (by rw [found]; simp) rfl
  | some file =>
      have only : Comparable (r.loads file.content) → ∀ file', tree.files.get? manifest.text = some file' →
          Comparable (r.loads file'.content) := by
        intro good file' found'
        rw [found] at found'
        cases found'
        exact good
      dsimp only
      cases loaded : r.loads file.content with
      | error e =>
          cases e with
          | jsonDecodeError message => exact .written (only (by rw [loaded]; trivial)) rfl
          | other cls message => exact .failed cls message file found (by rw [loaded]; exact id) rfl
      | ok j =>
          dsimp only
          rcases keeps_fails_iff r spec tree.files selected j with ⟨⟨cls, message, fails⟩, bad⟩ | ⟨⟨b, answers⟩, good⟩
          · rw [fails]
            exact .failed cls message file found (by rw [loaded]; exact bad) rfl
          · rw [answers]
            have good' : Comparable (r.loads file.content) := by rw [loaded]; exact good
            cases b with
            | false => exact .written (only good') rfl
            | true =>
                cases j with
                | object existing => exact .kept file existing found loaded good' answers rfl
                | _ => exact good.elim

theorem comesTo_mem {items : List PyJson} (comes : ComesTo r tooLong root tree items cache item) :
    item ∈ items := by
  obtain ⟨before, after, rfl, -⟩ := comes
  exact List.mem_append_right _ (List.mem_cons_self ..)

theorem selectedSizes_keys {files : Directory Content} {selected : Selection} {path : String}
    (mem : path ∈ (selectedSizes r files selected).keys) : ∃ item ∈ selected.files, item.1 = path := by
  obtain ⟨⟨_, size⟩, entry, rfl⟩ := List.mem_map.mp mem
  obtain ⟨item, listed, same⟩ := List.mem_map.mp (Dict.mem_of_get?_ofList (Dict.mem_entries_iff.mp entry))
  exact ⟨item, listed, congrArg Prod.fst same⟩

/-- A manifest that is kept names files that are there. -/
theorem kept_walkable {spec : DendroCheckpointDiscoverySpec} {selected : Selection}
    {file : StoredFile Content} {existing : List (String × PyJson)}
    (selectable : Dendro.Selectable tree.files selected)
    (found : tree.files.get? manifest.text = some file)
    (loaded : r.loads file.content = .ok (.object existing))
    (same : keeps r spec tree.files selected (.object existing) = .ok true) :
    Walkable r tooLong root manifest tree cache := by
  rintro entries ⟨file', found', loaded'⟩ item comes
  rw [found] at found'
  cases found'
  rw [loaded] at loaded'
  cases loaded'
  have mem := comesTo_mem comes
  cases listed : get? existing "files" with
  | none =>
      rw [PyJson.get, listed] at mem
      cases mem
  | some j =>
      cases j with
      | array items =>
          rw [PyJson.get, listed] at mem
          simp only [keeps, listed, Option.getD_some, PyJson.iterate] at same
          split at same
          · cases same
          · have sizes : sameSizes items (selectedSizes r tree.files selected) = true := by
              simp only [Except.ok.injEq, Bool.and_eq_true] at same
              exact same.1.2
            cases item with
            | object fields =>
                have each := (Bool.and_eq_true _ _ ▸ sizes).1
                have named := List.all_eq_true.mp each fields (PyJson.mem_objects.mpr mem)
                obtain ⟨path, here, listed'⟩ := Option.any_eq_true _ _ |>.mp named
                obtain ⟨chosen, mem', rfl⟩ := selectedSizes_keys (of_decide_eq_true listed')
                obtain ⟨stored, present⟩ := selectable.present chosen mem'
                exact not_overlong_of_listed here (by rw [present]; rfl)
            | _ =>
                rintro ⟨_, _, impossible, -⟩
                cases impossible
      | _ =>
          rw [PyJson.get, listed] at mem
          cases mem

theorem lists_writeManifest {m : CheckpointManifest String} {entries : List (String × PyJson)} :
    Lists r manifest (writeManifest r manifest now tree m) entries ↔
      manifestJson (r.isoformat now) m = .object entries := by
  have found : (writeManifest r manifest now tree m).files.get? manifest.text =
      some ⟨r.dumps (manifestJson (r.isoformat now) m), now⟩ := by
    rw [writeManifest, Tree.set, Dict.get?_set, if_pos rfl]
  constructor
  · rintro ⟨file, found', loaded⟩
    rw [found] at found'
    cases found'
    rw [r.loads_manifest] at loaded
    exact Except.ok.inj loaded
  · intro same
    exact ⟨_, found, by rw [r.loads_manifest, same]⟩

theorem files_manifestJson {createdAt : String} {m : CheckpointManifest String}
    {entries : List (String × PyJson)} (same : manifestJson createdAt m = .object entries) :
    get entries "files" = .array (m.files.map entryJson) := by
  obtain ⟨step, generation, count, files⟩ := m
  cases same
  cases generation <;> rfl

theorem path_entryJson (item : ManifestItem String) : ∃ fields, entryJson item = .object fields ∧
    (get fields "path").string? = some item.path := by
  obtain ⟨path, size, rank, digest⟩ := item
  cases rank <;> cases digest <;> exact ⟨_, rfl, rfl⟩

/-- A manifest that is written names files that are there. -/
theorem written_walkable {spec : DendroCheckpointDiscoverySpec} {selected : Selection}
    (selectable : Dendro.Selectable tree.files selected) :
    Walkable r tooLong root manifest
      (writeManifest r manifest now tree (newManifest r spec tree.files selected)) cache := by
  intro entries lists item comes
  have mem := comesTo_mem comes
  rw [files_manifestJson (lists_writeManifest.mp lists)] at mem
  obtain ⟨listed, mem', rfl⟩ := List.mem_map.mp mem
  obtain ⟨chosen, mem'', same⟩ := List.mem_map.mp mem'
  obtain ⟨stored, present⟩ := selectable.present chosen mem''
  obtain ⟨fields, object, named⟩ := path_entryJson listed
  have path : listed.path = chosen.1 := by rw [← same]
  rw [path] at named
  rw [object]
  refine not_overlong_of_listed named ?_
  rw [writeManifest, Tree.set, Dict.get?_set]
  split
  · rfl
  · rw [present]
    rfl

/-! ## Validation -/

/-- The manifest in place causes nothing but the expected exception. -/
def InPlace (r : Encoding Content) (tooLong : String → Bool) (root : String)
    (manifest : ManifestPath) (tree : Tree Content) (cache : DigestCache String) : Prop :=
  (∀ file, tree.files.get? manifest.text = some file → Readable (r.loads file.content)) ∧
    Walkable r tooLong root manifest tree cache ∧ Fresh r tooLong root manifest tree cache

/-- What has to hold of a directory for its validation to be total. -/
def Sound (p : Patterns) (r : Encoding Content) (tooLong : String → Bool) (root : String)
    (settings : CheckpointSettings) (now : Int) (tree : Tree Content) (cache : DigestCache String) :
    Prop :=
  ∀ manifest, settings.manifest = some manifest →
    match settings.discovery with
    | none => InPlace r tooLong root manifest tree cache
    | some spec => ∃ chosen,
        Dendro.select p r.toReading spec manifest.text now tree.files = .ok chosen ∧
          match chosen with
          | none => InPlace r tooLong root manifest tree cache
          | some _ =>
              (∀ file, tree.files.get? manifest.text = some file → Comparable (r.loads file.content)) ∧
                Fresh r tooLong root manifest (discover p r spec manifest now tree).2 cache

/-- `validate` returned a summary whose listed files are there with their sizes and digests, or it
raised `CheckpointValidationError`. -/
def Total (r : Encoding Content) (settings : CheckpointSettings)
    (outcome : Except Raised CheckpointSummary × Option (Tree Content) × DigestCache String) : Prop :=
  (∃ summary, outcome.1 = .ok summary ∧ ∀ manifest, settings.manifest = some manifest →
    ∀ tree, outcome.2.1 = some tree → ∀ entries, Lists r manifest tree entries →
      ∀ item ∈ listedFiles (get entries "files"), Truthful r tree item) ∨
    IsValidationError outcome.1

theorem total_iff_handled {settings : CheckpointSettings} (configured : settings.manifest = some manifest)
    (result : Except Raised CheckpointSummary) (cache' : DigestCache String) :
    Total r settings (result, some tree, cache') ↔ Handled r manifest tree result := by
  simp only [Total, Handled, configured, Option.some.injEq, forall_eq']

theorem not_total_other {settings : CheckpointSettings} {cls message : String}
    {place : Option (Tree Content)} {cache' : DigestCache String} :
    ¬ Total r settings (.error (.other cls message), place, cache') := by
  rintro (⟨_, impossible, -⟩ | ⟨_, impossible⟩) <;> cases impossible

/-- Bytes that are a JSON text, no text at all, or none. -/
inductive SampleBytes where
  | json (j : PyJson)
  | binary
  | empty

def sampleEncoding : Encoding SampleBytes where
  size
    | .empty => 0
    | _ => 10
  sha256 _ := "digest"
  loads
    | .json j => .ok j
    | .empty => .error (.jsonDecodeError "Expecting value")
    | .binary => .error (.other "UnicodeDecodeError" "invalid start byte")
  dumps := .json
  loads_manifest _ _ := rfl
  str
    | .string s => s
    | _ => "value"
  str_string _ := rfl
  isoformat _ := "2026-01-01T00:00:00+00:00"

def sampleManifest : ManifestPath := ⟨"manifest.json", by decide⟩

def sampleSettings : CheckpointSettings where
  checkpointFile := "state.json"
  manifest := some sampleManifest

/-- A directory with nothing but this file. -/
def sampleTree (path : ManifestPath) (content : SampleBytes) : Tree SampleBytes :=
  Tree.set ⟨.empty, by simp [Dict.keys, Dict.empty]⟩ path.text path.plain ⟨content, 0⟩

def samplePatterns : Patterns where
  glob _ _ := true
  search _ _ _ := .ok none

end Magellan.CheckpointManager
