import Mathlib.Data.List.Lex
import Mathlib.Data.List.Sort
import Magellan.Data.Dict
import Magellan.Data.Text

/-!
# Checksums of experiment bundles

The checksum file lists the digest and the path of every other file of a bundle, one file a line. The
paths are written as they are and read back from stripped lines.
-/

namespace Magellan.ExperimentBundle

/-- A character of a path; a byte that does not decode is a lone surrogate. -/
inductive Symbol where
  | char (c : Char)
  | surrogate (byte : Fin 128)
  deriving DecidableEq

namespace Symbol

def codePoint : Symbol → Nat
  | char c => c.toNat
  | surrogate byte => 0xDC80 + byte

def char? : Symbol → Option Char
  | char c => some c
  | surrogate _ => none

end Symbol

/-- A relative path in its posix form. -/
abbrev PathText := List Symbol

def ofText (text : List Char) : PathText := text.map .char

def parts (path : PathText) : List (List Symbol) := path.splitOn (.char '/')

/-- The relative path of a file as a listing of its directory gives it. -/
def Plain (path : PathText) : Prop :=
  ∀ part ∈ parts path, part ≠ [] ∧ part ≠ ofText ['.'] ∧ part ≠ ofText ['.', '.']

instance (path : PathText) : Decidable (Plain path) := by
  unfold Plain
  infer_instance

def checksumName : PathText := ofText "checksums.sha256".toList

structure Bundle (Content : Type) where
  /-- The files beside the checksum file. -/
  files : Dict PathText Content
  checksumFile : Option (List Char) := none
  /-- A directory has the name of the checksum file. -/
  blocked : Bool := false
  plain : ∀ path ∈ files.keys, Plain path
  tree : ∀ path ∈ files.keys, ∀ other ∈ files.keys, parts path <+: parts other → path = other
  apart : checksumName ∉ files.keys
  below : ∀ path ∈ files.keys, parts checksumName <+: parts path → blocked = true
  free : checksumFile ≠ none → blocked = false

/-- `sha256_file` on the content of a file. -/
structure Sha256 (Content : Type) where
  hexdigest : Content → List Char
  hex : ∀ content, ∀ c ∈ hexdigest content, c ∈ "0123456789abcdef".toList
  length : ∀ content, (hexdigest content).length = 64

inductive Failure where
  | isADirectoryError
  | unicodeEncodeError
  | valueError
  deriving DecidableEq

section

variable {Content : Type} (sha : Sha256 Content)

/-! ## Writing -/

def codePoints (path : PathText) : List Nat := path.map Symbol.codePoint

/-- The order of `sorted` on the files of a directory. -/
def PathLe (a b : PathText × Content) : Prop :=
  (parts a.1).map codePoints ≤ (parts b.1).map codePoints

instance : DecidableRel (@PathLe Content) := fun a b => by
  unfold PathLe
  infer_instance

def sortedFiles (b : Bundle Content) : List (PathText × Content) :=
  b.files.entries.insertionSort PathLe

def buildChecksums (b : Bundle Content) : Dict PathText (List Char) :=
  .ofList ((sortedFiles b).map fun (path, content) => (path, sha.hexdigest content))

def checksumLine (entry : PathText × List Char) : PathText :=
  ofText entry.2 ++ ofText [' ', ' '] ++ entry.1

/-- The text of a list of lines as UTF-8 can encode it. -/
def encodeLines (lines : List PathText) : Option (List Char) :=
  ((ofText ['\n']).intercalate lines ++ ofText ['\n']).mapM Symbol.char?

def Bundle.put (b : Bundle Content) (text : List Char) (free : b.blocked = false) : Bundle Content :=
  { b with checksumFile := some text, free := fun _ => free }

/-- A text that cannot be encoded leaves an empty file. -/
def writeChecksums (b : Bundle Content) :
    Except Failure (Dict PathText (List Char)) × Bundle Content :=
  if free : b.blocked = false then
    let checksums := buildChecksums sha b
    match encodeLines (checksums.entries.map checksumLine) with
    | none => (.error .unicodeEncodeError, b.put [] free)
    | some text => (.ok checksums, b.put text free)
  else (.error .isADirectoryError, b)

/-! ## Reading -/

/-- The paths and digests of the lines. -/
def readLines : List (List Char) → Except Failure (List (PathText × List Char))
  | [] => .ok []
  | raw :: lines =>
      let line := Text.strip Text.isSpace raw
      if line = [] then readLines lines
      else
        match Text.splitFirst [' ', ' '] line with
        | none => .error .valueError
        | some (digest, relative) =>
            (readLines lines).map fun entries => (ofText relative, digest) :: entries

def readChecksums (text : List Char) : Except Failure (Dict PathText (List Char)) :=
  (readLines (Text.splitlines (Text.universalNewlines text))).map .ofList

/-! ## Validating -/

def missing (relative : PathText) : PathText :=
  ofText "Missing checksummed file: ".toList ++ relative

def mismatch (relative : PathText) : PathText := ofText "Checksum mismatch: ".toList ++ relative

def unchecksummed (relative : PathText) : PathText :=
  ofText "Unchecksummed file: ".toList ++ relative

/-- The digest of the file that a path below the bundle leads to. Where the path is not one of a
listing, or the one of the checksum file, that is `elsewhere`. -/
def digestAt (elsewhere : PathText → Option (List Char)) (b : Bundle Content)
    (relative : PathText) : Option (List Char) :=
  if Plain relative ∧ relative ≠ checksumName then (b.files.get? relative).map sha.hexdigest
  else elsewhere relative

/-- What is wrong with an entry of the checksum file. -/
def checkEntry (elsewhere : PathText → Option (List Char)) (b : Bundle Content)
    (entry : PathText × List Char) : Option PathText :=
  match digestAt sha elsewhere b entry.1 with
  | none => some (missing entry.1)
  | some actual => if actual ≠ entry.2 then some (mismatch entry.1) else none

/-- The files that the checksum file does not have, in the order of their paths as texts. -/
def extras (b : Bundle Content) (expected : Dict PathText (List Char)) : List PathText :=
  ((buildChecksums sha b).keys.filter (· ∉ expected.keys)).insertionSort
    fun p q => codePoints p ≤ codePoints q

def validateChecksums (elsewhere : PathText → Option (List Char)) (b : Bundle Content) :
    Except Failure (List PathText) :=
  match b.checksumFile with
  | none => .ok [ofText "Missing checksums.sha256".toList]
  | some text => do
      let expected ← readChecksums text
      .ok (expected.entries.filterMap (checkEntry sha elsewhere b) ++
        (extras sha b expected).map unchecksummed)

/-! ## Detection -/

/-- The error is about the file. -/
def Names (error path : PathText) : Prop :=
  error = missing path ∨ error = mismatch path ∨ error = unchecksummed path

def Affected (before after : Bundle Content) (path : PathText) : Prop :=
  before.files.get? path ≠ after.files.get? path

/-- The digests tell the contents of a file in the two bundles apart. -/
def CollisionFree (before after : Bundle Content) : Prop :=
  ∀ path content content', before.files.get? path = some content →
    after.files.get? path = some content' → sha.hexdigest content = sha.hexdigest content' →
      content = content'

/-- The checksums can be written, what was written is valid, and after a change of the files the
errors name the files that it affects and no others. -/
def DetectsChanges (elsewhere : PathText → Option (List Char)) (b : Bundle Content) : Prop :=
  ∃ checksums written, writeChecksums sha b = (.ok checksums, written) ∧
    validateChecksums sha elsewhere written = .ok [] ∧
      ∀ after : Bundle Content, after.checksumFile = written.checksumFile →
        CollisionFree sha written after → ∃ errors,
          validateChecksums sha elsewhere after = .ok errors ∧
            (∀ path, Affected written after path → ∃ error ∈ errors, Names error path) ∧
              ∀ error ∈ errors, ∃ path, Affected written after path ∧ Names error path

/-- A path that is read back from the line that it is written to. -/
def Listable (path : PathText) : Prop :=
  ∃ text, path = ofText text ∧ (∀ c ∈ text, Text.isBreak c = false) ∧
    ∀ c ∈ text.getLast?, Text.isSpace c = false

variable {sha}

/-! ## Checksums by path -/

theorem Sha256.solid (sha : Sha256 Content) (content : Content) :
    ∀ c ∈ sha.hexdigest content, Text.isSpace c = false := by
  have hexSolid : ∀ c ∈ "0123456789abcdef".toList, Text.isSpace c = false :=
    Text.forall_eq_false_of_any rfl
  exact fun c mem => hexSolid c (sha.hex content c mem)

theorem mem_sortedFiles {b : Bundle Content} {file : PathText × Content} :
    file ∈ sortedFiles b ↔ b.files.get? file.1 = some file.2 := by
  rw [sortedFiles, List.mem_insertionSort, ← Dict.mem_entries_iff]

theorem sortedFiles_nodup (b : Bundle Content) : ((sortedFiles b).map Prod.fst).Nodup :=
  ((List.perm_insertionSort PathLe b.files.entries).map Prod.fst).nodup_iff.mpr b.files.nodup

theorem entries_buildChecksums (b : Bundle Content) : (buildChecksums sha b).entries =
    (sortedFiles b).map fun (path, content) => (path, sha.hexdigest content) := by
  refine Dict.entries_ofList ?_
  rw [List.map_map]
  exact sortedFiles_nodup b

theorem get?_buildChecksums (b : Bundle Content) (path : PathText) :
    (buildChecksums sha b).get? path = (b.files.get? path).map sha.hexdigest := by
  ext digest
  rw [← Dict.mem_entries_iff, entries_buildChecksums, List.mem_map, Option.map_eq_some_iff]
  constructor
  · rintro ⟨⟨path', content⟩, mem, same⟩
    cases same
    exact ⟨content, mem_sortedFiles.mp mem, rfl⟩
  · rintro ⟨content, found, rfl⟩
    exact ⟨(path, content), mem_sortedFiles.mpr found, rfl⟩

theorem mem_keys_buildChecksums {b : Bundle Content} {path : PathText} :
    path ∈ (buildChecksums sha b).keys ↔ path ∈ b.files.keys := by
  rw [← not_iff_not, ← Dict.get?_eq_none_iff, ← Dict.get?_eq_none_iff, get?_buildChecksums,
    Option.map_eq_none_iff]

theorem digestAt_of_mem (elsewhere : PathText → Option (List Char)) {b : Bundle Content}
    {path : PathText} (mem : path ∈ b.files.keys) (after : Bundle Content) :
    digestAt sha elsewhere after path = (after.files.get? path).map sha.hexdigest :=
  if_pos ⟨b.plain path mem, fun same => b.apart (same ▸ mem)⟩

/-! ## Reading what was written -/

theorem mapM_ofText (text : List Char) : (ofText text).mapM Symbol.char? = some text := by
  induction text with
  | nil => rfl
  | cons c text ih =>
      rw [ofText, List.map_cons, List.mapM_cons, ← ofText, ih]
      rfl

theorem ofText_intercalate (separator : List Char) (lines : List (List Char)) :
    (ofText separator).intercalate (lines.map ofText) = ofText (separator.intercalate lines) := by
  induction lines with
  | nil => rfl
  | cons line lines ih =>
      cases lines with
      | nil => simp
      | cons next lines =>
          rw [List.map_cons, List.map_cons, List.intercalate_cons_cons, ← List.map_cons, ih,
            List.intercalate_cons_cons]
          simp [ofText]

/-- The line of a path and its digest. -/
def textLine (entry : List Char × List Char) : List Char := entry.2 ++ [' ', ' '] ++ entry.1

/-- A digest and a path that is read back from its line. -/
structure ReadBack (entry : List Char × List Char) : Prop where
  solid : ∀ c ∈ entry.2, Text.isSpace c = false
  digest : entry.2 ≠ []
  path : entry.1 ≠ []
  unbroken : ∀ c ∈ entry.1, Text.isBreak c = false
  last : ∀ c ∈ entry.1.getLast?, Text.isSpace c = false

variable {entry : List Char × List Char} {entries : List (List Char × List Char)}

theorem ReadBack.strip (readBack : ReadBack entry) :
    Text.strip Text.isSpace (textLine entry) = textLine entry := by
  apply Text.strip_of_solid
  · obtain ⟨c, digest, split⟩ := List.exists_cons_of_ne_nil readBack.digest
    intro d first
    rw [textLine, split, List.cons_append, List.cons_append, List.head?_cons] at first
    cases first
    exact readBack.solid c (split ▸ List.mem_cons_self)
  · intro d last
    rw [textLine, List.getLast?_append_of_ne_nil _ readBack.path] at last
    exact readBack.last d last

theorem ReadBack.line_unbroken (readBack : ReadBack entry) :
    ∀ c ∈ textLine entry, Text.isBreak c = false := by
  intro c mem
  rw [textLine, List.mem_append, List.mem_append] at mem
  rcases mem with (inDigest | blank) | inPath
  · exact eq_false_of_ne_true fun broken =>
      absurd (Text.isSpace_of_isBreak broken) (by simp [readBack.solid c inDigest])
  · exact Text.forall_eq_false_of_any rfl c blank
  · exact readBack.unbroken c inPath

theorem readLines_textLines (readBack : ∀ entry ∈ entries, ReadBack entry) :
    readLines (entries.map textLine) =
      .ok (entries.map fun entry => (ofText entry.1, entry.2)) := by
  induction entries with
  | nil => rfl
  | cons entry entries ih =>
      obtain ⟨here, later⟩ := List.forall_mem_cons.mp readBack
      have nonempty : textLine entry ≠ [] := by simp [textLine]
      have noBlank : ' ' ∉ entry.2 := fun mem => absurd (here.solid _ mem) (by decide)
      have split : Text.splitFirst [' ', ' '] (textLine entry) = some (entry.2, entry.1) :=
        Text.splitFirst_append entry.1 noBlank
      rw [List.map_cons, readLines]
      simp only [here.strip, if_neg nonempty, split, ih later]
      rfl

/-- Reading the lines of entries that are read back. -/
theorem readChecksums_lines (readBack : ∀ entry ∈ entries, ReadBack entry) :
    readChecksums (['\n'].intercalate (entries.map textLine) ++ ['\n']) =
      .ok (.ofList (entries.map fun entry => (ofText entry.1, entry.2))) := by
  cases entries with
  | nil => rfl
  | cons entry entries =>
      have unbroken : ∀ line ∈ (entry :: entries).map textLine,
          ∀ c ∈ line, Text.isBreak c = false := by
        intro line mem
        obtain ⟨entry', mem', rfl⟩ := List.mem_map.mp mem
        exact (readBack entry' mem').line_unbroken
      rw [readChecksums, List.map_cons, Text.splitlines_lines unbroken, ← List.map_cons,
        readLines_textLines readBack]
      rfl

/-! ## Listable paths -/

/-- What `write_checksums` leaves where every path is listable. -/
theorem writeChecksums_of_listable {b : Bundle Content} (free : b.blocked = false)
    (listable : ∀ path ∈ b.files.keys, Listable path) :
    ∃ text, writeChecksums sha b = (.ok (buildChecksums sha b), b.put text free) ∧
      readChecksums text = .ok (buildChecksums sha b) := by
  -- the entries with their paths as texts
  let entries := (buildChecksums sha b).entries.map fun e => (e.1.filterMap Symbol.char?, e.2)
  have asText : ∀ e ∈ (buildChecksums sha b).entries, e.1 = ofText (e.1.filterMap Symbol.char?) ∧
      ReadBack (e.1.filterMap Symbol.char?, e.2) := by
    rintro ⟨path, digest⟩ mem
    rw [entries_buildChecksums, List.mem_map] at mem
    obtain ⟨⟨path', content⟩, file, same⟩ := mem
    cases same
    have key : path ∈ b.files.keys := by
      rw [← (mem_keys_buildChecksums : path ∈ (buildChecksums sha b).keys ↔ _),
        ← not_not (a := path ∈ _), ← Dict.get?_eq_none_iff, get?_buildChecksums,
        mem_sortedFiles.mp file]
      simp
    obtain ⟨text, rfl, unbroken, last⟩ := listable path key
    have decoded : (ofText text).filterMap Symbol.char? = text := by
      rw [ofText, List.filterMap_map]
      exact List.filterMap_some
    rw [decoded]
    refine ⟨rfl, sha.solid content, ?_, ?_, unbroken, last⟩
    · rw [← List.length_pos_iff, sha.length]
      decide
    · rintro empty
      subst empty
      exact absurd rfl (b.plain _ key [] (by decide)).1
  have lines : (buildChecksums sha b).entries.map checksumLine = (entries.map textLine).map ofText := by
    simp only [entries, List.map_map]
    refine List.map_congr_left fun e mem => ?_
    rw [checksumLine, (asText e mem).1]
    simp [textLine, ofText]
  have paths : entries.map (fun e => (ofText e.1, e.2)) = (buildChecksums sha b).entries := by
    simp only [entries, List.map_map]
    refine (List.map_congr_left fun e mem => ?_).trans (List.map_id _)
    exact Prod.ext (asText e mem).1.symm rfl
  have readBack : ∀ entry ∈ entries, ReadBack entry := by
    intro entry mem
    obtain ⟨e, mem', rfl⟩ := List.mem_map.mp mem
    exact (asText e mem').2
  refine ⟨['\n'].intercalate (entries.map textLine) ++ ['\n'], ?_, ?_⟩
  · have encoded : encodeLines ((buildChecksums sha b).entries.map checksumLine) =
        some (['\n'].intercalate (entries.map textLine) ++ ['\n']) := by
      rw [encodeLines, lines, ofText_intercalate, ← mapM_ofText]
      simp [ofText]
    rw [writeChecksums, dif_pos free]
    simp only [encoded]
  · rw [readChecksums_lines readBack, paths]
    exact congrArg Except.ok (Dict.ext (Dict.entries_ofList (buildChecksums sha b).nodup))

/-- Every path that is read is listable. -/
theorem listable_of_readLines {lines : List (List Char)} {read : List (PathText × List Char)}
    (unbroken : ∀ line ∈ lines, ∀ c ∈ line, Text.isBreak c = false)
    (ok : readLines lines = .ok read) : ∀ e ∈ read, Listable e.1 := by
  induction lines generalizing read with
  | nil =>
      cases ok
      simp
  | cons raw lines ih =>
      obtain ⟨here, later⟩ := List.forall_mem_cons.mp unbroken
      rw [readLines] at ok
      split_ifs at ok with empty
      · exact ih later ok
      · cases split : Text.splitFirst [' ', ' '] (Text.strip Text.isSpace raw) with
        | none =>
            rw [split] at ok
            cases ok
        | some found =>
            obtain ⟨digest, relative⟩ := found
            simp only [split] at ok
            cases rest : readLines lines with
            | error e =>
                rw [rest] at ok
                cases ok
            | ok read' =>
                rw [rest] at ok
                cases ok
                have line := Text.eq_of_splitFirst split
                refine List.forall_mem_cons.mpr ⟨⟨relative, rfl, ?_, ?_⟩, ih later rest⟩
                · intro c mem
                  have inside : c ∈ Text.strip Text.isSpace raw := by
                    rw [line]
                    exact List.mem_append_right _ mem
                  exact here c ((Text.strip_infix raw).subset inside)
                · intro c last
                  refine Text.strip_getLast (?_ : (Text.strip Text.isSpace raw).getLast? = some c)
                  rw [line, List.getLast?_append, last]
                  rfl

theorem listable_of_readChecksums {text : List Char} {expected : Dict PathText (List Char)}
    (ok : readChecksums text = .ok expected) : ∀ path ∈ expected.keys, Listable path := by
  unfold readChecksums at ok
  cases read : readLines (Text.splitlines (Text.universalNewlines text)) with
  | error e =>
      rw [read] at ok
      cases ok
  | ok entries =>
      rw [read] at ok
      cases ok
      have listable := listable_of_readLines (fun _ mem => Text.forall_of_mem_splitlines mem) read
      intro path mem
      obtain ⟨e, mem', rfl⟩ := List.mem_map.mp mem
      exact Dict.forall_ofList (p := fun e => Listable e.1) listable e mem'

/-! ## The errors of a validation -/

variable {elsewhere : PathText → Option (List Char)} {before after : Bundle Content}

theorem mem_extras {b : Bundle Content} {expected : Dict PathText (List Char)} {path : PathText} :
    path ∈ extras sha b expected ↔ path ∈ b.files.keys ∧ path ∉ expected.keys := by
  rw [extras, List.mem_insertionSort, List.mem_filter, mem_keys_buildChecksums, decide_eq_true_eq]

theorem checkEntry_of_mem {path : PathText} {content : Content}
    (found : before.files.get? path = some content) :
    checkEntry sha elsewhere after (path, sha.hexdigest content) =
      match after.files.get? path with
      | none => some (missing path)
      | some content' =>
          if sha.hexdigest content' ≠ sha.hexdigest content then some (mismatch path) else none := by
  have mem : path ∈ before.files.keys := by
    rw [← not_not (a := path ∈ _), ← Dict.get?_eq_none_iff, found]
    simp
  rw [checkEntry, digestAt_of_mem elsewhere mem]
  cases after.files.get? path <;> rfl

/-- The entry of a file is in error just where the file is affected. -/
theorem checkEntry_affected (collisionFree : CollisionFree sha before after) {path : PathText}
    {content : Content} (found : before.files.get? path = some content) :
    (∀ error ∈ checkEntry sha elsewhere after (path, sha.hexdigest content),
        Affected before after path ∧ Names error path) ∧
      (Affected before after path →
        ∃ error ∈ checkEntry sha elsewhere after (path, sha.hexdigest content),
          Names error path) := by
  rw [checkEntry_of_mem found]
  unfold Affected
  rw [found]
  cases found' : after.files.get? path with
  | none =>
      refine ⟨?_, fun _ => ⟨_, rfl, .inl rfl⟩⟩
      rintro error ⟨⟩
      exact ⟨nofun, .inl rfl⟩
  | some content' =>
      by_cases same : sha.hexdigest content' = sha.hexdigest content
      · simp only [ne_eq, same, not_true_eq_false, if_false]
        have equal := collisionFree path content content' found found' same.symm
        exact ⟨nofun, fun affected => absurd (congrArg some equal) affected⟩
      · simp only [ne_eq, same, not_false_eq_true, if_true]
        refine ⟨?_, fun _ => ⟨_, rfl, .inr (.inl rfl)⟩⟩
        rintro error ⟨⟩
        refine ⟨fun equal => same ?_, .inr (.inl rfl)⟩
        rw [Option.some_inj.mp equal]

theorem validateChecksums_eq {text : List Char} (file : after.checksumFile = some text) :
    validateChecksums sha elsewhere after = (readChecksums text).map fun expected =>
      expected.entries.filterMap (checkEntry sha elsewhere after) ++
        (extras sha after expected).map unchecksummed := by
  rw [validateChecksums, file]
  dsimp only
  cases readChecksums text <;> rfl

/-- Validation against the checksums of the files as they were before. -/
theorem validateChecksums_detects {text : List Char} (file : after.checksumFile = some text)
    (read : readChecksums text = .ok (buildChecksums sha before))
    (collisionFree : CollisionFree sha before after) :
    ∃ errors, validateChecksums sha elsewhere after = .ok errors ∧
      (∀ path, Affected before after path → ∃ error ∈ errors, Names error path) ∧
        ∀ error ∈ errors, ∃ path, Affected before after path ∧ Names error path := by
  refine ⟨_, (validateChecksums_eq file).trans (by rw [read]; rfl), ?_, ?_⟩
  · intro path affected
    cases found : before.files.get? path with
    | none =>
        have added : path ∈ extras sha after (buildChecksums sha before) := by
          rw [mem_extras, mem_keys_buildChecksums, ← Dict.get?_eq_none_iff]
          refine ⟨?_, found⟩
          rw [← not_not (a := path ∈ _), ← Dict.get?_eq_none_iff]
          intro none_
          exact affected (found.trans none_.symm)
        exact ⟨_, List.mem_append_right _ (List.mem_map_of_mem added), .inr (.inr rfl)⟩
    | some content =>
        obtain ⟨error, is, names⟩ : ∃ error ∈ checkEntry sha elsewhere after
            (path, sha.hexdigest content), Names error path :=
          (checkEntry_affected collisionFree found).2 affected
        have entry : (path, sha.hexdigest content) ∈ (buildChecksums sha before).entries := by
          rw [Dict.mem_entries_iff, get?_buildChecksums, found]
          rfl
        exact ⟨error, List.mem_append_left _ (List.mem_filterMap.mpr ⟨_, entry, is⟩), names⟩
  · intro error mem
    rcases List.mem_append.mp mem with inEntries | inExtras
    · obtain ⟨⟨path, digest⟩, entry, is⟩ := List.mem_filterMap.mp inEntries
      rw [Dict.mem_entries_iff, get?_buildChecksums, Option.map_eq_some_iff] at entry
      obtain ⟨content, found, rfl⟩ := entry
      exact ⟨path, (checkEntry_affected collisionFree found).1 error is⟩
    · obtain ⟨path, added, rfl⟩ := List.mem_map.mp inExtras
      obtain ⟨present, absent⟩ := mem_extras.mp added
      rw [mem_keys_buildChecksums, ← Dict.get?_eq_none_iff] at absent
      refine ⟨path, fun same => ?_, .inr (.inr rfl)⟩
      rw [absent, eq_comm, Dict.get?_eq_none_iff] at same
      exact same present

/-- The checksums detect the changes of a bundle just where every path is listable and no directory is
in the way of the checksum file. -/
theorem detectsChanges_iff (sha : Sha256 Content) (elsewhere : PathText → Option (List Char))
    (b : Bundle Content) : DetectsChanges sha elsewhere b ↔
      b.blocked = false ∧ ∀ path ∈ b.files.keys, Listable path := by
  constructor
  · rintro ⟨checksums, written, write, valid, -⟩
    unfold writeChecksums at write
    split at write
    swap
    · cases write
    rename_i free
    refine ⟨free, fun path mem => ?_⟩
    dsimp only at write
    split at write
    · cases write
    rename_i text encoded
    cases write
    rw [validateChecksums_eq rfl] at valid
    cases read : readChecksums text with
    | error e =>
        rw [read] at valid
        cases valid
    | ok expected =>
        rw [read] at valid
        have noErrors := Except.ok.inj valid
        have noExtras := List.map_eq_nil_iff.mp (List.append_eq_nil_iff.mp noErrors).2
        have listed : path ∈ expected.keys := by
          by_contra absent
          have extra : path ∈ extras sha (b.put text free) expected := mem_extras.mpr ⟨mem, absent⟩
          rw [noExtras] at extra
          cases extra
        exact listable_of_readChecksums read path listed
  · rintro ⟨free, listable⟩
    obtain ⟨text, write, read⟩ := @writeChecksums_of_listable _ sha _ free listable
    have read' : readChecksums text = .ok (buildChecksums sha (b.put text free)) := read
    refine ⟨_, _, write, ?_, fun after file collisionFree =>
      validateChecksums_detects (file.trans rfl) read' collisionFree⟩
    have collisionFree : CollisionFree sha (b.put text free) (b.put text free) := by
      intro path content content' found found' _
      exact Option.some_inj.mp (found.symm.trans found')
    obtain ⟨errors, valid, -, names⟩ :=
      @validateChecksums_detects _ sha elsewhere _ _ _ rfl read' collisionFree
    rw [valid]
    cases errors with
    | nil => rfl
    | cons error errors =>
        obtain ⟨path, affected, -⟩ := names error List.mem_cons_self
        exact absurd rfl affected

end

/-! ## A path with a blank at its end -/

def sampleSha : Sha256 Bool where
  hexdigest content := List.replicate 64 (if content then 'a' else '0')
  hex content c mem := by
    rw [List.eq_of_mem_replicate mem]
    cases content <;> decide
  length := by decide

/-- One file, with the name `notes` and a blank. -/
def blankBundle : Bundle Bool where
  files := ⟨[(ofText "notes ".toList, true)], by simp⟩
  plain := by decide
  tree := by decide
  apart := by decide
  below := by decide
  free := nofun

/-- The name is read back without the blank. -/
theorem blankBundle_not_detected : ¬ DetectsChanges sampleSha (fun _ => none) blankBundle := by
  rintro ⟨checksums, written, write, valid, -⟩
  have errors : (validateChecksums sampleSha (fun _ => none)
      (writeChecksums sampleSha blankBundle).2).toOption =
        some [missing (ofText "notes".toList), unchecksummed (ofText "notes ".toList)] := by
    decide +kernel
  rw [write, valid] at errors
  cases errors

end Magellan.ExperimentBundle
