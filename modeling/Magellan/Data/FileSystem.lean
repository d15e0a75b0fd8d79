import Mathlib.Data.List.Infix
import Mathlib.Tactic.Common

/-!
# A file system with links

Files, directories and symbolic links under their locations. A path is walked from the root, and a
link on the way is followed.
-/

namespace Magellan

/-- The names on the way from the root. -/
abbrev Location := List String

inductive Node (Content : Type) where
  | file (content : Content)
  | directory
  | link (target : Location)

/-- Nothing lies below anything but a directory. -/
@[ext] structure FileSystem (Content : Type) where
  node : Location → Option (Node Content)
  parent : ∀ l name, node (l ++ [name]) ≠ none → node l = some .directory

namespace FileSystem

variable {Content : Type} (fs : FileSystem Content)

def IsLink (l : Location) : Prop := ∃ target, fs.node l = some (.link target)

/-! ## Paths -/

/-- Walks on from a location up to the first link, which is left to `follow`. -/
def walkOn (follow : List String → Option Location) : Location → List String → Option Location
  | here, [] => some here
  | here, name :: rest =>
      match fs.node (here ++ [name]) with
      | none => none
      | some .directory => walkOn follow (here ++ [name]) rest
      | some (.file _) => if rest = [] then some (here ++ [name]) else none
      | some (.link target) => follow (target ++ rest)

/-- The walk of a path that may follow so many links. -/
def walk : Nat → Location → List String → Option Location
  | 0 => fs.walkOn fun _ => none
  | links + 1 => fs.walkOn (walk links [])

/-- Where a path leads to. -/
def resolve (path : Location) : Option Location := fs.walk 40 [] path

/-- `path.is_dir()`. -/
def isDirectory (path : Location) : Bool :=
  match (fs.resolve path).bind fs.node with
  | some .directory => true
  | _ => false

/-- `path.is_file()`. -/
def isFile (path : Location) : Bool :=
  match (fs.resolve path).bind fs.node with
  | some (.file _) => true
  | _ => false

/-- `path.is_symlink()` for a name in the directory that `directory` leads to. -/
def isSymlink (directory : Location) (name : String) : Bool :=
  match (fs.resolve directory).bind fun l => fs.node (l ++ [name]) with
  | some (.link _) => true
  | _ => false

/-! ## Changes -/

theorem node_below {l : Location} (other : fs.node l ≠ some .directory) {rest : Location}
    (below : rest ≠ []) : fs.node (l ++ rest) = none := by
  induction rest using List.reverseRecOn with
  | nil => exact absurd rfl below
  | append_singleton rest name ih =>
      by_contra present
      rw [← List.append_assoc] at present
      have dir := fs.parent _ _ present
      cases rest with
      | nil =>
          rw [List.append_nil] at dir
          exact other dir
      | cons first rest =>
          rw [ih (List.cons_ne_nil _ _)] at dir
          cases dir

theorem directory_above {l : Location} (present : fs.node l ≠ none) {above : Location}
    (proper : above <+: l) (other : above ≠ l) : fs.node above = some .directory := by
  obtain ⟨rest, rfl⟩ := proper
  by_contra noDirectory
  refine present (fs.node_below noDirectory ?_)
  rintro rfl
  exact other (List.append_nil _).symm

/-- A new name in a directory. -/
def put (l : Location) (name : String) (n : Node Content) (dir : fs.node l = some .directory)
    (free : fs.node (l ++ [name]) = none) : FileSystem Content where
  node := Function.update fs.node (l ++ [name]) (some n)
  parent := by
    intro m name' present
    have self : l ≠ l ++ [name] := by simp
    by_cases new : m ++ [name'] = l ++ [name]
    · obtain ⟨rfl, -⟩ := List.append_inj' new rfl
      rw [Function.update_of_ne self]
      exact dir
    · rw [Function.update_of_ne new] at present
      have above := fs.parent m name' present
      by_cases here : m = l ++ [name]
      · rw [here, free] at above
        cases above
      · rwa [Function.update_of_ne here]

/-- The file system without a location and what is below it. -/
def remove (l : Location) : FileSystem Content where
  node m := if l <+: m then none else fs.node m
  parent := by
    intro m name present
    split_ifs at present with below
    · exact absurd rfl present
    · rw [if_neg fun above => below (above.trans (List.prefix_append ..))]
      exact fs.parent m name present

/-- A directory or a link under a name that is free, in the directory that a path leads to. -/
def create (n : Node Content) (directory : Location) (name : String) : Option (FileSystem Content) :=
  match fs.resolve directory with
  | none => none
  | some l =>
      match dir : fs.node l, free : fs.node (l ++ [name]) with
      | some .directory, none => some (fs.put l name n dir free)
      | _, _ => none

/-- `os.mkdir`. -/
def makeDirectory (directory : Location) (name : String) : Option (FileSystem Content) :=
  fs.create .directory directory name

/-- `path.mkdir(parents=True, exist_ok=True)`, from a directory on. -/
def makeDirectories (fs : FileSystem Content) : Location → List String → Option (FileSystem Content)
  | _, [] => some fs
  | here, name :: rest =>
      if fs.isDirectory (here ++ [name]) then makeDirectories fs (here ++ [name]) rest
      else (fs.makeDirectory here name).bind fun fs => makeDirectories fs (here ++ [name]) rest

/-- `path.unlink()`. -/
def unlink (directory : Location) (name : String) : Option (FileSystem Content) :=
  match fs.resolve directory with
  | none => none
  | some l =>
      match fs.node (l ++ [name]) with
      | some (.file _) | some (.link _) => some (fs.remove (l ++ [name]))
      | _ => none

/-- `shutil.rmtree(path)`, which follows no link. -/
def removeTree (directory : Location) (name : String) : Option (FileSystem Content) :=
  match fs.resolve directory with
  | none => none
  | some l =>
      match fs.node (l ++ [name]) with
      | some .directory => some (fs.remove (l ++ [name]))
      | _ => none

/-! ## Walks -/

section

variable {fs} {follow : List String → Option Location} {here way rest r : Location}

theorem walkOn_directories
    (dirs : ∀ p, p <+: way → p ≠ [] → fs.node (here ++ p) = some .directory) :
    fs.walkOn follow here (way ++ rest) = fs.walkOn follow (here ++ way) rest := by
  induction way generalizing here with
  | nil => rw [List.nil_append, List.append_nil]
  | cons name way ih =>
      have first : fs.node (here ++ [name]) = some .directory := dirs [name] ⟨way, rfl⟩ (by simp)
      have tail : fs.walkOn follow (here ++ [name]) (way ++ rest) =
          fs.walkOn follow (here ++ [name] ++ way) rest := by
        refine ih fun p inside nonempty => ?_
        rw [List.append_assoc]
        exact dirs (name :: p) ((List.prefix_cons_inj _).mpr inside) (by simp)
      rw [List.append_assoc] at tail
      rw [List.cons_append, walkOn, first]
      exact tail

theorem walkOn_cases (h : fs.walkOn follow here rest = some r) :
    (r = here ++ rest ∧ ∀ p, p <+: rest → p ≠ [] → ¬ fs.IsLink (here ++ p)) ∨
      ∃ p name after target, rest = p ++ name :: after ∧
        fs.node (here ++ p ++ [name]) = some (.link target) ∧
        follow (target ++ after) = some r := by
  induction rest generalizing here with
  | nil =>
      refine .inl ⟨?_, fun p inside nonempty => absurd (List.prefix_nil.mp inside) nonempty⟩
      rw [List.append_nil]
      exact (Option.some.inj h).symm
  | cons name rest ih =>
      rw [walkOn] at h
      split at h
      · cases h
      · rename_i dir
        have noLink : ¬ fs.IsLink (here ++ [name]) := by
          rintro ⟨target, link⟩
          rw [dir] at link
          cases link
        rcases ih h with ⟨rfl, plain⟩ | ⟨p, name', after, target, rfl, link, on⟩
        · refine .inl ⟨by simp, fun p inside nonempty => ?_⟩
          cases p with
          | nil => exact absurd rfl nonempty
          | cons first p =>
              obtain ⟨rfl, within⟩ := List.cons_prefix_cons.mp inside
              by_cases last : p = []
              · rw [last]
                exact noLink
              · have further := plain p within last
                rwa [List.append_assoc] at further
        · refine .inr ⟨name :: p, name', after, target, rfl, ?_, on⟩
          rw [← link]
          simp
      · rename_i content file
        split_ifs at h with last
        subst last
        refine .inl ⟨(Option.some.inj h).symm, fun p inside nonempty => ?_⟩
        have whole : p = [name] := by
          rcases List.prefix_cons_iff.mp inside with rfl | ⟨t, rfl, within⟩
          · exact absurd rfl nonempty
          · rw [List.prefix_nil.mp within]
        rw [whole]
        rintro ⟨target, link⟩
        rw [file] at link
        cases link
      · rename_i target link
        exact .inr ⟨[], name, rest, target, rfl, by simpa using link, h⟩

theorem walk_directories (links : Nat)
    (dirs : ∀ p, p <+: way → p ≠ [] → fs.node (here ++ p) = some .directory) :
    fs.walk links here way = some (here ++ way) := by
  have walked (follow : List String → Option Location) :
      fs.walkOn follow here way = some (here ++ way) := by
    have along : fs.walkOn follow here (way ++ []) = fs.walkOn follow (here ++ way) [] :=
      walkOn_directories dirs
    rwa [List.append_nil] at along
  cases links with
  | zero => exact walked _
  | succ links => exact walked _

theorem resolve_of_directories
    (dirs : ∀ p, p <+: way → p ≠ [] → fs.node p = some .directory) : fs.resolve way = some way := by
  have whole : fs.walk 40 [] way = some ([] ++ way) := walk_directories 40 dirs
  exact whole

end

/-! ## What a change leaves -/

section

variable {fs} {fs' : FileSystem Content} {here way rest l m : Location} {name : String}
  {n : Node Content}

theorem create_ok {directory : Location} (h : fs.create n directory name = some fs') :
    ∃ l, fs.resolve directory = some l ∧ fs.node l = some .directory ∧
      fs.node (l ++ [name]) = none ∧ fs'.node = Function.update fs.node (l ++ [name]) (some n) := by
  unfold create at h
  split at h
  · cases h
  · rename_i l resolved
    split at h
    · rename_i dir free
      cases h
      exact ⟨l, resolved, dir, free, rfl⟩
    · cases h

/-- Nothing is there no more, and what is new is a directory. -/
def Grown (fs fs' : FileSystem Content) : Prop :=
  ∀ m, fs'.node m = fs.node m ∨ (fs.node m = none ∧ fs'.node m = some .directory)

theorem Grown.refl (fs : FileSystem Content) : Grown fs fs := fun _ => .inl rfl

theorem Grown.trans {fs'' : FileSystem Content} (h : Grown fs fs') (h' : Grown fs' fs'') :
    Grown fs fs'' := by
  intro m
  rcases h m with same | ⟨absent, dir⟩
  · rcases h' m with same' | ⟨absent', dir'⟩
    · exact .inl (same'.trans same)
    · exact .inr ⟨same.symm.trans absent', dir'⟩
  · rcases h' m with same' | ⟨absent', dir'⟩
    · exact .inr ⟨absent, same'.trans dir⟩
    · exact .inr ⟨absent, dir'⟩

theorem Grown.link (h : Grown fs fs') {target : Location} :
    fs'.node m = some (.link target) ↔ fs.node m = some (.link target) := by
  rcases h m with same | ⟨absent, dir⟩
  · rw [same]
  · rw [absent, dir]
    simp

theorem Grown.isLink (h : Grown fs fs') : fs'.IsLink m ↔ fs.IsLink m :=
  exists_congr fun _ => h.link

theorem makeDirectory_grown (h : fs.makeDirectory here name = some fs') : Grown fs fs' := by
  obtain ⟨l, -, -, free, node⟩ := create_ok h
  intro m
  by_cases here : m = l ++ [name]
  · rw [node, here, Function.update_self]
    exact .inr ⟨free, rfl⟩
  · rw [node, Function.update_of_ne here]
    exact .inl rfl

theorem makeDirectories_grown (h : fs.makeDirectories here rest = some fs') : Grown fs fs' := by
  induction rest generalizing fs here with
  | nil =>
      cases h
      exact .refl _
  | cons name rest ih =>
      rw [makeDirectories] at h
      split at h
      · exact ih h
      · obtain ⟨fs₁, made, more⟩ := Option.bind_eq_some_iff.mp h
        exact (makeDirectory_grown made).trans (ih more)

theorem isDirectory_of_node (dirs : ∀ p, p <+: l → p ≠ [] → fs.node p = some .directory)
    (nonempty : l ≠ []) : fs.isDirectory l = true := by
  unfold isDirectory
  rw [resolve_of_directories dirs, Option.bind_some, dirs l (List.prefix_refl _) nonempty]

theorem node_of_isDirectory (plain : ∀ p, p <+: l → p ≠ [] → ¬ fs.IsLink p)
    (found : fs.isDirectory l = true) : fs.node l = some .directory := by
  unfold isDirectory at found
  split at found
  · rename_i dir
    obtain ⟨r, resolved, node⟩ := Option.bind_eq_some_iff.mp dir
    rcases walkOn_cases resolved with ⟨rfl, -⟩ | ⟨p, name, after, target, rfl, link, -⟩
    · exact node
    · exact absurd ⟨target, link⟩ (plain (p ++ [name]) ⟨after, by simp⟩ (by simp))
  · cases found

theorem makeDirectories_plain
    (dirs : ∀ p, p <+: here → p ≠ [] → fs.node p = some .directory)
    (plain : ∀ p, p <+: rest → ¬ fs.IsLink (here ++ p))
    (h : fs.makeDirectories here rest = some fs') :
    (∀ p, p <+: here ++ rest → p ≠ [] → fs'.node p = some .directory) ∧
      ∀ m, ¬ m <+: here ++ rest → fs'.node m = fs.node m := by
  induction rest generalizing fs here with
  | nil =>
      cases h
      rw [List.append_nil]
      exact ⟨dirs, fun _ _ => rfl⟩
  | cons name rest ih =>
      have step : here ++ name :: rest = here ++ [name] ++ rest := by simp
      have noLink (p : Location) (inside : p <+: here ++ [name]) (nonempty : p ≠ []) : ¬ fs.IsLink p := by
        rcases List.prefix_concat_iff.mp inside with rfl | before
        · exact plain [name] ⟨rest, rfl⟩
        · rintro ⟨target, link⟩
          rw [dirs p before nonempty] at link
          cases link
      have deeper : ∀ p, p <+: rest → ¬ fs.IsLink (here ++ [name] ++ p) := by
        intro p inside
        rw [List.append_assoc]
        exact plain (name :: p) ((List.prefix_cons_inj _).mpr inside)
      rw [makeDirectories] at h
      rw [step]
      split at h
      · rename_i there
        have dir := node_of_isDirectory noLink there
        refine ih (fun p inside nonempty => ?_) deeper h
        rcases List.prefix_concat_iff.mp inside with rfl | before
        · exact dir
        · exact dirs p before nonempty
      · obtain ⟨fs₁, made, more⟩ := Option.bind_eq_some_iff.mp h
        obtain ⟨l, resolved, -, free, node⟩ := create_ok made
        cases (resolve_of_directories dirs).symm.trans resolved
        have grown := makeDirectory_grown made
        obtain ⟨all, rest_⟩ := ih (fun p inside nonempty => by
          rw [node]
          rcases List.prefix_concat_iff.mp inside with rfl | before
          · exact Function.update_self ..
          · rw [Function.update_of_ne]
            · exact dirs p before nonempty
            · rintro rfl
              have shorter := before.length_le
              rw [List.length_append, List.length_singleton] at shorter
              omega) (fun p inside => by
          rw [grown.isLink]
          exact deeper p inside) more
        refine ⟨all, fun m other => ?_⟩
        rw [rest_ m other, node, Function.update_of_ne]
        rintro rfl
        exact other (List.prefix_append ..)

theorem makeDirectories_there (dirs : ∀ p, p <+: rest → p ≠ [] → fs.isDirectory (here ++ p) = true) :
    fs.makeDirectories here rest = some fs := by
  induction rest generalizing here with
  | nil => rfl
  | cons name rest ih =>
      rw [makeDirectories, if_pos (dirs [name] ⟨rest, rfl⟩ (by simp))]
      refine ih fun p inside nonempty => ?_
      rw [List.append_assoc]
      exact dirs (name :: p) ((List.prefix_cons_inj _).mpr inside) (by simp)

theorem resolve_link {target : Location} (link : fs.node l = some (.link target)) (nonempty : l ≠ [])
    (dirs : ∀ p, p <+: target → p ≠ [] → fs.node p = some .directory) :
    fs.resolve l = some target := by
  obtain ⟨way, name, rfl⟩ : ∃ way name, l = way ++ [name] :=
    ⟨l.dropLast, l.getLast nonempty, (List.dropLast_append_getLast nonempty).symm⟩
  have above : ∀ p, p <+: way → p ≠ [] → fs.node ([] ++ p) = some .directory := by
    intro p inside _
    have there : fs.node (way ++ [name]) ≠ none := by
      rw [link]
      exact Option.some_ne_none _
    refine fs.directory_above there (inside.trans (List.prefix_append ..)) ?_
    rintro rfl
    have shorter := inside.length_le
    rw [List.length_append, List.length_singleton] at shorter
    omega
  have along : fs.walkOn (fs.walk 39 []) [] (way ++ [name]) =
      fs.walkOn (fs.walk 39 []) ([] ++ way) [name] := walkOn_directories above
  rw [List.nil_append, walkOn, link] at along
  change fs.walkOn (fs.walk 39 []) [] (way ++ [name]) = some target
  rw [along]
  have found : fs.walk 39 [] target = some ([] ++ target) := walk_directories 39 dirs
  simpa using found

theorem makeDirectories_append :
    fs.makeDirectories here (way ++ rest) =
      (fs.makeDirectories here way).bind fun fs => fs.makeDirectories (here ++ way) rest := by
  induction way generalizing fs here with
  | nil => rw [List.nil_append, makeDirectories, Option.bind_some, List.append_nil]
  | cons name way ih =>
      have step : here ++ name :: way = here ++ [name] ++ way := by simp
      rw [List.cons_append, makeDirectories, makeDirectories, step]
      split
      · exact ih
      · rw [Option.bind_assoc]
        congr 1
        ext1 fs
        exact ih

theorem directories_of_present (there : fs.node l = some .directory) :
    ∀ p, p <+: l → p ≠ [] → fs.node p = some .directory := by
  intro p inside _
  by_cases whole : p = l
  · rw [whole]
    exact there
  · refine fs.directory_above ?_ inside whole
    rw [there]
    exact Option.some_ne_none _

theorem directories_of_child (there : fs.node (l ++ [name]) ≠ none) :
    ∀ p, p <+: l → p ≠ [] → fs.node p = some .directory :=
  directories_of_present (fs.parent l name there)

theorem link_again {target : Location} (link : fs.node (way ++ [name]) = some (.link target)) :
    ∃ fs₁, fs.unlink way name = some fs₁ ∧ fs₁.create (.link target) way name = some fs := by
  have there : fs.node (way ++ [name]) ≠ none := by
    rw [link]
    exact Option.some_ne_none _
  have kept (p : Location) (inside : p <+: way) :
      (fs.remove (way ++ [name])).node p = fs.node p := by
    refine if_neg fun longer => ?_
    have shorter := (longer.trans inside).length_le
    rw [List.length_append, List.length_singleton] at shorter
    omega
  have resolved : (fs.remove (way ++ [name])).resolve way = some way :=
    resolve_of_directories fun p inside nonempty => by
      rw [kept p inside]
      exact directories_of_child there p inside nonempty
  have dir : (fs.remove (way ++ [name])).node way = some .directory := by
    rw [kept way (List.prefix_refl _)]
    exact fs.parent way name there
  have free : (fs.remove (way ++ [name])).node (way ++ [name]) = none := if_pos (List.prefix_refl _)
  refine ⟨fs.remove (way ++ [name]), ?_, ?_⟩
  · rw [unlink, resolve_of_directories (directories_of_child there)]
    simp only [link]
  · unfold create
    rw [resolved]
    dsimp only
    split
    · refine congrArg some (FileSystem.ext (funext fun m => ?_))
      simp only [put, remove]
      by_cases here : m = way ++ [name]
      · rw [here, Function.update_self, link]
      · rw [Function.update_of_ne here]
        split_ifs with below
        · obtain ⟨rest, rfl⟩ := below
          refine (fs.node_below (fun file => ?_) fun nothing => here ?_).symm
          · rw [link] at file
            cases file
          · rw [nothing, List.append_nil]
        · rfl
    · rename_i other
      exact (other dir free).elim

end

end FileSystem

end Magellan
