import Magellan.Data.Landing
import Mathlib.Data.List.Induction
import Mathlib.Data.List.Perm.Subperm

/-!
# A volume with links of any kind

A link leads to a text, relative or absolute, that may lead upwards. The kernel follows so many links
on the way to a file. `realpath` follows any number of them and goes on where nothing is.
-/

namespace Magellan

inductive Inode (Content : Type) where
  | file (content : Content)
  | directory
  | link (target : String)

/-- Finitely many entries, each of them in a directory. -/
structure Volume (Content : Type) where
  node : AbsolutePath → Option (Inode Content)
  locations : List AbsolutePath
  root : node [] = some .directory
  nodup : locations.Nodup
  listed : ∀ l, node l ≠ none → l ∈ locations
  parent : ∀ l name, node (l ++ [name]) ≠ none → node l = some .directory
  named : ∀ l name, node (l ++ [name]) ≠ none → IsPart name ∧ name ≠ up

/-- The parts of a text that stay where they are. -/
def Stays (part : List Char) : Prop := part = [] ∨ part = ['.']

instance (part : List Char) : Decidable (Stays part) := inferInstanceAs (Decidable (_ ∨ _))

/-- Where a link that lies in `here` starts from. -/
def origin (here : AbsolutePath) (target : String) : AbsolutePath :=
  if target.toList.head? = some '/' then [] else here

namespace Volume

variable {Content : Type} (v : Volume Content)

/-! ## The kernel -/

/-- Walks on up to the first link, which is left to `follow` with all that comes after it. -/
def walkOn (follow : AbsolutePath → List (List Char) → Option AbsolutePath) :
    AbsolutePath → List (List Char) → Option AbsolutePath
  | here, [] => some here
  | here, part :: rest =>
      if Stays part then walkOn follow here rest
      else if part = up then walkOn follow here.dropLast rest
      else match v.node (here ++ [part]) with
      | none => none
      | some .directory => walkOn follow (here ++ [part]) rest
      | some (.file _) => if rest = [] then some (here ++ [part]) else none
      | some (.link target) => follow (origin here target) (pathParts target ++ rest)

/-- The walk of a path that may follow so many links. -/
def walk : Nat → AbsolutePath → List (List Char) → Option AbsolutePath
  | 0 => v.walkOn fun _ _ => none
  | links + 1 => v.walkOn (walk links)

/-- Where `os.stat` gets to. -/
def stat (path : AbsolutePath) : Option AbsolutePath := v.walk 40 [] path

/-- `path.is_dir()`. -/
def isDir (path : AbsolutePath) : Bool :=
  match (v.stat path).bind v.node with
  | some .directory => true
  | _ => false

/-- What can be read at a path; `path.is_file()` is that there is something. -/
def read (path : AbsolutePath) : Option Content :=
  match (v.stat path).bind v.node with
  | some (.file content) => some content
  | _ => none

/-! ## `realpath` -/

/-- The loop of `_joinrealpath`, with the links left to `enter`. -/
def realOn (enter : AbsolutePath → AbsolutePath → List (List Char) → Except AbsolutePath AbsolutePath) :
    AbsolutePath → List (List Char) → Except AbsolutePath AbsolutePath
  | here, [] => .ok here
  | here, part :: rest =>
      if Stays part then realOn enter here rest
      else if part = up then realOn enter here.dropLast rest
      else match v.node (here ++ [part]) with
      | some (.link target) =>
          match enter (here ++ [part]) (origin here target) (pathParts target) with
          | .error path => .error (path ++ rest.filter fun part => ¬ Stays part)
          | .ok there => realOn enter there rest
      | _ => realOn enter (here ++ [part]) rest

/-- `_joinrealpath` inside the links `entered`. A link that leads to itself is left as it is. -/
def joinRealPath : Nat → List AbsolutePath → AbsolutePath → List (List Char) → Except AbsolutePath AbsolutePath
  | 0, _ => fun here _ => .error here
  | depth + 1, entered => v.realOn fun link start parts =>
      if link ∈ entered then .error link else joinRealPath depth (link :: entered) start parts

/-- `path.resolve()`, which raises for a loop. No more links than there are can be inside each other. -/
def realPath (path : AbsolutePath) : Except AbsolutePath AbsolutePath :=
  v.joinRealPath (v.locations.length + 1) [] [] path

/-! ## Straight paths -/

/-- No link on the way, and names only. -/
structure Straight (l : AbsolutePath) : Prop where
  noLink : ∀ p, p <+: l → ∀ target, v.node p ≠ some (.link target)
  names : ∀ part ∈ l, ¬ Stays part ∧ part ≠ up

variable {v} {here l r : AbsolutePath} {part : List Char} {parts rest : List (List Char)}

theorem straight_root : v.Straight [] := by
  refine ⟨?_, by simp⟩
  intro p inside target
  rw [List.prefix_nil.mp inside, v.root]
  simp

theorem Straight.of_prefix (straight : v.Straight l) (inside : here <+: l) : v.Straight here :=
  ⟨fun p within => straight.noLink p (within.trans inside), fun part member => straight.names part (inside.subset member)⟩

theorem Straight.dropLast (straight : v.Straight l) : v.Straight l.dropLast :=
  straight.of_prefix (List.dropLast_prefix l)

theorem Straight.concat (straight : v.Straight l) (stays : ¬ Stays part) (climbs : part ≠ up)
    (noLink : ∀ target, v.node (l ++ [part]) ≠ some (.link target)) : v.Straight (l ++ [part]) := by
  constructor
  · intro p inside
    rcases List.prefix_concat_iff.mp inside with rfl | before
    · exact noLink
    · exact straight.noLink p before
  · simp only [List.mem_append, List.mem_singleton]
    rintro other (before | rfl)
    · exact straight.names other before
    · exact ⟨stays, climbs⟩

theorem Straight.origin (straight : v.Straight here) (target : String) :
    v.Straight (origin here target) := by
  unfold Magellan.origin
  split_ifs
  · exact straight_root
  · exact straight

theorem realOn_straight {enter : AbsolutePath → AbsolutePath → List (List Char) → Except AbsolutePath AbsolutePath}
    (entered : ∀ link start parts there, v.Straight start → enter link start parts = .ok there →
      v.Straight there)
    (straight : v.Straight here) (found : v.realOn enter here parts = .ok r) : v.Straight r := by
  induction parts generalizing here with
  | nil =>
      cases found
      exact straight
  | cons part rest ih =>
      unfold realOn at found
      split_ifs at found with stays climbs
      · exact ih straight found
      · exact ih straight.dropLast found
      · split at found
        · rename_i target link
          split at found
          · cases found
          · rename_i there inside
            exact ih (entered _ _ _ there (straight.origin target) inside) found
        · rename_i noLink
          exact ih (straight.concat stays climbs noLink) found

theorem joinRealPath_straight {depth : Nat} {entered : List AbsolutePath} (straight : v.Straight here)
    (found : v.joinRealPath depth entered here parts = .ok r) : v.Straight r := by
  induction depth generalizing entered here parts r with
  | zero => cases found
  | succ depth ih =>
      apply realOn_straight ?_ straight found
      intro link start parts there straight inside
      split_ifs at inside
      exact ih straight inside

theorem realPath_straight (found : v.realPath l = .ok r) : v.Straight r :=
  joinRealPath_straight straight_root found

/-- Along a straight path the kernel gets to its end, if to anything. -/
theorem walkOn_straight {follow : AbsolutePath → List (List Char) → Option AbsolutePath}
    (straight : v.Straight (here ++ parts)) (found : v.walkOn follow here parts = some r) : r = here ++ parts := by
  induction parts generalizing here with
  | nil =>
      cases found
      simp
  | cons part rest ih =>
      have longer : here ++ [part] ++ rest = here ++ part :: rest := by simp
      have names := straight.names part (by simp)
      rw [walkOn, if_neg names.1, if_neg names.2] at found
      split at found
      · cases found
      · rw [← longer] at straight ⊢
        exact ih straight found
      · split_ifs at found with last
        cases found
        rw [last]
      · rename_i target link
        refine absurd link (straight.noLink _ ?_ target)
        exact ⟨rest, longer⟩

theorem stat_straight (straight : v.Straight l) (found : v.stat l = some r) : r = l :=
  walkOn_straight straight found

/-- The directories on the way to an entry. -/
theorem directory_of_below (there : v.node (l ++ rest) ≠ none) (below : rest ≠ []) :
    v.node l = some .directory := by
  induction rest using List.reverseRecOn with
  | nil => contradiction
  | append_singleton rest name ih =>
      rw [← List.append_assoc] at there
      have above := v.parent _ _ there
      rcases eq_or_ne rest [] with rfl | more
      · simpa using above
      · exact ih (by simp [above]) more

theorem isName_of_mem (there : v.node l ≠ none) (member : part ∈ l) : IsPart part ∧ part ≠ up := by
  obtain ⟨before, after, rfl⟩ := List.append_of_mem member
  rcases eq_or_ne after [] with rfl | more
  · exact v.named before part there
  · apply v.named before part
    have longer : before ++ [part] ++ after = before ++ part :: after := by simp
    rw [directory_of_below (longer ▸ there) more]
    simp

theorem not_stays_of_isPart (isPart : IsPart part) : ¬ Stays part := by
  rintro (rfl | rfl)
  · exact isPart.nonempty rfl
  · exact isPart.other rfl

/-- What is there and is no link is reached straight. -/
theorem straight_of_node (there : v.node l ≠ none) (noLink : ∀ target, v.node l ≠ some (.link target)) :
    v.Straight l := by
  constructor
  · rintro p ⟨rest, rfl⟩ target link
    rcases eq_or_ne rest [] with rfl | more
    · exact noLink target (by simpa using link)
    · rw [directory_of_below there more] at link
      cases link
  · intro part member
    obtain ⟨isPart, climbs⟩ := isName_of_mem there member
    exact ⟨not_stays_of_isPart isPart, climbs⟩

section

variable {follow : AbsolutePath → List (List Char) → Option AbsolutePath} {path below : List (List Char)}

/-- Down to an entry that is no link. -/
theorem walkOn_names (there : v.node (here ++ below) ≠ none)
    (noLink : ∀ target, v.node (here ++ below) ≠ some (.link target)) :
    v.walkOn follow here below = some (here ++ below) := by
  induction below generalizing here with
  | nil => simp [walkOn]
  | cons part rest ih =>
      obtain ⟨isPart, climbs⟩ : IsPart part ∧ part ≠ up := isName_of_mem there (by simp)
      have longer : here ++ [part] ++ rest = here ++ part :: rest := by simp
      rw [walkOn, if_neg (not_stays_of_isPart isPart), if_neg climbs]
      rcases eq_or_ne rest [] with rfl | more
      · cases last : v.node (here ++ [part]) with
        | none => exact absurd last there
        | some inode =>
            cases inode with
            | link target => exact absurd last (noLink target)
            | directory => simp [walkOn]
            | file content => simp
      · rw [← longer] at there noLink ⊢
        rw [directory_of_below there more]
        exact ih there noLink

theorem stat_of_node (there : v.node l ≠ none) (noLink : ∀ target, v.node l ≠ some (.link target)) :
    v.stat l = some l := walkOn_names there noLink

theorem walkOn_append (directory : v.node r = some .directory) (there : v.node (r ++ below) ≠ none)
    (noLink : ∀ target, v.node (r ++ below) ≠ some (.link target))
    (further : ∀ start parts, follow start parts = some r → follow start (parts ++ below) = some (r ++ below))
    (found : v.walkOn follow here path = some r) : v.walkOn follow here (path ++ below) = some (r ++ below) := by
  induction path generalizing here with
  | nil =>
      cases found
      exact walkOn_names there noLink
  | cons part rest ih =>
      rw [List.cons_append, walkOn]
      rw [walkOn] at found
      by_cases stays : Stays part
      · rw [if_pos stays] at found ⊢
        exact ih found
      · rw [if_neg stays] at found ⊢
        by_cases climbs : part = up
        · rw [if_pos climbs] at found ⊢
          exact ih found
        · rw [if_neg climbs] at found ⊢
          cases entry : v.node (here ++ [part]) with
          | none => simp [entry] at found
          | some inode =>
              simp only [entry] at found ⊢
              cases inode with
              | directory => exact ih found
              | link target =>
                  have on := further _ _ found
                  rwa [List.append_assoc] at on
              | file content =>
                  split_ifs at found
                  cases found
                  rw [directory] at entry
                  cases entry

/-- From a directory that a path leads to, on along names to an entry that is no link. -/
theorem walk_append {links : Nat} (found : v.walk links here path = some r)
    (directory : v.node r = some .directory) (there : v.node (r ++ below) ≠ none)
    (noLink : ∀ target, v.node (r ++ below) ≠ some (.link target)) :
    v.walk links here (path ++ below) = some (r ++ below) := by
  induction links generalizing here path with
  | zero =>
      apply walkOn_append directory there noLink ?_ found
      intro start parts nothing
      cases nothing
  | succ links ih => exact walkOn_append directory there noLink (fun start parts found => ih found) found

end

/-! ## The kernel and `realpath` agree -/

/-- What a path leads to and in how many steps, with what each link leads to on its own. -/
inductive Resolves (v : Volume Content) : Nat → AbsolutePath → List (List Char) → AbsolutePath → Prop
  | nil (here : AbsolutePath) : Resolves v 0 here [] here
  | stays {n : Nat} {here r : AbsolutePath} {part : List Char} {rest : List (List Char)} :
      Stays part → Resolves v n here rest r → Resolves v (n + 1) here (part :: rest) r
  | climbs {n : Nat} {here r : AbsolutePath} {rest : List (List Char)} :
      Resolves v n here.dropLast rest r → Resolves v (n + 1) here (up :: rest) r
  | enters {n : Nat} {here r : AbsolutePath} {part : List Char} {rest : List (List Char)} :
      ¬ Stays part → part ≠ up → (∀ target, v.node (here ++ [part]) ≠ some (.link target)) →
      Resolves v n (here ++ [part]) rest r → Resolves v (n + 1) here (part :: rest) r
  | link {m n : Nat} {here there r : AbsolutePath} {part : List Char} {rest : List (List Char)}
      {target : String} :
      ¬ Stays part → part ≠ up → v.node (here ++ [part]) = some (.link target) →
      Resolves v m (origin here target) (pathParts target) there → Resolves v n there rest r →
      Resolves v (m + n + 1) here (part :: rest) r

theorem not_stays_up : ¬ Stays up := by decide

theorem Resolves.unique {n m : Nat} {r' : AbsolutePath} (one : Resolves v n here parts r)
    (other : Resolves v m here parts r') : n = m ∧ r = r' := by
  induction one generalizing m r' with
  | nil =>
      cases other
      exact ⟨rfl, rfl⟩
  | stays stays _ ih =>
      cases other with
      | stays _ other => simpa using ih other
      | climbs => exact absurd stays not_stays_up
      | enters not_ | link not_ => exact absurd stays not_
  | climbs _ ih =>
      cases other with
      | stays stays => exact absurd stays not_stays_up
      | climbs other => simpa using ih other
      | enters _ climbs | link _ climbs => exact absurd rfl climbs
  | enters not_ climbs noLink _ ih =>
      cases other with
      | stays stays => exact absurd stays not_
      | climbs => exact absurd rfl climbs
      | enters _ _ _ other => simpa using ih other
      | link _ _ link => exact absurd link (noLink _)
  | link not_ climbs link _ _ inside after =>
      cases other with
      | stays stays => exact absurd stays not_
      | climbs => exact absurd rfl climbs
      | enters _ _ noLink => exact absurd link (noLink _)
      | link _ _ link' target' rest' =>
          cases link.symm.trans link'
          obtain ⟨rfl, rfl⟩ := inside target'
          obtain ⟨rfl, rfl⟩ := after rest'
          exact ⟨rfl, rfl⟩

/-- The path up to a point and the rest from there on. -/
theorem Resolves.split {n : Nat} (resolves : Resolves v n here (parts ++ rest) r) :
    ∃ a b there, Resolves v a here parts there ∧ Resolves v b there rest r := by
  induction parts generalizing n here with
  | nil => exact ⟨0, n, here, .nil here, resolves⟩
  | cons part parts ih =>
      cases resolves with
      | stays stays resolves =>
          obtain ⟨a, b, there, before, after⟩ := ih resolves
          exact ⟨a + 1, b, there, .stays stays before, after⟩
      | climbs resolves =>
          obtain ⟨a, b, there, before, after⟩ := ih resolves
          exact ⟨a + 1, b, there, .climbs before, after⟩
      | enters not_ climbs noLink resolves =>
          obtain ⟨a, b, there, before, after⟩ := ih resolves
          exact ⟨a + 1, b, there, .enters not_ climbs noLink before, after⟩
      | link not_ climbs link target resolves =>
          obtain ⟨a, b, there, before, after⟩ := ih resolves
          exact ⟨_, b, there, .link not_ climbs link target before, after⟩

theorem resolves_of_walkOn {follow : AbsolutePath → List (List Char) → Option AbsolutePath}
    (followed : ∀ start parts, follow start parts = some r → ∃ n, Resolves v n start parts r)
    (found : v.walkOn follow here parts = some r) : ∃ n, Resolves v n here parts r := by
  induction parts generalizing here with
  | nil =>
      cases found
      exact ⟨0, .nil _⟩
  | cons part rest ih =>
      rw [walkOn] at found
      by_cases stays : Stays part
      · rw [if_pos stays] at found
        obtain ⟨n, on⟩ := ih found
        exact ⟨n + 1, .stays stays on⟩
      · rw [if_neg stays] at found
        by_cases climbs : part = up
        · rw [if_pos climbs] at found
          obtain ⟨n, on⟩ := ih found
          rw [climbs]
          exact ⟨n + 1, .climbs on⟩
        · rw [if_neg climbs] at found
          split at found
          · cases found
          · rename_i directory
            obtain ⟨n, on⟩ := ih found
            exact ⟨n + 1, .enters stays climbs (by simp [directory]) on⟩
          · rename_i content file
            split_ifs at found with last
            cases found
            rw [last]
            exact ⟨1, .enters stays climbs (by simp [file]) (.nil _)⟩
          · rename_i target link
            obtain ⟨n, on⟩ := followed _ _ found
            obtain ⟨a, b, there, inside, after⟩ := on.split
            exact ⟨a + b + 1, .link stays climbs link inside after⟩

theorem resolves_of_walk {links : Nat} (found : v.walk links here parts = some r) :
    ∃ n, Resolves v n here parts r := by
  induction links generalizing here parts with
  | zero =>
      apply resolves_of_walkOn ?_ found
      intro start parts nothing
      cases nothing
  | succ links ih => exact resolves_of_walkOn (fun start parts found => ih found) found

/-- The steps that a link takes on its own. -/
def Takes (v : Volume Content) (link : AbsolutePath) (n : Nat) : Prop :=
  ∃ here part target there, link = here ++ [part] ∧ v.node link = some (.link target) ∧
    Resolves v n (origin here target) (pathParts target) there

theorem Takes.unique {n m : Nat} (one : v.Takes l n) (other : v.Takes l m) : n = m := by
  obtain ⟨here, part, target, there, rfl, link, resolves⟩ := one
  obtain ⟨here', part', target', there', same, link', resolves'⟩ := other
  obtain ⟨rfl, -⟩ := List.append_inj' same rfl
  cases link.symm.trans link'
  exact (resolves.unique resolves').1

/-- Links inside each other, each of which takes at least so many steps. -/
structure Entered (v : Volume Content) (entered : List AbsolutePath) (n : Nat) : Prop where
  distinct : entered.Nodup
  longer : ∀ l ∈ entered, ∃ m, v.Takes l m ∧ n ≤ m

theorem Entered.fewer {entered : List AbsolutePath} {n m : Nat} (inside : v.Entered entered n) (le : m ≤ n) :
    v.Entered entered m := by
  refine ⟨inside.distinct, ?_⟩
  intro l member
  obtain ⟨steps, takes, longer⟩ := inside.longer l member
  exact ⟨steps, takes, le.trans longer⟩

theorem Entered.length_le {entered : List AbsolutePath} {n : Nat} (inside : v.Entered entered n) :
    entered.length ≤ v.locations.length := by
  refine (List.subperm_of_subset inside.distinct ?_).length_le
  intro l member
  obtain ⟨-, ⟨-, -, target, -, -, link, -⟩, -⟩ := inside.longer l member
  exact v.listed l (by simp [link])

/-- What takes fewer steps than the links around it meets none of them. -/
theorem joinRealPath_of_resolves {depth n : Nat} {entered : List AbsolutePath}
    (resolves : Resolves v n here parts r) (inside : v.Entered entered n)
    (enough : v.locations.length < depth + entered.length) :
    v.joinRealPath depth entered here parts = .ok r := by
  induction resolves generalizing depth entered with
  | nil here =>
      obtain ⟨depth, rfl⟩ : ∃ less, depth = less + 1 := by
        have bounded := inside.length_le
        exact Nat.exists_eq_succ_of_ne_zero (by omega)
      rfl
  | stays stays _ ih =>
      have on := ih (inside.fewer (Nat.le_succ _)) enough
      cases depth with
      | zero => cases on
      | succ depth =>
          rw [joinRealPath, realOn, if_pos stays]
          exact on
  | climbs _ ih =>
      have on := ih (inside.fewer (Nat.le_succ _)) enough
      cases depth with
      | zero => cases on
      | succ depth =>
          rw [joinRealPath, realOn, if_neg not_stays_up, if_pos rfl]
          exact on
  | enters not_ climbs noLink _ ih =>
      have on := ih (inside.fewer (Nat.le_succ _)) enough
      cases depth with
      | zero => cases on
      | succ depth =>
          rw [joinRealPath, realOn, if_neg not_, if_neg climbs]
          split
          · rename_i target link
            exact absurd link (noLink target)
          · exact on
  | @link m n here there r part rest target not_ climbs link inner after ih ih' =>
      have takes : v.Takes (here ++ [part]) m := ⟨here, part, target, there, rfl, link, inner⟩
      have fresh : here ++ [part] ∉ entered := by
        intro member
        obtain ⟨steps, again, longer⟩ := inside.longer _ member
        have same := takes.unique again
        omega
      have deeper : v.Entered ((here ++ [part]) :: entered) m := by
        have fewer : v.Entered entered m := inside.fewer (by omega)
        exact ⟨List.nodup_cons.mpr ⟨fresh, inside.distinct⟩,
          List.forall_mem_cons.mpr ⟨⟨m, takes, le_rfl⟩, fewer.longer⟩⟩
      have on := ih' (inside.fewer (by omega)) enough
      cases depth with
      | zero => cases on
      | succ depth =>
          have target_ : v.joinRealPath depth ((here ++ [part]) :: entered) (origin here target)
              (pathParts target) = .ok there := by
            apply ih deeper
            rw [List.length_cons]
            omega
          rw [joinRealPath, realOn, if_neg not_, if_neg climbs]
          simp only [link, if_neg fresh, target_]
          exact on

theorem realPath_of_stat (found : v.stat l = some r) : v.realPath l = .ok r := by
  obtain ⟨n, resolves⟩ := resolves_of_walk found
  exact joinRealPath_of_resolves resolves ⟨List.nodup_nil, by simp⟩ (by simp)

/-! ## Given entries -/

section

variable (entries : List (AbsolutePath × Inode Content))

def nodeOf (l : AbsolutePath) : Option (Inode Content) :=
  if l = [] then some .directory else (entries.find? (·.1 = l)).map (·.2)

/-- Each entry has a name and lies in a directory. -/
def formed : Bool :=
  entries.all fun entry =>
    match entry.1.getLast?, nodeOf entries entry.1.dropLast with
    | some name, some .directory => (name ≠ [] ∧ name ≠ ['.'] ∧ '/' ∉ name) ∧ name ≠ up
    | _, _ => false

variable {entries}

theorem entry_of_nodeOf (below : l ≠ []) (there : nodeOf entries l ≠ none) : ∃ entry ∈ entries, entry.1 = l := by
  rw [nodeOf, if_neg below] at there
  cases found : entries.find? (·.1 = l) with
  | none => simp [found] at there
  | some entry => exact ⟨entry, List.mem_of_find?_eq_some found, by simpa using List.find?_some found⟩

theorem formed_entry (valid : formed entries = true) {name : List Char}
    (there : nodeOf entries (l ++ [name]) ≠ none) :
    nodeOf entries l = some .directory ∧ IsPart name ∧ name ≠ up := by
  obtain ⟨entry, member, here⟩ := entry_of_nodeOf (by simp) there
  have checked := List.all_eq_true.mp valid entry member
  rw [here, List.getLast?_concat, List.dropLast_concat] at checked
  split at checked
  · rename_i other last directory
    cases last
    obtain ⟨⟨nonempty, other, slash⟩, climbs⟩ := of_decide_eq_true checked
    exact ⟨directory, ⟨nonempty, other, slash⟩, climbs⟩
  · cases checked

def ofEntries (entries : List (AbsolutePath × Inode Content)) (distinct : ([] :: entries.map Prod.fst).Nodup)
    (valid : formed entries = true) : Volume Content where
  node := nodeOf entries
  locations := [] :: entries.map Prod.fst
  root := rfl
  nodup := distinct
  listed := by
    intro l there
    rcases eq_or_ne l [] with rfl | below
    · simp
    · obtain ⟨entry, member, here⟩ := entry_of_nodeOf below there
      rw [← here]
      exact List.mem_cons_of_mem _ (List.mem_map_of_mem member)
  parent := fun _ _ there => (formed_entry valid there).1
  named := fun _ _ there => (formed_entry valid there).2

end

end Volume

end Magellan
