import Mathlib.Data.List.Lex
import Mathlib.Data.List.Sort
import Mathlib.Data.String.Basic
import Mathlib.Tactic.Common

/-!
# JSON texts

JSON values, how they are written without spaces, and why two values never have one text: a value
can be read off the text before what follows it.
-/

namespace Magellan

inductive Json (N : Type) where
  | null
  | bool (b : Bool)
  | number (n : N)
  | string (s : String)
  | array (items : List (Json N))
  | object (entries : List (String × Json N))

namespace Json

variable {N : Type}

theorem sizeOf_entry {entries : List (String × Json N)} {e : String × Json N} (mem : e ∈ entries) :
    sizeOf e.2 < sizeOf entries := by
  have entry := List.sizeOf_lt_of_mem mem
  obtain ⟨key, value⟩ := e
  rw [Prod.mk.sizeOf_spec] at entry
  change sizeOf value < _
  omega

@[elab_as_elim, induction_eliminator]
theorem induction {P : Json N → Prop} (null : P .null) (bool : ∀ b, P (.bool b))
    (number : ∀ n, P (.number n)) (string : ∀ s, P (.string s))
    (array : ∀ items, (∀ j ∈ items, P j) → P (.array items))
    (object : ∀ entries, (∀ e ∈ entries, P e.2) → P (.object entries)) (j : Json N) : P j :=
  match j with
  | .null => null
  | .bool b => bool b
  | .number n => number n
  | .string s => string s
  | .array items => array items fun j _ => induction null bool number string array object j
  | .object entries => object entries fun e mem =>
      have := sizeOf_entry mem
      induction null bool number string array object e.2

/-! ## Writing -/

/-- A character of a string that is not restricted to ASCII. -/
def escapeChar (c : Char) : List Char :=
  if c = '"' then ['\\', '"']
  else if c = '\\' then ['\\', '\\']
  else if c = '\n' then ['\\', 'n']
  else if c = '\r' then ['\\', 'r']
  else if c = '\t' then ['\\', 't']
  else if c.toNat = 12 then ['\\', 'f']
  else if c.toNat = 8 then ['\\', 'b']
  else if c.toNat < 32 then
    ['\\', 'u', '0', '0', Nat.digitChar (c.toNat / 16), Nat.digitChar (c.toNat % 16)]
  else [c]

def quote (s : String) : List Char := '"' :: s.toList.flatMap escapeChar ++ ['"']

def commaSeparated : List (List Char) → List Char
  | [] => []
  | text :: rest => text ++ rest.flatMap (',' :: ·)

def write (number : N → List Char) : Json N → List Char
  | null => ['n', 'u', 'l', 'l']
  | bool true => ['t', 'r', 'u', 'e']
  | bool false => ['f', 'a', 'l', 's', 'e']
  | .number n => number n
  | string s => quote s
  | array items => '[' :: commaSeparated (items.map (write number)) ++ [']']
  | object entries =>
      '{' :: commaSeparated (entries.map fun e => quote e.1 ++ ':' :: write number e.2) ++ ['}']
decreasing_by
  · decreasing_tactic
  · rename_i mem
    have := sizeOf_entry mem
    decreasing_tactic

/-- Every object with its entries in the order of their keys. -/
def sortKeys : Json N → Json N
  | array items => array (items.map sortKeys)
  | object entries =>
      object ((entries.map fun e => (e.1, sortKeys e.2)).insertionSort fun a b => a.1 ≤ b.1)
  | j => j
decreasing_by
  · decreasing_tactic
  · rename_i mem
    have := sizeOf_entry mem
    decreasing_tactic

/-- Every number in the value has `p`. -/
def allNumbers (p : N → Bool) : Json N → Bool
  | .number n => p n
  | array items => (items.map (allNumbers p)).all id
  | object entries => (entries.map fun e => allNumbers p e.2).all id
  | _ => true
decreasing_by
  · decreasing_tactic
  · rename_i mem
    have := sizeOf_entry mem
    decreasing_tactic

theorem all_map_insertionSort {α : Type} (f : α → Bool) (r : α → α → Prop) [DecidableRel r]
    (l : List α) : ((l.insertionSort r).map f).all id = (l.map f).all id :=
  ((List.perm_insertionSort r l).map f).all_eq

theorem allNumbers_sortKeys (p : N → Bool) (j : Json N) :
    (sortKeys j).allNumbers p = j.allNumbers p := by
  induction j with
  | null => rw [sortKeys] <;> simp
  | bool b => rw [sortKeys] <;> simp
  | number n => rw [sortKeys] <;> simp
  | string s => rw [sortKeys] <;> simp
  | array items ih =>
      rw [sortKeys, allNumbers, allNumbers, List.map_map]
      exact congrArg (List.all · id) (List.map_congr_left ih)
  | object entries ih =>
      rw [sortKeys, allNumbers, allNumbers, all_map_insertionSort, List.map_map]
      exact congrArg (List.all · id) (List.map_congr_left ih)

/-! ## Strings -/

def hexValue (c : Char) : Nat := if c.toNat < 58 then c.toNat - 48 else c.toNat - 87

/-- The first character of the text of a string, and the rest. -/
def readChar : List Char → Option (Char × List Char)
  | [] => none
  | '\\' :: 'u' :: _ :: _ :: high :: low :: rest =>
      some (Char.ofNat (16 * hexValue high + hexValue low), rest)
  | '\\' :: c :: rest =>
      some (if c = 'n' then '\n' else if c = 'r' then '\r' else if c = 't' then '\t'
        else if c = 'f' then Char.ofNat 12 else if c = 'b' then Char.ofNat 8 else c, rest)
  | c :: rest => some (c, rest)

theorem readChar_escapeChar (c : Char) (rest : List Char) :
    readChar (escapeChar c ++ rest) = some (c, rest) := by
  have hex : ∀ n < 32, 16 * hexValue (Nat.digitChar (n / 16)) + hexValue (Nat.digitChar (n % 16)) = n := by
    decide
  unfold escapeChar
  split_ifs with quote back line return_ tab feed bell control
  · rw [quote]
    rfl
  · rw [back]
    rfl
  · rw [line]
    rfl
  · rw [return_]
    rfl
  · rw [tab]
    rfl
  · rw [← Char.ofNat_toNat c, feed]
    rfl
  · rw [← Char.ofNat_toNat c, bell]
    rfl
  · change some (Char.ofNat _, rest) = _
    rw [hex _ control, Char.ofNat_toNat]
  · simp [readChar, back]

theorem escapeChar_inj {c d : Char} {s t : List Char}
    (h : escapeChar c ++ s = escapeChar d ++ t) : c = d ∧ s = t := by
  have read := congrArg readChar h
  rw [readChar_escapeChar, readChar_escapeChar] at read
  cases read
  exact ⟨rfl, rfl⟩

theorem escapeChar_head (c : Char) : ∃ d rest, escapeChar c = d :: rest ∧ d ≠ '"' := by
  unfold escapeChar
  split_ifs with quote
  all_goals first
    | exact ⟨_, _, rfl, by decide⟩
    | exact ⟨_, _, rfl, quote⟩

theorem escape_inj {xs ys s t : List Char}
    (h : xs.flatMap escapeChar ++ '"' :: s = ys.flatMap escapeChar ++ '"' :: t) : xs = ys ∧ s = t := by
  induction xs generalizing ys with
  | nil =>
      cases ys with
      | nil => exact ⟨rfl, by simpa using h⟩
      | cons d ys =>
          obtain ⟨e, rest, shape, other⟩ := escapeChar_head d
          rw [List.flatMap_cons, shape] at h
          simp only [List.flatMap_nil, List.nil_append, List.cons_append, List.cons.injEq] at h
          exact absurd h.1.symm other
  | cons c xs ih =>
      cases ys with
      | nil =>
          obtain ⟨e, rest, shape, other⟩ := escapeChar_head c
          rw [List.flatMap_cons, shape] at h
          simp only [List.flatMap_nil, List.nil_append, List.cons_append, List.cons.injEq] at h
          exact absurd h.1 other
      | cons d ys =>
          rw [List.flatMap_cons, List.flatMap_cons, List.append_assoc, List.append_assoc] at h
          obtain ⟨rfl, rest⟩ := escapeChar_inj h
          obtain ⟨rfl, same⟩ := ih rest
          exact ⟨rfl, same⟩

theorem quote_inj {a b : String} {s t : List Char} (h : quote a ++ s = quote b ++ t) :
    a = b ∧ s = t := by
  simp only [quote, List.cons_append, List.append_assoc, List.cons.injEq, List.nil_append,
    true_and] at h
  obtain ⟨same, rest⟩ := escape_inj h
  exact ⟨String.toList_injective same, rest⟩

/-! ## One text, one value -/

/-- What may follow a value. -/
def Delimits (c : Char) : Prop := c = ',' ∨ c = ']' ∨ c = '}'

instance (c : Char) : Decidable (Delimits c) :=
  inferInstanceAs (Decidable (c = ',' ∨ c = ']' ∨ c = '}'))

def Delimited (rest : List Char) : Prop := ∀ c ∈ rest.head?, Delimits c

inductive Kind where
  | null
  | bool
  | number
  | string
  | array
  | object
  deriving DecidableEq

def kind : Json N → Kind
  | null => .null
  | bool _ => .bool
  | .number _ => .number
  | string _ => .string
  | array _ => .array
  | object _ => .object

/-- The kind of the value that begins with `c`. -/
def kindOf (c : Char) : Kind :=
  if c = 'n' then .null else if c = 't' ∨ c = 'f' then .bool else if c = '"' then .string
  else if c = '[' then .array else if c = '{' then .object else .number

/-- Numbers have different texts, which contain no delimiter and begin like no other value. -/
structure NumberText (number : N → List Char) : Prop where
  injective : Function.Injective number
  undelimited : ∀ n, ∀ c ∈ number n, ¬ Delimits c
  begins : ∀ n, ∃ c rest, number n = c :: rest ∧ kindOf c = .number

/-! ### Integers -/

def intText (i : Int) : List Char := (toString i).toList

theorem intText_ofNat (n : Nat) : intText (.ofNat n) = Nat.toDigits 10 n := Nat.toList_repr

theorem intText_negSucc (n : Nat) : intText (.negSucc n) = '-' :: Nat.toDigits 10 (n + 1) := by
  change ("-" ++ Nat.repr (n + 1)).toList = _
  rw [String.toList_append, Nat.toList_repr]
  rfl

theorem digit_of_mem {n : Nat} {c : Char} (mem : c ∈ Nat.toDigits 10 n) : c.isDigit = true :=
  Nat.isDigit_of_mem_toDigits (by decide) (by decide) mem

theorem toDigits_inj {m n : Nat} (h : Nat.toDigits 10 m = Nat.toDigits 10 n) : m = n := by
  rw [← Nat.ofDigitChars_ten_toDigits (n := m), h, Nat.ofDigitChars_ten_toDigits]

theorem minus_not_mem (n : Nat) (rest : List Char) : Nat.toDigits 10 n ≠ '-' :: rest := by
  intro h
  have mem : '-' ∈ Nat.toDigits 10 n := by
    rw [h]
    exact List.mem_cons_self
  exact absurd (digit_of_mem mem) (by decide)

theorem intText_injective : Function.Injective intText := by
  intro i j h
  cases i with
  | ofNat m =>
      cases j with
      | ofNat n =>
          rw [intText_ofNat, intText_ofNat] at h
          rw [toDigits_inj h]
      | negSucc n =>
          rw [intText_ofNat, intText_negSucc] at h
          exact absurd h (minus_not_mem _ _)
  | negSucc m =>
      cases j with
      | ofNat n =>
          rw [intText_ofNat, intText_negSucc] at h
          exact absurd h.symm (minus_not_mem _ _)
      | negSucc n =>
          rw [intText_negSucc, intText_negSucc, List.cons.injEq] at h
          rw [Nat.succ.inj (toDigits_inj h.2)]

theorem mem_intText {i : Int} {c : Char} (mem : c ∈ intText i) : c = '-' ∨ c.isDigit = true := by
  cases i with
  | ofNat n =>
      rw [intText_ofNat] at mem
      exact .inr (digit_of_mem mem)
  | negSucc n =>
      rw [intText_negSucc] at mem
      rcases List.mem_cons.mp mem with minus | digit
      · exact .inl minus
      · exact .inr (digit_of_mem digit)

theorem ne_of_isDigit {c d : Char} (digit : c.isDigit = true) (other : d.isDigit = false) : c ≠ d := by
  rintro rfl
  rw [digit] at other
  cases other

theorem not_delimits_of_mem_intText {i : Int} {c : Char} (mem : c ∈ intText i) : ¬ Delimits c := by
  rcases mem_intText mem with rfl | digit
  · decide
  · rintro (comma | bracket | brace)
    · exact ne_of_isDigit digit (by decide) comma
    · exact ne_of_isDigit digit (by decide) bracket
    · exact ne_of_isDigit digit (by decide) brace

theorem kindOf_of_mem_intText {i : Int} {c : Char} (mem : c ∈ intText i) : kindOf c = .number := by
  rcases mem_intText mem with rfl | digit
  · decide
  · have no (d : Char) (other : d.isDigit = false) : c ≠ d := ne_of_isDigit digit other
    unfold kindOf
    rw [if_neg (no _ (by decide)), if_neg (not_or.mpr ⟨no _ (by decide), no _ (by decide)⟩),
      if_neg (no _ (by decide)), if_neg (no _ (by decide)), if_neg (no _ (by decide))]

theorem intText_ne_nil (i : Int) : intText i ≠ [] := by
  cases i with
  | ofNat n =>
      rw [intText_ofNat]
      exact Nat.toDigits_ne_nil
  | negSucc n =>
      rw [intText_negSucc]
      exact List.cons_ne_nil _ _

/-! ### Values -/

theorem undelimited_inj {a b s t : List Char} (left : ∀ c ∈ a, ¬ Delimits c)
    (right : ∀ c ∈ b, ¬ Delimits c) (ends : Delimited s) (ends' : Delimited t)
    (h : a ++ s = b ++ t) : a = b ∧ s = t := by
  induction a generalizing b with
  | nil =>
      cases b with
      | nil => exact ⟨rfl, h⟩
      | cons d b =>
          rw [List.nil_append] at h
          exact absurd (ends d (by rw [h]; rfl)) (right d List.mem_cons_self)
  | cons c a ih =>
      cases b with
      | nil =>
          rw [List.nil_append] at h
          exact absurd (ends' c (by rw [← h]; rfl)) (left c List.mem_cons_self)
      | cons d b =>
          simp only [List.cons_append, List.cons.injEq] at h
          obtain ⟨rfl, rest⟩ := h
          obtain ⟨rfl, same⟩ := ih (fun c mem => left c (List.mem_cons_of_mem _ mem))
            (fun c mem => right c (List.mem_cons_of_mem _ mem)) rest
          exact ⟨rfl, same⟩

section

variable {α : Type} {f : α → List Char} {close : Char} {xs ys : List α} {s t : List Char}

theorem delimited_rest (closes : Delimits close) :
    Delimited ((xs.map f).flatMap (',' :: ·) ++ close :: s) := by
  intro c first
  cases xs with
  | nil =>
      cases first
      exact closes
  | cons x xs =>
      cases first
      exact .inl rfl

theorem rest_inj (closes : Delimits close) (noComma : close ≠ ',')
    (one : ∀ x ∈ xs, ∀ y s t, Delimited s → Delimited t → f x ++ s = f y ++ t → x = y ∧ s = t)
    (h : (xs.map f).flatMap (',' :: ·) ++ close :: s = (ys.map f).flatMap (',' :: ·) ++ close :: t) :
    xs = ys ∧ s = t := by
  induction xs generalizing ys with
  | nil =>
      cases ys with
      | nil => simpa using h
      | cons y ys =>
          simp only [List.map_nil, List.flatMap_nil, List.nil_append, List.map_cons,
            List.flatMap_cons, List.cons_append, List.cons.injEq] at h
          exact absurd h.1 noComma
  | cons x xs ih =>
      cases ys with
      | nil =>
          simp only [List.map_nil, List.flatMap_nil, List.nil_append, List.map_cons,
            List.flatMap_cons, List.cons_append, List.cons.injEq] at h
          exact absurd h.1.symm noComma
      | cons y ys =>
          simp only [List.map_cons, List.flatMap_cons, List.cons_append, List.cons.injEq,
            List.append_assoc, true_and] at h
          obtain ⟨rfl, rest⟩ := one x List.mem_cons_self y _ _ (delimited_rest closes)
            (delimited_rest closes) h
          obtain ⟨rfl, same⟩ := ih (fun x mem => one x (List.mem_cons_of_mem _ mem)) rest
          exact ⟨rfl, same⟩

theorem commaSeparated_inj (closes : Delimits close) (noComma : close ≠ ',')
    (open_ : ∀ x, ∃ c rest, f x = c :: rest ∧ c ≠ close)
    (one : ∀ x ∈ xs, ∀ y s t, Delimited s → Delimited t → f x ++ s = f y ++ t → x = y ∧ s = t)
    (h : commaSeparated (xs.map f) ++ close :: s = commaSeparated (ys.map f) ++ close :: t) :
    xs = ys ∧ s = t := by
  cases xs with
  | nil =>
      cases ys with
      | nil => simpa [commaSeparated] using h
      | cons y ys =>
          obtain ⟨c, rest, shape, other⟩ := open_ y
          simp only [List.map_nil, List.map_cons, commaSeparated, shape, List.nil_append,
            List.cons_append, List.cons.injEq] at h
          exact absurd h.1.symm other
  | cons x xs =>
      cases ys with
      | nil =>
          obtain ⟨c, rest, shape, other⟩ := open_ x
          simp only [List.map_nil, List.map_cons, commaSeparated, shape, List.nil_append,
            List.cons_append, List.cons.injEq] at h
          exact absurd h.1 other
      | cons y ys =>
          simp only [List.map_cons, commaSeparated, List.append_assoc] at h
          obtain ⟨rfl, rest⟩ := one x List.mem_cons_self y _ _ (delimited_rest closes)
            (delimited_rest closes) h
          obtain ⟨rfl, same⟩ := rest_inj closes noComma
            (fun x mem => one x (List.mem_cons_of_mem _ mem)) rest
          exact ⟨rfl, same⟩

end

section

variable {number : N → List Char} (texts : NumberText number)

include texts

theorem write_begins (j : Json N) :
    ∃ c rest, write number j = c :: rest ∧ kindOf c = j.kind ∧ ¬ Delimits c := by
  cases j with
  | null => exact ⟨'n', _, by rw [write], rfl, by simp [Delimits]⟩
  | bool b =>
      cases b with
      | true => exact ⟨'t', _, by rw [write], rfl, by simp [Delimits]⟩
      | false => exact ⟨'f', _, by rw [write], rfl, by simp [Delimits]⟩
  | number n =>
      obtain ⟨c, rest, shape, begins⟩ := texts.begins n
      have within : c ∈ number n := by
        rw [shape]
        exact List.mem_cons_self
      exact ⟨c, rest, by rw [write, shape], begins, texts.undelimited n c within⟩
  | string s => exact ⟨'"', _, by rw [write, quote, List.cons_append], rfl, by simp [Delimits]⟩
  | array items => exact ⟨'[', _, by rw [write, List.cons_append], rfl, by simp [Delimits]⟩
  | object entries => exact ⟨'{', _, by rw [write, List.cons_append], rfl, by simp [Delimits]⟩

theorem kind_eq {a b : Json N} {s t : List Char} (h : write number a ++ s = write number b ++ t) :
    a.kind = b.kind := by
  obtain ⟨c, rest, shape, begins, -⟩ := write_begins texts a
  obtain ⟨d, rest', shape', begins', -⟩ := write_begins texts b
  rw [shape, shape', List.cons_append, List.cons_append, List.cons.injEq] at h
  rw [← begins, ← begins', h.1]

/-- A value can be read off the text before what follows it. -/
theorem write_append_inj (a b : Json N) {s t : List Char} (ends : Delimited s)
    (ends' : Delimited t) (h : write number a ++ s = write number b ++ t) : a = b ∧ s = t := by
  have kinds := kind_eq texts h
  induction a generalizing b s t with
  | null =>
      cases b <;> cases kinds
      simpa [write] using h
  | bool v =>
      cases b with
      | bool v' => cases v <;> cases v' <;> simp_all [write]
      | _ => cases kinds
  | number n =>
      cases b with
      | number m =>
          rw [write, write] at h
          obtain ⟨same, rest⟩ := undelimited_inj (texts.undelimited n) (texts.undelimited m) ends
            ends' h
          exact ⟨by rw [texts.injective same], rest⟩
      | _ => cases kinds
  | string v =>
      cases b with
      | string v' =>
          rw [write, write] at h
          obtain ⟨rfl, rest⟩ := quote_inj h
          exact ⟨rfl, rest⟩
      | _ => cases kinds
  | array items ih =>
      cases b with
      | array items' =>
          rw [write, write] at h
          simp only [List.cons_append, List.append_assoc, List.cons.injEq, true_and,
            List.nil_append] at h
          have one : ∀ x ∈ items, ∀ y s t, Delimited s → Delimited t →
              write number x ++ s = write number y ++ t → x = y ∧ s = t :=
            fun x mem y s t ends ends' h => ih x mem y ends ends' h (kind_eq texts h)
          have open_ : ∀ x, ∃ c rest, write number x = c :: rest ∧ c ≠ ']' := by
            intro x
            obtain ⟨c, rest, shape, -, other⟩ := write_begins texts x
            exact ⟨c, rest, shape, fun closing => other (.inr (.inl closing))⟩
          obtain ⟨rfl, rest⟩ := commaSeparated_inj (.inr (.inl rfl)) (by decide) open_ one h
          exact ⟨rfl, rest⟩
      | _ => cases kinds
  | object entries ih =>
      cases b with
      | object entries' =>
          rw [write, write] at h
          simp only [List.cons_append, List.append_assoc, List.cons.injEq, true_and,
            List.nil_append] at h
          have one : ∀ x ∈ entries, ∀ (y : String × Json N) s t, Delimited s → Delimited t →
              quote x.1 ++ ':' :: write number x.2 ++ s = quote y.1 ++ ':' :: write number y.2 ++ t →
              x = y ∧ s = t := by
            rintro ⟨key, value⟩ mem ⟨key', value'⟩ s t ends ends' h
            simp only [List.append_assoc, List.cons_append] at h
            obtain ⟨rfl, rest⟩ := quote_inj h
            have values := (List.cons.inj rest).2
            obtain ⟨rfl, same⟩ := ih _ mem value' ends ends' values (kind_eq texts values)
            exact ⟨rfl, same⟩
          have open_ : ∀ x : String × Json N, ∃ c rest,
              quote x.1 ++ ':' :: write number x.2 = c :: rest ∧ c ≠ '}' :=
            fun x => ⟨'"', _, by rw [quote, List.cons_append, List.cons_append], by decide⟩
          obtain ⟨rfl, rest⟩ := commaSeparated_inj (.inr (.inr rfl)) (by decide) open_ one h
          exact ⟨rfl, rest⟩
      | _ => cases kinds

theorem write_injective : Function.Injective (write number) := by
  intro a b h
  have nothing : Delimited [] := by
    intro c first
    cases first
  exact (write_append_inj texts a b nothing nothing (by rw [h])).1

end

end Json
end Magellan
