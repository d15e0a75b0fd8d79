import Magellan.Experiments.Events

/-!
# What the event journal survives

A line that reaches the disk in part cannot be read, and it stays where it is: the journal cannot be
opened again. A line without its newline is read, and the next event is appended to it.
-/

namespace Magellan.Experiments

open Planning (valueError validationError)

variable {Payload : Type} {config : JournalConfig Payload}

/-- The event as it is read back. -/
def readBack (config : JournalConfig Payload) (event : ExperimentEvent Payload) :
    ExperimentEvent Payload :=
  { event with payload := config.format.jsonPayload event.payload }

/-- The event passes the checks of the model and `text` is its JSON. -/
structure IsLine (config : JournalConfig Payload) (event : ExperimentEvent Payload)
    (text : List Char) : Prop where
  checked : event.checked = .ok event
  dumped : config.format.dumps event = .ok text

/-- What JSON promises: an object is written on one line between its braces and read back; a part
of it is no JSON text, and neither is a text that goes on after it. -/
structure Format.Faithful (config : JournalConfig Payload) : Prop where
  reads : ∀ {event t}, IsLine config event t →
    config.format.modelValidateJson t = .ok (readBack config event)
  braces : ∀ {event t}, IsLine config event t → ∃ body, t = '{' :: body ++ ['}']
  oneLine : ∀ {event t}, IsLine config event t → '\n' ∉ t
  part : ∀ {event t p}, IsLine config event t → p <+: t → p ≠ t →
    ∃ e, config.format.modelValidateJson p = .error e
  more : ∀ {event t c rest}, IsLine config event t → isSpace c = false →
    ∃ e, config.format.modelValidateJson (t ++ c :: rest) = .error e

/-- The events of the lines, blank lines apart. -/
def parse (config : JournalConfig Payload) :
    List (List Char) → Except Exn (List (ExperimentEvent Payload))
  | [] => .ok []
  | [] :: rest => parse config rest
  | line :: rest =>
      match config.format.modelValidateJson line with
      | .error e => .error e
      | .ok event => (parse config rest).map (event :: ·)

/-! ## Lines -/

theorem lines_append (first rest : List Char) :
    lines (first ++ '\n' :: rest) = lines first ++ lines rest := by
  rw [lines, List.splitOn_append_cons_of_beq _ _ (by simp), List.map_append]
  rfl

theorem lines_single {text : List Char} (oneLine : '\n' ∉ text) : lines text = [strip text] := by
  rw [lines, List.splitOn_eq_singleton oneLine]
  rfl

theorem strip_solid {first rest : List Char} {c : Char} (solid : isSpace c = false)
    (starts : ∀ d ∈ (first ++ [c]).head?, isSpace d = false) :
    ∃ rest', rest' <+: rest ∧ strip (first ++ c :: rest) = first ++ c :: rest' := by
  have front : (first ++ c :: rest).dropWhile isSpace = first ++ c :: rest := by
    cases first with
    | nil => exact List.dropWhile_cons_of_neg (by simp [solid])
    | cons d first => exact List.dropWhile_cons_of_neg (by simp [starts d rfl])
  have back : strip (first ++ c :: rest) = (first ++ c :: rest).rdropWhile isSpace := by
    unfold strip List.rdropWhile
    rw [front]
  rw [back]
  clear front back
  induction rest using List.reverseRecOn with
  | nil => exact ⟨[], List.prefix_refl _, List.rdropWhile_concat_neg _ _ _ (by simp [solid])⟩
  | append_singleton rest d ih =>
      have shape : first ++ c :: (rest ++ [d]) = (first ++ c :: rest) ++ [d] := by simp
      rw [shape]
      by_cases space : isSpace d = true
      · obtain ⟨rest', inside, stripped⟩ := ih
        rw [List.rdropWhile_concat_pos _ _ _ space]
        exact ⟨rest', inside.trans (List.prefix_append ..), stripped⟩
      · rw [List.rdropWhile_concat_neg _ _ _ space]
        exact ⟨rest ++ [d], List.prefix_refl _, by simp⟩

theorem strip_braced {body : List Char} : strip ('{' :: body ++ ['}']) = '{' :: body ++ ['}'] := by
  unfold strip
  rw [List.cons_append, List.dropWhile_cons_of_neg (by decide), ← List.cons_append,
    List.reverse_append, List.reverse_singleton, List.singleton_append,
    List.dropWhile_cons_of_neg (by decide)]
  simp

/-! ## Reading -/

section

variable {ls ls' : List (List Char)} {es es' : List (ExperimentEvent Payload)} {e : Exn}

theorem parse_cons {c : Char} {text : List Char} : parse config ((c :: text) :: ls) =
    match config.format.modelValidateJson (c :: text) with
    | .error e => .error e
    | .ok event => (parse config ls).map (event :: ·) := rfl

theorem parse_append (h : parse config ls = .ok es) :
    parse config (ls ++ ls') = (parse config ls').map (es ++ ·) := by
  induction ls generalizing es with
  | nil =>
      cases h
      change parse config ls' = _
      cases parse config ls' <;> rfl
  | cons line ls ih =>
      cases line with
      | nil => exact ih h
      | cons c line =>
          rw [parse_cons] at h
          rw [List.cons_append, parse_cons]
          split at h
          · cases h
          · cases rest : parse config ls with
            | error e =>
                rw [rest] at h
                cases h
            | ok tail =>
                rw [rest] at h
                cases h
                rw [ih rest]
                cases parse config ls' <;> rfl

theorem scanLines_ok {lineNumber last : Nat} (h : parse config ls = .ok es) :
    scanLines config lineNumber last ls =
      .ok (es.foldl (fun last event => max last event.sequence) last) := by
  induction ls generalizing es lineNumber last with
  | nil =>
      cases h
      rfl
  | cons line ls ih =>
      cases line with
      | nil => exact ih h
      | cons c line =>
          rw [parse_cons] at h
          unfold scanLines
          split at h
          · cases h
          · rename_i event read
            cases rest : parse config ls with
            | error e =>
                rw [rest] at h
                cases h
            | ok tail =>
                rw [rest] at h
                cases h
                simp only [read]
                exact ih rest

theorem scanLines_error {lineNumber last : Nat} (h : parse config ls = .error e) :
    ∃ e', scanLines config lineNumber last ls = .error e' := by
  induction ls generalizing lineNumber last with
  | nil => cases h
  | cons line ls ih =>
      cases line with
      | nil => exact ih h
      | cons c line =>
          rw [parse_cons] at h
          unfold scanLines
          cases read : config.format.modelValidateJson (c :: line) with
          | error e' => exact ⟨_, rfl⟩
          | ok event =>
              simp only [read] at h
              cases rest : parse config ls with
              | error e' =>
                  rw [rest] at h
                  cases h
                  exact ih rest
              | ok tail =>
                  rw [rest] at h
                  cases h

theorem listLines_ok {listed : ExperimentEvent Payload → Bool} {wanted : Nat}
    (h : parse config ls = .ok es) :
    listLines config listed wanted ls = .ok ((es.filter listed).take (wanted + 1)) := by
  induction ls generalizing es wanted with
  | nil =>
      cases h
      rfl
  | cons line ls ih =>
      cases line with
      | nil => exact ih h
      | cons c line =>
          rw [parse_cons] at h
          cases read : config.format.modelValidateJson (c :: line) with
          | error e' =>
              rw [read] at h
              cases h
          | ok event =>
              simp only [read] at h
              cases rest : parse config ls with
              | error e' =>
                  rw [rest] at h
                  cases h
              | ok tail =>
                  rw [rest] at h
                  cases h
                  unfold listLines
                  simp only [read]
                  by_cases here : listed event = true
                  · rw [if_pos here, List.filter_cons_of_pos here]
                    cases wanted with
                    | zero => simp
                    | succ wanted =>
                        simp only [ih rest]
                        rfl
                  · rw [if_neg here, List.filter_cons_of_neg (by simpa using here)]
                    exact ih rest

theorem parse_count (h : parse config ls = .ok es) : ls.countP (· ≠ []) = es.length := by
  induction ls generalizing es with
  | nil =>
      cases h
      rfl
  | cons line ls ih =>
      cases line with
      | nil => simpa using ih h
      | cons c line =>
          rw [parse_cons] at h
          split at h
          · cases h
          · cases rest : parse config ls with
            | error e =>
                rw [rest] at h
                cases h
            | ok tail =>
                rw [rest] at h
                cases h
                simpa using ih rest

end

/-! ## Paging -/

/-- The sequence numbers are 1, 2, and so on. -/
def Numbered (es : List (ExperimentEvent Payload)) : Prop :=
  es.map (·.sequence) = List.range' 1 es.length

section

variable {es : List (ExperimentEvent Payload)} {file : List Char}

theorem Numbered.get (h : Numbered es) {i : Nat} (bound : i < es.length) :
    es[i].sequence = i + 1 := by
  have at_ : (es.map (·.sequence))[i]? = (List.range' 1 es.length)[i]? := congrArg (·[i]?) h
  rw [List.getElem?_map, List.getElem?_eq_getElem bound, List.getElem?_range' bound] at at_
  simp only [Option.map_some, Option.some.injEq] at at_
  omega

theorem Numbered.filter (h : Numbered es) (k : Nat) :
    es.filter (fun event => decide (k < event.sequence)) = es.drop k := by
  have split : es.take k ++ es.drop k = es := List.take_append_drop ..
  have before : (es.take k).filter (fun event => decide (k < event.sequence)) = [] := by
    refine List.filter_eq_nil_iff.mpr fun event mem => ?_
    obtain ⟨i, bound, rfl⟩ := List.getElem_of_mem mem
    rw [List.getElem_take, h.get, decide_eq_true_iff]
    rw [List.length_take] at bound
    omega
  have after : (es.drop k).filter (fun event => decide (k < event.sequence)) = es.drop k := by
    refine List.filter_eq_self.mpr fun event mem => ?_
    obtain ⟨i, bound, rfl⟩ := List.getElem_of_mem mem
    rw [List.getElem_drop, h.get, decide_eq_true_iff]
    omega
  conv_lhs => rw [← split, List.filter_append, before, after]
  rfl

theorem listEvents_drop (h : Numbered es) (read : parse config (lines file) = .ok es)
    {limit : Int} (positive : 1 ≤ limit) (k : Nat) :
    listEvents config file k none none limit = .ok ((es.drop k).take limit.toNat) := by
  have counted : limit.toNat - 1 + 1 = limit.toNat := by omega
  unfold listEvents
  rw [if_neg (by omega), if_neg (by omega), listLines_ok read, counted, ← h.filter k]
  have listed : isListed (k : Int) none none =
      fun event : ExperimentEvent Payload => decide (k < event.sequence) := by
    funext event
    simp [isListed]
  rw [listed]

theorem last_of_page (h : Numbered es) {k size : Nat} (more : k < es.length) (some_ : 1 ≤ size) :
    ∃ event, ((es.drop k).take size).getLast? = some event ∧
      event.sequence = min (k + size) es.length := by
  have bound : min size (es.length - k) - 1 < es.length - k := by omega
  refine ⟨es[k + (min size (es.length - k) - 1)], ?_, ?_⟩
  · rw [List.getLast?_eq_getElem?, List.length_take, List.length_drop,
      List.getElem?_take_of_lt (by omega), List.getElem?_drop, List.getElem?_eq_getElem]
  · rw [h.get]
    omega

theorem page_append (k size : Nat) :
    (es.drop k).take size ++ es.drop (min (k + size) es.length) = es.drop k := by
  have rest : es.drop (min (k + size) es.length) = (es.drop k).drop size := by
    rw [List.drop_drop]
    rcases Nat.le_total (k + size) es.length with within | beyond
    · rw [Nat.min_eq_left within]
    · rw [Nat.min_eq_right beyond, List.drop_length, List.drop_of_length_le beyond]
  rw [rest, List.take_append_drop]

/-- Paging from any event on lists every later one exactly once, in order. -/
theorem pages_drop (h : Numbered es) (read : parse config (lines file) = .ok es)
    {limit : Int} (positive : 1 ≤ limit) {fuel k : Nat} (enough : es.length < fuel + k) :
    pages config file limit fuel k = .ok (es.drop k) := by
  induction fuel generalizing k with
  | zero =>
      rw [List.drop_of_length_le (by omega)]
      rfl
  | succ fuel ih =>
      simp only [pages, listEvents_drop h read positive, bind, Except.bind]
      by_cases more : k < es.length
      · obtain ⟨event, last, seen⟩ := last_of_page h more (show 1 ≤ limit.toNat by omega)
        simp only [last]
        rw [seen, ih (by omega)]
        simp only [pure, Except.pure]
        rw [page_append]
      · rw [List.drop_of_length_le (by omega)]
        simp [pure, Except.pure]

end

/-! ## The file -/

/-- Each text is the line of its event. -/
def Wrote (config : JournalConfig Payload) :
    List (ExperimentEvent Payload) → List (List Char) → Prop :=
  List.Forall₂ (IsLine config)

def joined (texts : List (List Char)) : List Char := texts.flatMap (· ++ ['\n'])

/-- The file is the lines of the events; the last newline may be missing. -/
inductive Holds (config : JournalConfig Payload) :
    List (ExperimentEvent Payload) → List Char → Prop
  | whole {events texts} : Wrote config events texts → Holds config events (joined texts)
  | unended {events texts event text} : Wrote config events texts →
      IsLine config event text → Holds config (events ++ [event]) (joined texts ++ text)

/-- The file ends with a line. -/
def Ended (file : List Char) : Prop := file = [] ∨ file.getLast? = some '\n'

section

variable {events : List (ExperimentEvent Payload)} {event : ExperimentEvent Payload}
  {text file rest : List Char} {texts : List (List Char)}

theorem ended_joined : Ended (joined texts) := by
  rcases List.eq_nil_or_concat texts with rfl | ⟨first, last, rfl⟩
  · exact .inl rfl
  · right
    simp [joined, List.flatMap_append]

theorem joined_append (texts : List (List Char)) (text : List Char) :
    joined texts ++ (text ++ ['\n']) = joined (texts ++ [text]) := by
  simp [joined, List.flatMap_append]

variable (faithful : Format.Faithful config)

include faithful

theorem lines_text (written : IsLine config event text) : lines text = [text] := by
  obtain ⟨body, rfl⟩ := faithful.braces written
  rw [lines_single (faithful.oneLine written), strip_braced]

theorem parse_text (written : IsLine config event text) :
    parse config (lines text) = .ok [readBack config event] := by
  rw [lines_text faithful written]
  obtain ⟨body, rfl⟩ := faithful.braces written
  rw [List.cons_append, parse_cons, ← List.cons_append, faithful.reads written]
  rfl

theorem parse_joined (wrote : Wrote config events texts) :
    parse config (lines (joined texts ++ rest)) =
      (parse config (lines rest)).map (events.map (readBack config) ++ ·) := by
  induction wrote with
  | nil =>
      change parse config (lines rest) = _
      cases parse config (lines rest) <;> rfl
  | @cons event text events texts written _ ih =>
      have first : joined (text :: texts) ++ rest = text ++ '\n' :: (joined texts ++ rest) := by
        simp [joined]
      rw [first, lines_append, parse_append (parse_text faithful written), ih]
      cases parse config (lines rest) <;> rfl

theorem Holds.parses (h : Holds config events file) :
    parse config (lines file) = .ok (events.map (readBack config)) := by
  cases h with
  | whole wrote =>
      rw [← List.append_nil (joined _), parse_joined faithful wrote]
      change Except.ok (events.map (readBack config) ++ []) = _
      rw [List.append_nil]
  | unended wrote written =>
      rw [parse_joined faithful wrote, parse_text faithful written]
      simp [Except.map]

theorem Holds.whole_of_ended (h : Holds config events file) (ended : Ended file) :
    ∃ texts, Wrote config events texts ∧ file = joined texts := by
  cases h with
  | whole wrote => exact ⟨_, wrote, rfl⟩
  | unended wrote written =>
      obtain ⟨body, rfl⟩ := faithful.braces written
      rcases ended with empty | newline
      · simp at empty
      · rw [← List.append_assoc, List.getLast?_concat] at newline
        cases newline

end

theorem numbered_readBack {events : List (ExperimentEvent Payload)} :
    Numbered (events.map (readBack config)) ↔ Numbered events := by
  have same : (events.map (readBack config)).map (·.sequence) = events.map (·.sequence) := by
    rw [List.map_map]
    rfl
  unfold Numbered
  rw [same, List.length_map]

theorem numbered_snoc {events : List (ExperimentEvent Payload)} (h : Numbered events)
    {event : ExperimentEvent Payload} :
    Numbered (events ++ [event]) ↔ event.sequence = events.length + 1 := by
  unfold Numbered at *
  rw [List.map_append, h, List.length_append, List.length_singleton, List.range'_concat]
  simp [Nat.add_comm]

theorem foldl_numbered {es : List (ExperimentEvent Payload)} (h : Numbered es) :
    es.foldl (fun last event => max last event.sequence) 0 = es.length := by
  have counted : ∀ n, (List.range' 1 n).foldl max 0 = n := by
    intro n
    induction n with
    | zero => rfl
    | succ n ih =>
        rw [List.range'_concat, List.foldl_append, ih]
        simp
        omega
  rw [← counted es.length, ← h, List.foldl_map]

/-! ## The journal -/

/-- The journal can be opened, and what it lists in pages of any size are its events, each once and
in order, with every event of an append that returned. -/
structure Survives (config : JournalConfig Payload) (j : ExperimentEventJournal Payload) : Prop where
  reopens : ∃ last, scanLastSequence config j.file = .ok last
  lists : ∃ es, parse config (lines j.file) = .ok es ∧ Numbered es ∧
    (j.returned.map (readBack config)).Sublist es ∧
    ∀ limit : Int, 1 ≤ limit → ∀ fuel, es.length < fuel →
      pages config j.file limit fuel 0 = .ok es

/-- An append that leaves something on the disk leaves its line, with or without the newline, in a
file that ends with a line and has as many lines as the journal has counted. -/
def Undamaged (config : JournalConfig Payload) : Step Payload → ExperimentEventJournal Payload → Prop
  | .append o outcome, j => ∀ last event line, j.lastSequence = some last →
      appendLine config last o = .ok (event, line) → outcome.reached line = [] ∨
        (line.length ≤ (outcome.reached line).length + 1 ∧ Ended j.file ∧
          (lines j.file).countP (· ≠ []) = last)
  | _, _ => True

structure Intact (config : JournalConfig Payload) (events : List (ExperimentEvent Payload))
    (j : ExperimentEventJournal Payload) : Prop where
  holds : Holds config events j.file
  numbered : Numbered events
  kept : j.returned.Sublist events

section

variable {events : List (ExperimentEvent Payload)} {j j' : ExperimentEventJournal Payload}

theorem reached_cases {text chunk : List Char} (within : chunk <+: text ++ ['\n']) :
    (chunk <+: text ∧ chunk ≠ text) ∨ chunk = text ∨ chunk = text ++ ['\n'] := by
  rcases List.prefix_concat_iff.mp within with rfl | inside
  · exact .inr (.inr rfl)
  · by_cases whole : chunk = text
    · exact .inr (.inl whole)
    · exact .inl ⟨inside, whole⟩

theorem along_head {P : ExperimentEventJournal Payload → Prop} {history : List (Step Payload)}
    (along : j.Along config P history) : P j := by
  cases history with
  | nil => exact along
  | cons x history => exact along.1

theorem reached_within (line : List Char) (outcome : Outcome) : outcome.reached line <+: line := by
  cases outcome with
  | returns => exact List.prefix_refl _
  | raises written => exact List.take_prefix ..
  | dies written => exact List.take_prefix ..

theorem appendLine_ok {last : Nat} {o : Observation Payload} {event : ExperimentEvent Payload}
    {line : List Char} (h : appendLine config last o = .ok (event, line)) :
    event.sequence = last + 1 ∧ ∃ text, IsLine config event text ∧ line = text ++ ['\n'] := by
  simp only [appendLine, bind, Except.bind] at h
  split at h
  · cases h
  · rename_i same eq
    have checked : same.sequence = last + 1 ∧ same.checked = .ok same := by
      have passed := eq
      simp only [ExperimentEvent.checked] at eq
      repeat' split at eq
      all_goals cases eq
      exact ⟨rfl, passed⟩
    split at h
    · cases h
    · rename_i text dumped
      cases h
      exact ⟨checked.1, text, ⟨checked.2, dumped⟩, rfl⟩

variable (faithful : Format.Faithful config)

include faithful

theorem Intact.scans (h : Intact config events j) :
    scanLastSequence config j.file = .ok events.length := by
  rw [scanLastSequence, scanLines_ok (h.holds.parses faithful),
    foldl_numbered (numbered_readBack.mpr h.numbered), List.length_map]

theorem Intact.written (h : Intact config events j) :
    (lines j.file).countP (· ≠ []) = events.length := by
  rw [parse_count (h.holds.parses faithful), List.length_map]

theorem Intact.survives (h : Intact config events j) : Survives config j where
  reopens := ⟨_, h.scans faithful⟩
  lists := by
    have parsed := h.holds.parses faithful
    have numbered : Numbered (events.map (readBack config)) := numbered_readBack.mpr h.numbered
    exact ⟨_, parsed, numbered, h.kept.map _, fun limit positive fuel enough =>
      pages_drop (k := 0) numbered parsed positive enough⟩

theorem Holds.append (h : Holds config events j.file) (ended : Ended j.file)
    {event : ExperimentEvent Payload} {text chunk : List Char} (line : IsLine config event text)
    (reached : chunk = text ∨ chunk = text ++ ['\n']) :
    Holds config (events ++ [event]) (j.file ++ chunk) := by
  obtain ⟨texts, wrote, file⟩ := h.whole_of_ended faithful ended
  rw [file]
  rcases reached with rfl | rfl
  · exact .unended wrote line
  · rw [joined_append]
    exact .whole (List.rel_append wrote (.cons line .nil))

theorem Intact.append (h : Intact config events j) {event : ExperimentEvent Payload}
    {text : List Char} (line : IsLine config event text)
    (next : event.sequence = events.length + 1) (ended : Ended j.file) {outcome : Outcome}
    (reached : outcome.reached (text ++ ['\n']) = text ∨
      outcome.reached (text ++ ['\n']) = text ++ ['\n']) :
    Intact config (events ++ [event]) (j.write event (text ++ ['\n']) outcome) := by
  have holds := h.holds.append faithful ended line reached
  have numbered := (numbered_snoc h.numbered).mpr next
  cases outcome with
  | returns => exact ⟨holds, numbered, h.kept.append (List.Sublist.refl _)⟩
  | raises written => exact ⟨holds, numbered, h.kept.trans (List.sublist_append_left ..)⟩
  | dies written => exact ⟨holds, numbered, h.kept.trans (List.sublist_append_left ..)⟩

theorem Intact.step (h : Intact config events j) {x : Step Payload} (fine : Undamaged config x j)
    (taken : j.step config x = some j') : ∃ events', Intact config events' j' := by
  cases x with
  | stop =>
      cases taken
      exact ⟨events, h.holds, h.numbered, h.kept⟩
  | reopen =>
      simp only [ExperimentEventJournal.step, h.scans faithful] at taken
      cases taken
      exact ⟨events, h.holds, h.numbered, h.kept⟩
  | append o outcome =>
      simp only [ExperimentEventJournal.step] at taken
      split at taken
      · cases taken
      rename_i last up
      split at taken
      · cases taken
        exact ⟨events, h⟩
      rename_i event line appended
      cases taken
      obtain ⟨sequence, text, written, rfl⟩ := appendLine_ok appended
      rcases fine last event _ up appended with nothing | ⟨long, ended, counted⟩
      · refine ⟨events, ?_⟩
        unfold ExperimentEventJournal.write
        rw [nothing, List.append_nil]
        cases outcome with
        | returns => simp [Outcome.reached] at nothing
        | raises written => exact h
        | dies written => exact ⟨h.holds, h.numbered, h.kept⟩
      · rw [h.written faithful] at counted
        refine ⟨events ++ [event], h.append faithful written (by rw [sequence, counted]) ended ?_⟩
        rcases reached_cases (reached_within (text ++ ['\n']) outcome) with ⟨part, other⟩ | whole
        · rw [List.length_append, List.length_singleton] at long
          exact absurd (part.eq_of_length_le (by omega)) other
        · exact whole

/-! ### Damage -/

omit faithful in
theorem parse_unreadable {line : List Char} {ls : List (List Char)} (nonempty : line ≠ []) {e : Exn}
    (h : config.format.modelValidateJson line = .error e) :
    parse config (line :: ls) = .error e := by
  cases line with
  | nil => exact absurd rfl nonempty
  | cons c line => rw [parse_cons, h]

theorem parse_torn {texts : List (List Char)} (wrote : Wrote config events texts)
    {before after ending : List Char} {c : Char} (solid : isSpace c = false)
    (starts : ∀ d ∈ (before ++ [c]).head?, isSpace d = false)
    (oneLine : '\n' ∉ before ++ c :: after)
    (unreadable : ∀ rest, rest <+: after →
      ∃ e, config.format.modelValidateJson (before ++ c :: rest) = .error e)
    (ends : ending = [] ∨ ending = ['\n']) :
    ∃ e, parse config (lines (joined texts ++ (before ++ c :: after ++ ending))) = .error e := by
  obtain ⟨rest, inside, stripped⟩ := @strip_solid before after c solid starts
  obtain ⟨e, failed⟩ := unreadable rest inside
  have single : lines (before ++ c :: after) = [before ++ c :: rest] := by
    rw [lines_single oneLine, stripped]
  have last : parse config (lines (before ++ c :: after ++ ending)) = .error e := by
    rcases ends with rfl | rfl
    · rw [List.append_nil, single]
      exact parse_unreadable (by simp) failed
    · rw [lines_append, single]
      exact parse_unreadable (by simp) failed
  refine ⟨e, ?_⟩
  rw [parse_joined faithful wrote, last]
  rfl

theorem opens {event : ExperimentEvent Payload} {text chunk : List Char}
    (line : IsLine config event text) (part : chunk <+: text) (nonempty : chunk ≠ []) :
    ∃ after, chunk = '{' :: after := by
  obtain ⟨body, shape⟩ := faithful.braces line
  obtain ⟨rest, eq⟩ := part
  cases chunk with
  | nil => exact absurd rfl nonempty
  | cons c after =>
      rw [shape] at eq
      simp only [List.cons_append, List.cons.injEq] at eq
      exact ⟨after, by rw [eq.1]⟩

theorem parse_part {texts : List (List Char)} (wrote : Wrote config events texts)
    {event : ExperimentEvent Payload} {text chunk : List Char} (line : IsLine config event text)
    (part : chunk <+: text) (other : chunk ≠ text) (nonempty : chunk ≠ []) :
    ∃ e, parse config (lines (joined texts ++ chunk)) = .error e := by
  have noBreak : '\n' ∉ chunk := fun mem => faithful.oneLine line (part.mem mem)
  obtain ⟨after, rfl⟩ := opens faithful line part nonempty
  have torn := @parse_torn _ _ _ faithful _ wrote [] after [] '{' (by decide) (by simp [isSpace])
    noBreak ?_ (.inl rfl)
  · simpa using torn
  · intro rest inside
    have within : '{' :: rest <+: '{' :: after := (List.prefix_cons_inj _).mpr inside
    refine faithful.part line (within.trans part) fun eq => other ?_
    exact part.eq_of_length_le (eq ▸ within.length_le)

/-- A line that was appended to a line without its newline. -/
theorem parse_glued {texts : List (List Char)} (wrote : Wrote config events texts)
    {event event' : ExperimentEvent Payload} {text text' chunk : List Char}
    (line : IsLine config event text) (line' : IsLine config event' text')
    (reached : chunk <+: text' ++ ['\n']) (nonempty : chunk ≠ []) :
    ∃ e, parse config (lines (joined texts ++ (text ++ chunk))) = .error e := by
  have torn : ∀ body ending, body <+: text' → body ≠ [] → ending = [] ∨ ending = ['\n'] →
      ∃ e, parse config (lines (joined texts ++ (text ++ body ++ ending))) = .error e := by
    intro body ending part nonempty ends
    obtain ⟨after, rfl⟩ := opens faithful line' part nonempty
    apply parse_torn faithful wrote (by decide) _ _ (fun rest _ => faithful.more line (by decide)) ends
    · obtain ⟨body, rfl⟩ := faithful.braces line
      simp [isSpace]
    · rw [List.mem_append]
      rintro (mem | mem)
      · exact faithful.oneLine line mem
      · exact faithful.oneLine line' (part.mem mem)
  rcases List.prefix_concat_iff.mp reached with rfl | part
  · rw [← List.append_assoc text]
    refine torn text' ['\n'] (List.prefix_refl _) ?_ (.inr rfl)
    obtain ⟨body, rfl⟩ := faithful.braces line'
    simp
  · simpa using torn chunk [] part nonempty (.inl rfl)

theorem Intact.damaged (h : Intact config events j) {x : Step Payload}
    (hit : ¬ Undamaged config x j) : ∃ j', j.step config x = some j' ∧ ¬ Survives config j' := by
  cases x with
  | stop => exact absurd trivial hit
  | reopen => exact absurd trivial hit
  | append o outcome =>
      simp only [Undamaged, not_forall, not_or] at hit
      obtain ⟨last, event, line, up, appended, something, wrong⟩ := hit
      refine ⟨j.write event line outcome, by simp [ExperimentEventJournal.step, up, appended], ?_⟩
      obtain ⟨sequence, text, written, rfl⟩ := appendLine_ok appended
      have reached := reached_within (text ++ ['\n']) outcome
      have file : (j.write event (text ++ ['\n']) outcome).file =
          j.file ++ outcome.reached (text ++ ['\n']) := by cases outcome <;> rfl
      intro survives
      obtain ⟨es, parsed, numbered, -⟩ := survives.lists
      rw [file] at parsed
      by_cases ended : Ended j.file
      · rcases reached_cases reached with ⟨part, other⟩ | whole
        · obtain ⟨texts, wrote, file⟩ := h.holds.whole_of_ended faithful ended
          rw [file] at parsed
          obtain ⟨e, failed⟩ := parse_part faithful wrote written part other something
          rw [failed] at parsed
          cases parsed
        · have holds := h.holds.append faithful ended written whole
          rw [holds.parses faithful] at parsed
          cases parsed
          have next := (numbered_snoc h.numbered).mp (numbered_readBack.mp numbered)
          refine wrong ⟨?_, ended, ?_⟩
          · rcases whole with whole | whole <;> rw [whole] <;> simp
          · rw [h.written faithful]
            omega
      · have holds := h.holds
        generalize j.file = onDisk at holds ended parsed
        cases holds with
        | whole wrote => exact ended ended_joined
        | unended wrote line =>
            obtain ⟨e, failed⟩ := parse_glued faithful wrote line written reached something
            rw [List.append_assoc, failed] at parsed
            cases parsed

/-- What the journal holds survives a history if and only if no append of it does damage. -/
theorem survives_iff (h : Intact config events j) (history : List (Step Payload)) :
    j.Along config (Survives config) history ↔ j.Throughout config (Undamaged config) history := by
  induction history generalizing j events with
  | nil => exact ⟨fun _ => trivial, fun _ => h.survives faithful⟩
  | cons x history ih =>
      constructor
      · rintro ⟨-, along⟩
        have fine : Undamaged config x j := by
          by_contra hit
          obtain ⟨j', taken, lost⟩ := h.damaged faithful hit
          exact lost (along_head (along j' taken))
        refine ⟨fine, fun j' taken => ?_⟩
        obtain ⟨events', intact⟩ := h.step faithful fine taken
        exact (ih intact).mp (along j' taken)
      · rintro ⟨fine, throughout⟩
        refine ⟨h.survives faithful, fun j' taken => ?_⟩
        obtain ⟨events', intact⟩ := h.step faithful fine taken
        exact (ih intact).mpr (throughout j' taken)

end

theorem intact_empty : Intact config [] {} where
  holds := .whole .nil
  numbered := rfl
  kept := List.Sublist.refl _

/-- The journal of a daemon survives a history if and only if every append of it that leaves
something on the disk leaves its line, in a file of whole lines that it has counted. -/
theorem journal_survives (faithful : Format.Faithful config) (history : List (Step Payload)) :
    ({} : ExperimentEventJournal Payload).Along config (Survives config) history ↔
      ({} : ExperimentEventJournal Payload).Throughout config (Undamaged config) history :=
  survives_iff faithful intact_empty history

/-! ## A daemon that dies in an append -/

section

/-- 2025-01-01 at midnight. -/
def firstStart : Observation Unit where
  eventId := "8c3f2a6e"
  eventType := "daemon_started"
  observedAtUtc := 1735689600
  payload := ()

def firstEvent : ExperimentEvent Unit where
  sequence := 1
  eventId := "8c3f2a6e"
  nodeId := "node-a"
  eventType := "daemon_started"
  observedAtUtc := 1735689600
  payload := ()

def firstText : List Char :=
  ("\x7b\"event_id\":\"8c3f2a6e\",\"event_type\":\"daemon_started\",\"generation\":null," ++
    "\"node_id\":\"node-a\",\"observed_at_utc\":\"2025-01-01T00:00:00Z\",\"payload\":\x7b\x7d," ++
    "\"sequence\":1,\"task_id\":null,\"trace_time_utc\":null\x7d").toList

/-- JSON at the first event and its text. -/
def firstFormat : Format Unit where
  dumps event := if event = firstEvent then .ok firstText else .error (valueError "other event")
  modelValidateJson text := if text = firstText then .ok firstEvent
    else .error (validationError "ExperimentEvent" "json_invalid")
  jsonPayload := id

def firstJournal : JournalConfig Unit := ⟨firstFormat, "node-a"⟩

theorem isLine_first {event : ExperimentEvent Unit} {text : List Char}
    (line : IsLine firstJournal event text) : event = firstEvent ∧ text = firstText := by
  have dumped := line.dumped
  simp only [firstJournal, firstFormat] at dumped
  split at dumped
  · rename_i same
    exact ⟨same, (Except.ok.inj dumped).symm⟩
  · cases dumped

theorem modelValidateJson_other {text : List Char} (other : text ≠ firstText) :
    firstJournal.format.modelValidateJson text =
      .error (validationError "ExperimentEvent" "json_invalid") := if_neg other

theorem firstFormat_faithful : Format.Faithful firstJournal where
  reads line := by
    obtain ⟨event, text⟩ := isLine_first line
    simp only [event, text, firstJournal, firstFormat, if_true]
    rfl
  braces line := by
    rw [(isLine_first line).2]
    exact ⟨firstText.tail.dropLast, by decide +kernel⟩
  oneLine line := by
    rw [(isLine_first line).2]
    decide +kernel
  part line _ other := by
    rw [(isLine_first line).2] at other
    exact ⟨_, modelValidateJson_other other⟩
  more line solid := by
    rw [(isLine_first line).2]
    exact ⟨_, modelValidateJson_other (by simp)⟩

theorem appendLine_first :
    appendLine firstJournal 0 firstStart = .ok (firstEvent, firstText ++ ['\n']) := by
  simp [appendLine, ExperimentEvent.checked, firstJournal, firstStart, firstFormat, firstEvent,
    bind, Except.bind, pure, Except.pure]

/-- The daemon dies when the first character of a line is on the disk. -/
theorem daemonDies_inAppend : ¬ ({} : ExperimentEventJournal Unit).Along firstJournal
    (Survives firstJournal) [.reopen, .append firstStart (.dies 1), .reopen] := by
  intro along
  have opened := along.2 ⟨[], some 0, []⟩ rfl
  have first : (firstText ++ ['\n']).take 1 = ['{'] := by decide +kernel
  have died := opened.2 ⟨['{'], none, []⟩ (by
    simp only [ExperimentEventJournal.step, appendLine_first, ExperimentEventJournal.write,
      Outcome.reached, first]
    rfl)
  obtain ⟨last, reopens⟩ := died.1.reopens
  have fails : (scanLastSequence firstJournal ['{']).toOption = none := by decide +kernel
  rw [reopens] at fails
  cases fails

theorem journal_survives_restart : ({} : ExperimentEventJournal Unit).Along firstJournal
    (Survives firstJournal) [.reopen, .append firstStart .returns, .stop, .reopen] := by
  apply (journal_survives firstFormat_faithful _).mpr
  refine ⟨trivial, fun opened taken => ⟨?_, fun _ _ => ⟨trivial, fun _ _ => ⟨trivial, fun _ _ => trivial⟩⟩⟩⟩
  cases Option.some.inj taken
  intro last event line up appended
  cases up
  exact .inr ⟨Nat.le_succ _, .inl rfl, rfl⟩

end

end Magellan.Experiments
