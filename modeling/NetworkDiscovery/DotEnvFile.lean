import NetworkDiscovery.DotEnv

/-! What a file does to the map. Lines of the form `key=value` override the map,
the last line of a key winning. A line without '=' was not meant to define
anything; the map shows when it does. -/

namespace NetworkDiscovery.DotEnv

def assignAll (env : DotEnv) (entries : List (String × String)) : DotEnv :=
  entries.foldl (fun env entry => env.assign entry.1 entry.2) env

theorem find_assignAll (env : DotEnv) (entries : List (String × String)) (key : String) :
    (env.assignAll entries).find key = (entries.reverse.lookup key).or (env.find key) := by
  have members : (env.assignAll entries).envVars = entries.foldl
      (fun stored entry => OrderedMembers.store entry.1 entry.2 stored) env.envVars := by
    rw [assignAll]
    induction entries generalizing env with
    | nil => rfl
    | cons entry rest ih => exact ih (env.assign entry.1 entry.2)
  rw [find, members, OrderedMembers.lookup_foldl_store]
  rfl

section

def entryLine (entry : String × String) : List Char :=
  entry.1.toList ++ '=' :: entry.2.toList

def fileText (entries : List (String × String)) : String :=
  String.ofList (entries.flatMap fun entry => entryLine entry ++ ['\n'])

def Writable (entries : List (String × String)) : Prop :=
  ∀ entry ∈ entries, '=' ∉ entry.1.toList ∧ '\n' ∉ entry.1.toList ∧ '\n' ∉ entry.2.toList

theorem loadLine_entryLine (env : DotEnv) (entry : String × String) (plain : '=' ∉ entry.1.toList)
    (one_line : '\n' ∉ entry.2.toList) :
    env.loadLine (entryLine entry) = env.assign entry.1 entry.2 := by
  rw [entryLine, loadLine_assignment env _ _ plain one_line, String.ofList_toList,
    String.ofList_toList]

theorem tokens_fileText (entries : List (String × String)) (writable : Writable entries)
    (text : String) (file : text = fileText entries ∨ text ++ "\n" = fileText entries) :
    Getline.tokens '\n' text.toList = entries.map entryLine := by
  have one_line : ∀ line ∈ entries.map entryLine, '\n' ∉ line := by
    intro line member
    obtain ⟨entry, present, rfl⟩ := List.mem_map.mp member
    have ⟨_, key, value⟩ := writable entry present
    simp [entryLine, key, value]
  have filled : ∀ line ∈ entries.map entryLine, line ≠ [] := by
    intro line member
    obtain ⟨entry, _, rfl⟩ := List.mem_map.mp member
    exact List.append_ne_nil_of_right_ne_nil _ (List.cons_ne_nil '=' _)
  have lines : (fileText entries).toList = (entries.map entryLine).flatMap fun line => line ++ ['\n'] := by
    rw [fileText, String.toList_ofList, List.flatMap_map]
  rcases file with rfl | ended
  · have read := Getline.tokens_lines '\n' (entries.map entryLine) one_line []
    rwa [List.append_nil, Getline.tokens_nil, List.append_nil, ← lines] at read
  · apply Getline.tokens_unended '\n' _ one_line filled
    rw [← lines, ← ended, String.toList_append]
    rfl

theorem load_eq_assignAll (env : DotEnv) (entries : List (String × String))
    (writable : Writable entries) (text : String)
    (file : text = fileText entries ∨ text ++ "\n" = fileText entries) :
    env.load (some text) = env.assignAll entries := by
  rw [load, tokens_fileText entries writable text file, assignAll]
  clear file
  induction entries generalizing env with
  | nil => rfl
  | cons entry rest ih =>
    have ⟨first, later⟩ := List.forall_mem_cons.mp writable
    rw [List.map_cons, List.foldl_cons, List.foldl_cons,
      loadLine_entryLine env entry first.1 first.2.2]
    exact ih (env.assign entry.1 entry.2) later

theorem load_fileText (env : DotEnv) (entries : List (String × String))
    (writable : Writable entries) (text : String)
    (file : text = fileText entries ∨ text ++ "\n" = fileText entries) :
    (∀ key, (env.load (some text)).find key = (entries.reverse.lookup key).or (env.find key)) ∧
    (∀ key ∈ entries.map Prod.fst, ∃ value, entries.reverse.lookup key = some value ∧
      ∀ getenv, (env.load (some text)).get getenv key = .ok value) ∧
    (∀ key ∉ entries.map Prod.fst, (env.load (some text)).find key = env.find key) := by
  rw [load_eq_assignAll env entries writable text file]
  refine ⟨env.find_assignAll entries, fun key member => ?_, fun key absent => ?_⟩
  · have present : (entries.reverse.lookup key).isSome := by
      obtain ⟨entry, known, rfl⟩ := List.mem_map.mp member
      exact List.lookup_isSome_iff.mpr ⟨entry, List.mem_reverse.mpr known, BEq.rfl⟩
    obtain ⟨value, last⟩ := Option.isSome_iff_exists.mp present
    refine ⟨value, last, fun getenv => ?_⟩
    rw [get, find_assignAll, last]
    rfl
  · have unknown : entries.reverse.lookup key = none := by
      refine List.lookup_eq_none_iff.mpr fun entry known => bne_iff_ne.mpr ?_
      rintro rfl
      exact absent (List.mem_map.mpr ⟨entry, List.mem_reverse.mp known, rfl⟩)
    rw [find_assignAll, unknown, Option.none_or]

/-- A key that comes twice, with an '=' in its value, and a value missing at the end. -/
def sampleEntries : List (String × String) := [("A", "1"), ("A", "2=3"), ("B", "")]

theorem load_sampleEntries :
    (empty.load (some "A=1\nA=2=3\nB=")).find "A" = some "2=3" ∧
    (empty.load (some "A=1\nA=2=3\nB=")).get (fun _ => some "other") "B" = .ok "" := by
  have writable : Writable sampleEntries := by simp [Writable, sampleEntries]
  have file : "A=1\nA=2=3\nB=" ++ "\n" = fileText sampleEntries := by decide
  have ⟨values, found, _⟩ := load_fileText empty sampleEntries writable _ (.inr file)
  refine ⟨values "A", ?_⟩
  obtain ⟨value, last, got⟩ := found "B" (by simp [sampleEntries])
  have none : value = "" := Option.some.inj (last.symm.trans (by decide))
  rw [got, none]

end

section

def lines (text : String) : List (List Char) := Getline.tokens '\n' text.toList

def definition? (line : List Char) : Option (String × String) :=
  if '=' ∈ line then
    some (String.ofList (line.takeWhile (· != '=')),
      String.ofList ((line.dropWhile (· != '=')).drop 1))
  else none

def definitions (text : String) : List (String × String) := (lines text).filterMap definition?

/-- What a line mentions: a key with its value, or a bare word. -/
def mention? (line : List Char) : Option (String × Option String) :=
  match definition? line with
  | some (key, value) => some (key, some value)
  | none => if line = [] then none else some (String.ofList line, none)

def mentions (text : String) : List (String × Option String) := (lines text).filterMap mention?

def defined? (entry : String × Option String) : Option (String × String) :=
  entry.2.map fun value => (entry.1, value)

theorem definition?_assignment (key value : List Char) (plain : '=' ∉ key) :
    definition? (key ++ '=' :: value) = some (String.ofList key, String.ofList value) := by
  have found : '=' ∈ key ++ '=' :: value := by simp
  rw [definition?, if_pos found, Getline.takeWhile_line '=' key value plain,
    Getline.dropWhile_line '=' key value plain]
  rfl

theorem loadLine_mention? (env : DotEnv) (line : List Char) (one_line : '\n' ∉ line) :
    env.loadLine line = match mention? line with
      | some entry => env.assign entry.1 (entry.2.getD "")
      | none => env := by
  by_cases found : '=' ∈ line
  · obtain ⟨key, value, rfl, plain⟩ := List.eq_append_cons_of_mem found
    have value_line : '\n' ∉ value := fun member => one_line (by simp [member])
    rw [loadLine_assignment env key value plain value_line, mention?,
      definition?_assignment key value plain]
    rfl
  · rw [loadLine_bare env line found, mention?, definition?, if_neg found]
    by_cases empty : line = [] <;> simp [empty]

theorem load_mentions (env : DotEnv) (text : String) :
    env.load (some text) =
      env.assignAll ((mentions text).map fun entry => (entry.1, entry.2.getD "")) := by
  have one_line := Getline.notMem_tokens '\n' text.toList
  rw [load, mentions, lines]
  generalize Getline.tokens '\n' text.toList = lines at one_line
  induction lines generalizing env with
  | nil => rfl
  | cons line rest ih =>
    have ⟨first, later⟩ := List.forall_mem_cons.mp one_line
    rw [List.foldl_cons, loadLine_mention? env line first, List.filterMap_cons, ih _ later]
    cases mention? line <;> rfl

theorem find_load (env : DotEnv) (text key : String) :
    (env.load (some text)).find key =
      (((mentions text).reverse.lookup key).map (·.getD "")).or (env.find key) := by
  rw [load_mentions, find_assignAll, ← List.map_reverse,
    OrderedMembers.lookup_map_snd key _ (fun value : Option String => value.getD "")]

theorem definitions_eq (text : String) : definitions text = (mentions text).filterMap defined? := by
  rw [definitions, mentions, List.filterMap_filterMap]
  congr 1
  funext line
  rw [mention?]
  cases definition? line with
  | some found => rfl
  | none => by_cases empty : line = [] <;> simp [empty, defined?]

theorem lookup_defined (named : List (String × Option String)) (key : String)
    (no_word : named.lookup key ≠ some none) :
    (named.filterMap defined?).lookup key = (named.lookup key).join := by
  induction named with
  | nil => rfl
  | cons entry rest ih =>
    obtain ⟨other, value⟩ := entry
    rw [OrderedMembers.lookup_cons_if] at no_word ⊢
    cases value with
    | none =>
      by_cases equal : key = other
      · rw [if_pos equal] at no_word
        exact absurd rfl no_word
      · rw [if_neg equal] at no_word ⊢
        exact ih no_word
    | some value =>
      show ((other, value) :: rest.filterMap defined?).lookup key = _
      rw [OrderedMembers.lookup_cons_if]
      by_cases equal : key = other
      · rw [if_pos equal, if_pos equal]
        rfl
      · rw [if_neg equal] at no_word
        rw [if_neg equal, if_neg equal]
        exact ih no_word

def Undefined (text name : String) : Prop :=
  name.toList ∈ lines text ∧ '=' ∉ name.toList ∧ (definitions text).lookup name = none

/-- The load defines or changes the keys of the lines with '=' and nothing else,
so that names without such a line are found, or missed, as before. -/
def OnlyDefinitions (env : DotEnv) (text : String) : Prop :=
  (∀ key, (env.load (some text)).find key =
    ((definitions text).reverse.lookup key).or (env.find key)) ∧
  ∀ (getenv : SystemEnvironment) (names : List String), (∀ name ∈ names, Undefined text name) →
    (∀ name ∈ names, (env.load (some text)).get getenv name = env.get getenv name) ∧
    (env.load (some text)).require getenv names = env.require getenv names

def WordsEmpty (env : DotEnv) (text : String) : Prop :=
  ∀ key, (mentions text).reverse.lookup key = some none →
    ((definitions text).reverse.lookup key).or (env.find key) = some ""

theorem find_undefined (env : DotEnv) (text name : String) (undefined : Undefined text name)
    (found : (env.load (some text)).find name =
      ((definitions text).reverse.lookup name).or (env.find name)) :
    (env.load (some text)).find name = env.find name := by
  have unknown : (definitions text).reverse.lookup name = none := by
    rw [List.lookup_eq_none_iff]
    intro entry member
    exact List.lookup_eq_none_iff.mp undefined.2.2 entry (List.mem_reverse.mp member)
  rw [found, unknown, Option.none_or]

/-- Bare words are harmless only where the empty value is there already. -/
theorem load_onlyDefinitions_iff (env : DotEnv) (text : String) :
    OnlyDefinitions env text ↔ WordsEmpty env text := by
  refine ⟨fun only key word => ?_, fun words => ?_⟩
  · have found := only.1 key
    rw [find_load, word] at found
    exact found.symm
  · have found (key : String) : (env.load (some text)).find key =
        ((definitions text).reverse.lookup key).or (env.find key) := by
      rw [find_load]
      by_cases word : (mentions text).reverse.lookup key = some none
      · rw [words key word, word]
        rfl
      · have decided := lookup_defined (mentions text).reverse key word
        rw [List.filterMap_reverse, ← definitions_eq] at decided
        rw [decided]
        cases last : (mentions text).reverse.lookup key with
        | none => rfl
        | some value =>
          cases value with
          | none => exact absurd last word
          | some value => rfl
    refine ⟨found, fun getenv names undefined => ⟨fun name member => ?_, ?_⟩⟩
    · exact get_congr _ env getenv name
        (find_undefined env text name (undefined name member) (found name))
    · exact require_congr _ env getenv names fun name member =>
        find_undefined env text name (undefined name member) (found name)

theorem load_word_hides : ¬OnlyDefinitions empty "FOO\n" := by
  have split : lines "FOO\n" = [['F', 'O', 'O']] := by
    have read := Getline.tokens_line '\n' ['F', 'O', 'O'] [] (by decide)
    rwa [Getline.tokens_nil] at read
  intro only
  have found := only.1 "FOO"
  rw [find_load, mentions, definitions, split] at found
  exact absurd found (by decide)

end

end NetworkDiscovery.DotEnv
