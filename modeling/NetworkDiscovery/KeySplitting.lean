import NetworkDiscovery.Library.Getline
import NetworkDiscovery.JsonBuilder

/-! The split of a key is the `getline` loop over its characters. The tokens
joined again give the key back but for a delimiter at its end, and two keys walk
the same path of the tree only if they differ in such a delimiter. -/

namespace NetworkDiscovery.JsonBuilder
open OrderedMembers (store)

theorem splitFrom_eq (delimiter : Char) (token stream : List Char) (clean : delimiter ∉ token) :
    splitFrom delimiter token stream =
      (Getline.tokens delimiter (token ++ stream)).map String.ofList := by
  induction stream generalizing token with
  | nil =>
    rw [List.append_nil]
    cases token with
    | nil => rw [Getline.tokens_nil]; rfl
    | cons c token => rw [Getline.tokens_last delimiter _ (List.cons_ne_nil c token) clean]; rfl
  | cons c stream ih =>
    by_cases found : c = delimiter
    · subst found
      have rest := ih [] List.not_mem_nil
      rw [List.nil_append] at rest
      rw [splitFrom, if_pos rfl, rest, Getline.tokens_line c token stream clean, List.map_cons]
    · have longer : delimiter ∉ token ++ [c] := by
        simpa [clean] using Ne.symm found
      rw [splitFrom, if_neg found, ih (token ++ [c]) longer, List.append_assoc,
        List.singleton_append]

theorem splitString_eq (input : String) (delimiter : Char) :
    splitString input delimiter = (Getline.tokens delimiter input.toList).map String.ofList :=
  splitFrom_eq delimiter [] input.toList List.not_mem_nil

def endsIn (delimiter : Char) (text : String) : Bool := text.toList.getLast? = some delimiter

theorem intercalate_splitString (input : String) (delimiter : Char) :
    String.intercalate (String.singleton delimiter) (splitString input delimiter) =
      if endsIn delimiter input then String.ofList input.toList.dropLast else input := by
  apply String.toList_injective
  have joined := Getline.intercalate_tokens delimiter input.toList
  rw [splitString_eq, String.toList_intercalate, List.map_map]
  have same : String.toList ∘ String.ofList = id := by
    funext characters
    exact String.toList_ofList
  rw [same, List.map_id, String.toList_singleton, joined]
  by_cases ends : input.toList.getLast? = some delimiter <;> simp [endsIn, ends]

theorem length_splitString (input : String) (delimiter : Char) :
    (splitString input delimiter).length = if input = "" then 0
      else if endsIn delimiter input then input.toList.count delimiter
      else input.toList.count delimiter + 1 := by
  have empty : input.toList = [] ↔ input = "" := String.toList_eq_nil_iff
  rw [splitString_eq, List.length_map, Getline.length_tokens]
  simp only [empty, endsIn, decide_eq_true_eq]

theorem notMem_splitString (input : String) (delimiter : Char) :
    ∀ token ∈ splitString input delimiter, delimiter ∉ token.toList := by
  intro token member
  rw [splitString_eq] at member
  obtain ⟨characters, present, rfl⟩ := List.mem_map.mp member
  rw [String.toList_ofList]
  exact Getline.notMem_tokens delimiter input.toList characters present

def SlashAdded (key longer : String) : Prop :=
  key ≠ "" ∧ endsIn '/' key = false ∧ longer = key ++ "/"

theorem splitString_inj (key other : String) :
    splitString key '/' = splitString other '/' ↔
      key = other ∨ SlashAdded key other ∨ SlashAdded other key := by
  have injective : Function.Injective (List.map String.ofList) :=
    List.map_injective_iff.mpr fun _ _ => String.ofList_injective
  have added (a b : String) :
      (a.toList ≠ [] ∧ a.toList.getLast? ≠ some '/' ∧ b.toList = a.toList ++ ['/']) ↔
        SlashAdded a b := by
    have appended : b.toList = a.toList ++ ['/'] ↔ b = a ++ "/" := by
      rw [← String.toList_inj, String.toList_append]
      rfl
    rw [SlashAdded, appended, Ne, String.toList_eq_nil_iff, endsIn, decide_eq_false_iff_not]
  rw [splitString_eq, splitString_eq, injective.eq_iff, Getline.tokens_inj, added, added,
    String.toList_inj]

theorem graft_injective (value : Json) (leaf : value.members? = none) :
    Function.Injective fun parts => Json.graft value parts (.object []) := by
  intro parts
  induction parts with
  | nil =>
    intro others same
    cases others with
    | nil => rfl
    | cons part rest =>
      have shown : value = .object _ := same
      rw [shown] at leaf
      cases leaf
  | cons part rest ih =>
    intro others same
    cases others with
    | nil =>
      have shown : Json.object _ = value := same
      rw [← shown] at leaf
      cases leaf
    | cons other others =>
      have members := Json.object.inj same
      rw [Json.levelMembers, Json.members?, Option.getD_some, Json.store_eq_nil, Json.store_eq_nil]
        at members
      obtain ⟨first, below⟩ := Prod.mk.inj (List.cons.inj members).1
      rw [first, ih below]

theorem setFrom_injective (parts others : List String)
    (same : (setFrom (.string "") parts).run (.object []) =
      (setFrom (.string "") others).run (.object [])) : parts = others := by
  have empty : (setFrom (.string "") []).run (.object []) = .ok () (.object []) := rfl
  have grown (part : String) (rest : List String) :
      (setFrom (.string "") (part :: rest)).run (.object []) =
        .ok () (Json.graft (.string "") (part :: rest) (.object [])) := by
    rw [setFrom_run _ _ (List.cons_ne_nil part rest), Json.blocked_empty]
    rfl
  have filled (part : String) (rest : List String) :
      Json.graft (.string "") (part :: rest) (.object []) ≠ .object [] := by
    intro none
    cases Json.object.inj none
  cases parts with
  | nil =>
    cases others with
    | nil => rfl
    | cons other others =>
      rw [empty, grown] at same
      injection same with _ trees
      exact absurd trees.symm (filled other others)
  | cons part rest =>
    cases others with
    | nil =>
      rw [empty, grown] at same
      injection same with _ trees
      exact absurd trees (filled part rest)
    | cons other others =>
      rw [grown, grown] at same
      injection same with _ trees
      exact graft_injective (.string "") rfl trees

theorem setMultilevelKey_eq_iff (key other : String) :
    (∀ value, setMultilevelKey key value = setMultilevelKey other value) ↔
      splitString key '/' = splitString other '/' := by
  constructor
  · intro alike
    apply setFrom_injective
    exact congrArg (fun call => EStateM.run call (Json.object [])) (alike (.string ""))
  · intro same value
    rw [setMultilevelKey, setMultilevelKey, same]

theorem splitString_laws :
    (∀ (input : String) (delimiter : Char),
      (∀ token ∈ splitString input delimiter, delimiter ∉ token.toList) ∧
      String.intercalate (String.singleton delimiter) (splitString input delimiter) =
        (if endsIn delimiter input then String.ofList input.toList.dropLast else input) ∧
      (splitString input delimiter).length = (if input = "" then 0
        else if endsIn delimiter input then input.toList.count delimiter
        else input.toList.count delimiter + 1)) ∧
    (∀ key other : String,
      (splitString key '/' = splitString other '/' ↔
        key = other ∨ SlashAdded key other ∨ SlashAdded other key) ∧
      ((∀ value, setMultilevelKey key value = setMultilevelKey other value) ↔
        key = other ∨ SlashAdded key other ∨ SlashAdded other key)) := by
  refine ⟨fun input delimiter => ⟨notMem_splitString input delimiter,
    intercalate_splitString input delimiter, length_splitString input delimiter⟩, ?_⟩
  intro key other
  have paths := splitString_inj key other
  exact ⟨paths, (setMultilevelKey_eq_iff key other).trans paths⟩

end NetworkDiscovery.JsonBuilder
