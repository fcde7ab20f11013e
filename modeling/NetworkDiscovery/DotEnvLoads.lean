import Mathlib.Data.List.ReduceOption
import NetworkDiscovery.DotEnvFile

/-! Several files loaded one after the other into the shared settings. Later lines
win, across files as within one, so that the files act like one file of all their
lines, and loading them again changes nothing. -/

namespace NetworkDiscovery.DotEnv

theorem eq_of_find (env other : DotEnv) (same : ∀ key, env.find key = other.find key) :
    env = other := by
  have members : env.envVars = other.envVars :=
    OrderedMembers.eq_of_lookup env.envVars other.envVars env.ordered other.ordered same
  cases env
  cases other
  congr

theorem loadLine_nil (env : DotEnv) : env.loadLine [] = env := by
  rw [loadLine_bare env [] List.not_mem_nil, if_pos rfl]

theorem loadLines_append (env : DotEnv) (first second : List Char) :
    (Getline.tokens '\n' (first ++ '\n' :: second)).foldl loadLine env =
      (Getline.tokens '\n' second).foldl loadLine
        ((Getline.tokens '\n' first).foldl loadLine env) := by
  induction first using Getline.text_induction '\n' generalizing env with
  | nil =>
    have split := Getline.tokens_line '\n' [] second List.not_mem_nil
    rw [List.nil_append] at split ⊢
    rw [split, Getline.tokens_nil, List.foldl_cons, loadLine_nil]
    rfl
  | last a some_char clean =>
    rw [Getline.tokens_line '\n' a second clean, Getline.tokens_last '\n' a some_char clean]
    rfl
  | line a b clean ih =>
    rw [List.append_assoc, List.cons_append, Getline.tokens_line '\n' a _ clean,
      Getline.tokens_line '\n' a b clean, List.foldl_cons, List.foldl_cons, ih]

/-- A file after another, and the file of both with a line end between them. -/
theorem load_load (env : DotEnv) (first second : String) :
    (env.load (some first)).load (some second) = env.load (some (first ++ "\n" ++ second)) := by
  have text : (first ++ "\n" ++ second).toList = first.toList ++ '\n' :: second.toList := by
    simp
  rw [load, load, load, text, loadLines_append]

theorem load_again (env : DotEnv) (text : String) :
    (env.load (some text)).load (some text) = env.load (some text) := by
  refine eq_of_find _ _ fun key => ?_
  rw [find_load, find_load]
  cases (mentions text).reverse.lookup key <;> rfl

def loadAll (env : DotEnv) (files : List (Option String)) : DotEnv :=
  files.foldl (fun env file => env.load file) env

def joined : List (Option String) → String
  | [] => ""
  | none :: rest => joined rest
  | some text :: rest => text ++ "\n" ++ joined rest

theorem loadAll_joined (env : DotEnv) (files : List (Option String)) :
    env.loadAll files = env.load (some (joined files)) := by
  induction files generalizing env with
  | nil => rw [joined, load, String.toList_empty, Getline.tokens_nil]; rfl
  | cons file rest ih =>
    rw [loadAll, List.foldl_cons, ← loadAll, ih]
    cases file with
    | none => rfl
    | some text => exact load_load env text (joined rest)

end NetworkDiscovery.DotEnv
