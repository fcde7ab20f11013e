import Mathlib.Data.String.Basic
import NetworkDiscovery.Library.Getline
import NetworkDiscovery.Library.OrderedMembers

/-! The settings from a `.env` file. A line is read by two more calls of
`getline`, first up to '=' and then to its end. Since a call fails only if it
extracts nothing, a line without '=' is taken as a key with an empty value. -/

namespace NetworkDiscovery
open OrderedMembers (store)

structure RuntimeError where
  what : String
  deriving DecidableEq, Repr

/-- `env_vars` is a `std::map`: its keys stand in order. -/
structure DotEnv where
  envVars : List (String × String)
  ordered : (envVars.map Prod.fst).Pairwise (· < ·)

abbrev SystemEnvironment := String → Option String

namespace DotEnv

def empty : DotEnv := ⟨[], List.Pairwise.nil⟩

/-- `env_vars[key] = value` -/
def assign (env : DotEnv) (key value : String) : DotEnv :=
  ⟨store key value env.envVars, OrderedMembers.store_sorted key value env.envVars env.ordered⟩

/-- The body of the loop over the lines. -/
def loadLine (env : DotEnv) (line : List Char) : DotEnv :=
  let (key, ss) := Getline.getline '=' [] ⟨line, false, false⟩
  if ss.fail then env
  else
    let (value, _) := Getline.getline '\n' [] ss
    env.assign (String.ofList key) (String.ofList value)

/-- A file that cannot be opened has no text. -/
def load (file : Option String) (env : DotEnv) : DotEnv :=
  match file with
  | none => env
  | some text => (Getline.tokens '\n' text.toList).foldl loadLine env

def find (env : DotEnv) (key : String) : Option String := env.envVars.lookup key

/-- The name that `getenv` sees of `key.c_str()`. -/
def cString (key : String) : String := String.ofList (key.toList.takeWhile (· != '\x00'))

def get (env : DotEnv) (getenv : SystemEnvironment) (key : String) : Except RuntimeError String :=
  match env.find key with
  | some value => .ok value
  | none =>
    match getenv (cString key) with
    | some value => .ok value
    | none => .error ⟨"Error: Environment variable not found: " ++ key⟩

def require (env : DotEnv) (getenv : SystemEnvironment) : List String → Except RuntimeError Unit
  | [] => .ok ()
  | key :: rest => do
    let _ ← env.get getenv key
    env.require getenv rest

def value? (env : DotEnv) (getenv : SystemEnvironment) (key : String) : Option String :=
  (env.find key).or (getenv (cString key))

theorem get_eq (env : DotEnv) (getenv : SystemEnvironment) (key : String) :
    env.get getenv key = match env.value? getenv key with
      | some value => .ok value
      | none => .error ⟨"Error: Environment variable not found: " ++ key⟩ := by
  rw [get, value?]
  cases env.find key <;> rfl

theorem require_eq (env : DotEnv) (getenv : SystemEnvironment) (requiredKeys : List String) :
    env.require getenv requiredKeys =
      match requiredKeys.find? fun key => (env.value? getenv key).isNone with
      | some key => .error ⟨"Error: Environment variable not found: " ++ key⟩
      | none => .ok () := by
  induction requiredKeys with
  | nil => rfl
  | cons key rest ih =>
    rw [require, get_eq, ih, List.find?_cons]
    cases env.value? getenv key <;> rfl

theorem get_congr (env other : DotEnv) (getenv : SystemEnvironment) (key : String)
    (same : env.find key = other.find key) : env.get getenv key = other.get getenv key := by
  rw [get, get, same]

theorem require_congr (env other : DotEnv) (getenv : SystemEnvironment) (requiredKeys : List String)
    (same : ∀ key ∈ requiredKeys, env.find key = other.find key) :
    env.require getenv requiredKeys = other.require getenv requiredKeys := by
  induction requiredKeys with
  | nil => rfl
  | cons key rest ih =>
    have ⟨first, later⟩ := List.forall_mem_cons.mp same
    rw [require, require, get_congr env other getenv key first, ih later]

theorem loadLine_assignment (env : DotEnv) (key value : List Char) (plain : '=' ∉ key)
    (one_line : '\n' ∉ value) :
    env.loadLine (key ++ '=' :: value) = env.assign (String.ofList key) (String.ofList value) := by
  rw [loadLine, Getline.getline_line '=' [] key value plain]
  show env.assign _ (String.ofList (Getline.getline '\n' [] ⟨value, false, false⟩).1) = _
  rw [Getline.getline_last '\n' [] value one_line]

theorem loadLine_bare (env : DotEnv) (line : List Char) (bare : '=' ∉ line) :
    env.loadLine line = if line = [] then env else env.assign (String.ofList line) "" := by
  rw [loadLine, Getline.getline_last '=' [] line bare]
  cases line with
  | nil => rfl
  | cons c rest =>
    show env.assign _ (String.ofList (Getline.getline '\n' [] ⟨[], true, false⟩).1) = _
    rw [Getline.getline_bad '\n' [] _ rfl]
    rfl

end DotEnv

end NetworkDiscovery
