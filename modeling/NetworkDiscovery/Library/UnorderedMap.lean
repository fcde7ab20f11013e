import Mathlib.Data.List.Nodup
import Mathlib.Data.List.Perm.Basic
import Mathlib.Tactic.Common

/-! Hash maps seen through their iteration order. A map is the list of its
elements in the order an iterator visits them, with distinct keys as a field.
The order itself is unspecified: an insertion may rehash, so its effect on the
order is a parameter, and every law about contents is stated by lookup. -/

/-- What an insertion does to the iteration order: any rearrangement is allowed. -/
structure Placement (κ ν : Type*) where
  place : List (κ × ν) → κ × ν → List (κ × ν)
  perm : ∀ elements e, (place elements e).Perm (e :: elements)

def Placement.atEnd {κ ν : Type*} : Placement κ ν :=
  ⟨fun elements e => elements ++ [e], fun _ _ => List.perm_append_singleton _ _⟩

structure UnorderedMap (κ ν : Type*) where
  entries : List (κ × ν)
  nodup : (entries.map Prod.fst).Nodup

namespace UnorderedMap

variable {κ ν α : Type*}

def empty : UnorderedMap κ ν := ⟨[], List.nodup_nil⟩

def keys (m : UnorderedMap κ ν) : List κ := m.entries.map Prod.fst

/-- Erasing elements leaves the others in their relative order. -/
def filter (m : UnorderedMap κ ν) (p : κ × ν → Bool) : UnorderedMap κ ν :=
  ⟨m.entries.filter p, m.nodup.sublist (List.filter_sublist.map Prod.fst)⟩

private theorem nodup_place (placement : Placement κ ν) (m : UnorderedMap κ ν) (k : κ) (v : ν)
    (fresh : k ∉ m.keys) : ((placement.place m.entries (k, v)).map Prod.fst).Nodup := by
  rw [((placement.perm m.entries (k, v)).map Prod.fst).nodup_iff]
  exact List.nodup_cons.mpr ⟨fresh, m.nodup⟩

variable [DecidableEq κ]

def find? (m : UnorderedMap κ ν) (k : κ) : Option ν := m.entries.lookup k

def count (m : UnorderedMap κ ν) (k : κ) : ℕ := if k ∈ m.keys then 1 else 0

/-- Insertion of a new key; an existing key keeps its value. -/
def emplace (m : UnorderedMap κ ν) (placement : Placement κ ν) (k : κ) (v : ν) :
    UnorderedMap κ ν :=
  if present : k ∈ m.keys then m
  else ⟨placement.place m.entries (k, v), nodup_place placement m k v present⟩

private def modifyEntry (k : κ) (f : ν → ν) (e : κ × ν) : κ × ν :=
  if e.1 = k then (e.1, f e.2) else e

private theorem modifyEntry_fst (k : κ) (f : ν → ν) (e : κ × ν) :
    (modifyEntry k f e).1 = e.1 := by
  unfold modifyEntry
  split <;> rfl

private theorem map_modifyEntry_keys (k : κ) (f : ν → ν) (entries : List (κ × ν)) :
    (entries.map (modifyEntry k f)).map Prod.fst = entries.map Prod.fst := by
  rw [List.map_map]
  exact List.map_congr_left fun e _ => modifyEntry_fst k f e

def modify (m : UnorderedMap κ ν) (k : κ) (f : ν → ν) : UnorderedMap κ ν :=
  ⟨m.entries.map (modifyEntry k f), by rw [map_modifyEntry_keys]; exact m.nodup⟩

theorem lookup_eq_some_iff_mem {entries : List (κ × ν)} (nodup : (entries.map Prod.fst).Nodup)
    (k : κ) (v : ν) : entries.lookup k = some v ↔ (k, v) ∈ entries := by
  induction entries with
  | nil => simp
  | cons e rest ih =>
    obtain ⟨other, w⟩ := e
    obtain ⟨fresh, nodup⟩ := List.nodup_cons.mp nodup
    by_cases same : k = other
    · subst same
      have absent : (k, v) ∉ rest := fun member => fresh (List.mem_map.mpr ⟨(k, v), member, rfl⟩)
      simp [absent, eq_comm]
    · have different : (k == other) = false := by simpa using same
      simp [List.lookup_cons, different, ih nodup, same]

theorem find?_eq_some (m : UnorderedMap κ ν) (k : κ) (v : ν) :
    m.find? k = some v ↔ (k, v) ∈ m.entries :=
  lookup_eq_some_iff_mem m.nodup k v

theorem find?_eq_none (m : UnorderedMap κ ν) (k : κ) : m.find? k = none ↔ k ∉ m.keys := by
  simp only [find?, keys, List.lookup_eq_none_iff, List.mem_map, not_exists, not_and]
  constructor
  · exact fun h e member same => bne_iff_ne.mp (h e member) same.symm
  · exact fun h e member => bne_iff_ne.mpr fun same => h e member same.symm

theorem mem_keys (m : UnorderedMap κ ν) (k : κ) : k ∈ m.keys ↔ (m.find? k).isSome := by
  rw [Option.isSome_iff_ne_none, ne_eq, find?_eq_none, not_not]

theorem count_pos (m : UnorderedMap κ ν) (k : κ) : 0 < m.count k ↔ (m.find? k).isSome := by
  rw [← mem_keys, count]
  split <;> simp_all

theorem find?_eq_of_mem_iff (m m' : UnorderedMap κ ν) (k : κ)
    (h : ∀ v, (k, v) ∈ m.entries ↔ (k, v) ∈ m'.entries) : m.find? k = m'.find? k := by
  ext v
  rw [find?_eq_some, find?_eq_some]
  exact h v

theorem find?_emplace (m : UnorderedMap κ ν) (placement : Placement κ ν) (k : κ) (v : ν) (x : κ) :
    (m.emplace placement k v).find? x =
      if x = k then some ((m.find? k).getD v) else m.find? x := by
  unfold emplace
  split_ifs with present same same
  · subst same
    obtain ⟨w, found⟩ := Option.isSome_iff_exists.mp ((m.mem_keys x).mp present)
    simp [found]
  · rfl
  · subst same
    rw [(m.find?_eq_none x).mpr present, find?_eq_some]
    exact (placement.perm m.entries (x, v)).mem_iff.mpr List.mem_cons_self
  · refine find?_eq_of_mem_iff _ _ x fun w => ?_
    rw [(placement.perm m.entries (k, v)).mem_iff]
    simp [same]

theorem find?_modify (m : UnorderedMap κ ν) (k : κ) (f : ν → ν) (x : κ) :
    (m.modify k f).find? x = if x = k then (m.find? k).map f else m.find? x := by
  ext w
  rw [find?_eq_some]
  simp only [modify, List.mem_map, modifyEntry]
  split_ifs with same
  · subst same
    simp only [Option.map_eq_some_iff, find?_eq_some]
    constructor
    · rintro ⟨⟨k, v⟩, member, equal⟩
      split_ifs at equal with here
      · obtain ⟨rfl, rfl⟩ := Prod.mk.inj equal
        exact ⟨v, member, rfl⟩
      · exact absurd (Prod.mk.inj equal).1 here
    · rintro ⟨v, member, rfl⟩
      exact ⟨(x, v), member, if_pos rfl⟩
  · rw [find?_eq_some]
    constructor
    · rintro ⟨e, member, equal⟩
      split_ifs at equal with here
      · exact absurd ((Prod.mk.inj equal).1.symm.trans here) same
      · exact equal ▸ member
    · intro member
      exact ⟨(x, w), member, if_neg same⟩

theorem find?_filter (m : UnorderedMap κ ν) (p : κ × ν → Bool) (x : κ) :
    (m.filter p).find? x = (m.find? x).filter fun v => p (x, v) := by
  ext v
  rw [find?_eq_some, Option.filter_eq_some_iff, find?_eq_some]
  simp [filter]

/-- A run of updates that each touch the value under one key acts on every key
by the updates of that key alone, in their order. -/
theorem find?_foldl (update : UnorderedMap κ ν → α → UnorderedMap κ ν) (key : α → κ)
    (one : Option ν → α → Option ν)
    (spec : ∀ m a x, (update m a).find? x = if key a = x then one (m.find? x) a else m.find? x)
    (m : UnorderedMap κ ν) (as : List α) (x : κ) :
    (as.foldl update m).find? x = (as.filter (fun a => key a = x)).foldl one (m.find? x) := by
  induction as generalizing m with
  | nil => rfl
  | cons a rest ih =>
    rw [List.foldl_cons, ih, spec, List.filter_cons]
    by_cases here : key a = x <;> simp [here]

/-- Taken by labels, distinct ones that cover them, elements come once each. -/
theorem groups_perm (label : α → κ) (labels : List κ) (distinct : labels.Nodup) (elements : List α)
    (cover : ∀ a ∈ elements, label a ∈ labels) :
    (labels.flatMap fun k => elements.filter (label · = k)).Perm elements := by
  induction elements with
  | nil => simp
  | cons a rest ih =>
    obtain ⟨before, after, rfl⟩ := List.append_of_mem (cover a List.mem_cons_self)
    have inBefore : ∀ k ∈ before, label a ≠ k := by
      rintro k member rfl
      exact (List.nodup_append.mp distinct).2.2 _ member _ List.mem_cons_self rfl
    have inAfter : ∀ k ∈ after, label a ≠ k := by
      rintro k member rfl
      exact (List.nodup_cons.mp (List.nodup_append.mp distinct).2.1).1 member
    have skip (labels : List κ) (h : ∀ k ∈ labels, label a ≠ k) :
        (labels.flatMap fun k => (a :: rest).filter (label · = k)) =
          labels.flatMap fun k => rest.filter (label · = k) :=
      List.flatMap_congr fun k member => by simp [h k member]
    have smaller := ih fun b member => cover b (List.mem_cons_of_mem a member)
    rw [List.flatMap_append, List.flatMap_cons] at smaller ⊢
    rw [skip before inBefore, skip after inAfter, List.filter_cons_of_pos (by simp)]
    exact List.perm_middle.trans (smaller.cons a)

end UnorderedMap
