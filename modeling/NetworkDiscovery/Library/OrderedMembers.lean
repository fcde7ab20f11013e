import Mathlib.Order.Lattice
import Mathlib.Tactic.Common

/-! Ordered maps seen as the list of their members in the order of the keys.
Storing under a key replaces the value there or inserts the key at its place.
The laws of lookup hold for every list of members, and storing keeps an ordered
list in order. -/

namespace OrderedMembers

section
variable {κ ν : Type*}

def insert [LT κ] [DecidableLT κ] (k : κ) (v : ν) : List (κ × ν) → List (κ × ν)
  | [] => [(k, v)]
  | (other, previous) :: rest =>
    if k < other then (k, v) :: (other, previous) :: rest
    else (other, previous) :: insert k v rest

def replace [BEq κ] (k : κ) (v : ν) : List (κ × ν) → List (κ × ν)
  | [] => []
  | (other, previous) :: rest =>
    if k == other then (other, v) :: rest else (other, previous) :: replace k v rest

/-- What `map[k] = v` makes of the members. -/
def store [BEq κ] [LT κ] [DecidableLT κ] (k : κ) (v : ν) (members : List (κ × ν)) :
    List (κ × ν) :=
  if (members.lookup k).isSome then replace k v members else insert k v members

end

section
variable {κ ν : Type*} [LinearOrder κ] (j k : κ) (v w : ν) (members : List (κ × ν))

theorem lookup_cons_if : ((k, v) :: members).lookup j = if j = k then some v else members.lookup j := by
  by_cases equal : j = k
  · simp [equal]
  · simp [List.lookup_cons, beq_false_of_ne equal, equal]

theorem lookup_map_snd {μ : Type*} (change : ν → μ) :
    (members.map fun entry => (entry.1, change entry.2)).lookup j =
      (members.lookup j).map change := by
  induction members with
  | nil => rfl
  | cons entry rest ih =>
    obtain ⟨k, v⟩ := entry
    rw [List.map_cons, lookup_cons_if, lookup_cons_if, ih]
    split <;> rfl

theorem lookup_insert_self (fresh : members.lookup k = none) :
    (insert k v members).lookup k = some v := by
  induction members with
  | nil => simp [insert]
  | cons entry rest ih =>
    obtain ⟨other, previous⟩ := entry
    by_cases equal : k = other
    · simp [equal] at fresh
    · rw [lookup_cons_if, if_neg equal] at fresh
      by_cases less : k < other <;> simp [insert, less, lookup_cons_if, equal, ih fresh]

theorem lookup_insert_ne (ne : j ≠ k) : (insert k v members).lookup j = members.lookup j := by
  induction members with
  | nil => simp [insert, ne]
  | cons entry rest ih =>
    obtain ⟨other, previous⟩ := entry
    by_cases less : k < other
    · simp [insert, less, lookup_cons_if, ne]
    · simp [insert, less, lookup_cons_if, ih]

theorem lookup_replace_self : (replace k v members).lookup k = (members.lookup k).map fun _ => v := by
  induction members with
  | nil => rfl
  | cons entry rest ih =>
    obtain ⟨other, previous⟩ := entry
    by_cases equal : k = other
    · simp [replace, equal]
    · simp [replace, lookup_cons_if, equal, ih]

theorem lookup_replace_ne (ne : j ≠ k) : (replace k v members).lookup j = members.lookup j := by
  induction members with
  | nil => rfl
  | cons entry rest ih =>
    obtain ⟨other, previous⟩ := entry
    by_cases equal : k = other
    · subst equal
      simp [replace, lookup_cons_if, ne]
    · simp [replace, lookup_cons_if, equal, ih]

@[simp] theorem lookup_store_self : (store k v members).lookup k = some v := by
  unfold store
  cases found : members.lookup k with
  | none => simpa using lookup_insert_self k v members found
  | some previous => simp [lookup_replace_self, found]

theorem lookup_store_ne (ne : j ≠ k) : (store k v members).lookup j = members.lookup j := by
  unfold store
  split
  · exact lookup_replace_ne j k v members ne
  · exact lookup_insert_ne j k v members ne

theorem lookup_store_if : (store k v members).lookup j = if j = k then some v else members.lookup j := by
  by_cases equal : j = k
  · subst equal
    rw [lookup_store_self, if_pos rfl]
  · rw [lookup_store_ne j k v members equal, if_neg equal]

theorem lookup_foldl_store (entries : List (κ × ν)) :
    (entries.foldl (fun stored entry => store entry.1 entry.2 stored) members).lookup j =
      (entries.reverse.lookup j).or (members.lookup j) := by
  induction entries generalizing members with
  | nil => rfl
  | cons entry rest ih =>
    obtain ⟨key, value⟩ := entry
    rw [List.foldl_cons, ih, lookup_store_if, List.reverse_cons, List.lookup_append, lookup_cons_if]
    cases later : rest.reverse.lookup j with
    | some value => rfl
    | none => by_cases equal : j = key <;> simp [equal]

theorem replace_insert_self (fresh : members.lookup k = none) :
    replace k w (insert k v members) = insert k w members := by
  induction members with
  | nil => simp [insert, replace]
  | cons entry rest ih =>
    obtain ⟨other, previous⟩ := entry
    by_cases equal : k = other
    · simp [equal] at fresh
    · rw [lookup_cons_if, if_neg equal] at fresh
      by_cases less : k < other <;> simp [insert, replace, less, equal, ih fresh]

theorem replace_replace_self : replace k w (replace k v members) = replace k w members := by
  induction members with
  | nil => rfl
  | cons entry rest ih =>
    obtain ⟨other, previous⟩ := entry
    by_cases equal : k = other <;> simp [replace, equal, ih]

theorem store_store_self : store k w (store k v members) = store k w members := by
  conv_lhs => rw [store]
  rw [lookup_store_self, Option.isSome_some, if_pos rfl, store, store]
  cases found : members.lookup k with
  | none => simpa using replace_insert_self k v w members found
  | some previous => simpa using replace_replace_self k v w members

theorem store_lookup (found : members.lookup k = some v) : store k v members = members := by
  rw [store, found, Option.isSome_some, if_pos rfl]
  induction members with
  | nil => rfl
  | cons entry rest ih =>
    obtain ⟨other, previous⟩ := entry
    by_cases equal : k = other
    · subst equal
      obtain rfl : previous = v := by simpa using found
      simp [replace]
    · rw [lookup_cons_if, if_neg equal] at found
      simp [replace, equal, ih found]

theorem insert_comm (ne : j ≠ k) :
    insert j v (insert k w members) = insert k w (insert j v members) := by
  induction members with
  | nil =>
    rcases lt_or_gt_of_ne ne with less | greater
    · simp [insert, less, lt_asymm less]
    · simp [insert, greater, lt_asymm greater]
  | cons entry rest ih =>
    obtain ⟨other, previous⟩ := entry
    by_cases before : j < other
    · by_cases after : k < other
      · rcases lt_or_gt_of_ne ne with less | greater
        · simp [insert, before, after, less, lt_asymm less]
        · simp [insert, before, after, greater, lt_asymm greater]
      · have later : ¬ k < j := fun less => after (lt_trans less before)
        simp [insert, before, after, later]
    · by_cases after : k < other
      · have later : ¬ j < k := fun less => before (lt_trans less after)
        simp [insert, before, after, later]
      · simp [insert, before, after, ih]

theorem replace_comm (ne : j ≠ k) :
    replace j v (replace k w members) = replace k w (replace j v members) := by
  induction members with
  | nil => rfl
  | cons entry rest ih =>
    obtain ⟨other, previous⟩ := entry
    by_cases first : j = other
    · subst first
      simp [replace, ne.symm]
    · by_cases second : k = other <;> simp [replace, first, second, ih]

theorem replace_insert_comm (ne : j ≠ k) :
    replace j v (insert k w members) = insert k w (replace j v members) := by
  induction members with
  | nil => simp [insert, replace, ne]
  | cons entry rest ih =>
    obtain ⟨other, previous⟩ := entry
    by_cases equal : j = other
    · subst equal
      by_cases less : k < j <;> simp [insert, replace, less, ne]
    · by_cases less : k < other <;> simp [insert, replace, less, equal, ne, ih]

theorem mem_insert (e : κ × ν) (member : e ∈ insert k v members) : e = (k, v) ∨ e ∈ members := by
  induction members with
  | nil => exact .inl (List.mem_singleton.mp member)
  | cons entry rest ih =>
    rw [insert] at member
    split at member
    · exact List.mem_cons.mp member
    · rcases List.mem_cons.mp member with here | later
      · exact .inr (here ▸ List.mem_cons_self)
      · exact (ih later).imp_right (List.mem_cons_of_mem entry)

theorem mem_replace (e : κ × ν) (member : e ∈ replace k v members) : e = (k, v) ∨ e ∈ members := by
  induction members with
  | nil => cases member
  | cons entry rest ih =>
    obtain ⟨other, previous⟩ := entry
    by_cases equal : k = other
    · subst equal
      rw [replace, if_pos BEq.rfl] at member
      exact (List.mem_cons.mp member).imp_right (List.mem_cons_of_mem _)
    · rw [replace, if_neg (by simpa using equal)] at member
      rcases List.mem_cons.mp member with here | later
      · exact .inr (here ▸ List.mem_cons_self)
      · exact (ih later).imp_right (List.mem_cons_of_mem _)

theorem map_fst_replace : (replace k v members).map Prod.fst = members.map Prod.fst := by
  induction members with
  | nil => rfl
  | cons entry rest ih =>
    obtain ⟨other, previous⟩ := entry
    by_cases equal : k = other <;> simp [replace, equal, ih]

theorem insert_sorted (fresh : members.lookup k = none)
    (sorted : (members.map Prod.fst).Pairwise (· < ·)) :
    ((insert k v members).map Prod.fst).Pairwise (· < ·) := by
  induction members with
  | nil => simp [insert]
  | cons entry rest ih =>
    obtain ⟨other, previous⟩ := entry
    by_cases equal : k = other
    · simp [equal] at fresh
    · rw [lookup_cons_if, if_neg equal] at fresh
      have ⟨above, tail⟩ := List.pairwise_cons.mp sorted
      by_cases less : k < other
      · rw [insert, if_pos less]
        refine List.pairwise_cons.mpr ⟨?_, sorted⟩
        intro key member
        rcases List.mem_cons.mp member with rfl | later
        · exact less
        · exact lt_trans less (above key later)
      · rw [insert, if_neg less]
        refine List.pairwise_cons.mpr ⟨?_, ih fresh tail⟩
        intro key member
        obtain ⟨e, inserted, rfl⟩ := List.mem_map.mp member
        rcases mem_insert k v rest e inserted with rfl | later
        · exact lt_of_le_of_ne (not_lt.mp less) (Ne.symm equal)
        · exact above e.1 (List.mem_map.mpr ⟨e, later, rfl⟩)

theorem store_comm (ne : j ≠ k) :
    store j v (store k w members) = store k w (store j v members) := by
  have first : ((store k w members).lookup j).isSome = (members.lookup j).isSome := by
    rw [lookup_store_ne j k w members ne]
  have second : ((store j v members).lookup k).isSome = (members.lookup k).isSome := by
    rw [lookup_store_ne k j v members ne.symm]
  conv_lhs => rw [store, first]
  conv_rhs => rw [store, second]
  unfold store
  cases hereJ : (members.lookup j).isSome <;> cases hereK : (members.lookup k).isSome
  · simpa using insert_comm j k v w members ne
  · simpa using (replace_insert_comm k j w v members ne.symm).symm
  · simpa using replace_insert_comm j k v w members ne
  · simpa using replace_comm j k v w members ne

theorem mem_store (e : κ × ν) (member : e ∈ store k v members) :
    e = (k, v) ∨ e ∈ members := by
  unfold store at member
  split at member
  · exact mem_replace k v members e member
  · exact mem_insert k v members e member

theorem store_sorted (sorted : (members.map Prod.fst).Pairwise (· < ·)) :
    ((store k v members).map Prod.fst).Pairwise (· < ·) := by
  unfold store
  cases found : members.lookup k with
  | some previous => simpa [map_fst_replace] using sorted
  | none => simpa using insert_sorted k v members found sorted

theorem first_le_of_lookup (sorted : (((k, v) :: members).map Prod.fst).Pairwise (· < ·))
    (found : (((k, v) :: members).lookup j).isSome) : k ≤ j := by
  by_contra below
  have absent : ((k, v) :: members).lookup j = none := by
    rw [List.lookup_eq_none_iff]
    intro entry member
    have above : j < entry.1 := by
      rcases List.mem_cons.mp member with rfl | later
      · exact not_le.mp below
      · exact (not_le.mp below).trans
          ((List.pairwise_cons.mp sorted).1 entry.1 (List.mem_map_of_mem later))
    exact bne_iff_ne.mpr above.ne
  rw [absent] at found
  cases found

theorem lookup_rest (sorted : (((k, v) :: members).map Prod.fst).Pairwise (· < ·)) :
    members.lookup j = if j = k then none else ((k, v) :: members).lookup j := by
  by_cases equal : j = k
  · rw [if_pos equal, List.lookup_eq_none_iff]
    intro entry member
    have above := (List.pairwise_cons.mp sorted).1 entry.1 (List.mem_map_of_mem member)
    exact bne_iff_ne.mpr (equal ▸ above.ne)
  · rw [if_neg equal, lookup_cons_if, if_neg equal]

theorem eq_of_lookup (others : List (κ × ν)) (sorted : (members.map Prod.fst).Pairwise (· < ·))
    (sorted' : (others.map Prod.fst).Pairwise (· < ·))
    (same : ∀ j, members.lookup j = others.lookup j) : members = others := by
  induction members generalizing others with
  | nil =>
    cases others with
    | nil => rfl
    | cons entry rest =>
      have found := same entry.1
      rw [lookup_cons_if, if_pos rfl] at found
      cases found
  | cons entry rest ih =>
    obtain ⟨k, v⟩ := entry
    have here : ((k, v) :: rest).lookup k = some v := by rw [lookup_cons_if, if_pos rfl]
    cases others with
    | nil =>
      rw [same] at here
      cases here
    | cons entry rest' =>
      obtain ⟨k', v'⟩ := entry
      have there : ((k', v') :: rest').lookup k' = some v' := by rw [lookup_cons_if, if_pos rfl]
      have least := first_le_of_lookup k' k v rest sorted (by rw [same, there]; rfl)
      have least' := first_le_of_lookup k k' v' rest' sorted' (by rw [← same, here]; rfl)
      obtain rfl := le_antisymm least least'
      obtain rfl : v = v' := Option.some.inj (here.symm.trans ((same k).trans there))
      have tails : rest = rest' := by
        refine ih rest' (List.pairwise_cons.mp sorted).2 (List.pairwise_cons.mp sorted').2 ?_
        intro j
        rw [lookup_rest j k v rest sorted, lookup_rest j k v rest' sorted', same]
      rw [tails]

end

end OrderedMembers
