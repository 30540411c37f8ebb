import Mathlib.Data.List.Induction
import Mathlib.Data.List.Nodup
import Mathlib.Data.List.Perm.Subperm
import BoundSql.KeyMap

/-!
# Keys and values of maps

What a map has for a key after it was filled, and what its keys are.  A map that is filled
from entries has the last value of every key; if it has as many keys as there were entries,
no key came twice, and the entries and the map have the same values.

A map is nothing but its entries, and these stand in one order
(`KeyMap.ext_of_mem_iff`).  So of what a map was filled with, only the last entry of each key
is left (`KeyMap.mem_entries_ofList`), on whatever way it was filled (`KeyMap.Filling`).
-/

namespace BoundSql

namespace KeyMap

variable {α : Type}

/-- The first entry is found under its key, and the others under other keys. -/
theorem lookup_cons (key other : String) (value : α) (entries : List (String × α)) :
    ((key, value) :: entries).lookup other =
      if other = key then some value else entries.lookup other := by
  rw [List.lookup_cons]
  by_cases h : other = key
  · rw [if_pos h, beq_iff_eq.2 h]
  · rw [if_neg h, beq_false_of_ne h]

/-- What is found for a key is an entry. -/
theorem mem_of_lookup {entries : List (String × α)} {key : String} {value : α}
    (h : entries.lookup key = some value) : (key, value) ∈ entries := by
  obtain ⟨before, after, rfl, -⟩ := List.lookup_eq_some_iff.1 h
  exact List.mem_append_right _ List.mem_cons_self

/-- A value is found for a key that has no other. -/
theorem lookup_eq_some_of_unique {entries : List (String × α)} {key : String} {value : α}
    (h : (key, value) ∈ entries) (hunique : ∀ other, (key, other) ∈ entries → other = value) :
    entries.lookup key = some value := by
  cases hfound : entries.lookup key with
  | none => exact absurd (List.lookup_eq_none_iff.1 hfound _ h) (by simp)
  | some found => rw [hunique found (mem_of_lookup hfound)]

/-- No key occurs twice. -/
theorem nodup_keys (m : KeyMap α) : m.keys.Nodup :=
  List.pairwise_map.2 (m.sorted.imp fun h => String.ne_of_lt h)

/-- A map has a value for its keys and for no others. -/
theorem isSome_get? {m : KeyMap α} {key : String} : (m.get? key).isSome ↔ key ∈ m.keys := by
  rw [get?, List.lookup_isSome_iff, keys, List.mem_map]
  exact exists_congr fun entry => and_congr_right fun _ => beq_iff_eq.trans eq_comm

/-- Placing an entry changes what is found under its key alone. -/
theorem lookup_place (key other : String) (value : α) (entries : List (String × α)) :
    (place key value entries).lookup other =
      if other = key then some value else entries.lookup other := by
  induction entries with
  | nil => rw [place, lookup_cons]
  | cons entry rest ih =>
      obtain ⟨k, v⟩ := entry
      rw [place]
      split
      · rw [lookup_cons]
      · split
        · rename_i hlt
          rw [lookup_cons, lookup_cons, ih]
          by_cases h : other = k
          · have hne : other ≠ key := h ▸ String.ne_of_lt hlt
            rw [if_pos h, if_neg hne, if_pos h]
          · rw [if_neg h, if_neg h]
        · rename_i hnot hnot'
          have hkey : key = k := String.le_antisymm (String.not_lt.1 hnot') (String.not_lt.1 hnot)
          rw [lookup_cons, lookup_cons, hkey]
          by_cases h : other = k
          · rw [if_pos h, if_pos h]
          · rw [if_neg h, if_neg h, if_neg h]

/-- Inserting changes what is found under the key alone. -/
theorem get?_insert (m : KeyMap α) (key other : String) (value : α) :
    (m.insert key value).get? other = if other = key then some value else m.get? other :=
  lookup_place key other value m.entries

/-- The last pair is inserted into the map of the others. -/
theorem ofList_concat (entries : List (String × α)) (entry : String × α) :
    ofList (entries ++ [entry]) = (ofList entries).insert entry.1 entry.2 := by
  rw [ofList, List.foldl_append, ← ofList, List.foldl_cons, List.foldl_nil]

/-- A key behind all others is placed at the end. -/
theorem place_last {key : String} {value : α} {entries : List (String × α)}
    (h : ∀ entry ∈ entries, entry.1 < key) :
    place key value entries = entries ++ [(key, value)] := by
  induction entries with
  | nil => rfl
  | cons entry rest ih =>
      obtain ⟨hentry, hrest⟩ := List.forall_mem_cons.1 h
      rw [place, if_neg (String.lt_asymm hentry), if_pos hentry, ih hrest, List.cons_append]

/-- **Entries in order are the entries of their map.** -/
theorem entries_ofList {entries : List (String × α)}
    (h : entries.Pairwise fun a b => a.1 < b.1) : (ofList entries).entries = entries := by
  induction entries using List.reverseRecOn with
  | nil => rfl
  | append_singleton entries entry ih =>
      obtain ⟨hentries, -, hlast⟩ := List.pairwise_append.1 h
      rw [ofList_concat]
      show place entry.1 entry.2 (ofList entries).entries = entries ++ [entry]
      rw [ih hentries]
      exact place_last fun other hother => hlast other hother entry (List.mem_singleton_self _)

/-- The entries of a map are among the pairs that it was made of. -/
theorem mem_ofList {entries : List (String × α)} {entry : String × α}
    (h : entry ∈ (ofList entries).entries) : entry ∈ entries := by
  induction entries using List.reverseRecOn with
  | nil => exact h
  | append_singleton entries last ih =>
      rw [ofList_concat] at h
      rcases mem_place h with rfl | h
      · exact List.mem_append_right _ (List.mem_singleton_self _)
      · exact List.mem_append_left _ (ih h)

/-- **Of equal keys the last one counts.** -/
theorem get?_ofList (entries : List (String × α)) (key : String) :
    (ofList entries).get? key = entries.reverse.lookup key := by
  induction entries using List.reverseRecOn with
  | nil => rfl
  | append_singleton entries entry ih =>
      rw [ofList_concat, get?_insert, ih, List.reverse_concat, lookup_cons]

/-- The keys of a map are those of the pairs that it was made of. -/
theorem mem_keys_ofList {entries : List (String × α)} {key : String} :
    key ∈ (ofList entries).keys ↔ key ∈ entries.map Prod.fst := by
  rw [← isSome_get?, get?_ofList, List.lookup_isSome_iff, List.mem_map]
  refine exists_congr fun entry => and_congr List.mem_reverse ?_
  exact beq_iff_eq.trans eq_comm

/-- A map with as many keys as there were entries has the keys of the entries. -/
theorem keys_ofList_perm {entries : List (String × α)}
    (h : (ofList entries).size = entries.length) :
    (ofList entries).keys.Perm (entries.map Prod.fst) := by
  have hsub : (ofList entries).keys ⊆ entries.map Prod.fst := fun key hkey =>
    mem_keys_ofList.1 hkey
  refine (List.subperm_of_subset (nodup_keys _) hsub).perm_of_length_le ?_
  rw [keys, List.length_map, List.length_map]
  exact Nat.le_of_eq h.symm

/-- Entries whose keys are distinct can be looked up from either end. -/
theorem lookup_reverse {entries : List (String × α)} (h : (entries.map Prod.fst).Nodup)
    (key : String) : entries.reverse.lookup key = entries.lookup key := by
  induction entries with
  | nil => rfl
  | cons entry rest ih =>
      obtain ⟨hentry, hrest⟩ := List.nodup_cons.1 h
      rw [List.reverse_cons, List.lookup_append, ih hrest, lookup_cons, lookup_cons]
      by_cases hkey : key = entry.1
      · have hnone : rest.lookup key = none := by
          rw [List.lookup_eq_none_iff]
          intro other hother
          refine bne_iff_ne.2 fun heq => hentry ?_
          exact List.mem_map.2 ⟨other, hother, heq.symm.trans hkey⟩
        rw [hnone, if_pos hkey, if_pos hkey]
        rfl
      · rw [if_neg hkey, if_neg hkey]
        exact Option.or_none

/-- **A map with as many keys as there were entries has the values of the entries.** -/
theorem get?_ofList_of_size {entries : List (String × α)}
    (h : (ofList entries).size = entries.length) (key : String) :
    (ofList entries).get? key = entries.lookup key := by
  rw [get?_ofList, lookup_reverse ((keys_ofList_perm h).nodup_iff.1 (nodup_keys _))]

/-- Without the entries of a key nothing is found under it, and the rest is as before. -/
theorem lookup_filter (key other : String) (entries : List (String × α)) :
    (entries.filter (·.1 != key)).lookup other =
      if other = key then none else entries.lookup other := by
  induction entries with
  | nil => simp
  | cons entry rest ih =>
      obtain ⟨k, v⟩ := entry
      by_cases hk : k = key
      · rw [List.filter_cons_of_neg (by simpa using hk), ih, lookup_cons, hk]
        by_cases hother : other = key
        · rw [if_pos hother, if_pos hother]
        · rw [if_neg hother, if_neg hother, if_neg hother]
      · rw [List.filter_cons_of_pos (by simpa using hk), lookup_cons, lookup_cons, ih]
        by_cases hother : other = k
        · have hne : other ≠ key := fun heq => hk (hother ▸ heq)
          rw [if_pos hother, if_pos hother, if_neg hne]
        · rw [if_neg hother, if_neg hother]

/-- What a map has without some key it also has with it. -/
theorem get?_of_erase {m : KeyMap α} {key other : String} {value : α}
    (h : (m.erase key).get? other = some value) : m.get? other = some value := by
  rw [get?, erase, lookup_filter] at h
  split at h
  · exact absurd h (by simp)
  · exact h

/-- A key, and the keys without it. -/
theorem keys_perm_erase {m : KeyMap α} {key : String} (h : key ∈ m.keys) :
    m.keys.Perm (key :: (m.erase key).keys) := by
  have herase : (m.erase key).keys = m.keys.erase key := by
    rw [m.nodup_keys.erase_eq_filter, keys, keys, erase, List.filter_map]
    rfl
  rw [herase]
  exact List.perm_cons_erase h

/-! ## The order in which a map is filled -/

/-- Of the entries with a key, the last one has a value. -/
def LastOf (entries : List (String × α)) (key : String) (value : α) : Prop :=
  ∃ before after, entries = before ++ (key, value) :: after ∧ ∀ other ∈ after, other.1 ≠ key

/-- A map has one value for a key. -/
theorem get?_eq_some {m : KeyMap α} {key : String} {value : α} :
    m.get? key = some value ↔ (key, value) ∈ m.entries := by
  refine ⟨mem_of_lookup, fun h => lookup_eq_some_of_unique h fun other hother => ?_⟩
  have hsame : (key, other) = (key, value) :=
    List.inj_on_of_nodup_map m.nodup_keys hother h rfl
  exact (Prod.mk.inj hsame).2

/-- What is found from the end is the last entry of its key. -/
theorem lookup_reverse_eq_some {entries : List (String × α)} {key : String} {value : α} :
    entries.reverse.lookup key = some value ↔ LastOf entries key value := by
  rw [List.lookup_eq_some_iff]
  constructor
  · rintro ⟨after, before, heq, hafter⟩
    refine ⟨before.reverse, after.reverse, ?_, fun other hother => ?_⟩
    · rw [← List.reverse_reverse entries, heq, List.reverse_append, List.reverse_cons,
        List.append_assoc, List.singleton_append]
    · exact Ne.symm (bne_iff_ne.1 (hafter other (List.mem_reverse.1 hother)))
  · rintro ⟨before, after, rfl, hafter⟩
    refine ⟨after.reverse, before.reverse, ?_, fun other hother => ?_⟩
    · rw [List.reverse_append, List.reverse_cons, List.append_assoc, List.singleton_append]
    · exact bne_iff_ne.2 (Ne.symm (hafter other (List.mem_reverse.1 hother)))

/-- **A filled map has the last entry of every key and no other.** -/
theorem mem_entries_ofList {entries : List (String × α)} {key : String} {value : α} :
    (key, value) ∈ (ofList entries).entries ↔ LastOf entries key value := by
  rw [← get?_eq_some, get?_ofList, lookup_reverse_eq_some]

/-- Maps with the same entries are the same. -/
theorem ext_of_mem_iff {m n : KeyMap α} (h : ∀ entry, entry ∈ m.entries ↔ entry ∈ n.entries) :
    m = n := by
  have hperm : m.entries.Perm n.entries :=
    (List.perm_ext_iff_of_nodup (List.Nodup.of_map _ m.nodup_keys)
      (List.Nodup.of_map _ n.nodup_keys)).2 h
  have hentries : m.entries = n.entries :=
    hperm.eq_of_pairwise (fun _ _ _ _ hlt hgt => absurd hgt (String.lt_asymm hlt)) m.sorted n.sorted
  cases m
  cases n
  exact KeyMap.mk.injEq .. ▸ hentries

/-- **Only the last entries count,** not the order of the others or their number. -/
theorem ofList_eq_iff {entries others : List (String × α)} :
    ofList entries = ofList others ↔
      ∀ key value, LastOf entries key value ↔ LastOf others key value := by
  constructor
  · intro h key value
    rw [← mem_entries_ofList, h, mem_entries_ofList]
  · refine fun h => ext_of_mem_iff fun entry => ?_
    exact mem_entries_ofList.trans ((h entry.1 entry.2).trans mem_entries_ofList.symm)

/-- How a map is filled: from nothing or from a collection, and then entry by entry. -/
inductive Filling (α : Type)
  | empty
  | collect (entries : List (String × α))
  | insert (before : Filling α) (key : String) (value : α)

namespace Filling

/-- The map as it is filled. -/
def map : Filling α → KeyMap α
  | .empty => .empty
  | .collect entries => .ofList entries
  | .insert before key value => before.map.insert key value

/-- The entries that were put in, in their order. -/
def entries : Filling α → List (String × α)
  | .empty => []
  | .collect entries => entries
  | .insert before key value => before.entries ++ [(key, value)]

/-- However it is filled, a map is that of the entries that were put in. -/
theorem map_eq (f : Filling α) : f.map = ofList f.entries := by
  induction f with
  | empty => rfl
  | collect entries => rfl
  | insert before key value ih => rw [map, entries, ofList_concat, ih]

end Filling

end KeyMap

end BoundSql
