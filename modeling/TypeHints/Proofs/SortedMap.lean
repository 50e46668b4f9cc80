import Mathlib.Data.List.Nodup
import TypeHints.SortedMap

/-!
# Values of a map, and several insertions

What all values of a map satisfy is kept by inserting one more (`SortedMap.All.insert`).
Inserting the entries of a list one after the other. As long as their keys differ the order does
not matter (`SortedMap.insertAll_perm`), and a look-up finds the entry of the list first
(`SortedMap.get?_insertAll`).
-/

namespace TypeHints.SortedMap

universe u v

variable {κ : Type u} {α : Type v} [Ord κ]

/-! ## All values -/

/-- All values of the map satisfy `P`. -/
def All (P : α → Prop) (m : SortedMap κ α) : Prop := ∀ k x, m.get? k = some x → P x

section All

variable {P : α → Prop} {m : SortedMap κ α}

theorem All.empty : (∅ : SortedMap κ α).All P := fun _ _ h => by cases h

theorem All.insert [Std.TransOrd κ] (h : m.All P) (k : κ) {x : α} (hx : P x) :
    (m.insert k x).All P := by
  intro j y hy
  rw [get?_insert] at hy
  split at hy
  · exact Option.some.inj hy ▸ hx
  · exact h j y hy

theorem All.map {β : Type v} {Q : β → Prop} {f : α → β} (h : m.All P) (hf : ∀ x, P x → Q (f x)) :
    (m.map f).All Q := by
  intro k y hy
  rw [get?_map] at hy
  obtain ⟨x, hx, rfl⟩ := Option.map_eq_some_iff.1 hy
  exact hf x (h k x hx)

theorem All.of_mem [Std.TransOrd κ] [Std.LawfulEqOrd κ] (h : m.All P) {entry : κ × α}
    (hmem : entry ∈ m.toList) : P entry.2 :=
  h entry.1 entry.2 (get?_eq_some_iff.2 hmem)

end All

/-- A map can be cut down to the keys that satisfy `K`. -/
theorem exists_restriction [Std.TransOrd κ] [Std.LawfulEqOrd κ] (m : SortedMap κ α) (K : κ → Prop) :
    ∃ m' : SortedMap κ α, (∀ k, K k → m'.get? k = m.get? k) ∧ ∀ k x, m'.get? k = some x → K k := by
  classical
  have hmem (m' : SortedMap κ α) (hm' : m'.toList = m.toList.filter (K ·.1)) (k : κ) (x : α) :
      m'.get? k = some x ↔ m.get? k = some x ∧ K k := by
    rw [get?_eq_some_iff, get?_eq_some_iff, hm', List.mem_filter, decide_eq_true_iff]
  refine ⟨⟨m.toList.filter (K ·.1), m.sorted.filter _⟩, fun k hk => ?_, fun k x hx => ?_⟩
  · exact Option.ext fun x => (hmem _ rfl k x).trans (and_iff_left hk)
  · exact ((hmem _ rfl k x).1 hx).2

/-! ## Looking up in a list -/

section Lookup

variable [Std.LawfulEqOrd κ] {k : κ} {x : α} {entries : List (κ × α)}

theorem lookup_eq_none (h : k ∉ entries.map (·.1)) : lookup k entries = none := by
  cases hx : lookup k entries with
  | none => rfl
  | some x => exact absurd (List.mem_map_of_mem (mem_of_lookup hx)) h

theorem lookup_of_nodup (h : (entries.map (·.1)).Nodup) (hmem : (k, x) ∈ entries) :
    lookup k entries = some x := by
  induction entries with
  | nil => cases hmem
  | cons e entries ih =>
    obtain ⟨hnot, hrest⟩ := List.nodup_cons.1 h
    rw [lookup]
    rcases List.mem_cons.1 hmem with rfl | hmem
    · rw [if_pos (by simp)]
    · have hne : compare k e.1 ≠ .eq := fun heq => by
        obtain rfl := Std.LawfulEqCmp.eq_of_compare heq
        exact hnot (List.mem_map.2 ⟨_, hmem, rfl⟩)
      rw [if_neg hne, ih hrest hmem]

theorem nodup_keys (m : SortedMap κ α) : (m.toList.map (·.1)).Nodup := by
  refine List.pairwise_map.2 (m.sorted.imp fun {a b} hlt heq => ?_)
  rw [heq] at hlt
  simp at hlt

end Lookup

/-! ## Inserting a list -/

variable [Std.TransOrd κ]

/-- The map with the entries of a list inserted, the last of several with one key counting. -/
def insertAll (m : SortedMap κ α) (entries : List (κ × α)) : SortedMap κ α :=
  entries.foldl (fun m (k, x) => m.insert k x) m

@[simp] theorem insertAll_cons (m : SortedMap κ α) (e : κ × α) (entries : List (κ × α)) :
    m.insertAll (e :: entries) = (m.insert e.1 e.2).insertAll entries := rfl

theorem insertAll_append (m : SortedMap κ α) (es fs : List (κ × α)) :
    m.insertAll (es ++ fs) = (m.insertAll es).insertAll fs :=
  List.foldl_append

variable [Std.LawfulEqOrd κ]

theorem insert_comm (m : SortedMap κ α) {k j : κ} (x y : α) (h : k ≠ j) :
    (m.insert k x).insert j y = (m.insert j y).insert k x := by
  refine ext_get? fun i => ?_
  by_cases hk : i = k
  · subst hk
    rw [get?_insert_of_ne _ _ h, get?_insert_self, get?_insert_self]
  · by_cases hj : i = j
    · subst hj
      rw [get?_insert_self, get?_insert_of_ne _ _ hk, get?_insert_self]
    · rw [get?_insert_of_ne _ _ hj, get?_insert_of_ne _ _ hk, get?_insert_of_ne _ _ hk,
        get?_insert_of_ne _ _ hj]

/-- Entries with different keys may be inserted in any order. -/
theorem insertAll_perm {es fs : List (κ × α)} (h : es.Perm fs) (m : SortedMap κ α)
    (hes : (es.map (·.1)).Nodup) : m.insertAll es = m.insertAll fs := by
  induction h generalizing m with
  | nil => rfl
  | cons e _ ih => exact ih (m.insert e.1 e.2) (List.nodup_cons.1 hes).2
  | swap e e' es =>
    have hne : e'.1 ≠ e.1 := by
      intro heq
      refine (List.nodup_cons.1 hes).1 (List.mem_cons.2 (.inl heq))
    rw [insertAll_cons, insertAll_cons, insert_comm m _ _ hne]
    rfl
  | trans h _ ih ih' => exact (ih m hes).trans (ih' m ((h.map _).nodup_iff.1 hes))

theorem get?_insertAll (m : SortedMap κ α) {entries : List (κ × α)}
    (h : (entries.map (·.1)).Nodup) (k : κ) :
    (m.insertAll entries).get? k = (lookup k entries).or (m.get? k) := by
  induction entries generalizing m with
  | nil => rfl
  | cons e entries ih =>
    obtain ⟨hmem, hrest⟩ := List.nodup_cons.1 h
    rw [insertAll_cons, ih _ hrest, get?_insert, lookup]
    by_cases hk : compare k e.1 = .eq
    · obtain rfl := Std.LawfulEqCmp.eq_of_compare hk
      rw [lookup_eq_none hmem, if_pos hk, if_pos hk]
      rfl
    · rw [if_neg hk, if_neg hk]

theorem map_insert {β : Type v} (f : α → β) (m : SortedMap κ α) (k : κ) (x : α) :
    (m.insert k x).map f = (m.map f).insert k (f x) := by
  refine ext_get? fun j => ?_
  rw [get?_map, get?_insert, get?_insert, get?_map]
  split <;> rfl

/-- A map is made of its own entries. -/
theorem insertAll_toList (m : SortedMap κ α) : (∅ : SortedMap κ α).insertAll m.toList = m := by
  refine ext_get? fun k => ?_
  rw [get?_insertAll ∅ m.nodup_keys, get?_empty, Option.or_none]
  rfl

/-- Entries with different keys are what a map made of them holds. -/
theorem toList_insertAll_perm {entries : List (κ × α)} (h : (entries.map (·.1)).Nodup) :
    ((∅ : SortedMap κ α).insertAll entries).toList.Perm entries := by
  refine (List.perm_ext_iff_of_nodup (List.Nodup.of_map (·.1) (nodup_keys _))
    (List.Nodup.of_map (·.1) h)).2 fun ⟨k, x⟩ => ?_
  rw [← get?_eq_some_iff, get?_insertAll ∅ h, get?_empty, Option.or_none]
  exact ⟨mem_of_lookup, lookup_of_nodup h⟩

end TypeHints.SortedMap
