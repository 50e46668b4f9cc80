/-!
# Sorted maps

A finite map as the list of its entries in strictly increasing key order. The order makes the
list unique, so two maps with the same lookups are equal (`SortedMap.ext_get?`).
-/

namespace TypeHints

universe u v w

/-- Finite maps from `κ` to `α`, listed in key order. -/
structure SortedMap (κ : Type u) (α : Type v) [Ord κ] where
  /-- The entries, in key order. -/
  toList : List (κ × α)
  sorted : toList.Pairwise fun a b => compare a.1 b.1 = .lt

namespace SortedMap

variable {κ : Type u} {α : Type v} {β : Type w} [Ord κ]

instance [DecidableEq κ] [DecidableEq α] : DecidableEq (SortedMap κ α) := fun a b =>
  decidable_of_iff (a.toList = b.toList)
    ⟨fun h => by cases a; cases b; simpa using h, fun h => h ▸ rfl⟩

@[ext] theorem ext {a b : SortedMap κ α} (h : a.toList = b.toList) : a = b := by
  cases a; cases b; simpa using h

def empty : SortedMap κ α := ⟨[], .nil⟩

instance : EmptyCollection (SortedMap κ α) := ⟨empty⟩
instance : Inhabited (SortedMap κ α) := ⟨∅⟩

/-! ## Lookup -/

/-- The value listed first under `k`. -/
def lookup (k : κ) : List (κ × α) → Option α
  | [] => none
  | (k', x) :: rest => if compare k k' = .eq then some x else lookup k rest

def get? (m : SortedMap κ α) (k : κ) : Option α := lookup k m.toList

def contains (m : SortedMap κ α) (k : κ) : Bool := (m.get? k).isSome

def size (m : SortedMap κ α) : Nat := m.toList.length

def isEmpty (m : SortedMap κ α) : Bool := m.toList.isEmpty

@[simp] theorem get?_empty (k : κ) : (∅ : SortedMap κ α).get? k = none := rfl

theorem mem_of_lookup [Std.LawfulEqOrd κ] {l : List (κ × α)} {k : κ} {x : α}
    (h : lookup k l = some x) : (k, x) ∈ l := by
  induction l with
  | nil => simp [lookup] at h
  | cons e rest ih =>
    rw [lookup] at h
    split at h <;> rename_i hk
    · obtain rfl := Std.LawfulEqCmp.eq_of_compare hk
      obtain rfl := Option.some.inj h
      exact List.mem_cons_self
    · exact List.mem_cons_of_mem _ (ih h)

/-! ## Maps over the values -/

/-- Every value replaced by its image, which may depend on the key. -/
def mapWithKey (f : κ → α → β) (m : SortedMap κ α) : SortedMap κ β :=
  ⟨m.toList.map fun (k, x) => (k, f k x), by simpa [List.pairwise_map] using m.sorted⟩

/-- Every value replaced by its image. -/
def map (f : α → β) (m : SortedMap κ α) : SortedMap κ β := m.mapWithKey fun _ => f

@[simp] theorem toList_map (f : α → β) (m : SortedMap κ α) :
    (m.map f).toList = m.toList.map fun (k, x) => (k, f x) := rfl

theorem lookup_map (f : α → β) (k : κ) (l : List (κ × α)) :
    lookup k (l.map fun (k, x) => (k, f x)) = (lookup k l).map f := by
  induction l with
  | nil => rfl
  | cons e rest ih => by_cases h : compare k e.1 = .eq <;> simp [lookup, h, ih]

@[simp] theorem get?_map (f : α → β) (m : SortedMap κ α) (k : κ) :
    (m.map f).get? k = (m.get? k).map f := lookup_map f k m.toList

@[simp] theorem isEmpty_map (f : α → β) (m : SortedMap κ α) : (m.map f).isEmpty = m.isEmpty :=
  List.isEmpty_map

/-! ## Insertion -/

/-- Put `x` under `k` into a list in key order, in place of what stood there. -/
def insertEntry (k : κ) (x : α) : List (κ × α) → List (κ × α)
  | [] => [(k, x)]
  | (k', x') :: rest =>
    match compare k k' with
    | .lt => (k, x) :: (k', x') :: rest
    | .eq => (k, x) :: rest
    | .gt => (k', x') :: insertEntry k x rest

theorem mem_insertEntry {k : κ} {x : α} {e : κ × α} {l : List (κ × α)}
    (h : e ∈ insertEntry k x l) : e = (k, x) ∨ e ∈ l := by
  induction l with
  | nil => simpa [insertEntry] using h
  | cons e' rest ih =>
    rw [insertEntry] at h
    split at h <;> grind

variable [Std.TransOrd κ]

theorem sorted_insertEntry (k : κ) (x : α) {l : List (κ × α)}
    (h : l.Pairwise fun a b => compare a.1 b.1 = .lt) :
    (insertEntry k x l).Pairwise fun a b => compare a.1 b.1 = .lt := by
  induction l with
  | nil => simp [insertEntry]
  | cons e rest ih =>
    obtain ⟨hlt, hrest⟩ := List.pairwise_cons.1 h
    rw [insertEntry]
    split <;> rename_i hk
    · refine List.pairwise_cons.2 ⟨fun b hb => ?_, h⟩
      rcases List.mem_cons.1 hb with rfl | hb
      · exact hk
      · exact Std.TransCmp.lt_trans hk (hlt b hb)
    · exact List.pairwise_cons.2
        ⟨fun b hb => Std.TransCmp.lt_of_eq_of_lt hk (hlt b hb), hrest⟩
    · refine List.pairwise_cons.2 ⟨fun b hb => ?_, ih hrest⟩
      rcases mem_insertEntry hb with rfl | hb
      · exact Std.OrientedCmp.lt_of_gt hk
      · exact hlt b hb

/-- Put `x` under `k`, in place of what stood there. -/
def insert (m : SortedMap κ α) (k : κ) (x : α) : SortedMap κ α :=
  ⟨insertEntry k x m.toList, sorted_insertEntry k x m.sorted⟩

/-- The map of a list of entries; the last entry of a key counts. -/
def ofList (entries : List (κ × α)) : SortedMap κ α :=
  entries.foldl (fun m (k, x) => m.insert k x) ∅

theorem lookup_insertEntry (k : κ) (x : α) (j : κ) (l : List (κ × α)) :
    lookup j (insertEntry k x l) = if compare j k = .eq then some x else lookup j l := by
  induction l with
  | nil => simp [insertEntry, lookup]
  | cons e rest ih =>
    rw [insertEntry]
    split <;> rename_i hk
    · simp [lookup]
    · by_cases hj : compare j k = .eq
      · simp [lookup, hj]
      · have : compare j e.1 ≠ .eq := fun h =>
          hj (Std.TransCmp.eq_trans h (Std.OrientedCmp.eq_symm hk))
        simp [lookup, hj, this]
    · by_cases hj : compare j e.1 = .eq
      · have : compare j k ≠ .eq := fun h => by
          have := Std.TransCmp.eq_trans (Std.OrientedCmp.eq_symm h) hj
          simp [this] at hk
        simp [lookup, hj, this]
      · simp [lookup, hj, ih]

theorem get?_insert (m : SortedMap κ α) (k j : κ) (x : α) :
    (m.insert k x).get? j = if compare j k = .eq then some x else m.get? j :=
  lookup_insertEntry k x j m.toList

@[simp] theorem get?_insert_self (m : SortedMap κ α) (k : κ) (x : α) :
    (m.insert k x).get? k = some x := by simp [get?_insert]

theorem get?_insert_of_ne [Std.LawfulEqOrd κ] (m : SortedMap κ α) {k j : κ} (x : α) (h : j ≠ k) :
    (m.insert k x).get? j = m.get? j := by simp [get?_insert, h]

/-! ## Extensionality -/

theorem lookup_of_mem [Std.LawfulEqOrd κ] {l : List (κ × α)}
    (h : l.Pairwise fun a b => compare a.1 b.1 = .lt) {k : κ} {x : α} (hm : (k, x) ∈ l) :
    lookup k l = some x := by
  induction l with
  | nil => simp at hm
  | cons e rest ih =>
    obtain ⟨hlt, hrest⟩ := List.pairwise_cons.1 h
    rcases List.mem_cons.1 hm with rfl | hm
    · simp [lookup]
    · have : compare k e.1 ≠ .eq := fun he => by
        have := hlt _ hm
        simp [Std.OrientedCmp.eq_symm he] at this
      simp [lookup, this, ih hrest hm]

theorem get?_eq_some_iff [Std.LawfulEqOrd κ] {m : SortedMap κ α} {k : κ} {x : α} :
    m.get? k = some x ↔ (k, x) ∈ m.toList :=
  ⟨mem_of_lookup, lookup_of_mem m.sorted⟩

theorem eq_of_mem_iff {l₁ l₂ : List (κ × α)}
    (h₁ : l₁.Pairwise fun a b => compare a.1 b.1 = .lt)
    (h₂ : l₂.Pairwise fun a b => compare a.1 b.1 = .lt) (h : ∀ e, e ∈ l₁ ↔ e ∈ l₂) : l₁ = l₂ := by
  induction l₁ generalizing l₂ with
  | nil => exact (List.eq_nil_iff_forall_not_mem.2 fun e he => by simpa using (h e).2 he).symm
  | cons a as ih =>
    cases l₂ with
    | nil => simpa using (h a).1 List.mem_cons_self
    | cons b bs =>
      obtain ⟨ha, has⟩ := List.pairwise_cons.1 h₁
      obtain ⟨hb, hbs⟩ := List.pairwise_cons.1 h₂
      have irrefl {e : κ × α} : ¬ compare e.1 e.1 = .lt := by simp
      have hab : a = b := by
        rcases List.mem_cons.1 ((h a).1 List.mem_cons_self) with h' | h'
        · exact h'
        rcases List.mem_cons.1 ((h b).2 List.mem_cons_self) with h'' | h''
        · exact h''.symm
        exact absurd (Std.TransCmp.lt_trans (ha b h'') (hb a h')) irrefl
      subst hab
      refine congrArg _ (ih has hbs fun e => ⟨fun he => ?_, fun he => ?_⟩)
      · exact (List.mem_cons.1 ((h e).1 (List.mem_cons_of_mem _ he))).resolve_left
          fun e' => irrefl (e' ▸ ha e he)
      · exact (List.mem_cons.1 ((h e).2 (List.mem_cons_of_mem _ he))).resolve_left
          fun e' => irrefl (e' ▸ hb e he)

theorem ext_get? [Std.LawfulEqOrd κ] {a b : SortedMap κ α} (h : ∀ k, a.get? k = b.get? k) :
    a = b :=
  ext (eq_of_mem_iff a.sorted b.sorted fun (k, x) => by
    rw [← get?_eq_some_iff, ← get?_eq_some_iff, h])

end SortedMap

end TypeHints
