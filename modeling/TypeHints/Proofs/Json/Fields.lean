import Mathlib
import TypeHints.Json.Record
import TypeHints.Proofs.SortedMap
import TypeHints.Proofs.Traversal

/-!
# Fields of records, written and read

A record is written as the entries of those of its fields that have a value (`Json.present`). If
no two of them have one name, reading gives each field back, the ones without a value too
(`Json.fields?_present`), and so do the readers of lists, of maps, and of what may be left out
with what they read.
-/

namespace TypeHints.Json

/-! ## Entries -/

/-- The value under a key of an object. -/
def get? (key : String) : Json → Field
  | object entries => (entries.find? (·.1 == key)).map (·.2)
  | _ => none

/-- The entries of the fields that have a value. -/
def present : List (String × Field) → List (String × Json)
  | [] => []
  | (_, none) :: fields => present fields
  | (name, some j) :: fields => (name, j) :: present fields

section Present

variable {fields : List (String × Field)} {name : String} {f : Field}

theorem mem_present_iff {j : Json} : (name, j) ∈ present fields ↔ (name, some j) ∈ fields := by
  fun_induction present fields with
  | case1 => simp
  | case2 name' fields ih => simp [ih]
  | case3 name' j' fields ih => simp [ih]

theorem filter_present_of_not_mem (h : name ∉ fields.map (·.1)) :
    (present fields).filter (·.1 == name) = [] := by
  refine List.filter_eq_nil_iff.2 fun ⟨name', j⟩ hmem heq => h ?_
  obtain rfl : name' = name := by simpa using heq
  exact List.mem_map_of_mem (mem_present_iff.1 hmem)

/-- The entries under a name are those of its field. -/
theorem filter_present (hnodup : (fields.map (·.1)).Nodup) (hmem : (name, f) ∈ fields) :
    (present fields).filter (·.1 == name) = (f.map (name, ·)).toList := by
  induction fields with
  | nil => cases hmem
  | cons field fields ih =>
    obtain ⟨hnot, hrest⟩ := List.nodup_cons.1 hnodup
    rcases List.mem_cons.1 hmem with rfl | hlater
    · have hothers := filter_present_of_not_mem hnot
      cases f with
      | none => exact hothers
      | some j => rw [present, List.filter_cons_of_pos (by simp), hothers]; rfl
    · obtain ⟨name', g⟩ := field
      have hne : name' ≠ name := by
        rintro rfl
        exact hnot (List.mem_map.2 ⟨_, hlater, rfl⟩)
      cases g with
      | none => exact ih hrest hlater
      | some j => rw [present, List.filter_cons_of_neg (by simpa using hne), ih hrest hlater]

theorem get?_present {j : Json} (hj : j = object (present fields))
    (hnodup : (fields.map (·.1)).Nodup) (hmem : (name, f) ∈ fields) : j.get? name = f := by
  rw [hj, get?, ← List.head?_filter, filter_present hnodup hmem]
  cases f <;> rfl

theorem fieldOf?_present (hnodup : (fields.map (·.1)).Nodup) (hmem : (name, f) ∈ fields) :
    fieldOf? name (present fields) = some f := by
  rw [fieldOf?, filter_present hnodup hmem]
  cases f <;> rfl

/-- A record gives its fields back. -/
theorem fields?_present {j : Json} {names : List String} (hj : j = object (present fields))
    (hnames : fields.map (·.1) = names) (hnodup : names.Nodup) :
    j.fields? names = some (fields.map (·.2)) := by
  subst hj hnames
  rw [fields?, List.mapM_map]
  exact mapM_eq_pure fields fun ⟨name, f⟩ hmem => fieldOf?_present hnodup hmem

end Present

/-! ## Values -/

section Values

variable {α : Type}

theorem mapM_map_eq_some {β : Type} {write : α → β} {read : β → Option α}
    (h : ∀ x, read (write x) = some x) (xs : List α) : (xs.map write).mapM read = some xs := by
  rw [List.mapM_map]
  exact (mapM_eq_pure xs fun x _ => h x).trans (congrArg some (List.map_id _))

@[simp] theorem toString?_string (s : String) : toString? (.string s) = some s := rfl

@[simp] theorem toUInt32?_ofUInt32 (n : UInt32) : toUInt32? (ofUInt32 n) = some n := by
  rw [ofUInt32, toUInt32?, if_pos n.toNat_lt, UInt32.ofNat_toNat]

theorem toList?_ofList {write : α → Json} {read : Json → Option α}
    (h : ∀ x, read (write x) = some x) (xs : List α) :
    toList? read (ofList write xs) = some xs :=
  mapM_map_eq_some h xs

@[simp] theorem toStrings?_ofStrings (xs : List String) : toStrings? (ofStrings xs) = some xs :=
  toList?_ofList toString?_string xs

/-- A map is read back, as no two of its entries have one key. -/
theorem toMap?_ofMap {κ : Type} [Ord κ] [Std.TransOrd κ] [Std.LawfulEqOrd κ] {key : κ → String}
    {ofKey? : String → Option κ} {write : α → Json} {read : Json → Option α}
    (hkey : ∀ k, ofKey? (key k) = some k) (h : ∀ x, read (write x) = some x)
    (m : SortedMap κ α) : toMap? ofKey? read (ofMap key write m) = some m := by
  rw [ofMap, toMap?, mapM_map_eq_some]
  · exact congrArg some m.insertAll_toList
  · rintro ⟨k, x⟩
    simp [hkey, h]

@[simp] theorem optional_text (x : Option String) :
    Field.optional toString? (x.map .string) = some x := by
  cases x <;> rfl

@[simp] theorem required_some (read : Json → Option α) (j : Json) :
    Field.required read (some j) = read j := rfl

@[simp] theorem withDefault_some (default : α) (read : Json → Option α) (j : Json) :
    Field.withDefault default read (some j) = read j := rfl

theorem uint32OfKey?_keyOfUInt32 (n : UInt32) : uint32OfKey? (keyOfUInt32 n) = some n := by
  -- no smaller import has this lemma on numerals
  have hread : (keyOfUInt32 n).toNat? = some n.toNat := Nat.toNat?_repr n.toNat
  rw [uint32OfKey?, hread, Option.bind_eq_bind, Option.bind_some,
    if_pos ⟨rfl, n.toNat_lt⟩, UInt32.ofNat_toNat]

end Values

/-! ## Nothing unreadable -/

theorem allReadable_iff {js : List Json} :
    allReadable js = true ↔ ∀ j ∈ js, j.isReadable = true := by
  induction js with
  | nil => simp [allReadable]
  | cons j js ih => simp [allReadable, ih]

theorem allEntriesReadable_iff {es : List (String × Json)} :
    allEntriesReadable es = true ↔ ∀ e ∈ es, e.2.isReadable = true := by
  induction es with
  | nil => simp [allEntriesReadable]
  | cons e es ih => simp [allEntriesReadable, ih]

@[simp] theorem isReadable_string (s : String) : (string s).isReadable = true := rfl

@[simp] theorem isReadable_ofUInt32 (n : UInt32) : (ofUInt32 n).isReadable = true := rfl

theorem isReadable_ofList {α : Type} {write : α → Json} (h : ∀ x, (write x).isReadable = true)
    (xs : List α) : (ofList write xs).isReadable = true := by
  refine allReadable_iff.2 fun j hj => ?_
  obtain ⟨x, -, rfl⟩ := List.mem_map.1 hj
  exact h x

@[simp] theorem isReadable_ofStrings (xs : List String) : (ofStrings xs).isReadable = true :=
  isReadable_ofList isReadable_string xs

theorem isReadable_ofMap {κ α : Type} [Ord κ] {key : κ → String} {write : α → Json}
    (h : ∀ x, (write x).isReadable = true) (m : SortedMap κ α) :
    (ofMap key write m).isReadable = true := by
  refine allEntriesReadable_iff.2 fun e he => ?_
  obtain ⟨⟨k, x⟩, -, rfl⟩ := List.mem_map.1 he
  exact h x

theorem isReadable_present {fields : List (String × Field)}
    (h : ∀ field ∈ fields, ∀ j ∈ field.2, j.isReadable = true) :
    (object (present fields)).isReadable = true :=
  allEntriesReadable_iff.2 fun ⟨_, j⟩ hmem => h _ (mem_present_iff.1 hmem) j rfl

end TypeHints.Json
