import TypeHints.SortedMap
import TypeHints.Value.Bindings

/-!
# Scopes

What names stand for: the names bound in a scope, and the names that are there from the start,
which the prefix `typing.` reaches as well.
-/

namespace TypeHints

/-- The names bound in a module or a block. -/
abbrev Scope := SortedMap String Bindings

namespace Builtin

/-- The containers that annotations subscript under a name of their own. -/
def containers : List (String × Builtin) :=
  [("Tuple", .tuple), ("List", .list), ("Dict", .dict), ("Set", .set)]

/-- The names of values other than classes. -/
def otherNames : List (String × Value) :=
  [("Union", .form .union), ("Optional", .form .optional), ("Any", .unknown .any),
    ("None", .null), ("True", .bool true), ("False", .bool false)]

/-- What a name stands for when nothing binds it. -/
def lookup (name : String) : Option Value :=
  (ofName? name).map (.cls ·.cls) <|>
    (containers.lookup name).map (.container ·.cls) <|>
    otherNames.lookup name

/-- `lookup`, with or without `typing.` in front of the name. -/
def resolve (name : String) : Option Value :=
  lookup (((("typing.".toList).isPrefixOf? name.toList).map String.ofList).getD name)

/-- What a builtin name may stand for. -/
theorem resolve_cases {name : String} {v : Value} (h : resolve name = some v) :
    (∃ b : Builtin, v = .cls b.cls) ∨ (∃ b : Builtin, v = .container b.cls) ∨
      ∃ n, (n, v) ∈ otherNames := by
  simp only [resolve, lookup, Option.orElse_eq_orElse, Option.orElse_eq_or,
    Option.or_eq_some_iff] at h
  obtain h | ⟨-, h | ⟨-, h⟩⟩ := h
  · obtain ⟨b, -, rfl⟩ := Option.map_eq_some_iff.1 h
    exact .inl ⟨b, rfl⟩
  · obtain ⟨b, -, rfl⟩ := Option.map_eq_some_iff.1 h
    exact .inr (.inl ⟨b, rfl⟩)
  · obtain ⟨before, after, hmem, -⟩ := List.lookup_eq_some_iff.1 h
    exact .inr (.inr ⟨_, hmem ▸ List.mem_append_right before List.mem_cons_self⟩)

example : (resolve "typing.List").map Value.text = some "list" ∧
    (resolve "typing.typing.List").isNone ∧ (resolve "list.List").isNone := by decide

end Builtin

end TypeHints
