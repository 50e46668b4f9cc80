import TypeHints.Proofs.FirstBinding
import TypeHints.Proofs.Instances

/-!
# Extending bindings

Bindings that are built from values (`Building`) form an idempotent monoid under
`Bindings.extend`. It is not commutative: of equal values the first one stays, with its point, so
what comes again later is dropped (`Bindings.extend_extend_self`) and what is new is put at the end
(`Bindings.extend_eq_append`). The laws are equalities of bindings and not only of the values that
show, so bindings may be put together in any grouping. Only the empty bindings on the left need
that no value stands twice, since extending them takes repetitions out.

The objects of a type are such bindings (`Ty.exists_building`). Adding them to others one by one, as
instantiating does, is the same as extending by them.
-/

namespace TypeHints

namespace Bindings

/-! ## Bindings without repetition -/

theorem empty_extend {b : Bindings} (h : Distinct Binding.sameValue b.toList) :
    (∅ : Bindings).extend b = b :=
  Bindings.ext (addAllNew_nil_of_distinct h)

/-- The new values are put at the end, with the points they were bound at. -/
theorem extend_eq_append {c : Bindings} (h : Distinct Binding.sameValue c.toList) (b : Bindings) :
    b.extend c =
      ⟨b.toList ++ c.toList.filter fun x => !b.toList.any (·.sameValue x)⟩ :=
  Bindings.ext (addAllNew_eq_append_of_distinct h b.toList)

theorem pairwise_values {b : Bindings} (h : Distinct Binding.sameValue b.toList) :
    b.values.Pairwise fun v w => (v == w) = false :=
  List.pairwise_map.2 h

end Bindings

/-! ## Objects of types -/

/-- The objects of a type are built by adding and merging. -/
theorem Ty.exists_building (t : Ty) (p : Point) :
    ∃ b : Building, b.bindings = t.instantiate p := by
  have hadd : ∀ (v : Value) {b : Bindings}, (∃ c : Building, c.bindings = b) →
      ∃ c : Building, c.bindings = b.add p v := by
    rintro v _ ⟨c, rfl⟩
    exact ⟨.add c p v, rfl⟩
  have hkept : KeptByObjects p (fun b => ∃ c : Building, c.bindings = b) fun _ => True :=
    { empty := ⟨.empty, rfl⟩
      extend := by
        rintro _ _ ⟨c, rfl⟩ ⟨d, rfl⟩
        exact ⟨.extend c d, rfl⟩
      cls := fun _ hb => hadd _ hb
      generic := fun _ hb => hadd _ hb
      unknown := fun _ hb => hadd _ hb
      options := fun _ _ _ => trivial
      bound := fun _ => trivial }
  exact hkept.instantiate trivial

/-- Adding the objects of a type one by one is extending by all of them. -/
theorem Ty.instantiateInto_eq_extend (t : Ty) (p : Point) (b : Bindings) :
    t.instantiateInto p b = b.extend (t.instantiate p) := by
  rw [instantiate, instantiateInto_eq, instantiateInto_eq, Bindings.extend_extend_empty]

/-! ## The monoid -/

/-- **Extending is an idempotent monoid.** Bindings that are built in any way hold no two equal
values. For them extending is associative, has the empty bindings as its identity on both sides,
and takes nothing in twice, be it at once or later. The first binding of each value stays: what was
there before stands in front, unchanged, and the new values follow with their own points, so a
search for a value finds the first call that bound it. The objects of a type are built in this way,
and adding them one by one is extending by them. -/
theorem Building.extend_laws (a b c : Building) :
    (a.bindings.values.Pairwise fun v w => (v == w) = false) ∧
    (a.bindings.extend b.bindings).extend c.bindings =
      a.bindings.extend (b.bindings.extend c.bindings) ∧
    (∅ : Bindings).extend a.bindings = a.bindings ∧
    a.bindings.extend ∅ = a.bindings ∧
    a.bindings.extend a.bindings = a.bindings ∧
    (a.bindings.extend b.bindings).extend a.bindings = a.bindings.extend b.bindings ∧
    a.bindings.extend b.bindings =
      ⟨a.bindings.toList ++
        b.bindings.toList.filter fun x => !a.bindings.toList.any (·.sameValue x)⟩ ∧
    (∀ v, a.bindings.toList.find? (·.value == v) = a.calls.find? (·.value == v)) ∧
    ∀ t p, ∃ d : Building, d.bindings = Ty.instantiate t p ∧
      t.instantiateInto p a.bindings = a.bindings.extend d.bindings := by
  refine ⟨Bindings.pairwise_values a.distinct, Bindings.extend_assoc _ _ _,
    Bindings.empty_extend a.distinct, Bindings.extend_empty _, Bindings.extend_self _,
    Bindings.extend_extend_self _ _, Bindings.extend_eq_append b.distinct _, a.find?_bindings,
    fun t p => ?_⟩
  obtain ⟨d, hd⟩ := t.exists_building p
  exact ⟨d, hd, by rw [hd, t.instantiateInto_eq_extend]⟩

end TypeHints
