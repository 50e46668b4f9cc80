import TypeHints.Proofs.Conversion
import TypeHints.Proofs.FunctionDef
import TypeHints.Proofs.Returns
import TypeHints.Proofs.Signature

/-!
# What definitions take from texts

All that a definition binds, sets or puts off comes from its texts: the bound of a type variable is
the type of a value, the signature of a function gets types that values of its annotations denote by
their structure, and what waits is one of these values or a part of its type comment. So a property
of what definitions make need only be checked on the values of texts, once for each kind of
definition (`TypeVarDef.define_holds`, `FunctionDef.define_holds`, `AssignDef.define_holds`,
`SpecializeDef.substitution_holds`).
-/

namespace TypeHints

/-! ## Type variables and classes -/

theorem TypeVarDef.define_holds {T : Ty → Prop} {d : TypeVarDef} {frame : Frame}
    (h : ∀ text, d.bound = some text →
      Returns (Bindings.All fun v => ∀ t, v.toTy? = some t → T t) (runText frame text)) :
    Returns (fun v : TypeVar => ∀ t, v.bound = some t → T t) (d.define frame) := by
  unfold define
  split
  · exact .pure fun _ ht => by cases ht
  · rename_i text htext
    have hbound : Returns T (evalBound frame text) := by
      unfold evalBound
      refine ((h text htext).adapt _).bind fun b hb => ?_
      refine (Returns.liftExcept fun v hv => hb.single (mapError_eq_ok hv)).bind fun v hv => ?_
      split
      · exact .pure (hv _ ‹_›)
      · exact .throw _
    exact (hbound.adapt _).bind fun t ht => .pure fun u hu => Option.some.inj hu ▸ ht

/-- What holds of new type variables and of those among the globals holds of all type variables
that a class lists. -/
theorem ClassDef.template_holds {V : TypeVar → Prop} {globals : Scope}
    (hnew : ∀ name, V ⟨name, none⟩)
    (hglobals : ∀ name b, globals.get? name = some b → ∀ v, .typeVar v ∈ b.values → V v)
    (d : ClassDef) : ∀ v ∈ (d.define globals).template, V v := by
  refine List.forall_mem_map.2 fun name _ => ?_
  unfold templateVar
  split
  · rename_i v h
    obtain ⟨b, hb, hv⟩ := Option.map_eq_some_iff.1 h
    exact hglobals name b hb v (by simp [Bindings.single_eq_ok_iff.1 hv])
  · exact hnew name

/-! ## Functions -/

section Signature

variable {T : Ty → Prop} {V : Value → Prop}

/-- The types satisfy `T`, and what waits satisfies `V`. -/
structure Signature.Holds (T : Ty → Prop) (V : Value → Prop) (s : Signature) : Prop where
  types : s.annotations.All T
  late : ∀ l ∈ s.late, V l.value

/-- The types satisfy `T`, and what is put off satisfies `V`. -/
structure Collected.Holds (T : Ty → Prop) (V : Value → Prop) (c : Collected) : Prop where
  types : c.annotations.All T
  late : ∀ l ∈ c.late, V l.value

/-- The value may be put off, and the type it denotes by its structure may be set. -/
structure Value.Offers (T : Ty → Prop) (V : Value → Prop) (v : Value) : Prop where
  late : V v
  type : ∀ t, v.toTy? = some t → T t

namespace Signature.Holds

variable {s : Signature}

theorem empty : Signature.Holds T V ∅ := ⟨.empty, fun _ hl => absurd hl List.not_mem_nil⟩

theorem mono {V' : Value → Prop} (h : s.Holds T V) (hV : ∀ v, V v → V' v) : s.Holds T V' :=
  ⟨h.types, fun l hl => hV _ (h.late l hl)⟩

theorem addLate (h : s.Holds T V) {l : LateHint} (hl : V l.value) : (s.addLate l).Holds T V := by
  refine ⟨h.types, fun k hk => ?_⟩
  rcases LateHint.eq_or_mem_of_mem_enqueue hk with rfl | hk
  · exact hl
  · exact h.late k hk

end Signature.Holds

namespace Collected.Holds

variable {c : Collected}

theorem empty : Collected.Holds T V {} := ⟨.empty, fun _ hl => absurd hl List.not_mem_nil⟩

theorem add (hc : c.Holds T V) (p : Point) (location : Location) (name : String) {hint : Bindings}
    (hhint : hint.All (Value.Offers T V)) :
    Yields (Collected.Holds T V) (c.add p location name hint) := by
  unfold Collected.add
  split
  · rename_i v hv
    have hoffers : v.Offers T V := hhint.visible (hv ▸ List.mem_cons_self)
    have hresolve : Yields (fun o => ∀ t, o = .resolved t → T t)
        (v.resolve ⟨name, location⟩ none) :=
      fun log t ht => hoffers.type t (Value.toTy?_of_resolve_none ht)
    refine hresolve.bind fun outcome ho => ?_
    cases outcome with
    | resolved t => exact .pure ⟨hc.types.insert name (ho t rfl), hc.late⟩
    | late => exact .pure ⟨hc.types, List.forall_mem_append.2
        ⟨hc.late, List.forall_mem_singleton.2 hoffers.late⟩⟩
    | failed => exact .pure hc
  · exact (Yields.trivial _).bind fun _ _ => .pure hc

/-- What is collected goes into the signature. -/
theorem addTo (hc : c.Holds T V) {s : Signature} (hs : s.Holds T V) : (c.addTo s).Holds T V := by
  unfold Collected.addTo
  have hset : Signature.Holds T V
      (c.annotations.toList.foldl (fun s entry => s.set entry.1 entry.2) s) :=
    List.foldlRecOn (motive := Signature.Holds T V) _ _ hs
      fun s hs entry hentry => ⟨hs.types.insert _ (hc.types.of_mem hentry), hs.late⟩
  exact List.foldlRecOn (motive := Signature.Holds T V) _ _ hset
    fun s hs l hl => hs.addLate (hc.late l hl)

end Collected.Holds

/-- A type comment is taken apart into texts that wait. -/
theorem Function.attachComment_holds {f : Function} (hf : f.signature.Holds T V) {comment : String}
    (location : Location) (h : ∀ args result,
      splitComment (Text.trimChars comment.toList) = some (args, result) →
        V (.str (String.ofList (Text.trimChars args))) ∧
          V (.str (String.ofList (Text.trimChars result)))) :
    Yields (fun g : Function => g.signature.Holds T V) (f.attachComment comment location) := by
  unfold attachComment
  simp only []
  split
  · exact (Yields.trivial _).bind fun _ _ => .pure hf
  · rename_i args result hsplit
    obtain ⟨hargs, hresult⟩ := h args result hsplit
    refine .pure (Signature.Holds.addLate ?_ hresult)
    split
    · exact hf
    · exact hf.addLate hargs

variable {d : FunctionDef} {frame : Frame}

/-- What holds of the values of the annotations and of the types they denote by their structure,
and of the parts of the type comment, holds of the signature. -/
theorem FunctionDef.define_holds (file : String)
    (hhint : ∀ entry ∈ d.annotations.toList,
      Returns (Bindings.All (Value.Offers T V)) (runText frame entry.2))
    (hcomment : ∀ comment args result, d.typeComment = some comment →
      Function.splitComment (Text.trimChars comment.toList) = some (args, result) →
        V (.str (String.ofList (Text.trimChars args))) ∧
          V (.str (String.ofList (Text.trimChars result)))) :
    Returns (fun f : Function => f.signature.Holds T V) (d.define frame file) := by
  have hvalues : Returns (fun bs : List Bindings => ∀ b ∈ bs, b.All (Value.Offers T V))
      (d.evalHints frame) :=
    (Returns.mapM _ fun entry hentry => (hhint entry hentry).adapt _).mono fun _ hbs => hbs.2
  rw [define_eq]
  refine hvalues.bind fun values hvalues => ?_
  have hcollect : Yields (Collected.Holds T V) (d.collectHints frame file values) :=
    Yields.foldlM _ (fun c hc pair hpair =>
      hc.add _ _ _ (hvalues _ (List.of_mem_zip hpair).2)) .empty
  refine Returns.bind (.lift hcollect) fun c hc => .lift ?_
  have hbare : ((d.bare file).mapSignature c.addTo).signature.Holds T V := hc.addTo .empty
  unfold attach
  split
  · rename_i comment h
    exact Function.attachComment_holds hbare _ fun args result => hcomment comment args result h
  · exact .pure hbare

end Signature

/-! ## Assignments -/

section Assignments

variable {P : Bindings → Prop} {frame : Frame} {comments : LineComments} {file : String}

theorem applyTypeComment_holds {line : UInt32}
    (hcomment : ∀ comment, comments.commentAt? file line = some comment →
      Returns P (evalTypeComment frame comment)) {b : Bindings} (hb : P b) :
    Yields P (applyTypeComment frame comments file line b) := by
  unfold applyTypeComment
  split
  · exact .pure hb
  · refine Yields.bind (hcomment _ ‹_›) fun r hr => ?_
    split
    · exact .pure (hr _ rfl)
    · exact (Yields.trivial _).bind fun _ _ => .pure hb

/-- The values of an assignment are those of its text, or those of the type comment on its line. -/
theorem AssignDef.define_holds {d : AssignDef} (hvalue : Returns P (runText frame d.value))
    (hcomment : ∀ comment, comments.commentAt? file d.line = some comment →
      Returns P (evalTypeComment frame comment)) :
    Returns P (d.define frame comments file) :=
  (hvalue.adapt _).bind fun _ hb => .lift (applyTypeComment_holds hcomment hb)

end Assignments

/-! ## Call sites -/

section CallSites

variable {P : Bindings → Prop} {frame : Frame} (hempty : P ∅) (d : SpecializeDef)

include hempty

theorem SpecializeDef.valuesOf_holds {texts : List String}
    (h : ∀ text ∈ texts, Returns (fun values : Bindings => ∀ v ∈ values.values, ∀ b, P b →
      P (addCallValue frame.point b v)) (runText frame text)) :
    Returns P (d.valuesOf frame texts) := by
  refine Returns.foldlM texts (fun b hb text htext => ?_) hempty
  refine ((h text htext).adapt _).bind fun values hvalues => .pure ?_
  exact List.foldlRecOn (motive := P) _ _ hb fun b hb v hv => hvalues v hv b hb

/-- What is kept as the values of the texts are added holds of all bindings in a map. -/
theorem SpecializeDef.substitution_holds {site : SortedMap String (List String)}
    (h : ∀ entry ∈ site.toList, ∀ text ∈ entry.2,
      Returns (fun values : Bindings => ∀ v ∈ values.values, ∀ b, P b →
        P (addCallValue frame.point b v)) (runText frame text)) :
    Returns (fun map : Substitution => map.All P) (d.substitution frame site) := by
  refine Returns.foldlM site.toList (fun map hmap entry hentry => ?_) SortedMap.All.empty
  exact (d.valuesOf_holds hempty (h entry hentry)).bind fun b hb => .pure (hmap.insert entry.1 hb)

end CallSites

end TypeHints
