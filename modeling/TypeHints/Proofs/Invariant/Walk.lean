import TypeHints.Proofs.Invariant.Resolution
import TypeHints.Proofs.Sources

/-!
# The walk keeps an invariant

If the globals of the walk satisfy an invariant and the texts of a definition may be evaluated,
then what the definition binds satisfies the invariant, and so does the signature of the function
it defines: what is collected and what waits for the end (`Invariant.define`).
-/

namespace TypeHints

/-- The texts of a definition from which values are bound or annotations resolved. -/
inductive Definition.Spells : Definition → String → Prop
  | bound {d : TypeVarDef} {text : String} (h : d.bound = some text) :
      Definition.Spells (.typeVar d) text
  | hint {d : FunctionDef} {name text : String} (h : (name, text) ∈ d.annotations.toList) :
      Definition.Spells (.function d) text
  | arguments {d : FunctionDef} {comment : String} {args result : List Char}
      (h : d.typeComment = some comment)
      (hsplit : Function.splitComment (Text.trimChars comment.toList) = some (args, result)) :
      Definition.Spells (.function d) (String.ofList (Text.trimChars args))
  | result {d : FunctionDef} {comment : String} {args result : List Char}
      (h : d.typeComment = some comment)
      (hsplit : Function.splitComment (Text.trimChars comment.toList) = some (args, result)) :
      Definition.Spells (.function d) (String.ofList (Text.trimChars result))
  | value (d : AssignDef) : Definition.Spells (.assign d) d.value

namespace Invariant

variable {I : Invariant}

/-! ## Type variables and classes -/

section Frame

variable {frame : Frame} (hframe : I.Evaluates frame)

include hframe

theorem Evaluates.defineTypeVar {d : TypeVarDef}
    (h : ∀ text, (Definition.typeVar d).Spells text → I.text text) :
    Returns (fun v => I.value (.typeVar v)) (d.define frame) := by
  have hbound := TypeVarDef.define_holds (T := I.type) fun text htext =>
    (hframe text (h text (.bound htext))).mono fun _ hb v hv _ => toTy? (hb v hv)
  exact hbound.mono fun ⟨name, _⟩ hv => I.declaredVar name hv

end Frame

theorem defineClass (d : ClassDef) {globals : TypeHints.Scope} (hglobals : I.Scope globals) :
    I.value (.cls (d.define globals)) :=
  I.declaredClass d.name <| d.template_holds (V := fun v => I.value (.typeVar v))
    (fun name => I.declaredVar name fun _ ht => by cases ht)
    fun name b hb _ hv => hglobals name b hb _ hv

/-! ## Functions -/

section Frame

variable {frame : Frame} (hframe : I.Evaluates frame) {d : FunctionDef}
  (h : ∀ text, (Definition.function d).Spells text → I.text text)

include hframe h

theorem Evaluates.evalHints :
    Returns (fun bs : List Bindings => ∀ b ∈ bs, b.All I.value) (d.evalHints frame) :=
  (Returns.mapM _ fun entry hentry => (hframe entry.2 (h _ (.hint hentry))).adapt _).mono
    fun _ hbs => hbs.2

/-- The signature of a function satisfies the invariant when it is defined. -/
theorem Evaluates.defineFunction (file : String) :
    Returns (fun f : Function => I.Signature f.signature) (d.define frame file) := by
  have hhint : ∀ entry ∈ d.annotations.toList,
      Returns (Bindings.All (Value.Offers I.type I.value)) (TypeHints.runText frame entry.2) :=
    fun entry hentry => (hframe entry.2 (h _ (.hint hentry))).mono fun _ hb v hv =>
      ⟨hb v hv, fun _ => toTy? (hb v hv)⟩
  refine (FunctionDef.define_holds file hhint fun comment args result hcomment hsplit => ?_).mono
    fun f hf => ⟨hf.types, hf.late⟩
  exact ⟨I.str (h _ (.arguments hcomment hsplit)), I.str (h _ (.result hcomment hsplit))⟩

end Frame

/-! ## Assignments -/

section Frame

variable {frame : Frame}
  (hcomment : ∀ comment, Returns (Bindings.All I.value) (evalTypeComment frame comment))

include hcomment

theorem Evaluates.defineAssign (hframe : I.Evaluates frame) {d : AssignDef} (h : I.text d.value)
    (comments : LineComments) (file : String) :
    Returns (Bindings.All I.value) (d.define frame comments file) :=
  AssignDef.define_holds (hframe _ h) fun comment _ => hcomment comment

end Frame

/-! ## The walk -/

/-- The globals and the signatures of the functions satisfy the invariant. -/
structure Walk (I : Invariant) (w : TypeHints.Walk) : Prop where
  globals : I.Scope w.globals
  functions : ∀ f ∈ w.functions, I.Signature f.signature

theorem Walk.empty : I.Walk {} := ⟨.empty, fun _ hf => absurd hf List.not_mem_nil⟩

theorem Walk.bind {w : TypeHints.Walk} (hw : I.Walk w) (name : String) {b : Bindings}
    (hb : b.All I.value) : I.Walk (w.bind name b) :=
  ⟨hw.globals.insert name hb, hw.functions⟩

/-- Every definition keeps the invariant. -/
theorem Walk.define (m : Module) {w : TypeHints.Walk} (hw : I.Walk w) {d : Definition}
    (hframe : I.Evaluates w.frame) (h : ∀ text, d.Spells text → I.text text)
    (hcomment : ∀ comment, Returns (Bindings.All I.value) (evalTypeComment w.frame comment)) :
    Returns I.Walk (w.define m d) := by
  cases d with
  | typeVar d =>
    exact (hframe.defineTypeVar h).bind fun v hv => .pure (hw.bind _ (.ofValue hv))
  | cls d => exact .pure (hw.bind _ (.ofValue (defineClass d hw.globals)))
  | function d =>
    refine (hframe.defineFunction h m.file).bind fun f hf => .pure ⟨hw.globals, ?_⟩
    exact List.forall_mem_append.2 ⟨hw.functions, List.forall_mem_singleton.2 hf⟩
  | assign d =>
    exact (Evaluates.defineAssign hcomment hframe (h _ (.value d)) _ m.file).bind fun b hb =>
      .pure ⟨hw.globals.insert d.target hb, hw.functions⟩
  | specialize d => exact .pure ⟨hw.globals, hw.functions⟩

end Invariant

end TypeHints
