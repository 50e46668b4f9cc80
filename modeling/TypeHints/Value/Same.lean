import TypeHints.Ty.Same
import TypeHints.Value

/-!
# Values that look the same

`Value.same` compares values by what they look like, as `Ty.same` compares types; the bindings
inside a tuple are compared together with the points they were bound at. Again two values are
the same when they have equal shapes (`Value.same_iff`).
-/

namespace TypeHints

/-! ## Comparison -/

mutual

/-- Whether two values look the same. -/
def Value.same : Value → Value → Bool
  | .cls c, .cls c' | .container c, .container c' => c == c'
  | .form f, .form f' => f == f'
  | .generic b k ps, .generic b' k' ps' => b == b' && k == k' && Value.sameParams ps ps'
  | .union os, .union os' => Value.sameAll os os'
  | .typeVar v, .typeVar v' => v == v'
  | .object t c, .object t' c' => t == t' && Constant.sameKnown c c'
  | .unknown u, .unknown u' => u == u'
  | _, _ => false
termination_by structural v => v

/-- Whether two constants are both unknown or the same. -/
def Constant.sameKnown : Option Constant → Option Constant → Bool
  | none, none => true
  | some c, some c' => c.same c'
  | _, _ => false
termination_by structural c => c

def Constant.same : Constant → Constant → Bool
  | .none, .none => true
  | .bool b, .bool b' => b == b'
  | .int i, .int i' => i == i'
  | .str s, .str s' => s == s'
  | .tuple is, .tuple is' => Bindings.sameAll is is'
  | _, _ => false
termination_by structural c => c

/-- Whether two lists of values are the same member by member. -/
def Value.sameAll : List Value → List Value → Bool
  | [], [] => true
  | v :: vs, v' :: vs' => v.same v' && Value.sameAll vs vs'
  | _, _ => false
termination_by structural vs => vs

/-- Whether two lists of arguments are the same key by key. -/
def Value.sameParams : List (String × Value) → List (String × Value) → Bool
  | [], [] => true
  | (n, v) :: ps, (n', v') :: ps' => n == n' && v.same v' && Value.sameParams ps ps'
  | _, _ => false
termination_by structural ps => ps

/-- Whether two bindings have the same value and origin. -/
def Binding.same : Binding → Binding → Bool
  | ⟨v, p⟩, ⟨v', p'⟩ => v.same v' && p == p'
termination_by structural b => b

/-- Whether two lists of bindings are the same member by member. -/
def Binding.sameAll : List Binding → List Binding → Bool
  | [], [] => true
  | b :: bs, b' :: bs' => b.same b' && Binding.sameAll bs bs'
  | _, _ => false
termination_by structural bs => bs

/-- Whether two groups of bindings are the same. -/
def Bindings.same : Bindings → Bindings → Bool
  | ⟨bs⟩, ⟨bs'⟩ => Binding.sameAll bs bs'
termination_by structural b => b

/-- Whether two lists of groups are the same member by member. -/
def Bindings.sameAll : List Bindings → List Bindings → Bool
  | [], [] => true
  | b :: bs, b' :: bs' => b.same b' && Bindings.sameAll bs bs'
  | _, _ => false
termination_by structural bs => bs

end

instance : BEq Value := ⟨Value.same⟩

/-! ## Shapes -/

mutual

/-- A value without class identities. -/
def Value.shape : Value → Value
  | .cls c => .cls c.shape
  | .container c => .container c.shape
  | .form f => .form f
  | .generic b k ps => .generic b.shape k (Value.paramShapes ps)
  | .union os => .union (Value.shapes os)
  | .typeVar v => .typeVar v.shape
  | .object t c => .object t.shape (Constant.knownShape c)
  | .unknown u => .unknown u

/-- A constant, if known, without class identities. -/
def Constant.knownShape : Option Constant → Option Constant
  | none => none
  | some c => some c.shape

def Constant.shape : Constant → Constant
  | .none => .none
  | .bool b => .bool b
  | .int i => .int i
  | .str s => .str s
  | .tuple is => .tuple (Bindings.shapes is)

def Value.shapes : List Value → List Value
  | [] => []
  | v :: vs => v.shape :: Value.shapes vs

def Value.paramShapes : List (String × Value) → List (String × Value)
  | [] => []
  | (n, v) :: ps => (n, v.shape) :: Value.paramShapes ps

def Binding.shape : Binding → Binding
  | ⟨v, p⟩ => ⟨v.shape, p⟩

/-- A list of bindings without class identities. -/
def Binding.shapes : List Binding → List Binding
  | [] => []
  | b :: bs => b.shape :: Binding.shapes bs

/-- A group of bindings without class identities. -/
def Bindings.shape : Bindings → Bindings
  | ⟨bs⟩ => ⟨Binding.shapes bs⟩

def Bindings.shapes : List Bindings → List Bindings
  | [] => []
  | b :: bs => b.shape :: Bindings.shapes bs

end

mutual

theorem Value.same_iff : ∀ v w : Value, v.same w = true ↔ v.shape = w.shape
  | .cls c, w => by cases w <;> simp [Value.same, Value.shape, Class.beq_iff]
  | .container c, w => by cases w <;> simp [Value.same, Value.shape, Class.beq_iff]
  | .form f, w => by cases w <;> simp [Value.same, Value.shape]
  | .generic b k ps, w => by
    cases w <;>
      simp [Value.same, Value.shape, Class.beq_iff, Value.sameParams_iff ps, and_assoc]
  | .union os, w => by cases w <;> simp [Value.same, Value.shape, Value.sameAll_iff os]
  | .typeVar v, w => by cases w <;> simp [Value.same, Value.shape, TypeVar.beq_iff]
  | .object t c, w => by
    cases w <;> simp [Value.same, Value.shape, Ty.beq_iff, Constant.sameKnown_iff c]
  | .unknown u, w => by cases w <;> simp [Value.same, Value.shape]
termination_by structural v => v

theorem Constant.sameKnown_iff :
    ∀ c d, Constant.sameKnown c d = true ↔ Constant.knownShape c = Constant.knownShape d
  | none, d => by cases d <;> simp [Constant.sameKnown, Constant.knownShape]
  | some c, d => by
    cases d <;> simp [Constant.sameKnown, Constant.knownShape, Constant.same_iff c]
termination_by structural c => c

theorem Constant.same_iff : ∀ c d : Constant, c.same d = true ↔ c.shape = d.shape
  | .none, d => by cases d <;> simp [Constant.same, Constant.shape]
  | .bool b, d => by cases d <;> simp [Constant.same, Constant.shape]
  | .int i, d => by cases d <;> simp [Constant.same, Constant.shape]
  | .str s, d => by cases d <;> simp [Constant.same, Constant.shape]
  | .tuple is, d => by cases d <;> simp [Constant.same, Constant.shape, Bindings.sameAll_iff is]
termination_by structural c => c

theorem Value.sameAll_iff : ∀ vs ws, Value.sameAll vs ws = true ↔ Value.shapes vs = Value.shapes ws
  | [], ws => by cases ws <;> simp [Value.sameAll, Value.shapes]
  | v :: vs, ws => by
    cases ws <;> simp [Value.sameAll, Value.shapes, Value.same_iff v, Value.sameAll_iff vs]
termination_by structural vs => vs

theorem Value.sameParams_iff :
    ∀ ps qs, Value.sameParams ps qs = true ↔ Value.paramShapes ps = Value.paramShapes qs
  | [], qs => by cases qs <;> simp [Value.sameParams, Value.paramShapes]
  | (n, v) :: ps, qs => by
    cases qs <;>
      simp [Value.sameParams, Value.paramShapes, Value.same_iff v, Value.sameParams_iff ps,
        and_assoc]
termination_by structural ps => ps

theorem Binding.same_iff : ∀ b c : Binding, b.same c = true ↔ b.shape = c.shape
  | ⟨v, p⟩, ⟨w, q⟩ => by simp [Binding.same, Binding.shape, Value.same_iff v]
termination_by structural b => b

theorem Binding.sameAll_iff :
    ∀ bs cs, Binding.sameAll bs cs = true ↔ Binding.shapes bs = Binding.shapes cs
  | [], cs => by cases cs <;> simp [Binding.sameAll, Binding.shapes]
  | b :: bs, cs => by
    cases cs <;> simp [Binding.sameAll, Binding.shapes, Binding.same_iff b, Binding.sameAll_iff bs]
termination_by structural bs => bs

theorem Bindings.same_iff : ∀ b c : Bindings, b.same c = true ↔ b.shape = c.shape
  | ⟨bs⟩, ⟨cs⟩ => by simp [Bindings.same, Bindings.shape, Binding.sameAll_iff bs]
termination_by structural b => b

theorem Bindings.sameAll_iff :
    ∀ bs cs, Bindings.sameAll bs cs = true ↔ Bindings.shapes bs = Bindings.shapes cs
  | [], cs => by cases cs <;> simp [Bindings.sameAll, Bindings.shapes]
  | b :: bs, cs => by
    cases cs <;>
      simp [Bindings.sameAll, Bindings.shapes, Bindings.same_iff b, Bindings.sameAll_iff bs]
termination_by structural bs => bs

end

theorem Binding.shapes_eq_map (bs : List Binding) : Binding.shapes bs = bs.map Binding.shape := by
  induction bs with
  | nil => rfl
  | cons b bs ih => simp [Binding.shapes, ih]

/-! ## Sameness is an equivalence -/

theorem Value.beq_iff {v w : Value} : (v == w) = true ↔ v.shape = w.shape := Value.same_iff v w

instance : EquivBEq Value where
  rfl := Value.beq_iff.2 rfl
  symm h := Value.beq_iff.2 (Value.beq_iff.1 h).symm
  trans h h' := Value.beq_iff.2 ((Value.beq_iff.1 h).trans (Value.beq_iff.1 h'))

end TypeHints
