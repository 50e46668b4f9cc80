import Mathlib.Data.List.TakeWhile
import TypeHints.Expr.Reader

/-!
# Tokens

What the readers of strings, integers and names take off a text, said without reading:
`IsString`, `IsInt` and `IsName`. Each reader takes such a token (`readLiteral_sound`), and takes
all of it as long as the text does not go on with a character of a name
(`readLiteral_complete`).
-/

namespace TypeHints

namespace Text

/-! ## Space -/

/-- Only space. -/
def IsSpaces (cs : List Char) : Prop := ∀ c ∈ cs, isSpace c = true

theorem isBlank_of_isSpace {c : Char} (h : isSpace c = true) : isBlank c = true := by
  simp only [isSpace, Bool.or_eq_true, decide_eq_true_eq] at h
  rcases h with ((rfl | rfl) | rfl) | rfl <;> decide

theorem IsSpaces.skipSpace_append {ws : List Char} (h : IsSpaces ws) (cs : List Char) :
    skipSpace (ws ++ cs) = skipSpace cs := by
  unfold skipSpace
  exact List.dropWhile_append_of_pos h

theorem exists_skipSpace (cs : List Char) : ∃ ws, IsSpaces ws ∧ cs = ws ++ skipSpace cs := by
  refine ⟨cs.takeWhile isSpace, fun c hc => ?_, List.takeWhile_append_dropWhile.symm⟩
  exact List.mem_takeWhile_imp hc

theorem skipSpace_of_head {cs : List Char} (h : ∀ c ∈ cs.head?, isSpace c = false) :
    skipSpace cs = cs := by
  unfold skipSpace
  cases cs with
  | nil => rfl
  | cons c cs => exact List.dropWhile_cons_of_neg (by simp [h c rfl])

theorem skipSpace_cons_of_not {c : Char} (h : isSpace c = false) (cs : List Char) :
    skipSpace (c :: cs) = c :: cs :=
  skipSpace_of_head (by simp [h])

@[simp] theorem skipSpace_skipSpace (cs : List Char) : skipSpace (skipSpace cs) = skipSpace cs := by
  obtain ⟨ws, hws, hcs⟩ := exists_skipSpace cs
  have h := hws.skipSpace_append (skipSpace cs)
  rw [← hcs] at h
  exact h.symm

/-- What goes on as far as `p` holds is told from what follows. -/
theorem takeWhile_dropWhile_append {p : Char → Bool} {cs rest : List Char}
    (hcs : ∀ c ∈ cs, p c = true) (hrest : ∀ c ∈ rest.head?, p c = false) :
    (cs ++ rest).takeWhile p = cs ∧ (cs ++ rest).dropWhile p = rest := by
  rw [List.takeWhile_append_of_pos hcs, List.dropWhile_append_of_pos hcs]
  cases rest with
  | nil => simp
  | cons c rest => simp [hrest c rfl]

/-- Space, and then `c`. -/
def Mark (c : Char) (cs : List Char) : Prop := ∃ ws, IsSpaces ws ∧ cs = ws ++ [c]

theorem Mark.length_pos {c : Char} {cs : List Char} (h : Mark c cs) : 0 < cs.length := by
  obtain ⟨ws, -, rfl⟩ := h
  simp

theorem readChar_sound {c : Char} {cs rest : List Char} (h : readChar c cs = some ((), rest)) :
    ∃ used, cs = used ++ rest ∧ Mark c used := by
  obtain ⟨ws, hws, hcs⟩ := exists_skipSpace cs
  unfold readChar at h
  split at h
  · rename_i c' tail hskip
    split at h
    · rename_i hc
      obtain rfl : tail = rest := congrArg Prod.snd (Option.some.inj h)
      subst hc
      exact ⟨ws ++ [c'], by rw [hcs, hskip]; simp, ws, hws, rfl⟩
    · cases h
  · cases h

theorem readChar_complete {c : Char} (hc : isSpace c = false) {used : List Char}
    (h : Mark c used) (rest : List Char) : readChar c (used ++ rest) = some ((), rest) := by
  obtain ⟨ws, hws, rfl⟩ := h
  unfold readChar
  rw [List.append_assoc, hws.skipSpace_append, List.singleton_append, skipSpace_cons_of_not hc]
  simp

end Text

namespace Expr

open Text

/-! ## The tokens -/

/-- A string in quotes, none of which stands inside. -/
def IsString (cs : List Char) (s : String) : Prop :=
  ∃ q body, (q = '"' ∨ q = '\'') ∧ q ∉ body ∧ cs = q :: (body ++ [q]) ∧ s = String.ofList body

/-- Decimal digits with a minus sign or without, and the integer of 64 bits they write. -/
def IsInt (cs : List Char) (i : Int64) : Prop :=
  ∃ digits, digits ≠ [] ∧ (∀ d ∈ digits, d.isDigit = true) ∧
    (cs = digits ∧ i.toInt = ofDigits digits ∨ cs = '-' :: digits ∧ i.toInt = -ofDigits digits)

/-- A first character and further ones. -/
def IsName (cs : List Char) (n : String) : Prop :=
  ∃ c tail, isNameStart c = true ∧ (∀ d ∈ tail, isNameChar d = true) ∧ cs = c :: tail ∧
    n = String.ofList cs

/-! ## Strings -/

theorem readUntil_sound {q : Char} {cs rest : List Char} {s : String}
    (h : readUntil q cs = some (s, rest)) :
    ∃ body, q ∉ body ∧ cs = body ++ q :: rest ∧ s = String.ofList body := by
  unfold readUntil at h
  have hcs : cs = cs.takeWhile (· != q) ++ cs.dropWhile (· != q) :=
    List.takeWhile_append_dropWhile.symm
  split at h
  · cases h
  · rename_i c tail hdrop
    obtain ⟨rfl, rfl⟩ := Prod.mk.inj (Option.some.inj h)
    have hc : c = q := by
      have := List.head_dropWhile_not (l := cs) (· != q) (by simp [hdrop])
      simpa [hdrop] using this
    refine ⟨_, fun hq => ?_, by rwa [hdrop, hc] at hcs, rfl⟩
    simpa using List.mem_takeWhile_imp hq

theorem readUntil_complete {q : Char} {body : List Char} (hq : q ∉ body) (rest : List Char) :
    readUntil q (body ++ q :: rest) = some (String.ofList body, rest) := by
  have hbody : ∀ c ∈ body, (c != q) = true := fun c hc => by
    simpa using fun heq : c = q => hq (heq ▸ hc)
  have hrest : ∀ c ∈ (q :: rest).head?, (c != q) = false := by simp
  obtain ⟨htake, hdrop⟩ := takeWhile_dropWhile_append hbody hrest
  unfold readUntil
  rw [htake, hdrop]

theorem readString_sound {cs rest : List Char} {s : String}
    (h : readString cs = some (s, rest)) : ∃ used, cs = used ++ rest ∧ IsString used s := by
  cases cs with
  | nil => cases h
  | cons c cs =>
    rw [readString] at h
    split at h
    · rename_i hc
      obtain ⟨body, hbody, rfl, rfl⟩ := readUntil_sound h
      exact ⟨c :: (body ++ [c]), by simp, c, body, hc, hbody, rfl, rfl⟩
    · cases h

theorem readString_complete {used : List Char} {s : String} (h : IsString used s)
    (rest : List Char) : readString (used ++ rest) = some (s, rest) := by
  obtain ⟨q, body, hq, hbody, rfl, rfl⟩ := h
  have hcs : q :: (body ++ [q]) ++ rest = q :: (body ++ q :: rest) := by simp
  rw [hcs, readString, if_pos hq, readUntil_complete hbody]

theorem readString_eq_none {cs : List Char} (h : ∀ c ∈ cs.head?, c ≠ '"' ∧ c ≠ '\'') :
    readString cs = none := by
  cases cs with
  | nil => rfl
  | cons c cs =>
    obtain ⟨hdouble, hsingle⟩ := h c rfl
    rw [readString, if_neg (by simp [hdouble, hsingle])]

/-! ## Integers -/

theorem toInt64?_eq_some_iff {n : Int} {i : Int64} : toInt64? n = some i ↔ i.toInt = n := by
  unfold toInt64?
  constructor
  · intro h
    split at h
    · rename_i hn
      obtain rfl := Option.some.inj h
      rw [Int64.toInt_minValue, Int64.toInt_maxValue] at hn
      exact Int64.toInt_ofInt_of_le hn.1 (by omega)
    · cases h
  · rintro rfl
    rw [if_pos ⟨i.minValue_le_toInt, i.toInt_le⟩, Int64.ofInt_toInt]

theorem readDigits_sound {cs digits rest : List Char} (h : readDigits cs = some (digits, rest)) :
    cs = digits ++ rest ∧ digits ≠ [] ∧ ∀ d ∈ digits, d.isDigit = true := by
  unfold readDigits at h
  split at h
  · cases h
  · rename_i hdigits
    obtain ⟨rfl, rfl⟩ := Prod.mk.inj (Option.some.inj h)
    exact ⟨List.takeWhile_append_dropWhile.symm, hdigits, fun d hd => List.mem_takeWhile_imp hd⟩

theorem readDigits_complete {digits rest : List Char} (hne : digits ≠ [])
    (hdigits : ∀ d ∈ digits, d.isDigit = true) (hrest : ∀ c ∈ rest.head?, c.isDigit = false) :
    readDigits (digits ++ rest) = some (digits, rest) := by
  obtain ⟨htake, hdrop⟩ := takeWhile_dropWhile_append hdigits hrest
  unfold readDigits
  rw [htake, hdrop]
  split
  · contradiction
  · rfl

theorem readInt_of_digits {cs : List Char} (h : ∀ c ∈ cs.head?, c ≠ '-') :
    readInt cs = (do
      let (digits, rest) ← readDigits cs
      return (← toInt64? (ofDigits digits), rest)) := by
  unfold readInt
  split
  · exact absurd rfl (h _ rfl)
  · rfl

/-- Digits that were read with a sign in front or none. -/
theorem exists_digits {cs rest : List Char} {i : Int64} (sign : Int → Int)
    (h : (do
      let (digits, rest) ← readDigits cs
      return (← toInt64? (sign (ofDigits digits)), rest)) = some (i, rest)) :
    ∃ digits, cs = digits ++ rest ∧ digits ≠ [] ∧ (∀ d ∈ digits, d.isDigit = true) ∧
      i.toInt = sign (ofDigits digits) := by
  obtain ⟨⟨digits, rest'⟩, hread, h⟩ := Option.bind_eq_some_iff.1 h
  obtain ⟨j, hj, h⟩ := Option.bind_eq_some_iff.1 h
  obtain ⟨rfl, rfl⟩ := Prod.mk.inj (Option.some.inj h)
  obtain ⟨hcs, hne, hdigits⟩ := readDigits_sound hread
  exact ⟨digits, hcs, hne, hdigits, toInt64?_eq_some_iff.1 hj⟩

theorem readInt_sound {cs rest : List Char} {i : Int64} (h : readInt cs = some (i, rest)) :
    ∃ used, cs = used ++ rest ∧ IsInt used i := by
  unfold readInt at h
  split at h
  · obtain ⟨digits, rfl, hne, hdigits, hi⟩ := exists_digits (fun n => -n) h
    exact ⟨'-' :: digits, rfl, digits, hne, hdigits, .inr ⟨rfl, hi⟩⟩
  · obtain ⟨digits, rfl, hne, hdigits, hi⟩ := exists_digits (fun n => n) h
    exact ⟨digits, rfl, digits, hne, hdigits, .inl ⟨rfl, hi⟩⟩

theorem readInt_complete {used rest : List Char} {i : Int64} (h : IsInt used i)
    (hrest : ∀ c ∈ rest.head?, c.isDigit = false) :
    readInt (used ++ rest) = some (i, rest) := by
  obtain ⟨digits, hne, hdigits, ⟨rfl, hi⟩ | ⟨rfl, hi⟩⟩ := h
  · have hminus : ∀ c ∈ (used ++ rest).head?, c ≠ '-' := by
      rintro c hc rfl
      obtain ⟨d, digits, rfl⟩ := List.exists_cons_of_ne_nil hne
      obtain rfl := Option.some.inj hc
      exact absurd (hdigits _ List.mem_cons_self) (by decide)
    rw [readInt_of_digits hminus, readDigits_complete hne hdigits hrest]
    simp [toInt64?_eq_some_iff.2 hi]
  · rw [List.cons_append, readInt, readDigits_complete hne hdigits hrest]
    simp [toInt64?_eq_some_iff.2 hi]

theorem readInt_eq_none {cs : List Char} (h : ∀ c ∈ cs.head?, c ≠ '-' ∧ c.isDigit = false) :
    readInt cs = none := by
  have hdigits : readDigits cs = none := by
    cases cs with
    | nil => rfl
    | cons c cs => simp [readDigits, (h c rfl).2]
  rw [readInt_of_digits fun c hc => (h c hc).1, hdigits]
  rfl

/-! ## Names -/

theorem readName_sound {cs rest : List Char} {n : String} (h : readName cs = some (n, rest)) :
    ∃ used, cs = used ++ rest ∧ IsName used n := by
  cases cs with
  | nil => cases h
  | cons c cs =>
    rw [readName] at h
    split at h
    · rename_i hc
      obtain ⟨rfl, rfl⟩ := Prod.mk.inj (Option.some.inj h)
      exact ⟨c :: cs.takeWhile isNameChar, by simp, c, _, hc,
        fun d hd => List.mem_takeWhile_imp hd, rfl, rfl⟩
    · cases h

theorem readName_complete {used rest : List Char} {n : String} (h : IsName used n)
    (hrest : ∀ c ∈ rest.head?, isNameChar c = false) :
    readName (used ++ rest) = some (n, rest) := by
  obtain ⟨c, tail, hc, htail, rfl, rfl⟩ := h
  obtain ⟨htake, hdrop⟩ := takeWhile_dropWhile_append htail hrest
  rw [List.cons_append, readName, if_pos hc, htake, hdrop]

theorem readName_eq_none {cs : List Char} (h : ∀ c ∈ cs.head?, isNameStart c = false) :
    readName cs = none := by
  cases cs with
  | nil => rfl
  | cons c cs => rw [readName, if_neg (by simp [h c rfl])]

/-! ## First characters -/

theorem ne_of_true {p : Char → Bool} {c d : Char} (hc : p c = true) (hd : p d = false) :
    c ≠ d := by
  rintro rfl
  exact absurd hc (by simp [hd])

theorem toNat_lt_of_isDigit {c : Char} (h : c.isDigit = true) : c.toNat < 0x80 := by
  have h9 : '9'.toNat < 0x80 := by decide
  exact Nat.lt_of_le_of_lt (Char.isDigit_iff_toNat.1 h).2 h9

theorem isNameStart_eq_false_of_isDigit {c : Char} (h : c.isDigit = true) :
    isNameStart c = false := by
  have hdigits : ∀ k < 58, 48 ≤ k → isNameStart (Char.ofNat k) = false := by decide
  obtain ⟨hlow, hhigh⟩ := Char.isDigit_iff_toNat.1 h
  have hlow' : 48 ≤ c.toNat := hlow
  have hhigh' : c.toNat ≤ 57 := hhigh
  have hc := hdigits c.toNat (by omega) hlow'
  rwa [Char.ofNat_toNat] at hc

theorem isNameChar_of_isDigit {c : Char} (h : c.isDigit = true) : isNameChar c = true := by
  simp [isNameChar, isAlphanumeric, isNumeric, toNat_lt_of_isDigit h, h]

theorem isNameChar_of_isNameStart {c : Char} (h : isNameStart c = true) :
    isNameChar c = true := by
  simp only [isNameStart, isNameChar, isAlphanumeric, Bool.or_eq_true] at *
  rcases h with h | h
  · exact .inl (.inl (.inl h))
  · exact .inl (.inr h)

theorem IsInt.head {used : List Char} {i : Int64} (h : IsInt used i) (rest : List Char) :
    ∀ c ∈ (used ++ rest).head?, c = '-' ∨ c.isDigit = true := by
  intro c hc
  obtain ⟨_ | ⟨d, digits⟩, hne, hdigits, ⟨rfl, -⟩ | ⟨rfl, -⟩⟩ := h
  · exact absurd rfl hne
  · exact absurd rfl hne
  · obtain rfl := Option.some.inj hc
    exact .inr (hdigits d List.mem_cons_self)
  · exact .inl (Option.some.inj hc).symm

theorem IsName.head {used : List Char} {n : String} (h : IsName used n) (rest : List Char) :
    ∀ c ∈ (used ++ rest).head?, isNameStart c = true := by
  obtain ⟨c, tail, hc, -, rfl, -⟩ := h
  rintro d hd
  obtain rfl := Option.some.inj hd
  exact hc

/-! ## Literals -/

/-- A token with a value of its own, and the expression it writes. -/
inductive IsLiteral : List Char → Expr → Prop
  | str {cs : List Char} {s : String} (h : IsString cs s) : IsLiteral cs (.str s)
  | int {cs : List Char} {i : Int64} (h : IsInt cs i) : IsLiteral cs (.int i)
  | name {cs : List Char} {n : String} (h : IsName cs n) : IsLiteral cs (.name n)

theorem readLiteral_sound {cs rest : List Char} {e : Expr}
    (h : readLiteral cs = some (e, rest)) : ∃ used, cs = used ++ rest ∧ IsLiteral used e := by
  unfold readLiteral at h
  cases hstr : readString cs with
  | some x =>
    obtain ⟨s, rest'⟩ := x
    rw [hstr] at h
    obtain ⟨rfl, rfl⟩ := Prod.mk.inj (Option.some.inj h)
    obtain ⟨used, rfl, hs⟩ := readString_sound hstr
    exact ⟨used, rfl, .str hs⟩
  | none =>
    rw [hstr] at h
    cases hint : readInt cs with
    | some x =>
      obtain ⟨i, rest'⟩ := x
      rw [hint] at h
      obtain ⟨rfl, rfl⟩ := Prod.mk.inj (Option.some.inj h)
      obtain ⟨used, rfl, hi⟩ := readInt_sound hint
      exact ⟨used, rfl, .int hi⟩
    | none =>
      rw [hint] at h
      obtain ⟨⟨n, rest'⟩, hname, h⟩ := Option.map_eq_some_iff.1 h
      obtain ⟨rfl, rfl⟩ := Prod.mk.inj h
      obtain ⟨used, rfl, hn⟩ := readName_sound hname
      exact ⟨used, rfl, .name hn⟩

theorem readLiteral_complete {used rest : List Char} {e : Expr} (h : IsLiteral used e)
    (hrest : ∀ c ∈ rest.head?, isNameChar c = false) :
    readLiteral (used ++ rest) = some (e, rest) := by
  unfold readLiteral
  cases h with
  | str h => rw [readString_complete h]; rfl
  | int h =>
    -- no quote begins an integer
    have hstr : readString (used ++ rest) = none := readString_eq_none fun c hc => by
      rcases h.head rest c hc with rfl | hdigit
      · decide
      · exact ⟨ne_of_true hdigit rfl, ne_of_true hdigit rfl⟩
    have hdigit : ∀ c ∈ rest.head?, c.isDigit = false := fun c hc => by
      rw [← Bool.not_eq_true]
      exact mt isNameChar_of_isDigit (by simp [hrest c hc])
    rw [hstr, readInt_complete h hdigit]
    rfl
  | name h =>
    have hstart : ∀ c ∈ (used ++ rest).head?, isNameStart c = true := h.head rest
    have hstr : readString (used ++ rest) = none := readString_eq_none fun c hc =>
      ⟨ne_of_true (hstart c hc) (by decide), ne_of_true (hstart c hc) (by decide)⟩
    have hint : readInt (used ++ rest) = none := readInt_eq_none fun c hc => by
      refine ⟨ne_of_true (hstart c hc) (by decide), ?_⟩
      rw [← Bool.not_eq_true]
      exact mt isNameStart_eq_false_of_isDigit (by simp [hstart c hc])
    rw [hstr, hint, readName_complete h hrest]
    rfl

/-! ## Marks -/

/-- The characters between the literals. -/
def marks : List Char := ['(', ')', '[', ']', ',']

theorem isNameChar_of_mem_marks {c : Char} (h : c ∈ marks) : isNameChar c = false := by
  have hall : marks.all (!isNameChar ·) = true := by decide
  simpa using List.all_eq_true.1 hall c h

theorem isNameChar_of_isSpace {c : Char} (h : isSpace c = true) : isNameChar c = false := by
  simp only [isSpace, Bool.or_eq_true, decide_eq_true_eq] at h
  rcases h with ((rfl | rfl) | rfl) | rfl <;> decide

theorem readLiteral_eq_none {cs : List Char} (h : ∀ c ∈ cs.head?, c ∈ marks) :
    readLiteral cs = none := by
  have hmark : ∀ {c d}, c ∈ cs.head? → d ∉ marks → c ≠ d := by
    rintro c d hc hd rfl
    exact hd (h c hc)
  have hname : ∀ c ∈ cs.head?, isNameChar c = false := fun c hc => isNameChar_of_mem_marks (h c hc)
  have hstr : readString cs = none := readString_eq_none fun c hc =>
    ⟨hmark hc (by decide), hmark hc (by decide)⟩
  have hint : readInt cs = none := readInt_eq_none fun c hc => by
    refine ⟨hmark hc (by decide), ?_⟩
    rw [← Bool.not_eq_true]
    exact mt isNameChar_of_isDigit (by simp [hname c hc])
  have hread : readName cs = none := readName_eq_none fun c hc => by
    rw [← Bool.not_eq_true]
    exact mt isNameChar_of_isNameStart (by simp [hname c hc])
  rw [readLiteral, hstr, hint, hread]
  rfl

/-- No literal begins with space or a mark. -/
theorem IsLiteral.head {cs : List Char} {e : Expr} (h : IsLiteral cs e) (rest : List Char) :
    ∀ c ∈ (cs ++ rest).head?, isSpace c = false ∧ c ∉ marks := by
  have hname : ∀ {c}, isNameChar c = true → isSpace c = false ∧ c ∉ marks := by
    intro c hc
    refine ⟨?_, fun hmem => ?_⟩
    · rw [← Bool.not_eq_true]
      exact mt isNameChar_of_isSpace (by simp [hc])
    · rw [isNameChar_of_mem_marks hmem] at hc
      cases hc
  intro c hc
  cases h with
  | str h =>
    obtain ⟨q, body, hq, -, rfl, -⟩ := h
    obtain rfl := Option.some.inj hc
    rcases hq with rfl | rfl <;> decide
  | int h =>
    rcases h.head rest c hc with rfl | hdigit
    · decide
    · exact hname (isNameChar_of_isDigit hdigit)
  | name h => exact hname (isNameChar_of_isNameStart (h.head rest c hc))

end Expr

end TypeHints
