import TypeHints.Proofs.Nesting
import TypeHints.Proofs.Reading

/-!
# Where a syntax error is

The offset of a syntax error is where reading stopped, in bytes and behind the space that follows.
What was read up to there is an expression, on however much of the text the reader had looked
ahead: the text cut off at the offset is parsed (`parse_invalid_offset`). The cut is between two
characters, nests no deeper than the whole text, and does not end in a blank of the wrong kind,
because no token ends in one (`IsExpr.endsInInk`).
-/

namespace TypeHints.Expr

open Text

/-! ## Ends of expressions -/

/-- The last character is no blank. -/
def EndsInInk (cs : List Char) : Prop := ∃ front c, cs = front ++ [c] ∧ isBlank c = false

theorem EndsInInk.append {ds : List Char} (h : EndsInInk ds) (cs : List Char) :
    EndsInInk (cs ++ ds) := by
  obtain ⟨front, c, rfl, hc⟩ := h
  exact ⟨cs ++ front, c, (List.append_assoc _ _ _).symm, hc⟩

theorem endsInInk_of_forall {cs : List Char} (hne : cs ≠ [])
    (h : ∀ c ∈ cs, isBlank c = false) : EndsInInk cs :=
  ⟨cs.dropLast, cs.getLast hne, (List.dropLast_concat_getLast hne).symm,
    h _ (List.getLast_mem hne)⟩

theorem Mark.endsInInk {c : Char} {cs : List Char} (h : Mark c cs) (hc : isBlank c = false) :
    EndsInInk cs := by
  obtain ⟨ws, -, rfl⟩ := h
  exact ⟨ws, c, rfl, hc⟩

/-- No blank is part of a name. -/
theorem isBlank_of_isNameChar {c : Char} (h : isNameChar c = true) : isBlank c = false := by
  have hranges : ∀ r ∈ blankRanges, ∀ k ∈ List.range' r.1 (r.2 + 1 - r.1),
      isNameChar (Char.ofNat k) = false := by decide +kernel
  rw [← Bool.not_eq_true]
  intro hblank
  obtain ⟨r, hr, hlow, hhigh⟩ := inRanges_iff.1 hblank
  have hc := hranges r hr c.toNat (List.mem_range'_1.2 ⟨hlow, by omega⟩)
  rw [Char.ofNat_toNat, h] at hc
  cases hc

theorem IsLiteral.endsInInk {cs : List Char} {e : Expr} (h : IsLiteral cs e) : EndsInInk cs := by
  cases h with
  | str h =>
    obtain ⟨q, body, hq, -, rfl, -⟩ := h
    exact ⟨q :: body, q, rfl, by rcases hq with rfl | rfl <;> decide⟩
  | int h =>
    obtain ⟨digits, hne, hdigits, hcs⟩ := h
    have hend : EndsInInk digits := endsInInk_of_forall hne fun d hd =>
      isBlank_of_isNameChar (isNameChar_of_isDigit (hdigits d hd))
    rcases hcs with ⟨rfl, -⟩ | ⟨rfl, -⟩
    · exact hend
    · exact hend.append ['-']
  | name h =>
    obtain ⟨c, tail, hc, htail, rfl, -⟩ := h
    refine endsInInk_of_forall (List.cons_ne_nil _ _) fun d hd => isBlank_of_isNameChar ?_
    rcases List.mem_cons.1 hd with rfl | hd
    · exact isNameChar_of_isNameStart hc
    · exact htail d hd

theorem closed_endsInInk : Closed (fun cs _ => EndsInInk cs) (fun cs _ => EndsInInk cs)
    (fun cs _ => EndsInInk cs) (fun cs _ => EndsInInk cs) where
  literal _ h := h.endsInInk.append _
  unit _ hc := (Mark.endsInInk hc (by decide)).append _
  group _ _ hc := (Mark.endsInInk hc (by decide)).append _
  atom h := h
  subscript _ _ _ hc := ((Mark.endsInInk hc (by decide)).append _).append _
  single h := h
  snoc _ _ he := (he.append _).append _
  item h := h
  tuple h _ := h
  trailing _ hcomma := (Mark.endsInInk hcomma (by decide)).append _

/-- An expression does not end in a blank. -/
theorem IsExpr.endsInInk {cs : List Char} {e : Expr} (h : IsExpr cs e) : EndsInInk cs :=
  closed_endsInInk.of_isExpr h

/-! ## Bytes -/

theorem byteLength_eq (cs : List Char) : byteLength cs = (String.ofList cs).utf8ByteSize := by
  induction cs with
  | nil => rfl
  | cons c cs ih =>
    rw [byteLength, ih, ← List.singleton_append, String.ofList_append, String.utf8ByteSize_append,
      ← String.singleton_eq_ofList, String.utf8ByteSize_singleton]

theorem byteLength_append (cs ds : List Char) :
    byteLength (cs ++ ds) = byteLength cs + byteLength ds := by
  rw [byteLength_eq, byteLength_eq, byteLength_eq, String.ofList_append, String.utf8ByteSize_append]

/-! ## Where reading stops -/

/-- What was read off the front of a text: an expression, and the space behind it. -/
def IsRead (front : List Char) : Prop :=
  ∃ used ws e, front = used ++ ws ∧ IsExpr used e ∧ IsSpaces ws

/-- The offset of a syntax error is the length of what was read, of which there may be nothing. -/
theorem parseChars_invalid {cs : List Char} {text : String} {offset : Nat}
    (h : parseChars cs = .error (.invalid text offset)) :
    text = String.ofList cs ∧ nestingDepth cs ≤ maxNesting ∧
      ∃ front back, cs = front ++ back ∧ offset = byteLength front ∧
        (front ≠ [] → IsRead front) := by
  rw [parseChars] at h
  split at h
  · cases h
  split at h
  · cases h
  rename_i hdepth
  refine ⟨?_, Nat.not_lt.1 hdepth, ?_⟩
  · split at h
    · cases h
      rfl
    · split at h
      · cases h
      · cases h
        rfl
  · split at h
    · cases h
      exact ⟨[], cs, rfl, rfl, fun hne => absurd rfl hne⟩
    · rename_i e rest hread
      obtain ⟨used, hused, hexpr⟩ := (readExpr_sound _ _).sound hread
      obtain ⟨ws, hws, hrest⟩ := exists_skipSpace rest
      split at h
      · cases h
      · cases h
        have hcs : cs = (used ++ ws) ++ skipSpace rest := by
          rw [List.append_assoc, ← hrest, hused]
        refine ⟨used ++ ws, skipSpace rest, hcs, ?_, fun _ => ⟨used, ws, e, rfl, hexpr, hws⟩⟩
        have hlength := congrArg byteLength hcs
        rw [byteLength_append] at hlength
        omega

/-- What was read of a text is parsed by itself: only space is cut off its end. -/
theorem parse_of_isRead {front back : List Char}
    (hhead : ∀ c ∈ (front ++ back).head?, isBlank c = false)
    (hdepth : nestingDepth (front ++ back) ≤ maxNesting) (h : IsRead front) :
    ∃ e, parse (String.ofList front) = .ok e := by
  obtain ⟨used, ws, e, rfl, hexpr, hws⟩ := h
  obtain ⟨start, c, hused, hc⟩ := hexpr.endsInInk
  have hne : used ≠ [] := by simp [hused]
  have hlast : ∀ d ∈ used.getLast?, isBlank d = false := by
    rw [hused, List.getLast?_concat]
    rintro d ⟨⟩
    exact hc
  rw [List.append_assoc] at hhead hdepth
  have hfirst : ∀ d ∈ used.head?, isBlank d = false := by
    intro d hd
    refine hhead d ?_
    rw [List.head?_append, Option.mem_def.1 hd]
    rfl
  have htrim : trimChars (used ++ ws) = used := by
    rw [trimChars_append_of_isBlank fun d hd => isBlank_of_isSpace (hws d hd)]
    exact trimChars_eq_self_iff.2 ⟨hfirst, hlast⟩
  refine ⟨e, ?_⟩
  rw [parse, String.toList_ofList, htrim, parseChars_eq_ok_iff hlast]
  exact ⟨hne, (nestingDepth_le_append _ _).trans hdepth, hexpr⟩

/-! ## Offsets -/

/-- **A syntax error points behind something valid.** Its offset is that of a character of the
trimmed text or of the end, and if it is not zero, the bytes up to it are a text that is
parsed. -/
theorem parse_invalid_offset {source text : String} {offset : Nat}
    (h : parse source = .error (.invalid text offset)) :
    text = Text.trim source ∧ offset ≤ text.utf8ByteSize ∧
      String.Pos.Raw.IsValid text ⟨offset⟩ ∧
      ∃ front : String, front.toByteArray = text.toByteArray.extract 0 offset ∧
        (0 < offset → ∃ e, parse front = .ok e) := by
  obtain ⟨htext, hdepth, front, back, hcs, hoffset, hread⟩ := parseChars_invalid h
  have hsplit : text = String.ofList front ++ String.ofList back := by
    rw [htext, hcs, String.ofList_append]
  rw [byteLength_eq] at hoffset
  refine ⟨htext, ?_, ?_, String.ofList front, ?_, fun hpos => ?_⟩
  · rw [hsplit, String.utf8ByteSize_append]
    omega
  · rw [String.Pos.Raw.isValid_iff_exists_append]
    exact ⟨_, _, hsplit, by rw [hoffset]; rfl⟩
  · rw [hsplit, String.toByteArray_append, ByteArray.extract_append_eq_left]
    rw [hoffset, String.size_toByteArray]
  · have hne : front ≠ [] := by
      rintro rfl
      simp [hoffset] at hpos
    have hhead : ∀ c ∈ (front ++ back).head?, isBlank c = false := by
      rw [← hcs]
      exact not_isBlank_of_head?_trimChars _
    exact parse_of_isRead hhead (hcs ▸ hdepth) (hread hne)

/-- The second item is read without the subscript that is not closed, and the offset is behind
the space in front of that bracket. -/
theorem parse_invalid_offset_of_unclosed :
    parse " 'é' , x [ y" = .error (.invalid "'é' , x [ y" 9) ∧
      9 ≤ "'é' , x [ y".utf8ByteSize ∧ String.Pos.Raw.IsValid "'é' , x [ y" ⟨9⟩ ∧
      ∃ front : String, front.toByteArray = "'é' , x [ y".toByteArray.extract 0 9 ∧
        ∃ e, parse front = .ok e := by
  have hparse : parse " 'é' , x [ y" = .error (.invalid "'é' , x [ y" 9) := by decide +kernel
  obtain ⟨-, hle, hvalid, front, hfront, hok⟩ := parse_invalid_offset hparse
  exact ⟨hparse, hle, hvalid, front, hfront, hok (by decide)⟩

end TypeHints.Expr
