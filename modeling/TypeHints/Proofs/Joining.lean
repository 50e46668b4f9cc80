import Mathlib.Data.List.Forall2
import TypeHints.Proofs.Nesting
import TypeHints.Proofs.Reading

/-!
# Texts in a row

Items that are parsed one by one are parsed together when they are joined by commas, and make a
tuple then (`ItemText.parse_joined`). The comma ends every chain of subscripts, so the joined text
nests no deeper than its parts.
-/

namespace TypeHints

open Text

namespace Expr

/-! ## Space in front -/

theorem mark_of_isSpaces {ws cs : List Char} {c : Char} (hws : IsSpaces ws) (h : Mark c cs) :
    Mark c (ws ++ cs) := by
  obtain ⟨ws', hws', rfl⟩ := h
  exact ⟨ws ++ ws', List.forall_mem_append.2 ⟨hws, hws'⟩, (List.append_assoc _ _ _).symm⟩

theorem IsAtom.of_isSpaces {ws cs : List Char} {e : Expr} (hws : IsSpaces ws) (h : IsAtom cs e) :
    IsAtom (ws ++ cs) e := by
  cases h with
  | literal hws' h =>
    rw [← List.append_assoc]
    exact .literal (List.forall_mem_append.2 ⟨hws, hws'⟩) h
  | unit ho hc =>
    rw [← List.append_assoc]
    exact .unit (mark_of_isSpaces hws ho) hc
  | group ho h hc =>
    rw [← List.append_assoc, ← List.append_assoc]
    exact .group (mark_of_isSpaces hws ho) h hc

theorem IsItem.of_isSpaces {ws cs : List Char} {e : Expr} (hws : IsSpaces ws) (h : IsItem cs e) :
    IsItem (ws ++ cs) e := by
  induction h using IsItem.leftRec with
  | atom h => exact .atom (h.of_isSpaces hws)
  | subscript h ho hindex hc ih =>
    rw [← List.append_assoc]
    exact .subscript ih ho hindex hc

theorem IsItems.of_isSpaces {ws cs : List Char} {es : List Expr} (hws : IsSpaces ws)
    (h : IsItems cs es) : IsItems (ws ++ cs) es := by
  induction h using IsItems.leftRec with
  | single h => exact .single (h.of_isSpaces hws)
  | snoc h hcomma he ih =>
    rw [← List.append_assoc]
    exact .snoc ih hcomma he

theorem IsItems.cons {cs comma ds : List Char} {e : Expr} {es : List Expr} (h : IsItem cs e)
    (hcomma : Mark ',' comma) (hes : IsItems ds es) : IsItems (cs ++ comma ++ ds) (e :: es) := by
  induction hes using IsItems.leftRec with
  | single he =>
    rw [List.append_assoc]
    exact .snoc (.single h) hcomma he
  | snoc hes hcomma' he ih =>
    rw [← List.append_assoc]
    exact .snoc ih hcomma' he

/-! ## Joined texts -/

theorem toList_intercalate_cons_cons (text text' : String) (texts : List String) :
    (", ".intercalate (text :: text' :: texts)).toList =
      text.toList ++ [','] ++ ([' '] ++ (", ".intercalate (text' :: texts)).toList) := by
  simp

/-- Items with a comma and a space between them are a row of items. -/
theorem IsItems.intercalate {texts : List String} {es : List Expr}
    (h : List.Forall₂ (fun text e => IsItem text.toList e) texts es) (hne : texts ≠ []) :
    IsItems (", ".intercalate texts).toList es := by
  induction h with
  | nil => exact absurd rfl hne
  | @cons text e texts es hhead htail ih =>
    cases htail with
    | nil =>
      rw [String.intercalate_singleton]
      exact .single hhead
    | cons =>
      have hspace : IsSpaces [' '] := by simp [IsSpaces, isSpace]
      have hcomma : Mark ',' [','] := ⟨[], by simp [IsSpaces], rfl⟩
      rw [toList_intercalate_cons_cons]
      exact .cons hhead hcomma ((ih (List.cons_ne_nil _ _)).of_isSpaces hspace)

theorem parse_trimmed_iff {text : String} {e : Expr} (h : Text.trim text = text) :
    parse text = .ok e ↔
      text.toList ≠ [] ∧ nestingDepth text.toList ≤ maxNesting ∧ IsExpr text.toList e := by
  have htrim : trimChars text.toList = text.toList := by rw [← toList_trim, h]
  rw [parse, htrim]
  exact parseChars_eq_ok_iff (trimChars_eq_self_iff.1 htrim).2

/-- A text without blanks at its ends that is parsed as one item. -/
structure ItemText where
  text : String
  expr : Expr
  trimmed : Text.trim text = text
  item : IsItem text.toList expr
  parsed : parse text = .ok expr

namespace ItemText

theorem ne_nil (t : ItemText) : t.text.toList ≠ [] := ((parse_trimmed_iff t.trimmed).1 t.parsed).1

theorem nestingDepth_le (t : ItemText) : nestingDepth t.text.toList ≤ maxNesting :=
  ((parse_trimmed_iff t.trimmed).1 t.parsed).2.1

theorem trimChars_eq (t : ItemText) : trimChars t.text.toList = t.text.toList := by
  rw [← toList_trim, t.trimmed]

/-- The texts with a comma and a space between them. -/
def joined (ts : List ItemText) : String := ", ".intercalate (ts.map (·.text))

theorem toList_joined_singleton (t : ItemText) : (joined [t]).toList = t.text.toList := by
  rw [joined, List.map_singleton, String.intercalate_singleton]

theorem toList_joined_cons_cons (t t' : ItemText) (ts : List ItemText) :
    (joined (t :: t' :: ts)).toList =
      t.text.toList ++ [','] ++ ([' '] ++ (joined (t' :: ts)).toList) :=
  toList_intercalate_cons_cons _ _ _

theorem isItems_joined {ts : List ItemText} (hne : ts ≠ []) :
    IsItems (joined ts).toList (ts.map (·.expr)) := by
  refine IsItems.intercalate ?_ (mt List.map_eq_nil_iff.1 hne)
  rw [List.forall₂_map_left_iff, List.forall₂_map_right_iff, List.forall₂_same]
  exact fun t _ => t.item

theorem nestingDepth_cons_space (cs : List Char) : nestingDepth (' ' :: cs) = nestingDepth cs := rfl

/-- Joining does not nest. -/
theorem nestingDepth_joined_le : ∀ ts : List ItemText, nestingDepth (joined ts).toList ≤ maxNesting
  | [] => Nat.zero_le _
  | [t] => by
    rw [toList_joined_singleton]
    exact t.nestingDepth_le
  | t :: t' :: ts => by
    rw [toList_joined_cons_cons, List.append_assoc, List.singleton_append,
      nestingDepth_append_comma t.item.balanced, List.singleton_append, nestingDepth_cons_space]
    exact Nat.max_le.2 ⟨t.nestingDepth_le, nestingDepth_joined_le (t' :: ts)⟩

theorem trimChars_joined : ∀ ts : List ItemText, ts ≠ [] →
    trimChars (joined ts).toList = (joined ts).toList ∧ (joined ts).toList ≠ []
  | [], hne => absurd rfl hne
  | [t], _ => by
    rw [toList_joined_singleton]
    exact ⟨t.trimChars_eq, t.ne_nil⟩
  | t :: t' :: ts, _ => by
    obtain ⟨htrim, hne⟩ := trimChars_joined (t' :: ts) (by simp)
    rw [toList_joined_cons_cons, ← List.append_assoc, List.append_assoc t.text.toList]
    exact ⟨trimChars_append_append _ t.trimChars_eq htrim t.ne_nil hne, by simp⟩

/-- Several items are parsed together as they are one by one. -/
theorem parse_joined {ts : List ItemText} (h : 2 ≤ ts.length) :
    parse (joined ts) = .ok (.tuple (ts.map (·.expr))) := by
  have hne : ts ≠ [] := by
    rintro rfl
    simp at h
  obtain ⟨htrim, hjoined⟩ := trimChars_joined ts hne
  have htrimmed : Text.trim (joined ts) = joined ts := by
    rw [← String.toList_inj, toList_trim, htrim]
  rw [parse_trimmed_iff htrimmed]
  exact ⟨hjoined, nestingDepth_joined_le ts, .tuple (isItems_joined hne) (by simpa using h)⟩

end ItemText

end Expr

end TypeHints
