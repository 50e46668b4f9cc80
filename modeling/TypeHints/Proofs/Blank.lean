import Mathlib.Data.List.TakeWhile
import TypeHints.Text

/-!
# Blanks at the ends of a text

Trimming changes nothing exactly if no blank stands at either end (`Text.trimChars_eq_self_iff`).
Blanks that are put behind a text are cut off again (`Text.trimChars_append_of_isBlank`), and of a
text that begins with no blank nothing else is (`Text.exists_trimChars_append`).
-/

namespace TypeHints.Text

variable {cs ds : List Char}

theorem not_mem_of_isBlank {c : Char} (hc : isBlank c = false) (h : ∀ c ∈ cs, isBlank c = true) :
    c ∉ cs := by
  intro hmem
  rw [h c hmem] at hc
  cases hc

theorem dropWhile_isBlank_eq_self (h : ∀ c ∈ cs.head?, isBlank c = false) :
    cs.dropWhile isBlank = cs := by
  cases cs with
  | nil => rfl
  | cons c cs => exact List.dropWhile_cons_of_neg (by simp [h c rfl])

theorem trimChars_eq_of_dropWhile (h : cs.dropWhile isBlank = ds.dropWhile isBlank) :
    trimChars cs = trimChars ds := by
  rw [trimChars, trimChars, h]

theorem trimChars_eq_nil (h : ∀ c ∈ cs, isBlank c = true) : trimChars cs = [] := by
  rw [trimChars, List.dropWhile_eq_nil_iff.2 h]
  rfl

theorem not_isBlank_of_getLast?_trimChars (cs : List Char) :
    ∀ c ∈ (trimChars cs).getLast?, isBlank c = false := by
  intro c hc
  rw [trimChars, List.getLast?_reverse] at hc
  have h := List.head?_dropWhile_not isBlank (cs.dropWhile isBlank).reverse
  rw [Option.mem_def.1 hc] at h
  simpa using h

theorem trimChars_eq_self_iff :
    trimChars cs = cs ↔
      (∀ c ∈ cs.head?, isBlank c = false) ∧ ∀ c ∈ cs.getLast?, isBlank c = false := by
  constructor
  · intro h
    have hlen : (trimChars cs).length ≤ (cs.dropWhile isBlank).length := by
      rw [trimChars, List.length_reverse]
      exact (List.dropWhile_suffix _).length_le.trans List.length_reverse.le
    have hdrop : cs.dropWhile isBlank = cs :=
      (List.dropWhile_suffix _).eq_of_length_le (by rwa [h] at hlen)
    refine ⟨fun c hc => ?_, fun c hc => ?_⟩
    · have hhead := List.head?_dropWhile_not isBlank cs
      rw [hdrop, Option.mem_def.1 hc] at hhead
      simpa using hhead
    · rw [← h] at hc
      exact not_isBlank_of_getLast?_trimChars cs c hc
  · rintro ⟨hhead, hlast⟩
    rw [trimChars, dropWhile_isBlank_eq_self hhead,
      dropWhile_isBlank_eq_self (by rwa [List.head?_reverse]), List.reverse_reverse]

/-- Only the outer ends of a text in parts matter. -/
theorem trimChars_append_append (middle : List Char) (hcs : trimChars cs = cs)
    (hds : trimChars ds = ds) (hcs' : cs ≠ []) (hds' : ds ≠ []) :
    trimChars (cs ++ middle ++ ds) = cs ++ middle ++ ds := by
  rw [trimChars_eq_self_iff] at hcs hds ⊢
  refine ⟨fun c hc => hcs.1 c ?_, fun c hc => hds.2 c ?_⟩
  · obtain ⟨d, cs, rfl⟩ := List.exists_cons_of_ne_nil hcs'
    exact hc
  · rwa [List.getLast?_append, List.getLast?_eq_some_getLast hds', Option.some_or,
      ← List.getLast?_eq_some_getLast hds'] at hc

theorem trimChars_append_of_isBlank (h : ∀ c ∈ ds, isBlank c = true) :
    trimChars (cs ++ ds) = trimChars cs := by
  rw [trimChars, trimChars, List.dropWhile_append]
  split
  · rename_i hempty
    rw [List.dropWhile_eq_nil_iff.2 h, List.isEmpty_iff.1 hempty]
  · rw [List.reverse_append, List.dropWhile_append_of_pos fun c hc => h c (List.mem_reverse.1 hc)]

/-- Of a text that begins with no blank only blanks at the end are cut off. -/
theorem exists_trimChars_append (h : ∀ c ∈ cs.head?, isBlank c = false) :
    ∃ blanks, (∀ c ∈ blanks, isBlank c = true) ∧ cs = trimChars cs ++ blanks := by
  refine ⟨(cs.reverse.takeWhile isBlank).reverse, fun c hc => ?_, ?_⟩
  · exact List.mem_takeWhile_imp (List.mem_reverse.1 hc)
  · calc
      cs = (cs.reverse.takeWhile isBlank ++ cs.reverse.dropWhile isBlank).reverse := by
        rw [List.takeWhile_append_dropWhile, List.reverse_reverse]
      _ = (cs.reverse.dropWhile isBlank).reverse ++ (cs.reverse.takeWhile isBlank).reverse :=
        List.reverse_append
      _ = trimChars cs ++ (cs.reverse.takeWhile isBlank).reverse := by
        rw [trimChars, dropWhile_isBlank_eq_self h]

theorem not_isBlank_of_head?_trimChars (cs : List Char) :
    ∀ c ∈ (trimChars cs).head?, isBlank c = false := by
  intro c hc
  have hdrop : ∀ c ∈ (cs.dropWhile isBlank).head?, isBlank c = false := by
    intro c hc
    have h := List.head?_dropWhile_not isBlank cs
    rw [Option.mem_def.1 hc] at h
    simpa using h
  have htrim : trimChars (cs.dropWhile isBlank) = trimChars cs :=
    trimChars_eq_of_dropWhile (dropWhile_isBlank_eq_self hdrop)
  -- trimming goes on at the end only, so the first character stays
  obtain ⟨blanks, -, hblanks⟩ := exists_trimChars_append hdrop
  rw [htrim] at hblanks
  refine hdrop c ?_
  rw [hblanks, List.head?_append, Option.mem_def.1 hc]
  rfl

end TypeHints.Text
