import TypeHints.Function.Comment

/-!
# Function type comments as a pattern

A pattern is matched from the start of a text to its end. Where it takes as many characters as
possible it first tries to take them all, then fewer and fewer, so its matches have an order
(`Pattern.matches`), and the first of them is the one that counts. A function type comment is split
as the pattern `^\((.*)\)\s*->\s*(.*)$` says (`Function.head?_matches_comment`).
-/

namespace TypeHints

/-! ## Patterns -/

/-- A part of a pattern. -/
inductive Piece where
  /-- This character. -/
  | char (c : Char)
  /-- As many characters as possible. -/
  | many (p : Char → Bool)
  /-- As many characters as possible, which are a group. -/
  | group (p : Char → Bool)

/-- Parts that stand for consecutive parts of a text. -/
abbrev Pattern := List Piece

/-- The ways to take characters that satisfy `p` from the front of a text and to go on with `next`,
those that take more first. -/
def greedy {α : Type} (p : Char → Bool) (next : List Char → List α) :
    List Char → List (List Char × α)
  | [] => (next []).map ([], ·)
  | c :: cs =>
    (if p c then (greedy p next cs).map fun (taken, a) => (c :: taken, a) else []) ++
      (next (c :: cs)).map ([], ·)

/-- The groups of all matches of a whole text, in the order in which they are tried. -/
def Pattern.matches : Pattern → List Char → List (List (List Char))
  | [], cs => if cs = [] then [[]] else []
  | .char _ :: _, [] => []
  | .char d :: rest, c :: cs => if c = d then Pattern.matches rest cs else []
  | .many p :: rest, cs => (greedy p (Pattern.matches rest) cs).map (·.2)
  | .group p :: rest, cs =>
    (greedy p (Pattern.matches rest) cs).map fun (taken, groups) => taken :: groups

namespace Pattern

variable {rest : Pattern} {c d : Char} {cs : List Char}

theorem matches_char_self : Pattern.matches (.char c :: rest) (c :: cs) = rest.matches cs :=
  if_pos rfl

theorem matches_char_of_ne (h : c ≠ d) : Pattern.matches (.char d :: rest) (c :: cs) = [] :=
  if_neg h

end Pattern

section Greedy

variable {α : Type} {p : Char → Bool} {next : List Char → List α}

theorem head?_greedy_nil : (greedy p next []).head? = (next []).head?.map ([], ·) :=
  List.head?_map

theorem head?_greedy_cons_of_pos {c : Char} {cs : List Char} (hc : p c = true) :
    (greedy p next (c :: cs)).head? =
      ((greedy p next cs).head?.map fun (taken, a) => (c :: taken, a)).or
        ((next (c :: cs)).head?.map ([], ·)) := by
  rw [greedy, if_pos hc, List.head?_append, List.head?_map, List.head?_map]

theorem head?_greedy_cons_of_neg {c : Char} {cs : List Char} (hc : p c = false) :
    (greedy p next (c :: cs)).head? = (next (c :: cs)).head?.map ([], ·) := by
  rw [greedy, hc, if_neg Bool.false_ne_true, List.nil_append, List.head?_map]

/-- All characters are taken if no match goes on with one of them. -/
theorem head?_greedy_of_stops (hnext : ∀ c cs, p c = true → next (c :: cs) = []) (cs : List Char) :
    (greedy p next cs).head? = (next (cs.dropWhile p)).head?.map (cs.takeWhile p, ·) := by
  induction cs with
  | nil => exact head?_greedy_nil
  | cons c cs ih =>
    cases hc : p c with
    | true =>
      rw [head?_greedy_cons_of_pos hc, hnext c cs hc, ih, List.dropWhile_cons_of_pos hc,
        List.takeWhile_cons_of_pos hc, List.head?_nil, Option.map_none, Option.or_none,
        Option.map_map]
      rfl
    | false =>
      have hneg : ¬ p c = true := by simp [hc]
      rw [head?_greedy_cons_of_neg hc, List.dropWhile_cons_of_neg hneg,
        List.takeWhile_cons_of_neg hneg]

end Greedy

/-! ## The pattern of function type comments -/

namespace Function

/-- Blanks, and one line up to the end. -/
def resultPattern : Pattern := [.many Text.isBlank, .group (· ≠ '\n')]

/-- Blanks, an arrow, and the result. -/
def arrowPattern : Pattern :=
  .many Text.isBlank :: .char '-' :: .char '>' :: resultPattern

/-- One line, a closing parenthesis, and what the arrow points to. -/
def argumentsPattern : Pattern := .group (· ≠ '\n') :: .char ')' :: arrowPattern

/-- The pattern `^\((.*)\)\s*->\s*(.*)$`. -/
def commentPattern : Pattern := .char '(' :: argumentsPattern

theorem head?_greedy_line (cs : List Char) :
    (greedy (· ≠ '\n') (Pattern.matches []) cs).head? =
      if '\n' ∈ cs then none else some (cs, []) := by
  induction cs with
  | nil => rfl
  | cons c cs ih =>
    have hend : Pattern.matches [] (c :: cs) = [] := rfl
    by_cases hc : c = '\n'
    · rw [head?_greedy_cons_of_neg (by simp [hc]), hend, hc, if_pos List.mem_cons_self]
      rfl
    · rw [head?_greedy_cons_of_pos (by simp [hc]), hend, ih]
      by_cases hmem : '\n' ∈ cs
      · rw [if_pos hmem, if_pos (List.mem_cons_of_mem c hmem)]
        rfl
      · rw [if_neg hmem, if_neg (by simp [Ne.symm hc, hmem])]
        rfl

theorem head?_matches_line (cs : List Char) :
    (Pattern.matches [.group (· ≠ '\n')] cs).head? = if '\n' ∈ cs then none else some [cs] := by
  rw [Pattern.matches, List.head?_map, head?_greedy_line]
  split <;> rfl

/-- The blanks in front of the result are all taken first. Taking fewer does not help: a line feed
that follows them is in the way as well. -/
theorem head?_matches_result (cs : List Char) :
    (resultPattern.matches cs).head? =
      if '\n' ∈ cs.dropWhile Text.isBlank then none else some [cs.dropWhile Text.isBlank] := by
  rw [resultPattern, Pattern.matches, List.head?_map]
  induction cs with
  | nil => rfl
  | cons c cs ih =>
    cases hc : Text.isBlank c with
    | false =>
      rw [head?_greedy_cons_of_neg hc, List.dropWhile_cons_of_neg (by simp [hc]),
        head?_matches_line, Option.map_map]
      split <;> rfl
    | true =>
      rw [head?_greedy_cons_of_pos hc, List.dropWhile_cons_of_pos hc, head?_matches_line,
        Option.map_or, Option.map_map, Option.map_map]
      have hsnd : (fun (p : List Char × List (List Char)) => p.2) ∘
          (fun (p : List Char × List (List Char)) => (c :: p.1, p.2)) = (·.2) := rfl
      rw [hsnd, ih]
      split
      · rename_i hmem
        rw [if_pos (List.mem_cons_of_mem c ((List.dropWhile_sublist _).mem hmem))]
        rfl
      · rfl

/-- The arrow is no blank, so the blanks in front of it are all taken and none is given back. -/
theorem head?_matches_arrow (cs : List Char) :
    (arrowPattern.matches cs).head? = (commentResult cs).map ([·]) := by
  have hstop (c : Char) (cs : List Char) (hc : Text.isBlank c = true) :
      Pattern.matches (.char '-' :: .char '>' :: resultPattern) (c :: cs) = [] := by
    refine Pattern.matches_char_of_ne fun heq => ?_
    rw [heq] at hc
    exact absurd hc (by decide)
  rw [arrowPattern, Pattern.matches, List.head?_map, head?_greedy_of_stops hstop, Option.map_map]
  unfold commentResult
  split
  · rename_i rest hrest
    rw [hrest, Pattern.matches_char_self, Pattern.matches_char_self, head?_matches_result]
    dsimp only
    split <;> rfl
  · rename_i hnone
    have hempty : Pattern.matches (.char '-' :: .char '>' :: resultPattern)
        (cs.dropWhile Text.isBlank) = [] := by
      match cs.dropWhile Text.isBlank, hnone with
      | [], _ => rfl
      | [c], _ => exact ite_eq_right_iff.2 fun _ => rfl
      | c :: d :: ds, hnone =>
        by_cases hc : c = '-'
        · rw [hc, Pattern.matches_char_self]
          exact Pattern.matches_char_of_ne fun hd => hnone ds (by rw [hc, hd])
        · exact Pattern.matches_char_of_ne hc
    rw [hempty]
    rfl

theorem head?_matches_closing (c : Char) (cs : List Char) :
    (Pattern.matches (.char ')' :: arrowPattern) (c :: cs)).head? =
      if c = ')' then (commentResult cs).map ([·]) else none := by
  split
  · rename_i hc
    rw [hc, Pattern.matches_char_self, head?_matches_arrow]
  · rename_i hc
    rw [Pattern.matches_char_of_ne hc]
    rfl

/-- A closing parenthesis is where the arguments end only if no later one is. -/
theorem head?_greedy_arguments (cs : List Char) :
    (greedy (· ≠ '\n') (Pattern.matches (.char ')' :: arrowPattern)) cs).head? =
      (splitArguments cs).map fun (args, result) => (args, [result]) := by
  induction cs with
  | nil => rfl
  | cons c cs ih =>
    rw [splitArguments]
    by_cases hc : c = '\n'
    · rw [head?_greedy_cons_of_neg (by simp [hc]), if_pos hc, hc]
      rfl
    · rw [head?_greedy_cons_of_pos (by simp [hc]), if_neg hc, ih, head?_matches_closing]
      cases splitArguments cs with
      | some parts => rfl
      | none =>
        dsimp only
        split
        · rw [Option.map_none, Option.map_none, Option.none_or, Option.map_map, Option.map_map]
          rfl
        · rfl

/-- **Function type comments are split as their pattern says.** What `splitComment` gives are the
groups of the first match. -/
theorem head?_matches_comment (cs : List Char) :
    (commentPattern.matches cs).head? = (splitComment cs).map fun (args, result) =>
      [args, result] := by
  unfold splitComment
  split
  · rw [commentPattern, Pattern.matches_char_self, argumentsPattern, Pattern.matches,
      List.head?_map, head?_greedy_arguments, Option.map_map]
    rfl
  · rename_i hopen
    cases cs with
    | nil => rfl
    | cons c cs =>
      rw [commentPattern, Pattern.matches_char_of_ne fun hc => hopen cs (by rw [hc])]
      rfl

end Function

end TypeHints
