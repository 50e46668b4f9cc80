import TypeHints.Proofs.Blank
import TypeHints.Proofs.Pattern
import TypeHints.Proofs.Reporting

/-!
# Where function type comments are split

A text may be `(args) -> result` in several ways, since parentheses and arrows may stand in both
parts. The split with the longest arguments is the one that counts, which is the first match of the
pattern, and apart from blanks it is unique (`Function.LongestSplit.unique`). Its parts are queued,
or the comment is reported and nothing else happens (`Function.attachComment_splits`). What a
comment was made of is found again unless a closing parenthesis and an arrow stand in its result.
-/

namespace TypeHints

open Text (isBlank trimChars)

/-! ## The queue -/

/-- How one more late annotation changes the queue: it takes the place of the first one of its name,
or goes to the end. -/
inductive LateHint.Queued (new : LateHint) : List LateHint → List LateHint → Prop
  | replaced {before after : List LateHint} {old : LateHint}
      (hfirst : ∀ l ∈ before, l.name ≠ new.name) (hname : old.name = new.name) :
      new.Queued (before ++ old :: after) (before ++ new :: after)
  | added {queue : List LateHint} (hnew : ∀ l ∈ queue, l.name ≠ new.name) :
      new.Queued queue (queue ++ [new])

theorem LateHint.enqueue_queued (new : LateHint) (queue : List LateHint) :
    new.Queued queue (new.enqueue queue) := by
  induction queue with
  | nil => exact .added fun _ hl => absurd hl List.not_mem_nil
  | cons old rest ih =>
    rw [enqueue]
    split
    · rename_i hname
      show new.Queued ([] ++ old :: rest) ([] ++ new :: rest)
      exact .replaced (fun _ hl => absurd hl List.not_mem_nil) hname
    · rename_i hname
      generalize new.enqueue rest = queue at ih ⊢
      cases ih with
      | replaced hfirst hold =>
        exact .replaced (List.forall_mem_cons.2 ⟨hname, hfirst⟩) hold
      | added hnew => exact .added (List.forall_mem_cons.2 ⟨hname, hnew⟩)

namespace Function

/-! ## Ways to split a text -/

/-- The text is `(args)`, an arrow and `result`, with blanks around the arrow. Both parts are one
line. -/
def Splits (cs args result : List Char) : Prop :=
  ∃ before after, cs = '(' :: (args ++ ')' :: (before ++ '-' :: '>' :: (after ++ result))) ∧
    (∀ c ∈ before, isBlank c = true) ∧ (∀ c ∈ after, isBlank c = true) ∧
    '\n' ∉ args ∧ '\n' ∉ result

/-- No other way to split the text has longer arguments. -/
structure LongestSplit (cs args result : List Char) : Prop where
  splits : Splits cs args result
  longest : ∀ args' result', Splits cs args' result' → args'.length ≤ args.length

theorem commentResult_of_arrow {before after result : List Char}
    (hbefore : ∀ c ∈ before, isBlank c = true) (hafter : ∀ c ∈ after, isBlank c = true)
    (hresult : '\n' ∉ result) :
    commentResult (before ++ '-' :: '>' :: (after ++ result)) =
      some (result.dropWhile isBlank) := by
  have harrow : (before ++ '-' :: '>' :: (after ++ result)).dropWhile isBlank =
      '-' :: '>' :: (after ++ result) := by
    rw [List.dropWhile_append_of_pos hbefore]
    rfl
  have hline : '\n' ∉ result.dropWhile isBlank :=
    fun h => hresult ((List.dropWhile_sublist _).mem h)
  unfold commentResult
  rw [harrow]
  simp only []
  rw [List.dropWhile_append_of_pos hafter, if_neg hline]

theorem exists_of_commentResult {cs result : List Char} (h : commentResult cs = some result) :
    ∃ before after, cs = before ++ '-' :: '>' :: (after ++ result) ∧
      (∀ c ∈ before, isBlank c = true) ∧ (∀ c ∈ after, isBlank c = true) ∧ '\n' ∉ result := by
  unfold commentResult at h
  split at h
  · rename_i rest hrest
    dsimp only at h
    split at h
    · cases h
    · rename_i hline
      obtain rfl := Option.some.inj h
      refine ⟨cs.takeWhile isBlank, rest.takeWhile isBlank, ?_, fun _ => List.mem_takeWhile_imp,
        fun _ => List.mem_takeWhile_imp, hline⟩
      rw [List.takeWhile_append_dropWhile, ← hrest, List.takeWhile_append_dropWhile]
  · cases h

/-- Any way to split the text leads to one with arguments at least as long. -/
theorem exists_splitArguments {args rest : List Char} (hargs : '\n' ∉ args)
    (hrest : (commentResult rest).isSome) :
    ∃ args' result, splitArguments (args ++ ')' :: rest) = some (args', result) ∧
      args.length ≤ args'.length := by
  induction args with
  | nil =>
    obtain ⟨result, hresult⟩ := Option.isSome_iff_exists.1 hrest
    rw [List.nil_append, splitArguments, if_neg (by decide)]
    cases splitArguments rest with
    | some parts => exact ⟨_, _, rfl, Nat.zero_le _⟩
    | none => exact ⟨[], result, by simp [hresult], Nat.le_refl _⟩
  | cons c args ih =>
    obtain ⟨hc, hargs⟩ := not_or.1 (mt List.mem_cons.2 hargs)
    obtain ⟨args', result, h, hle⟩ := ih hargs
    refine ⟨c :: args', result, ?_, Nat.succ_le_succ hle⟩
    rw [List.cons_append, splitArguments, if_neg (Ne.symm hc), h]

theorem Splits.exists_splitComment {cs args result : List Char} (h : Splits cs args result) :
    ∃ args' result', splitComment cs = some (args', result') ∧ args.length ≤ args'.length := by
  obtain ⟨before, after, rfl, hbefore, hafter, hargs, hresult⟩ := h
  exact exists_splitArguments hargs (by rw [commentResult_of_arrow hbefore hafter hresult]; rfl)

/-- The split that is used has the longest arguments. -/
theorem longestSplit_of_splitComment {cs args result : List Char}
    (h : splitComment cs = some (args, result)) : LongestSplit cs args result where
  splits := by
    unfold splitComment at h
    split at h
    · obtain ⟨rest, rfl, hrest, hargs⟩ := eq_append_of_splitArguments h
      obtain ⟨before, after, rfl, hbefore, hafter, hresult⟩ := exists_of_commentResult hrest
      exact ⟨before, after, rfl, hbefore, hafter, hargs, hresult⟩
    · cases h
  longest args' result' h' := by
    obtain ⟨_, _, h'', hle⟩ := h'.exists_splitComment
    rw [h] at h''
    cases h''
    exact hle

/-- There is one longest split, up to blanks in front of its result. -/
theorem LongestSplit.unique {cs args args' result result' : List Char}
    (h : LongestSplit cs args result) (h' : LongestSplit cs args' result') :
    args = args' ∧ trimChars result = trimChars result' := by
  have hlength : args.length = args'.length :=
    Nat.le_antisymm (h'.longest _ _ h.splits) (h.longest _ _ h'.splits)
  obtain ⟨before, after, hcs, hbefore, hafter, -, hresult⟩ := h.splits
  obtain ⟨before', after', hcs', hbefore', hafter', -, hresult'⟩ := h'.splits
  obtain ⟨hargs, hrest⟩ := List.append_inj (List.cons.inj (hcs.symm.trans hcs')).2 hlength
  have hsame := congrArg commentResult (List.cons.inj hrest).2
  rw [commentResult_of_arrow hbefore hafter hresult,
    commentResult_of_arrow hbefore' hafter' hresult'] at hsame
  exact ⟨hargs, Text.trimChars_eq_of_dropWhile (Option.some.inj hsame)⟩

/-! ## Comments made of two parts -/

/-- A closing parenthesis, blanks and an arrow stand somewhere in the text. -/
def HasClosingArrow (cs : List Char) : Prop :=
  ∃ front blanks back, cs = front ++ ')' :: (blanks ++ '-' :: '>' :: back) ∧
    ∀ c ∈ blanks, isBlank c = true

theorem HasClosingArrow.mono {cs ds : List Char} (h : HasClosingArrow cs) (hpre : cs <+: ds) :
    HasClosingArrow ds := by
  obtain ⟨front, blanks, back, rfl, hblanks⟩ := h
  obtain ⟨more, rfl⟩ := hpre
  exact ⟨front, blanks, back ++ more, by simp, hblanks⟩

/-- It stands behind whatever has no closing parenthesis. -/
theorem HasClosingArrow.of_append {cs ds : List Char} (h : HasClosingArrow (cs ++ ds))
    (hcs : ')' ∉ cs) : HasClosingArrow ds := by
  obtain ⟨front, blanks, back, heq, hblanks⟩ := h
  obtain ⟨t, hfront, hds⟩ | ⟨t, hcs', htail⟩ := List.append_eq_append_iff.1 heq
  · exact ⟨t, blanks, back, hds, hblanks⟩
  · cases t with
    | nil => exact ⟨[], blanks, back, htail.symm, hblanks⟩
    | cons c t =>
      obtain rfl := (List.cons.inj htail).1
      exact absurd (by simp [hcs']) hcs

/-- Longer arguments would need an arrow behind a parenthesis inside the result. -/
theorem Splits.longest {cs args result : List Char} (h : Splits cs args result)
    (hresult : ¬ HasClosingArrow result) : LongestSplit cs args result := by
  refine ⟨h, fun args' result' h' => ?_⟩
  obtain ⟨before, after, rfl, hbefore, hafter, -, -⟩ := h
  obtain ⟨before', after', heq, hbefore', -, -, -⟩ := h'
  obtain ⟨t, hargs', htail⟩ | ⟨t, hargs, -⟩ :=
    List.append_eq_append_iff.1 (List.cons.inj heq).2
  · cases t with
    | nil => exact (congrArg List.length (hargs'.trans args.append_nil)).le
    | cons c t =>
      have hpoints : HasClosingArrow ((before ++ ['-', '>'] ++ after) ++ result) :=
        ⟨t, before', after' ++ result', by simpa using (List.cons.inj htail).2, hbefore'⟩
      refine absurd (hpoints.of_append ?_) hresult
      have hblank : isBlank ')' = false := by decide
      simp [Text.not_mem_of_isBlank hblank hbefore, Text.not_mem_of_isBlank hblank hafter]
  · rw [hargs]
    simp

/-- Trimming a comment shortens its result by blanks. -/
theorem Splits.trim {cs args result : List Char} (h : Splits cs args result) :
    ∃ result', result' <+: result ∧ trimChars result' = trimChars result ∧
      Splits (trimChars cs) args result' := by
  obtain ⟨before, after, rfl, hbefore, hafter, hargs, hresult⟩ := h
  have hcs : '(' :: (args ++ ')' :: (before ++ '-' :: '>' :: (after ++ result))) =
      ('(' :: (args ++ ')' :: (before ++ ['-'])) ++ ['>']) ++ (after ++ result) := by simp
  have hhead : ∀ c ∈ ('(' :: (args ++ ')' :: (before ++ '-' :: '>' :: (after ++ result)))).head?,
      isBlank c = false := by
    rintro _ ⟨⟩
    decide
  obtain ⟨blanks, hblanks, htrim⟩ := Text.exists_trimChars_append hhead
  generalize trimChars _ = cs at htrim ⊢
  rw [hcs] at htrim
  -- the arrow is no blank, so what is cut off stands behind it
  obtain ⟨rest, rfl, hrest⟩ : ∃ rest,
      cs = '(' :: (args ++ ')' :: (before ++ ['-'])) ++ ['>'] ++ rest ∧
        after ++ result = rest ++ blanks := by
    obtain h | ⟨t, ht, hblanks'⟩ := List.append_eq_append_iff.1 htrim
    · exact h
    · obtain rfl | ⟨t, c, rfl⟩ := List.eq_nil_or_concat t
      · exact ⟨[], by rw [ht]; simp, hblanks'.symm⟩
      · rw [List.concat_eq_append, ← List.append_assoc] at ht
        obtain rfl : '>' = c := (List.cons.inj (List.append_inj' ht rfl).2).1
        exact absurd (hblanks '>' (by simp [hblanks'])) (by decide)
  obtain ⟨t, rfl, ht⟩ | ⟨t, ht, hblanks'⟩ := List.append_eq_append_iff.1 hrest
  · refine ⟨t, ht ▸ List.prefix_append _ _, ?_, before, after, by simp, hbefore, hafter, hargs, ?_⟩
    · rw [ht, Text.trimChars_append_of_isBlank hblanks]
    · exact fun hmem => hresult (ht ▸ List.mem_append_left _ hmem)
  · refine ⟨[], List.nil_prefix, (Text.trimChars_eq_nil fun c hc => ?_).symm, before, rest, by simp,
      hbefore, fun c hc => ?_, hargs, List.not_mem_nil⟩
    · exact hblanks c (hblanks' ▸ List.mem_append_right t hc)
    · exact hafter c (ht ▸ List.mem_append_left t hc)

/-! ## Attaching a comment -/

/-- How the two parts of a comment change the queue. -/
inductive QueuesParts (location : Location) (args result : String) :
    List LateHint → List LateHint → Prop
  | result {q q' : List LateHint} (hargs : args = "...")
      (h : (LateHint.ofText result returnName location).Queued q q') :
      QueuesParts location args result q q'
  | both {q q' q'' : List LateHint} (hargs : args ≠ "...")
      (h : (LateHint.ofText args argumentsName location).Queued q q')
      (h' : (LateHint.ofText result returnName location).Queued q' q'') :
      QueuesParts location args result q q''

theorem attachComment_of_split (f : Function) {comment : String} (location : Location)
    {args result : List Char} (h : splitComment (trimChars comment.toList) = some (args, result)) :
    ∃ queue, QueuesParts location (String.ofList (trimChars args))
        (String.ofList (trimChars result)) f.signature.late queue ∧
      Gives (f.attachComment comment location)
        (f.mapSignature fun s => { s with late := queue }) [] := by
  unfold attachComment
  simp only [h]
  by_cases hargs : String.ofList (trimChars args) = "..."
  · refine ⟨_, .result hargs (LateHint.enqueue_queued _ _), ?_⟩
    simp only [if_pos hargs]
    exact .pure _
  · refine ⟨_, .both hargs (LateHint.enqueue_queued _ _) (LateHint.enqueue_queued _ _), ?_⟩
    simp only [if_neg hargs]
    exact .pure _

theorem attachComment_of_not_split (f : Function) {comment : String} (location : Location)
    (h : splitComment (trimChars comment.toList) = none) :
    Gives (f.attachComment comment location) f
      [.invalidFunctionTypeComment location (Text.trim comment)
        (some "Expected a comment of the form '(args) -> return'")] := by
  unfold attachComment
  simp only [h]
  exact (Gives.report _).bind_then_silent (.pure _)

/-- **A function type comment is split at one place.** If the comment, without blanks at its ends,
can be split at all, it can be split so that the arguments are longest. Then its two parts, trimmed,
are queued one after the other, the arguments only if they are not `...`, and nothing else changes.
A comment that cannot be split is reported, and the function stays as it is. A comment made of two
parts is split into them again, up to blanks, unless an arrow stands behind a closing parenthesis
in the result. What it is split into are the groups of the first match of the pattern. -/
theorem attachComment_splits (f : Function) (comment : String) (location : Location) :
    let cs := trimChars comment.toList
    ((∃ args result, Splits cs args result) → ∃ args result, LongestSplit cs args result) ∧
    (∀ args result, LongestSplit cs args result → ∃ queue,
      QueuesParts location (String.ofList (trimChars args)) (String.ofList (trimChars result))
        f.signature.late queue ∧
      Gives (f.attachComment comment location)
        (f.mapSignature fun s => { s with late := queue }) []) ∧
    ((∀ args result, ¬ Splits cs args result) →
      Gives (f.attachComment comment location) f
        [.invalidFunctionTypeComment location (Text.trim comment)
          (some "Expected a comment of the form '(args) -> return'")]) ∧
    (∀ args result, Splits comment.toList args result → ¬ HasClosingArrow result →
      ∃ result', splitComment cs = some (args, result') ∧ trimChars result' = trimChars result) ∧
    (commentPattern.matches cs).head? = (splitComment cs).map fun (args, result) =>
      [args, result] := by
  intro cs
  refine ⟨?_, fun args result h => ?_, fun hnone => ?_, fun args result h hresult => ?_,
    head?_matches_comment cs⟩
  · rintro ⟨args, result, h⟩
    obtain ⟨args', result', hsplit, -⟩ := h.exists_splitComment
    exact ⟨args', result', longestSplit_of_splitComment hsplit⟩
  · obtain ⟨args', result', hsplit, -⟩ := h.splits.exists_splitComment
    obtain ⟨rfl, htrim⟩ := h.unique (longestSplit_of_splitComment hsplit)
    rw [htrim]
    exact f.attachComment_of_split location hsplit
  · have hsplit : splitComment cs = none := by
      by_contra hsome
      obtain ⟨⟨args, result⟩, h⟩ := Option.ne_none_iff_exists'.1 hsome
      exact hnone args result (longestSplit_of_splitComment h).splits
    exact f.attachComment_of_not_split location hsplit
  · obtain ⟨result', hpre, htrim, hsplits⟩ := h.trim
    have hlongest := hsplits.longest (mt (·.mono hpre) hresult)
    obtain ⟨args'', result'', hsplit, -⟩ := hsplits.exists_splitComment
    obtain ⟨rfl, htrim'⟩ := hlongest.unique (longestSplit_of_splitComment hsplit)
    exact ⟨result'', hsplit, htrim'.symm.trans htrim⟩

end Function

end TypeHints
