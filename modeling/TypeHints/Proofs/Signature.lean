import TypeHints.Function
import TypeHints.Proofs.SortedMap

/-!
# Several changes to a signature

A run of `set` inserts all its types, and a run of `addLate` with new names puts all its members
at the end of the queue.
-/

namespace TypeHints

theorem LateHint.eq_or_mem_of_mem_enqueue {new l : LateHint} {queue : List LateHint}
    (h : l ∈ new.enqueue queue) : l = new ∨ l ∈ queue := by
  induction queue with
  | nil => exact .inl (List.mem_singleton.1 h)
  | cons old rest ih =>
    rw [LateHint.enqueue] at h
    split at h
    · exact (List.mem_cons.1 h).imp_right (List.mem_cons_of_mem _)
    · rcases List.mem_cons.1 h with rfl | h
      · exact .inr List.mem_cons_self
      · exact (ih h).imp_right (List.mem_cons_of_mem _)

/-- In a queue in which every name stands once, the new member takes the place of the one of its
name. -/
theorem LateHint.mem_enqueue_iff {new l : LateHint} {queue : List LateHint}
    (h : (queue.map (·.name)).Nodup) :
    l ∈ new.enqueue queue ↔ l = new ∨ (l ∈ queue ∧ l.name ≠ new.name) := by
  induction queue with
  | nil => simp [LateHint.enqueue]
  | cons old rest ih =>
    obtain ⟨hold, hrest⟩ := List.nodup_cons.1 h
    rw [LateHint.enqueue]
    by_cases hname : old.name = new.name
    · rw [if_pos hname, List.mem_cons, List.mem_cons]
      refine or_congr_right ?_
      constructor
      · intro hl
        -- no other member has the name
        exact ⟨.inr hl, fun heq => hold (List.mem_map.2 ⟨l, hl, heq.trans hname.symm⟩)⟩
      · rintro ⟨rfl | hl, hne⟩
        · exact absurd hname hne
        · exact hl
    · rw [if_neg hname, List.mem_cons, List.mem_cons, ih hrest]
      constructor
      · rintro (rfl | rfl | ⟨hl, hne⟩)
        · exact .inr ⟨.inl rfl, hname⟩
        · exact .inl rfl
        · exact .inr ⟨.inr hl, hne⟩
      · rintro (rfl | ⟨rfl | hl, hne⟩)
        · exact .inr (.inl rfl)
        · exact .inl rfl
        · exact .inr (.inr ⟨hl, hne⟩)

namespace Signature

/-- The signature with several types set. -/
def setAll (s : Signature) (types : List (String × Ty)) : Signature :=
  { s with annotations := s.annotations.insertAll types }

theorem foldl_set (s : Signature) (types : List (String × Ty)) :
    types.foldl (fun s (name, t) => s.set name t) s = s.setAll types := by
  induction types generalizing s with
  | nil => rfl
  | cons entry types ih => exact ih (s.set entry.1 entry.2)

theorem get?_setAll (s : Signature) {types : List (String × Ty)}
    (h : (types.map (·.1)).Nodup) (name : String) :
    (s.setAll types).get? name = (SortedMap.lookup name types).or (s.get? name) :=
  SortedMap.get?_insertAll _ h name

/-- Late annotations under new names are queued as they come. -/
theorem foldl_addLate (s : Signature) {late : List LateHint} (h : (late.map (·.name)).Nodup)
    (hnew : ∀ l ∈ late, ∀ queued ∈ s.late, queued.name ≠ l.name) :
    late.foldl addLate s = { s with late := s.late ++ late } := by
  induction late generalizing s with
  | nil => simp
  | cons l late ih =>
    obtain ⟨hl, hrest⟩ := List.nodup_cons.1 h
    have hadd : s.addLate l = { s with late := s.late ++ [l] } :=
      congrArg (fun queue => { s with late := queue })
        (LateHint.enqueue_of_forall_ne (hnew l List.mem_cons_self))
    rw [List.foldl_cons, hadd, ih _ hrest, List.append_assoc]
    · rfl
    · intro l' hl' queued hqueued
      rcases List.mem_append.1 hqueued with hqueued | hqueued
      · exact hnew l' (List.mem_cons_of_mem _ hl') queued hqueued
      · obtain rfl := List.mem_singleton.1 hqueued
        exact fun heq => hl (List.mem_map.2 ⟨l', hl', heq.symm⟩)

end Signature

namespace Function

/-- The function with several types set. -/
def setAll (f : Function) (types : List (String × Ty)) : Function := f.mapSignature (·.setAll types)

@[simp] theorem setAll_cons (f : Function) (entry : String × Ty) (types : List (String × Ty)) :
    f.setAll (entry :: types) = (f.mapSignature (·.set entry.1 entry.2)).setAll types := rfl

theorem setAll_append (f : Function) (types types' : List (String × Ty)) :
    f.setAll (types ++ types') = (f.setAll types).setAll types' := by
  induction types generalizing f with
  | nil => rfl
  | cons entry types ih => exact ih (f.mapSignature (·.set entry.1 entry.2))

end Function

end TypeHints
