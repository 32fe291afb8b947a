import Mathlib.Data.List.Nodup

/-!
Lists without repetitions, and the first occurrences of a list.
-/

namespace ProcessChart

theorem nodup_eraseDups (ids : List String) : ids.eraseDups.Nodup := by
  induction h : ids.length using Nat.strongRecOn generalizing ids with
  | _ n ih =>
    cases ids with
    | nil => simp
    | cons a rest =>
      rw [List.eraseDups_cons, List.nodup_cons]
      refine ⟨by simp [List.mem_eraseDups], ?_⟩
      have hle := List.length_filter_le (fun b => !b == a) rest
      rw [List.length_cons] at h
      exact ih (rest.filter fun b => !b == a).length (by omega) _ rfl

theorem filter_ne_of_not_mem {ids : List String} {a : String} (h : a ∉ ids) :
    ids.filter (fun b => !b == a) = ids := by
  rw [List.filter_eq_self]
  intro b hb
  simpa using ne_of_mem_of_not_mem hb h

theorem eraseDups_of_nodup {ids : List String} (h : ids.Nodup) : ids.eraseDups = ids := by
  induction ids with
  | nil => rfl
  | cons a rest ih =>
    obtain ⟨hnew, hrest⟩ := List.nodup_cons.mp h
    rw [List.eraseDups_cons, filter_ne_of_not_mem hnew, ih hrest]

theorem eraseDups_concat (ids : List String) (x : String) :
    (ids ++ [x]).eraseDups = if x ∈ ids then ids.eraseDups else ids.eraseDups ++ [x] := by
  rw [List.eraseDups_append]
  split
  · next h => simp [List.removeAll, h]
  · next h => simp [List.removeAll, h, List.eraseDups_cons]

theorem count_eraseDups (x : String) (ids : List String) :
    ids.eraseDups.count x = if x ∈ ids then 1 else 0 := by
  rw [(nodup_eraseDups ids).count]
  simp only [List.mem_eraseDups]

/-- First occurrences stand in the order of the list, whichever of its items are kept. -/
theorem pairwise_idxOf_filter (ids : List String) (keep : String → Bool) :
    (ids.filter keep).eraseDups.Pairwise fun x y => ids.idxOf x < ids.idxOf y := by
  induction ids generalizing keep with
  | nil => simp
  | cons a rest ih =>
    -- Items other than the first one have the same order in the rest of the list.
    have hrest : ∀ keep' : String → Bool, keep' a = false →
        (rest.filter keep').eraseDups.Pairwise
          fun x y => (a :: rest).idxOf x < (a :: rest).idxOf y := by
      intro keep' ha
      have hne : ∀ z ∈ (rest.filter keep').eraseDups, a ≠ z := by
        rintro z hz rfl
        have hkept := (List.mem_filter.mp (List.mem_eraseDups.mp hz)).2
        rw [ha] at hkept
        exact absurd hkept Bool.false_ne_true
      refine (ih keep').imp_of_mem fun {x y} hx hy hlt => ?_
      rw [List.idxOf_cons_ne rest (hne x hx), List.idxOf_cons_ne rest (hne y hy)]
      exact Nat.succ_lt_succ hlt
    rw [List.filter_cons]
    split
    · rw [List.eraseDups_cons, List.filter_filter]
      refine List.pairwise_cons.mpr ⟨fun y hy => ?_, hrest _ (by simp)⟩
      have hne : a ≠ y := by
        rintro rfl
        simp [List.mem_eraseDups] at hy
      rw [List.idxOf_cons_self, List.idxOf_cons_ne rest hne]
      exact Nat.succ_pos _
    · next ha => exact hrest keep (Bool.eq_false_iff.mpr ha)

end ProcessChart
