import InstanceTables.Distinct
import Mathlib.Data.List.Induction
import Mathlib.Data.List.Nodup

/-!
# Laws of first occurrences

`distinct` keeps the first occurrence of each element, so its result holds every element
once.  What is put behind a list adds to the result and changes nothing in it.

A list that is made from another one, element by element, may be made from the first occurrences
of that instead (`distinct_flatMap_distinct`): a copy of an element brings nothing that the
element itself has not brought before.  So nothing is lost if each part has no repetition and the
parts of different elements have nothing in common.

The proofs go along `distinct_cons`, for which `distinct_induction` is the principle.  Only the
order of the result is followed from the other end: one more element behind a list moves none of
the places in it.  The elements and their order are all that there is to say of the result
(`firstOccurrences_iff`).
-/

namespace InstanceTables

variable {α β : Type} [DecidableEq α] [Hashable α] [DecidableEq β] [Hashable β]

omit [Hashable α] in
/-- What is to be shown of a list may be assumed of its tail without the copies of its head. -/
theorem distinct_induction {P : List α → Prop} (nil : P [])
    (cons : ∀ a l, P (l.filter fun b => !b == a) → P (a :: l)) : ∀ l, P l
  | [] => nil
  | a :: l => cons a l (distinct_induction nil cons _)
termination_by l => l.length
decreasing_by exact Nat.lt_succ_of_le (List.length_filter_le _ _)

/-- No element is listed twice. -/
theorem nodup_distinct (l : List α) : (distinct l).Nodup := by
  induction l using distinct_induction with
  | nil => exact List.nodup_nil
  | cons a l ih =>
    rw [distinct_cons, List.nodup_cons]
    exact ⟨by simp, ih⟩

/-- A list without repetition is left as it is. -/
theorem distinct_of_nodup {l : List α} (h : l.Nodup) : distinct l = l := by
  induction l with
  | nil => rfl
  | cons a l ih =>
    obtain ⟨ha, hl⟩ := List.nodup_cons.1 h
    have hfilter : (l.filter fun b => !b == a) = l :=
      List.filter_eq_self.2 fun b hb => by simpa using fun hba : b = a => ha (hba ▸ hb)
    rw [distinct_cons, hfilter, ih hl]

theorem distinct_distinct (l : List α) : distinct (distinct l) = distinct l :=
  distinct_of_nodup (nodup_distinct l)

theorem distinct_eq_nil_iff {l : List α} : distinct l = [] ↔ l = [] := by
  simp only [List.eq_nil_iff_forall_not_mem, mem_distinct]

/-- Elements may be left out before or after. -/
theorem distinct_filter (p : α → Bool) (l : List α) :
    distinct (l.filter p) = (distinct l).filter p := by
  induction l using distinct_induction with
  | nil => rfl
  | cons a l ih =>
    rw [List.filter_comm] at ih
    rw [distinct_cons]
    by_cases ha : p a
    · rw [List.filter_cons_of_pos ha, List.filter_cons_of_pos ha, distinct_cons, ih]
    · have hne : ((l.filter p).filter fun b => !b == a) = l.filter p := by
        refine List.filter_eq_self.2 fun b hb => ?_
        rw [Bool.not_eq_true', beq_eq_false_iff_ne]
        rintro rfl
        exact ha (List.mem_filter.1 hb).2
      rw [List.filter_cons_of_neg ha, List.filter_cons_of_neg ha, ← ih, hne]

theorem distinct_removeAll (l m : List α) : distinct (l.removeAll m) = (distinct l).removeAll m :=
  distinct_filter _ _

/-! ## Lists put behind each other -/

/-- What comes later adds the elements that have not come up before. -/
theorem distinct_append (l l' : List α) :
    distinct (l ++ l') = distinct l ++ distinct (l'.removeAll l) := by
  simp only [distinct_eq_eraseDups, List.eraseDups_append]

/-- The first occurrences in the beginning of a list are the first of those in the list. -/
theorem prefix_distinct {l l' : List α} (h : l <+: l') : distinct l <+: distinct l' := by
  obtain ⟨rest, rfl⟩ := h
  rw [distinct_append]
  exact List.prefix_append _ _

/-- What has come up before adds nothing. -/
theorem distinct_append_of_subset {l l' : List α} (h : l' ⊆ l) :
    distinct (l ++ l') = distinct l := by
  have hremove : l'.removeAll l = [] :=
    List.filter_eq_nil_iff.2 fun a ha => by simpa using h ha
  rw [distinct_append, hremove, distinct_nil, List.append_nil]

/-- Going through a list again adds nothing. -/
theorem distinct_flatMap_const {ι : Type} {is : List ι} (h : is ≠ []) (l : List α) :
    distinct (is.flatMap fun _ => l) = distinct l := by
  obtain ⟨i, is, rfl⟩ := List.exists_cons_of_ne_nil h
  refine distinct_append_of_subset fun a ha => ?_
  obtain ⟨-, -, ha⟩ := List.mem_flatMap.1 ha
  exact ha

/-- What has come up before adds nothing, and it takes nothing from what comes behind it. -/
theorem distinct_append_append_of_subset {l l' : List α} (h : l' ⊆ l) (l'' : List α) :
    distinct (l ++ l' ++ l'') = distinct (l ++ l'') := by
  have hnew : (l' ++ l'').removeAll l = l''.removeAll l := by
    have hremove : l'.removeAll l = [] :=
      List.filter_eq_nil_iff.2 fun a ha => by simpa using h ha
    rw [List.removeAll, List.filter_append]
    exact congrArg (· ++ _) hremove
  rw [List.append_assoc, distinct_append, distinct_append, hnew]

/-- Lists that have nothing in common take nothing from each other. -/
theorem distinct_append_of_disjoint {l l' : List α} (h : l.Disjoint l') :
    distinct (l ++ l') = distinct l ++ distinct l' := by
  have hremove : l'.removeAll l = l' :=
    List.filter_eq_self.2 fun b hb => by simpa using fun hbl : b ∈ l => h hbl hb
  rw [distinct_append, hremove]

/-- Of two lists without repetition, only what they have in common is lost, and from the second
one. -/
theorem distinct_append_of_nodup {l l' : List α} (h : l.Nodup) (h' : l'.Nodup) :
    distinct (l ++ l') = l ++ l'.filter fun a => a ∉ l := by
  have hremove : l'.removeAll l = l'.filter fun a => a ∉ l :=
    List.filter_congr fun a _ => by simp
  rw [distinct_append, distinct_of_nodup h, distinct_removeAll, distinct_of_nodup h', hremove]

omit [Hashable α] in
/-- What two lists without repetition have in common can be counted in either of them. -/
theorem countP_mem_comm {l l' : List α} (h : l.Nodup) (h' : l'.Nodup) :
    l.countP (· ∈ l') = l'.countP (· ∈ l) := by
  have hperm : (l.filter (· ∈ l')).Perm (l'.filter (· ∈ l)) := by
    rw [List.perm_ext_iff_of_nodup (h.filter _) (h'.filter _)]
    intro a
    simp only [List.mem_filter, decide_eq_true_eq]
    exact and_comm
  rw [List.countP_eq_length_filter, List.countP_eq_length_filter]
  exact hperm.length_eq

theorem length_distinct_append_of_nodup {l l' : List α} (h : l.Nodup) (h' : l'.Nodup) :
    (distinct (l ++ l')).length + l.countP (· ∈ l') = l.length + l'.length := by
  have hsplit := List.length_eq_countP_add_countP (fun a => decide (a ∈ l)) (l := l')
  simp only [decide_eq_true_eq] at hsplit
  rw [distinct_append_of_nodup h h', List.length_append, ← List.countP_eq_length_filter,
    countP_mem_comm h h']
  omega

/-- Parts that have nothing in common take nothing from each other. -/
theorem distinct_flatMap_of_disjoint {ι : Type} {f : ι → List α} {is : List ι}
    (h : is.Pairwise fun i j => (f i).Disjoint (f j)) :
    distinct (is.flatMap f) = is.flatMap fun i => distinct (f i) := by
  induction is with
  | nil => rfl
  | cons i is ih =>
    obtain ⟨hi, his⟩ := List.pairwise_cons.1 h
    have hdisjoint : (f i).Disjoint (is.flatMap f) := by
      intro a ha hrest
      obtain ⟨j, hj, haj⟩ := List.mem_flatMap.1 hrest
      exact hi j hj ha haj
    rw [List.flatMap_cons, List.flatMap_cons, distinct_append_of_disjoint hdisjoint, ih his]

/-! ## Lists made from other lists -/

omit [DecidableEq α] [Hashable α] [DecidableEq β] [Hashable β] in
/-- Elements that bring nothing may be left out. -/
theorem flatMap_filter_of_nil {p : α → Bool} {f : α → List β} {l : List α}
    (h : ∀ a, p a = false → f a = []) : (l.filter p).flatMap f = l.flatMap f := by
  induction l with
  | nil => rfl
  | cons a l ih =>
    by_cases ha : p a
    · rw [List.filter_cons_of_pos ha, List.flatMap_cons, List.flatMap_cons, ih]
    · rw [List.filter_cons_of_neg ha, List.flatMap_cons, h a (by simpa using ha), List.nil_append,
        ih]

/-- Copies of an element bring nothing new. -/
theorem distinct_flatMap_distinct (f : α → List β) (l : List α) :
    distinct ((distinct l).flatMap f) = distinct (l.flatMap f) := by
  induction l using distinct_induction with
  | nil => rfl
  | cons a l ih =>
    have hcopies : ((l.filter fun b => !b == a).flatMap f).removeAll (f a) =
        (l.flatMap f).removeAll (f a) := by
      rw [List.removeAll, List.removeAll, List.filter_flatMap, List.filter_flatMap]
      refine flatMap_filter_of_nil fun b hb => ?_
      obtain rfl : b = a := by simpa using hb
      simp
    rw [distinct_cons, List.flatMap_cons, List.flatMap_cons, distinct_append, distinct_append,
      ← hcopies, distinct_removeAll, distinct_removeAll, ih]

/-- If parts without repetition have nothing in common, only the copies of parts are lost. -/
theorem distinct_flatMap_of_nodup {f : α → List β} {l : List α}
    (h : ((distinct l).flatMap f).Nodup) : distinct (l.flatMap f) = (distinct l).flatMap f := by
  rw [← distinct_flatMap_distinct, distinct_of_nodup h]

theorem distinct_map_distinct (f : α → β) (l : List α) :
    distinct ((distinct l).map f) = distinct (l.map f) := by
  rw [List.map_eq_flatMap, List.map_eq_flatMap, distinct_flatMap_distinct]

/-- If different elements of the list bring different ones, only the copies are lost. -/
theorem distinct_map_of_injOn {f : α → β} {l : List α}
    (hf : ∀ a ∈ l, ∀ b ∈ l, f a = f b → a = b) : distinct (l.map f) = (distinct l).map f := by
  have hnodup : ((distinct l).map f).Nodup :=
    (nodup_distinct l).map_on fun a ha b hb => hf a (mem_distinct.1 ha) b (mem_distinct.1 hb)
  rw [← distinct_map_distinct, distinct_of_nodup hnodup]

theorem distinct_map_of_injective {f : α → β} (hf : Function.Injective f) (l : List α) :
    distinct (l.map f) = (distinct l).map f :=
  distinct_map_of_injOn fun _ _ _ _ h => hf h

/-- Of all combinations with the elements of a list, only those with copies are lost. -/
theorem distinct_combinations {ι : Type} {f : ι → α → β} (hf : Function.Injective2 f)
    {is : List ι} (his : is.Nodup) (l : List α) :
    distinct (is.flatMap fun i => l.map (f i)) = is.flatMap fun i => (distinct l).map (f i) := by
  have hdisjoint : is.Pairwise fun i j => (l.map (f i)).Disjoint (l.map (f j)) := by
    refine his.imp fun hij x hx hx' => hij ?_
    obtain ⟨a, -, rfl⟩ := List.mem_map.1 hx
    obtain ⟨b, -, hb⟩ := List.mem_map.1 hx'
    exact (hf hb).1.symm
  rw [distinct_flatMap_of_disjoint hdisjoint]
  exact List.flatMap_congr fun i _ => distinct_map_of_injective (hf.right i) l

omit [DecidableEq α] [Hashable α] [DecidableEq β] [Hashable β] in
/-- Of all combinations, those with `i` are the ones that show it. -/
theorem filter_combinations {ι : Type} [DecidableEq ι] {f : ι → α → β} {key : β → ι}
    (hkey : ∀ i a, key (f i a) = i) {is : List ι} (his : is.Nodup) {i : ι} (hi : i ∈ is)
    (l : List α) :
    (is.flatMap fun j => l.map (f j)).filter (fun b => key b = i) = l.map (f i) := by
  induction is with
  | nil => exact absurd hi List.not_mem_nil
  | cons j is ih =>
    obtain ⟨hj, his⟩ := List.nodup_cons.1 his
    rw [List.flatMap_cons, List.filter_append]
    rcases List.mem_cons.1 hi with rfl | hi
    · have hall : (l.map (f i)).filter (fun b => key b = i) = l.map (f i) := by
        simp [List.filter_eq_self, hkey]
      have hnone : (is.flatMap fun j => l.map (f j)).filter (fun b => key b = i) = [] := by
        rw [List.filter_eq_nil_iff]
        intro b hb
        obtain ⟨k, hk, hb⟩ := List.mem_flatMap.1 hb
        obtain ⟨a, -, rfl⟩ := List.mem_map.1 hb
        simpa [hkey] using ne_of_mem_of_not_mem hk hj
      rw [hall, hnone, List.append_nil]
    · have hnone : (l.map (f j)).filter (fun b => key b = i) = [] := by
        simp [List.filter_eq_nil_iff, hkey, (ne_of_mem_of_not_mem hi hj).symm]
      rw [hnone, ih his hi, List.nil_append]

/-! ## The order of the result -/

omit [Hashable α] in
/-- The list `u` has the elements of `l`, in the order of the places where each of them first
stands in `l`. -/
structure FirstOccurrences (l u : List α) : Prop where
  mem_iff : ∀ a, a ∈ u ↔ a ∈ l
  pairwise_idxOf : u.Pairwise fun a b => l.idxOf a < l.idxOf b

theorem pairwise_idxOf_distinct (l : List α) :
    (distinct l).Pairwise fun a b => l.idxOf a < l.idxOf b := by
  induction l using List.reverseRecOn with
  | nil => exact .nil
  | append_singleton l a ih =>
    have hbefore : (distinct l).Pairwise fun b c => (l ++ [a]).idxOf b < (l ++ [a]).idxOf c := by
      refine ih.imp_of_mem fun hb hc hlt => ?_
      rwa [List.idxOf_append_of_mem (mem_distinct.1 hb),
        List.idxOf_append_of_mem (mem_distinct.1 hc)]
    by_cases ha : a ∈ l
    · rwa [distinct_append_of_subset (by simpa using ha)]
    · have hsplit : distinct (l ++ [a]) = distinct l ++ [a] := by
        rw [distinct_append_of_disjoint (List.disjoint_singleton.2 ha),
          distinct_of_nodup (List.nodup_singleton a)]
      rw [hsplit, List.pairwise_append]
      refine ⟨hbefore, List.pairwise_singleton _ _, fun b hb c hc => ?_⟩
      obtain rfl := List.mem_singleton.1 hc
      have hb := mem_distinct.1 hb
      rw [List.idxOf_append_of_mem hb, List.idxOf_append_of_notMem ha]
      exact Nat.lt_add_right _ (List.idxOf_lt_length_of_mem hb)

/-- There is one list of the elements in the order of their first places. -/
theorem firstOccurrences_iff {l u : List α} : FirstOccurrences l u ↔ u = distinct l := by
  constructor
  · rintro ⟨hmem, hplaces⟩
    have hnodup : u.Nodup := hplaces.imp fun hlt => ne_of_apply_ne l.idxOf (Nat.ne_of_lt hlt)
    have hperm : u.Perm (distinct l) := by
      rw [List.perm_ext_iff_of_nodup hnodup (nodup_distinct l)]
      intro a
      rw [hmem, mem_distinct]
    exact hperm.eq_of_pairwise (fun a b _ _ hab hba => absurd hba (Nat.lt_asymm hab)) hplaces
      (pairwise_idxOf_distinct l)
  · rintro rfl
    exact ⟨fun _ => mem_distinct, pairwise_idxOf_distinct l⟩

/-- The laws of first occurrences.  No element is lost or listed twice, and the elements stand in
the order of their first places, which leaves one list only.  What is put behind a list adds its
own first occurrences as far as they are new.  A map may be followed by deduplication alone, and
if it keeps the elements apart it may as well come after it. -/
theorem distinct_laws (l m : List α) (f : α → β) :
    (∀ a, a ∈ distinct l ↔ a ∈ l) ∧ (distinct l).Nodup ∧
      (∀ u, FirstOccurrences l u ↔ u = distinct l) ∧
      distinct (l ++ m) = distinct l ++ (distinct m).filter (fun a => a ∉ l) ∧
      distinct ((distinct l).map f) = distinct (l.map f) ∧
      ((∀ a ∈ l, ∀ b ∈ l, f a = f b → a = b) → distinct (l.map f) = (distinct l).map f) := by
  have happend : distinct (l ++ m) = distinct l ++ (distinct m).filter fun a => a ∉ l := by
    rw [distinct_append, distinct_removeAll]
    refine congrArg _ (List.filter_congr fun a _ => ?_)
    simp
  exact ⟨fun _ => mem_distinct, nodup_distinct l, fun _ => firstOccurrences_iff, happend,
    distinct_map_distinct f l, distinct_map_of_injOn⟩

/-- Remainders keep the numbers of the first list apart, though not those of the second. -/
theorem distinct_laws_remainders :
    (∀ a ∈ [5, 2, 5, 3, 2], ∀ b ∈ [5, 2, 5, 3, 2], a % 4 = b % 4 → a = b) ∧
      FirstOccurrences [5, 2, 5, 3, 2] [5, 2, 3] ∧
      distinct ([5, 2, 5, 3, 2] ++ [9, 3, 1, 9]) = [5, 2, 3, 9, 1] ∧
      distinct ([5, 2, 5, 3, 2].map (· % 4)) = [1, 2, 3] := by
  have hapart : ∀ a ∈ [5, 2, 5, 3, 2], ∀ b ∈ [5, 2, 5, 3, 2], a % 4 = b % 4 → a = b := by
    decide
  have hfirst : distinct [5, 2, 5, 3, 2] = [5, 2, 3] := by
    rw [distinct_eq_eraseDups]
    decide
  have hlater : distinct [9, 3, 1, 9] = [9, 3, 1] := by
    rw [distinct_eq_eraseDups]
    decide
  obtain ⟨-, -, horder, happend, -, hmap⟩ :=
    distinct_laws [5, 2, 5, 3, 2] [9, 3, 1, 9] (· % 4)
  refine ⟨hapart, (horder _).2 hfirst.symm, ?_, ?_⟩
  · rw [happend, hfirst, hlater]
    decide
  · rw [hmap hapart, hfirst]
    decide

end InstanceTables
