import RowDerive.Property
import Mathlib.Data.List.Basic

/-!
# What is wrong with properties

The properties of a record are read in one pass, with the keys seen so far at hand. There is nothing to
report exactly if each property can be stored and no two have the same key, which is said here without
the pass. Otherwise every property that cannot be stored is reported, and every one whose key is that of
an earlier one.
-/

namespace RowDerive

namespace Property

/-- A property is clean after others if its key is none of theirs and it can be stored. -/
theorem problems_eq_nil_iff {seen : List (String × String)} {p : Property} :
    p.problems seen = [] ↔ p.keyText ∉ seen.map Prod.fst ∧ p.isStorable := by
  have hlookup : seen.lookup p.keyText = none ↔ p.keyText ∉ seen.map Prod.fst := by
    rw [List.lookup_eq_none_iff]
    constructor
    · intro h hm
      obtain ⟨e, he, hk⟩ := List.mem_map.1 hm
      simpa [hk] using h e he
    · intro h e he
      have hne : p.keyText ≠ e.1 := fun hc => h (hc ▸ List.mem_map_of_mem he)
      simpa using hne
  cases hl : seen.lookup p.keyText with
  | none =>
      have hk : p.keyText ∉ seen.map Prod.fst := hlookup.1 hl
      rw [problems, hl]
      simp only [List.nil_append, ite_eq_left_iff, hk, not_false_eq_true, true_and]
      simp
  | some first =>
      have hk : ¬ p.keyText ∉ seen.map Prod.fst := fun hc => by simp [hlookup.2 hc] at hl
      rw [problems, hl]
      simp only [hk, false_and, List.cons_append, reduceCtorEq]

/-- Properties are clean if each can be stored and all keys are distinct, from each other and from those
seen before. -/
theorem listProblems_eq_nil_iff {seen : List (String × String)} {ps : List Property} :
    listProblems seen ps = [] ↔
      (∀ p ∈ ps, p.isStorable ∧ p.keyText ∉ seen.map Prod.fst) ∧ (ps.map keyText).Nodup := by
  induction ps generalizing seen with
  | nil => simp [listProblems]
  | cons p ps ih =>
      rw [listProblems, List.append_eq_nil_iff, problems_eq_nil_iff, ih]
      simp only [List.map_cons, List.mem_cons, List.nodup_cons, List.mem_map, not_or, not_exists,
        not_and]
      constructor
      · rintro ⟨⟨hk, hs⟩, hall, hnodup⟩
        refine ⟨?_, fun q hq => (hall q hq).2.1, hnodup⟩
        rintro q (rfl | hq)
        · exact ⟨hs, hk⟩
        · exact ⟨(hall q hq).1, (hall q hq).2.2⟩
      · rintro ⟨hall, hne, hnodup⟩
        obtain ⟨hs, hk⟩ := hall p (Or.inl rfl)
        refine ⟨⟨hk, hs⟩, fun q hq => ?_, hnodup⟩
        exact ⟨(hall q (Or.inr hq)).1, hne q hq, (hall q (Or.inr hq)).2⟩

/-- The properties of a record are those of its columns, if each can be stored and no two have the same
key. -/
theorem ofRecord_eq_ok_iff {r : Record} {ps : List Property} :
    ofRecord r = .ok ps ↔
      (∀ p ∈ ps, p.isStorable) ∧ (ps.map keyText).Nodup ∧ r.columns.map ofColumn = ps := by
  rw [ofRecord, Checked.ifClean_eq_ok_iff, listProblems_eq_nil_iff]
  constructor
  · rintro ⟨⟨hall, hnodup⟩, rfl⟩
    exact ⟨fun p hp => (hall p hp).1, hnodup, rfl⟩
  · rintro ⟨hall, hnodup, rfl⟩
    exact ⟨⟨fun p hp => ⟨hall p hp, by simp⟩, hnodup⟩, rfl⟩

/-! ## What is reported -/

/-- What of a property later ones are compared with: its key, and its name. -/
def entry (p : Property) : String × String := (p.keyText, p.name.text)

theorem listProblems_append (seen : List (String × String)) (ps qs : List Property) :
    listProblems seen (ps ++ qs) =
      listProblems seen ps ++ listProblems ((ps.map entry).reverse ++ seen) qs := by
  induction ps generalizing seen with
  | nil => rfl
  | cons p ps ih =>
      rw [List.cons_append, listProblems, ih, listProblems, List.append_assoc, List.map_cons,
        List.reverse_cons, List.append_assoc]
      rfl

theorem problems_subset_listProblems (before : List Property) (p : Property)
    (after : List Property) :
    p.problems (before.map entry).reverse ⊆ listProblems [] (before ++ p :: after) := by
  intro q hq
  rw [listProblems_append, List.append_nil]
  exact List.mem_append_right _ (List.mem_append_left _ hq)

/-- A property that cannot be stored is reported, whatever else is. -/
theorem unsupportedType_mem_listProblems {ps : List Property} {p : Property} (hp : p ∈ ps)
    (h : ¬ p.isStorable) : ⟨.unsupportedType p.name.text, p.ty.span⟩ ∈ listProblems [] ps := by
  obtain ⟨before, after, rfl⟩ := List.append_of_mem hp
  apply problems_subset_listProblems before p after
  rw [problems, if_neg h]
  exact List.mem_append_right _ (List.mem_singleton_self _)

/-- A property with the key of an earlier one is reported, whatever else is. Of the earlier ones with the
key the nearest is named. -/
theorem sharedKey_mem_listProblems {before after : List Property} {p : Property}
    (h : ∃ q ∈ before, q.keyText = p.keyText) :
    ∃ q ∈ before, q.keyText = p.keyText ∧
      ⟨.sharedKey p.keyText q.name.text, p.key.span⟩ ∈ listProblems [] (before ++ p :: after) := by
  cases hl : (before.map entry).reverse.lookup p.keyText with
  | none =>
      obtain ⟨q, hq, hkey⟩ := h
      have hmem : entry q ∈ (before.map entry).reverse :=
        List.mem_reverse.2 (List.mem_map_of_mem hq)
      have hne := List.lookup_eq_none_iff.1 hl _ hmem
      simp [entry, hkey] at hne
  | some first =>
      obtain ⟨l₁, l₂, hsplit, -⟩ := List.lookup_eq_some_iff.1 hl
      have hmem : (p.keyText, first) ∈ (before.map entry).reverse := by simp [hsplit]
      obtain ⟨q, hq, hentry⟩ := List.mem_map.1 (List.mem_reverse.1 hmem)
      obtain ⟨hkey, hname⟩ := Prod.mk.inj hentry
      refine ⟨q, hq, hkey, ?_⟩
      apply problems_subset_listProblems before p after
      rw [problems, hl, ← hname]
      exact List.mem_append_left _ (List.mem_singleton_self _)

end Property

end RowDerive
