import RowDerive.Row.Basic
import Mathlib.Data.List.Nodup

/-!
# Laws of entries

What writing and erasing do to entries whose keys are distinct, seen in three ways: as lists, by the
keys, and by the value under each key.
-/

namespace RowDerive

namespace Entries

variable {k : String} {v : Value} {es : Entries}

theorem fst_mem_keys {e : String × Value} (he : e ∈ es) : e.1 ∈ keys es := List.mem_map_of_mem he

/-! ## As lists -/

/-- A column that is present is written to in its place. -/
theorem put_of_mem (v : Value) (hk : k ∈ keys es) (h : (keys es).Nodup) :
    put k v es = es.map fun e => if e.1 = k then (k, v) else e := by
  induction es with
  | nil => simp at hk
  | cons e es ih =>
      obtain ⟨k', v'⟩ := e
      rw [keys_cons, List.nodup_cons] at h
      by_cases hk' : k' = k
      · subst hk'
        have hrest : es.map (fun e => if e.1 = k' then (k', v) else e) = es := by
          rw [List.map_congr_left (g := id), List.map_id]
          intro e he
          have hmem := fst_mem_keys he
          have hne : e.1 ≠ k' := fun hc => h.1 (hc ▸ hmem)
          simp [hne]
        simp [put, hrest]
      · have hmem : k ∈ keys es := by
          rw [keys_cons, List.mem_cons] at hk
          exact hk.resolve_left fun hc => hk' hc.symm
        simp [put, hk', ih hmem h.2]

/-- A column that is absent is written at the end. -/
theorem put_of_notMem (v : Value) (hk : k ∉ keys es) : put k v es = es ++ [(k, v)] := by
  induction es with
  | nil => rfl
  | cons e es ih =>
      obtain ⟨k', v'⟩ := e
      rw [keys_cons, List.mem_cons, not_or] at hk
      simp [put, Ne.symm hk.1, ih hk.2]

/-- Erasing drops the column and leaves all others as they are. -/
theorem erase_eq_filter (k : String) (h : (keys es).Nodup) :
    erase k es = es.filter fun e => e.1 ≠ k := by
  induction es with
  | nil => rfl
  | cons e es ih =>
      obtain ⟨k', v'⟩ := e
      rw [keys_cons, List.nodup_cons] at h
      by_cases hk : k' = k
      · subst hk
        have hrest : es.filter (fun e => e.1 ≠ k') = es := by
          rw [List.filter_eq_self]
          intro e he
          have hmem := fst_mem_keys he
          have hne : e.1 ≠ k' := fun hc => h.1 (hc ▸ hmem)
          simp [hne]
        simpa [erase] using hrest.symm
      · simp [erase, hk, ih h.2]

/-! ## By key -/

theorem isSome_get?_iff : (get? k es).isSome ↔ k ∈ keys es := by
  induction es with
  | nil => simp [get?]
  | cons e es ih =>
      obtain ⟨k', v'⟩ := e
      by_cases hk : k' = k
      · simp [get?, hk]
      · simp [get?, hk, ih, Ne.symm hk]

/-- Where keys are distinct, an entry is found by its key. -/
theorem get?_eq_some_iff (h : (keys es).Nodup) : get? k es = some v ↔ (k, v) ∈ es := by
  induction es with
  | nil => simp [get?]
  | cons e es ih =>
      obtain ⟨k', v'⟩ := e
      rw [keys_cons, List.nodup_cons] at h
      by_cases hk : k' = k
      · subst hk
        have habs : (k', v) ∉ es := fun hc => by
          have hmem := fst_mem_keys hc
          exact h.1 hmem
        simp [get?, habs, eq_comm]
      · simp [get?, hk, ih h.2, Ne.symm hk]

theorem get?_put (k k' : String) (v : Value) (es : Entries) :
    get? k' (put k v es) = if k = k' then some v else get? k' es := by
  induction es with
  | nil => rfl
  | cons e es ih =>
      obtain ⟨k₀, v₀⟩ := e
      by_cases hk : k₀ = k
      · subst hk
        by_cases hk' : k₀ = k' <;> simp [put, get?, hk']
      · by_cases hk' : k₀ = k'
        · subst hk'
          simp [put, get?, hk, Ne.symm hk]
        · simp [put, get?, hk, hk', ih]

theorem get?_erase (k k' : String) {es : Entries} (h : (keys es).Nodup) :
    get? k' (erase k es) = if k = k' then none else get? k' es := by
  by_cases hk : k = k'
  · subst hk
    have habs : k ∉ keys (erase k es) := by
      rw [keys_erase]
      exact fun hmem => (h.mem_erase_iff.1 hmem).1 rfl
    rw [if_pos rfl, ← Option.not_isSome_iff_eq_none, isSome_get?_iff]
    exact habs
  · rw [if_neg hk]
    refine Option.ext fun v => ?_
    rw [get?_eq_some_iff (nodup_erase h), get?_eq_some_iff h, erase_eq_filter k h, List.mem_filter]
    simp [Ne.symm hk]

/-- The value under `k` of entries that are made of keys by `f`. -/
theorem get?_map (f : String → Value) (ks : List String) (k : String) :
    get? k (ks.map fun k => (k, f k)) = if k ∈ ks then some (f k) else none := by
  induction ks with
  | nil => rfl
  | cons k' ks ih =>
      by_cases hk : k' = k
      · simp [get?, hk]
      · simp [get?, hk, ih, Ne.symm hk]

/-- Entries with new keys, distinct from each other, are put at the end as they are. -/
theorem foldl_put_of_nodup {es es' : Entries} (h : (keys (es ++ es')).Nodup) :
    es'.foldl (fun acc e => put e.1 e.2 acc) es = es ++ es' := by
  induction es' generalizing es with
  | nil => rw [List.foldl_nil, List.append_nil]
  | cons e es' ih =>
      have hsplit : es ++ e :: es' = (es ++ [e]) ++ es' := by
        rw [List.append_assoc, List.singleton_append]
      have hk : e.1 ∉ keys es := by
        rw [keys_append, keys_cons] at h
        exact fun hc => (List.nodup_append.1 h).2.2 e.1 hc e.1 List.mem_cons_self rfl
      rw [List.foldl_cons, put_of_notMem e.2 hk, ih (hsplit ▸ h), hsplit]

end Entries

namespace Row

theorem toList_putEntries (row : Row) (es : Entries) :
    (row.putEntries es).toList = es.foldl (fun acc e => acc.put e.1 e.2) row.toList := by
  induction es generalizing row with
  | nil => rfl
  | cons e es ih => rw [putEntries_cons, ih, toList_put, List.foldl_cons]

/-- Entries with distinct keys are the row that is made of them. -/
theorem toList_ofList {es : Entries} (h : es.keys.Nodup) : (ofList es).toList = es := by
  rw [ofList, toList_putEntries, toList_empty, Entries.foldl_put_of_nodup, List.nil_append]
  rwa [List.nil_append]

end Row

end RowDerive
