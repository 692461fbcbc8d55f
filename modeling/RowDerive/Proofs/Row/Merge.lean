import RowDerive.Proofs.Row.Refinement

/-!
# Rows as a monoid

A row is known by the order of its columns and by the value under each, so what an operation does is said
by two laws: one for the keys, one for the look-up. By these, merging into a row that was written to last
is writing to the merged row, and all laws of merging follow from that one: it is associative and
idempotent with the empty row as its unit, and collecting pairs turns the joining of lists into it.
-/

namespace RowDerive

namespace Row

variable {a b c : Row}

/-! ## Keys and values -/

/-- Rows with the same columns in the same order and the same values under them are the same. -/
theorem eq_of_keys_of_get? (hkeys : a.keys = b.keys) (hget : ∀ k ∈ a.keys, a.get? k = b.get? k) :
    a = b := by
  refine Row.ext ?_
  rw [toList_eq_filterMap a, toList_eq_filterMap b, ← hkeys]
  exact List.filterMap_congr fun k hk => by rw [hget k hk]

theorem isSome_get?_iff (a : Row) (k : String) : (a.get? k).isSome ↔ k ∈ a.keys :=
  Entries.isSome_get?_iff

theorem get?_eq_some_iff_mem (a : Row) (k : String) (v : Value) :
    a.get? k = some v ↔ (k, v) ∈ a.toList :=
  Entries.get?_eq_some_iff a.nodup_keys

theorem get?_put (a : Row) (k k' : String) (v : Value) :
    (a.put k v).get? k' = if k = k' then some v else a.get? k' :=
  Entries.get?_put k k' v a.toList

theorem get?_erase (a : Row) (k k' : String) :
    (a.erase k).get? k' = if k = k' then none else a.get? k' :=
  Entries.get?_erase k k' a.nodup_keys

/-- The keys of entries that are put and new go to the end, in their order. -/
theorem keys_putEntries (a : Row) {es : Entries} (h : es.keys.Nodup) :
    (a.putEntries es).keys = a.keys ++ es.keys.filter (· ∉ a.keys) := by
  induction es generalizing a with
  | nil => simp
  | cons e es ih =>
      rw [Entries.keys_cons, List.nodup_cons] at h
      rw [putEntries_cons, ih (a.put e.1 e.2) h.2, keys_put_eq, Entries.keys_cons]
      by_cases he : e.1 ∈ a.keys
      · rw [if_pos he, List.filter_cons_of_neg (by simpa using he)]
      · have hrest : (Entries.keys es).filter (· ∉ a.keys ++ [e.1]) =
            (Entries.keys es).filter (· ∉ a.keys) := by
          refine List.filter_congr fun k hk => ?_
          have hne : k ≠ e.1 := fun hc => h.1 (hc ▸ hk)
          simp [hne]
        rw [if_neg he, List.filter_cons_of_pos (by simpa using he), hrest, List.append_assoc,
          List.singleton_append]

/-- Of entries that are put the values win. -/
theorem get?_putEntries (a : Row) {es : Entries} (h : es.keys.Nodup) (k : String) :
    (a.putEntries es).get? k = (Entries.get? k es).or (a.get? k) := by
  induction es generalizing a with
  | nil => rfl
  | cons e es ih =>
      obtain ⟨k', v⟩ := e
      rw [Entries.keys_cons, List.nodup_cons] at h
      rw [putEntries_cons, ih (a.put k' v) h.2, get?_put, Entries.get?]
      by_cases hk : k' = k
      · have hnone : Entries.get? k es = none := by
          rw [← Option.not_isSome_iff_eq_none, Entries.isSome_get?_iff]
          exact hk ▸ h.1
        rw [if_pos hk, if_pos hk, hnone, Option.none_or, Option.some_or]
      · rw [if_neg hk, if_neg hk]

theorem keys_merge (a b : Row) : (a.merge b).keys = a.keys ++ b.keys.filter (· ∉ a.keys) :=
  keys_putEntries a b.nodup_keys

theorem get?_merge (a b : Row) (k : String) : (a.merge b).get? k = (b.get? k).or (a.get? k) :=
  get?_putEntries a b.nodup_keys k

/-- Merging lists what was there in its order, with the new values, and then what is new in its order. -/
theorem toList_merge (a b : Row) :
    (a.merge b).toList =
      a.toList.map (fun e => (e.1, (b.get? e.1).getD e.2)) ++
        b.toList.filter fun e => e.1 ∉ a.keys := by
  have hold : a.keys.filterMap (fun k => ((a.merge b).get? k).map (k, ·)) =
      a.toList.map fun e => (e.1, (b.get? e.1).getD e.2) := by
    rw [keys, Entries.keys, List.filterMap_map, ← List.filterMap_eq_map]
    refine List.filterMap_congr fun e he => ?_
    have hget := (get?_eq_some_iff_mem a e.1 e.2).2 he
    rw [Function.comp_apply, Function.comp_apply, get?_merge, hget]
    cases b.get? e.1 <;> rfl
  have hnew : (b.keys.filter (· ∉ a.keys)).filterMap (fun k => ((a.merge b).get? k).map (k, ·)) =
      b.toList.filter fun e => e.1 ∉ a.keys := by
    rw [show b.keys = b.toList.map Prod.fst from rfl, List.filter_map, List.filterMap_map]
    refine (List.filterMap_congr fun e he => ?_).trans List.filterMap_some
    have hget := (get?_eq_some_iff_mem b e.1 e.2).2 (List.mem_filter.1 he).1
    rw [Function.comp_apply, get?_merge, hget]
    rfl
  rw [toList_eq_filterMap, keys_merge, List.filterMap_append, hold, hnew]

/-! ## Laws -/

/-- What is written to the second row before a merge may as well be written after it: in place if either
row has the column, and else at the end. -/
theorem merge_put (a b : Row) (k : String) (v : Value) :
    a.merge (b.put k v) = (a.merge b).put k v := by
  refine eq_of_keys_of_get? ?_ fun k' _ => ?_
  · rw [keys_put_eq, keys_merge, keys_merge, keys_put_eq]
    by_cases hb : k ∈ b.keys
    · have hmem : k ∈ a.keys ++ b.keys.filter (· ∉ a.keys) := by
        by_cases ha : k ∈ a.keys <;> simp [ha, hb]
      rw [if_pos hb, if_pos hmem]
    · by_cases ha : k ∈ a.keys <;> simp [ha, hb]
  · rw [get?_put, get?_merge, get?_merge, get?_put]
    split <;> rfl

theorem merge_putEntries (a b : Row) (es : Entries) :
    a.merge (b.putEntries es) = (a.merge b).putEntries es := by
  induction es generalizing b with
  | nil => rfl
  | cons e es ih => rw [putEntries_cons, putEntries_cons, ih, merge_put]

theorem putEntries_append (a : Row) (xs ys : Entries) :
    a.putEntries (xs ++ ys) = (a.putEntries xs).putEntries ys := List.foldl_append

/-- Collecting the entries of a row gives the row. -/
theorem ofList_toList (a : Row) : ofList a.toList = a := Row.ext (toList_ofList a.nodup_keys)

theorem merge_assoc (a b c : Row) : (a.merge b).merge c = a.merge (b.merge c) :=
  (merge_putEntries a b c.toList).symm

theorem merge_self (a : Row) : a.merge a = a := by
  refine eq_of_keys_of_get? ?_ fun k _ => ?_
  · rw [keys_merge, List.filter_eq_nil_iff.2 (by simp), List.append_nil]
  · rw [get?_merge, Option.or_self]

/-- Merging is a monoid with the empty row as its unit in which every row is idempotent; it lists the
columns of the first row in their places and the new ones behind them, with the values of the second row.
Collecting pairs, of which several may have the same key, is a homomorphism into it from lists, with the
entries of a row as a section. -/
theorem merge_laws :
    (∀ a b c : Row, (a.merge b).merge c = a.merge (b.merge c)) ∧
      (∀ a : Row, empty.merge a = a ∧ a.merge empty = a) ∧
      (∀ a b : Row, (a.merge b).merge b = a.merge b ∧ a.merge a = a) ∧
      (∀ a b : Row, (a.merge b).toList =
        a.toList.map (fun e => (e.1, (b.get? e.1).getD e.2)) ++
          b.toList.filter fun e => e.1 ∉ a.keys) ∧
      (∀ xs ys : Entries, ofList (xs ++ ys) = (ofList xs).merge (ofList ys)) ∧
      (∀ a : Row, ofList a.toList = a) := by
  refine ⟨merge_assoc, fun a => ⟨ofList_toList a, rfl⟩, fun a b => ⟨?_, merge_self a⟩, toList_merge,
    fun xs ys => ?_, ofList_toList⟩
  · rw [merge_assoc, merge_self]
  · calc ofList (xs ++ ys) = (ofList xs).putEntries ys := putEntries_append empty xs ys
      _ = (ofList xs).merge (ofList ys) := (merge_putEntries (ofList xs) empty ys).symm

/-- Positions are those of the first writer and values those of the last. -/
example :
    (ofList ([("a", .null), ("b", .bool true)] ++ [("c", .null), ("a", .bool false)])).toList =
      [("a", .bool false), ("b", .bool true), ("c", .null)] := by
  decide

end Row

end RowDerive
