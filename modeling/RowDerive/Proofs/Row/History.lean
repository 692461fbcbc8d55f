import RowDerive.Proofs.Row.Entries
import Mathlib.Data.List.Induction
import Mathlib.Data.List.Nodup

/-!
# Histories of rows

A history is what was done to the columns of a row, in the order of time, and nothing else: it knows
no positions and no entries. What a row has to look like is read off its history. A column is present
if the last event that bears on it wrote it, and then holds what that event wrote. Its place is given by
its *birth*, the write that made it present when it was last absent.

`History.entries` collects the columns of a history by birth. Each event does to it what the operation
of the same name does to entries: `entries_write`, `entries_remove` and `entries_clear`.
-/

namespace RowDerive

/-- What can happen to a row. -/
inductive Event where
  | write (k : String) (v : Value)
  | remove (k : String)
  | clear
deriving DecidableEq, Repr

namespace Event

/-- Whether the event bears on the column `k`. -/
def touches (k : String) : Event → Bool
  | write k' _ | remove k' => k' == k
  | clear => true

/-- What the event writes under `k`. -/
def written? (k : String) : Event → Option Value
  | write k' v => if k' = k then some v else none
  | remove _ | clear => none

theorem written?_of_not_touches {k : String} {e : Event} (h : ¬ e.touches k) :
    e.written? k = none := by
  cases e with
  | write k' v =>
      have hk : k' ≠ k := by simpa [touches] using h
      exact if_neg hk
  | remove _ | clear => rfl

end Event

/-- What happened to a row, in the order of time. -/
abbrev History := List Event

namespace History

variable {h : History} {k : String} {i j : Nat}

/-! ## Presence and values -/

/-- The last event that bears on the column `k`. -/
def last? (h : History) (k : String) : Option Event := h.reverse.find? (Event.touches k)

/-- What the last event that bears on the column `k` wrote there. -/
def value? (h : History) (k : String) : Option Value := (h.last? k).bind (Event.written? k)

/-- Whether the column `k` is there. -/
def Present (h : History) (k : String) : Prop := (h.value? k).isSome

instance (h : History) (k : String) : Decidable (h.Present k) :=
  inferInstanceAs (Decidable ((h.value? k).isSome = true))

theorem value?_eq_some_iff {v : Value} : h.value? k = some v ↔ h.last? k = some (.write k v) := by
  constructor
  · intro hv
    obtain ⟨e, he, hw⟩ := Option.bind_eq_some_iff.1 hv
    cases e with
    | write k' v' =>
        simp only [Event.written?, Option.ite_none_right_eq_some, Option.some.injEq] at hw
        obtain ⟨rfl, rfl⟩ := hw
        exact he
    | remove | clear => simp [Event.written?] at hw
  · intro hl
    simp [value?, hl, Event.written?]

theorem present_iff : h.Present k ↔ ∃ v, h.last? k = some (.write k v) := by
  simp only [Present, Option.isSome_iff_exists, value?_eq_some_iff]

@[simp] theorem value?_nil (k : String) : value? [] k = none := rfl

@[simp] theorem not_present_nil (k : String) : ¬ Present [] k := by simp [Present]

theorem value?_concat (h : History) (e : Event) (k : String) :
    value? (h ++ [e]) k = if e.touches k then e.written? k else h.value? k := by
  unfold value? last?
  rw [List.reverse_append, List.reverse_singleton, List.singleton_append, List.find?_cons]
  cases e.touches k with
  | false => rfl
  | true => rfl

theorem present_write (h : History) (k k' : String) (v : Value) :
    Present (h ++ [.write k v]) k' ↔ k' = k ∨ h.Present k' := by
  by_cases hk : k = k'
  · simp [Present, value?_concat, Event.touches, Event.written?, hk]
  · simp [Present, value?_concat, Event.touches, hk, Ne.symm hk]

theorem present_remove (h : History) (k k' : String) :
    Present (h ++ [.remove k]) k' ↔ k' ≠ k ∧ h.Present k' := by
  by_cases hk : k = k'
  · simp [Present, value?_concat, Event.touches, Event.written?, hk]
  · simp [Present, value?_concat, Event.touches, hk, Ne.symm hk]

theorem not_present_clear (h : History) (k : String) : ¬ Present (h ++ [.clear]) k := by
  simp [Present, value?_concat, Event.touches, Event.written?]

/-! ## Births -/

/-- The event number `i` wrote the column `k` when it was absent, and the column was there ever
since. -/
def Born (h : History) (k : String) (i : Nat) : Prop :=
  (h[i]?.bind (Event.written? k)).isSome ∧ ¬ Present (h.take i) k ∧
    ∀ j < h.length, i ≤ j → Present (h.take (j + 1)) k

instance (h : History) (k : String) (i : Nat) : Decidable (h.Born k i) :=
  inferInstanceAs (Decidable (_ ∧ _ ∧ _))

theorem Born.lt_length (hi : h.Born k i) : i < h.length := by
  by_contra hc
  have hw := hi.1
  rw [List.getElem?_eq_none (by omega)] at hw
  simp at hw

/-- A column is born once. -/
theorem Born.unique (hi : h.Born k i) (hj : h.Born k j) : i = j := by
  -- between its birth and now a column is never absent
  have key : ∀ {i j : Nat}, h.Born k i → h.Born k j → ¬ i < j := by
    intro i j hi hj hlt
    have hp := hi.2.2 (j - 1) (by have := hj.lt_length; omega) (by omega)
    rw [Nat.sub_add_cancel (by omega)] at hp
    exact hj.2.1 hp
  have h₁ := key hi hj
  have h₂ := key hj hi
  omega

/-- An event keeps the births of the columns that it leaves present. -/
theorem born_concat_of_lt {e : Event} (hi : i < h.length) :
    Born (h ++ [e]) k i ↔ h.Born k i ∧ Present (h ++ [e]) k := by
  have htake : ∀ n ≤ h.length, (h ++ [e]).take n = h.take n := fun n hn =>
    List.take_append_of_le_length hn
  have hlen : (h ++ [e]).length = h.length + 1 := by simp
  unfold Born
  rw [List.getElem?_append_left hi, htake i (by omega), hlen]
  constructor
  · rintro ⟨hw, ha, hp⟩
    refine ⟨⟨hw, ha, fun j hj hij => ?_⟩, ?_⟩
    · rw [← htake (j + 1) hj]
      exact hp j (by omega) hij
    · have hlast := hp h.length (by omega) (by omega)
      rwa [← hlen, List.take_length] at hlast
  · rintro ⟨⟨hw, ha, hp⟩, hlast⟩
    refine ⟨hw, ha, fun j hj hij => ?_⟩
    by_cases hj' : j < h.length
    · rw [htake (j + 1) (by omega)]
      exact hp j hj' hij
    · obtain rfl : j = h.length := by omega
      rwa [← hlen, List.take_length]

/-- The last event of a history gives birth to the column that it writes if that was absent. -/
theorem born_concat_length {e : Event} :
    Born (h ++ [e]) k h.length ↔ (e.written? k).isSome ∧ ¬ h.Present k := by
  have hlen : (h ++ [e]).length = h.length + 1 := by simp
  unfold Born
  rw [List.getElem?_concat_length, List.take_left, hlen]
  constructor
  · rintro ⟨hw, ha, -⟩
    exact ⟨hw, ha⟩
  · rintro ⟨hw, ha⟩
    refine ⟨hw, ha, fun j hj hij => ?_⟩
    obtain rfl : j = h.length := by omega
    rw [← hlen, List.take_length]
    have ht : e.touches k := by
      by_contra hc
      have hnone : e.written? k = none := Event.written?_of_not_touches hc
      simp [hnone] at hw
    rwa [Present, value?_concat, if_pos ht]

/-- The column that the event number `i` gave birth to. -/
def bornAt? (h : History) (i : Nat) : Option String :=
  match h[i]? with
  | some (.write k _) => if h.Born k i then some k else none
  | _ => none

theorem bornAt?_eq_some_iff : h.bornAt? i = some k ↔ h.Born k i := by
  constructor
  · intro hb
    unfold bornAt? at hb
    split at hb
    · next k' v hw =>
        split at hb
        · next hborn => exact Option.some.inj hb ▸ hborn
        · simp at hb
    · simp at hb
  · intro hb
    have hw := hb.1
    cases he : h[i]? with
    | none => simp [he] at hw
    | some e =>
        cases e with
        | write k' v =>
            obtain rfl : k' = k := by simpa [he, Event.written?] using hw
            simp [bornAt?, he, hb]
        | remove | clear => simp [he, Event.written?] at hw

/-- The columns that are there, in the order of their births. -/
def births (h : History) : List String := (List.range h.length).filterMap h.bornAt?

@[simp] theorem births_nil : births [] = [] := rfl

theorem mem_births_iff_born : k ∈ h.births ↔ ∃ i, h.Born k i := by
  simp only [births, List.mem_filterMap, List.mem_range, bornAt?_eq_some_iff]
  exact ⟨fun ⟨i, _, hi⟩ => ⟨i, hi⟩, fun ⟨i, hi⟩ => ⟨i, hi.lt_length, hi⟩⟩

/-- The columns come in the order of their births. -/
theorem pairwise_births (h : History) :
    h.births.Pairwise fun a b => ∀ i j, h.Born a i → h.Born b j → i < j := by
  rw [births, List.pairwise_filterMap]
  refine List.pairwise_lt_range.imp ?_
  intro i j hij a ha b hb i' j' ha' hb'
  rw [bornAt?_eq_some_iff] at ha hb
  rw [ha'.unique ha, hb'.unique hb]
  exact hij

/-- An event drops the columns that it makes absent, and adds the one that it gives birth to. -/
theorem births_concat (h : History) (e : Event) :
    births (h ++ [e]) =
      h.births.filter (fun k => Present (h ++ [e]) k) ++ (bornAt? (h ++ [e]) h.length).toList := by
  have hlen : (h ++ [e]).length = h.length + 1 := by simp
  rw [births, hlen, List.range_succ, List.filterMap_append, births, List.filter_filterMap]
  congr 1
  refine List.filterMap_congr fun i hi => ?_
  rw [List.mem_range] at hi
  ext k
  simp [bornAt?_eq_some_iff, Option.filter_eq_some_iff, born_concat_of_lt hi]

theorem bornAt?_write (h : History) (k : String) (v : Value) :
    bornAt? (h ++ [.write k v]) h.length = if h.Present k then none else some k := by
  simp [bornAt?, born_concat_length, Event.written?]

theorem births_write (h : History) (k : String) (v : Value) :
    births (h ++ [.write k v]) =
      h.births.filter (fun k' => k' = k ∨ h.Present k') ++ (if h.Present k then [] else [k]) := by
  rw [births_concat, bornAt?_write]
  simp only [present_write]
  split <;> simp

theorem births_remove (h : History) (k : String) :
    births (h ++ [.remove k]) = h.births.filter (fun k' => k' ≠ k ∧ h.Present k') := by
  rw [births_concat]
  simp [present_remove, bornAt?]

theorem births_clear (h : History) : births (h ++ [.clear]) = [] := by
  rw [births_concat]
  simp [not_present_clear, bornAt?]

/-- The columns that were born and live on are those that are present. -/
theorem mem_births_iff (h : History) (k : String) : k ∈ h.births ↔ h.Present k := by
  induction h using List.reverseRecOn with
  | nil => simp
  | append_singleton h e ih =>
      cases e with
      | write k' v =>
          rw [births_write, present_write, List.mem_append, List.mem_filter, ih]
          by_cases hkk : k = k'
          · subst hkk
            by_cases hk : Present h k
            · simp [hk]
            · simp [hk]
          · by_cases hk : Present h k'
            · simp [hk, hkk]
            · simp [hk, hkk]
      | remove k' => simp [births_remove, present_remove, ih]
      | clear => simp [births_clear, not_present_clear]

theorem nodup_births (h : History) : h.births.Nodup := by
  induction h using List.reverseRecOn with
  | nil => simp
  | append_singleton h e ih =>
      cases e with
      | write k v =>
          rw [births_write]
          by_cases hk : Present h k
          · simpa [hk] using ih.filter _
          · refine List.nodup_append.2 ⟨ih.filter _, by simp [hk], ?_⟩
            intro a ha b hb hab
            simp only [hk, if_false, List.mem_singleton] at hb
            rw [List.mem_filter, mem_births_iff, hab, hb] at ha
            exact hk ha.1
      | remove k => exact births_remove h k ▸ ih.filter _
      | clear => simp [births_clear]

/-! ## Entries -/

/-- The columns that are there with their values, in the order of their births. -/
def entries (h : History) : Entries := h.births.map fun k => (k, (h.value? k).getD .null)

@[simp] theorem entries_nil : entries [] = [] := rfl

@[simp] theorem keys_entries (h : History) : h.entries.keys = h.births := by
  simp [entries, Entries.keys, Function.comp_def]

theorem nodup_keys_entries (h : History) : h.entries.keys.Nodup := by
  rw [keys_entries]
  exact nodup_births h

theorem get?_entries (h : History) (k : String) : Entries.get? k h.entries = h.value? k := by
  rw [entries, Entries.get?_map]
  by_cases hk : h.Present k
  · obtain ⟨v, hv⟩ := Option.isSome_iff_exists.1 hk
    simp [mem_births_iff, hk, hv]
  · have hv : h.value? k = none := by simpa [Present] using hk
    simp [mem_births_iff, hk, hv]

/-- Columns that are there are not touched by a filter that keeps what is there. -/
theorem filter_births {p : String → Bool} (hp : ∀ k, h.Present k → p k) :
    h.births.filter p = h.births := by
  rw [List.filter_eq_self]
  exact fun k hk => hp k ((mem_births_iff h k).1 hk)

theorem entries_write (h : History) (k : String) (v : Value) :
    entries (h ++ [.write k v]) = h.entries.put k v := by
  have hfilter : h.births.filter (fun k' => k' = k ∨ h.Present k') = h.births :=
    filter_births fun k' hk' => by simp [hk']
  by_cases hk : h.Present k
  · have hmem : k ∈ h.entries.keys := by rwa [keys_entries, mem_births_iff]
    rw [Entries.put_of_mem v hmem (nodup_keys_entries h), entries, births_write, hfilter, entries]
    simp only [hk, if_true, List.append_nil, List.map_map]
    refine List.map_congr_left fun k' _ => ?_
    by_cases hkk : k' = k
    · simp [hkk, value?_concat, Event.touches, Event.written?]
    · simp [hkk, value?_concat, Event.touches, Ne.symm hkk]
  · have hmem : k ∉ h.entries.keys := by rwa [keys_entries, mem_births_iff]
    rw [Entries.put_of_notMem v hmem, entries, births_write, hfilter, entries]
    simp only [hk, if_false, List.map_append, List.map_singleton]
    congr 1
    · refine List.map_congr_left fun k' hk' => ?_
      have hkk : k' ≠ k := fun hc => hk (hc ▸ (mem_births_iff h k').1 hk')
      simp [value?_concat, Event.touches, Ne.symm hkk]
    · simp [value?_concat, Event.touches, Event.written?]

theorem entries_remove (h : History) (k : String) :
    entries (h ++ [.remove k]) = h.entries.erase k := by
  have hfilter : h.births.filter (fun k' => k' ≠ k ∧ h.Present k') = h.births.filter (· ≠ k) := by
    refine List.filter_congr fun k' hk' => ?_
    simp [(mem_births_iff h k').1 hk']
  rw [Entries.erase_eq_filter k (nodup_keys_entries h), entries, births_remove, hfilter, entries,
    List.filter_map]
  refine List.map_congr_left fun k' hk' => ?_
  have hkk : k' ≠ k := by simpa using (List.mem_filter.1 hk').2
  simp [value?_concat, Event.touches, Ne.symm hkk]

theorem entries_clear (h : History) : entries (h ++ [.clear]) = [] := by
  simp [entries, births_clear]

/-- The writes that put the entries of a list, in order. -/
def writes (es : Entries) : History := es.map fun e => .write e.1 e.2

/-- Writing entries one after the other puts them one after the other. -/
theorem entries_append_writes (h : History) (es : Entries) :
    entries (h ++ writes es) = es.foldl (fun acc e => acc.put e.1 e.2) h.entries := by
  induction es generalizing h with
  | nil => simp [writes]
  | cons e es ih =>
      have hsplit : h ++ writes (e :: es) = (h ++ [.write e.1 e.2]) ++ writes es := by
        simp [writes]
      rw [hsplit, ih, entries_write, List.foldl_cons]

end History

end RowDerive
