import RowDerive.Proofs.Row.History
import RowDerive.Row.Register

/-!
# Rows follow their histories

A run on registers is described twice: by the rows that its steps leave, and by the histories that they
write down. A history is only ever extended, started anew or copied; what a step takes from another
register it takes from the history of that register. The two descriptions agree at all times, for every
register and every run.
-/

namespace RowDerive

/-! ## Histories in registers -/

/-- What happened to the rows, by the numbers of their registers. -/
abbrev Histories := Nat → History

namespace Histories

open Registers (Step)

/-- The history of the register that a step changes. -/
def result (hs : Histories) : Step → History
  | .new _ | .withCapacity _ _ => []
  | .put r k v => hs r ++ [.write k v]
  | .putNull r k => hs r ++ [.write k .null]
  | .merge r source => hs r ++ History.writes (hs source).entries
  | .erase r k => hs r ++ [.remove k]
  | .clear r => hs r ++ [.clear]
  | .copy _ source => hs source
  | .ofList _ es => History.writes es

/-- The histories after a step. -/
def apply (hs : Histories) (s : Step) : Histories := fun i =>
  if i = s.target then hs.result s else hs i

/-- The histories after a run. -/
def run (ss : List Step) : Histories := ss.foldl apply fun _ => []

end Histories

/-! ## Rows as entries -/

namespace Row

/-- What a history asks of a row. -/
structure Follows (row : Row) (h : History) : Prop where
  nodup : row.keys.Nodup
  /-- A column is there if the last event that bears on it wrote it. -/
  mem_keys_iff : ∀ k, k ∈ row.keys ↔ ∃ v, h.last? k = some (.write k v)
  /-- It holds what was written to it last. -/
  get?_eq_some_iff : ∀ k v, row.get? k = some v ↔ h.last? k = some (.write k v)
  /-- Each column was made present by one write, when it was absent last. -/
  born : ∀ k ∈ row.keys, ∃ i, h.Born k i
  /-- The columns come in the order of those writes. -/
  ordered : row.keys.Pairwise fun a b => ∀ i j, h.Born a i → h.Born b j → i < j
  /-- Writing to a column that is there moves none. -/
  keys_put : ∀ k ∈ row.keys, ∀ v, (row.put k v).keys = row.keys
  /-- Erasing a column keeps the others in their order. -/
  keys_erase : ∀ k, (row.erase k).keys = row.keys.filter (· ≠ k)
  /-- A column that is erased and written again goes to the end. -/
  keys_put_erase : ∀ k v, ((row.erase k).put k v).keys = row.keys.filter (· ≠ k) ++ [k]
  /-- The entries are the columns with their values. -/
  toList_eq : row.toList = row.keys.filterMap fun k => (row.get? k).map (k, ·)
  size_eq : row.size = row.toList.length
  isEmpty_iff : row.isEmpty ↔ row.toList = []
  contains_iff : ∀ k, row.contains k ↔ k ∈ row.keys

theorem keys_put_eq (row : Row) (k : String) (v : Value) :
    (row.put k v).keys = if k ∈ row.keys then row.keys else row.keys ++ [k] :=
  Entries.keys_put k v row.toList

theorem keys_erase_eq (row : Row) (k : String) : (row.erase k).keys = row.keys.filter (· ≠ k) := by
  have herase := Entries.keys_erase k row.toList
  rw [row.nodup_keys.erase_eq_filter] at herase
  exact herase.trans (List.filter_congr fun x _ => by by_cases hx : x = k <;> simp [hx])

/-- The entries of a row are its keys with what is found under them. -/
theorem toList_eq_filterMap (row : Row) :
    row.toList = row.keys.filterMap fun k => (row.get? k).map (k, ·) := by
  have hget : ∀ e ∈ row.toList, (row.get? e.1).map (e.1, ·) = some e := by
    intro e he
    rw [get?, (Entries.get?_eq_some_iff row.nodup_keys).2 he, Option.map_some]
  rw [keys, Entries.keys, List.filterMap_map]
  exact (List.filterMap_some.symm.trans (List.filterMap_congr fun e he => (hget e he).symm))

/-- A row with the entries of a history follows it. -/
theorem follows_of_toList_eq {row : Row} {h : History} (e : row.toList = h.entries) :
    row.Follows h := by
  have hkeys : row.keys = h.births := by rw [keys, e, History.keys_entries]
  have hget : ∀ k, row.get? k = h.value? k := fun k => by
    rw [get?, e, History.get?_entries]
  exact
    { nodup := row.nodup_keys
      mem_keys_iff := fun k => by rw [hkeys, History.mem_births_iff, History.present_iff]
      get?_eq_some_iff := fun k v => by rw [hget, History.value?_eq_some_iff]
      born := fun k hk => by rwa [hkeys, History.mem_births_iff_born] at hk
      ordered := hkeys ▸ History.pairwise_births h
      keys_put := fun k hk v => by rw [keys_put_eq, if_pos hk]
      keys_erase := keys_erase_eq row
      keys_put_erase := fun k v => by
        have habs : k ∉ (row.erase k).keys := by simp [keys_erase_eq]
        rw [keys_put_eq, if_neg habs, keys_erase_eq]
      toList_eq := toList_eq_filterMap row
      size_eq := rfl
      isEmpty_iff := List.isEmpty_iff
      contains_iff := fun k => Entries.isSome_get?_iff }

end Row

/-! ## Runs -/

namespace Registers

/-- A step changes entries as it changes histories. -/
theorem toList_result {regs : Registers} {hs : Histories}
    (h : ∀ i, (regs i).toList = (hs i).entries) (s : Step) :
    (s.result regs).toList = (hs.result s).entries := by
  cases s with
  | new r | withCapacity r n => rfl
  | put r k v =>
      rw [Step.result, Row.toList_put, h, Histories.result, History.entries_write]
  | putNull r k =>
      rw [Step.result, Row.putNull, Row.toList_put, h, Histories.result, History.entries_write]
  | merge r source =>
      rw [Step.result, Row.merge, Row.toList_putEntries, h, h, Histories.result,
        History.entries_append_writes]
  | erase r k =>
      rw [Step.result, Row.toList_erase, h, Histories.result, History.entries_remove]
  | clear r => exact (History.entries_clear (hs r)).symm
  | copy r source => exact h source
  | ofList r es =>
      have hwrites := History.entries_append_writes [] es
      rw [List.nil_append, History.entries_nil] at hwrites
      rw [Step.result, Row.ofList, Row.toList_putEntries, Histories.result, hwrites,
        Row.toList_empty]

theorem toList_apply {regs : Registers} {hs : Histories}
    (h : ∀ i, (regs i).toList = (hs i).entries) (s : Step) (i : Nat) :
    (apply regs s i).toList = (hs.apply s i).entries := by
  unfold apply Histories.apply
  split
  · exact toList_result h s
  · exact h i

/-- At the end of every run each row has the entries of its history. -/
theorem toList_run (ss : List Step) (i : Nat) : (run ss i).toList = (Histories.run ss i).entries := by
  have key : ∀ (ss : List Step) (regs : Registers) (hs : Histories),
      (∀ i, (regs i).toList = (hs i).entries) →
        ∀ i, (ss.foldl apply regs i).toList = (ss.foldl Histories.apply hs i).entries := by
    intro ss
    induction ss with
    | nil => intro regs hs h i; exact h i
    | cons s ss ih => intro regs hs h i; exact ih _ _ (toList_apply h s) i
  exact key ss start (fun _ => []) (fun _ => rfl) i

/-- Whatever is done to rows in registers, each follows its history. -/
theorem follows_run (ss : List Step) (r : Nat) : (run ss r).Follows (Histories.run ss r) :=
  Row.follows_of_toList_eq (toList_run ss r)

/-- A column that is erased and written again goes to the end, one that is only written again stays, and
what a merge brings comes after what was there. -/
example :
    (run [.put 0 "a" .null, .put 0 "b" .null, .put 1 "c" .null, .put 1 "b" (.bool true),
      .erase 0 "a", .put 0 "a" .null, .putNull 0 "b", .merge 0 1] 0).keys = ["b", "a", "c"] := by
  decide

end Registers

end RowDerive
