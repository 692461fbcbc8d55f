import RowDerive.Proofs.Property.Extraction
import RowDerive.Proofs.Record.ColumnKey
import RowDerive.Proofs.Derive.Acceptance
import Mathlib.Data.List.Induction

/-!
# What is reported of columns, in order

The properties of a record are read in one pass with a table of the keys seen so far. What the pass
reports is said here without the table: column by column, by the columns before. A column is blamed
once if an earlier one has its key, and the nearest such column is named; it is blamed once more if there
is no way to put it into a row. `Reported` is that rule, read from the end of the columns, and the run of
the pass follows it by induction on their number.
-/

namespace RowDerive

namespace Column

/-! ## The rule -/

/-- What is reported of the key of a column after the columns `before`. -/
inductive KeyReported (before : List Column) (c : Column) : List Report → Prop
  | fresh (h : ∀ d ∈ before, d.keyText ≠ c.keyText) : KeyReported before c []
  /-- Of the earlier columns with the key, `d` is the nearest. -/
  | shared {front back : List Column} {d : Column} (h : before = front ++ d :: back)
      (hd : d.keyText = c.keyText) (hback : ∀ e ∈ back, e.keyText ≠ c.keyText) :
      KeyReported before c [⟨.sharedKey c.keyText d.name.val.text, c.keySpan⟩]

/-- What is reported of the type of a column. -/
inductive TypeReported (c : Column) : List Report → Prop
  | storable (h : c.Storable) : TypeReported c []
  | unsupported (h : ¬ c.Storable) :
      TypeReported c [⟨.unsupportedType c.name.val.text, c.ty.span⟩]

/-- What is reported of columns, one after the other: of each its key first, then its type. -/
inductive Reported : List Column → List Report → Prop
  | nil : Reported [] []
  | concat {cs : List Column} {c : Column} {rs ks ts : List Report} (h : Reported cs rs)
      (hk : KeyReported cs c ks) (ht : TypeReported c ts) : Reported (cs ++ [c]) (rs ++ (ks ++ ts))

end Column

/-- Whether the report blames a column for sharing the key. -/
def Report.sharesKey (key : String) (q : Report) : Bool :=
  match q.val with
  | .sharedKey k _ => k == key
  | _ => false

namespace Column

variable {cs : List Column} {c : Column} {rs : List Report}

/-! ## How often a key is blamed -/

theorem TypeReported.countP_sharesKey (h : TypeReported c rs) (key : String) :
    rs.countP (Report.sharesKey key) = 0 := by
  cases h <;> rfl

/-- A column is blamed for its key once, if there is an earlier one with it. -/
theorem KeyReported.countP_sharesKey (h : KeyReported cs c rs) (key : String) :
    rs.countP (Report.sharesKey key) =
      if c.keyText = key ∧ 0 < cs.countP (·.keyText = key) then 1 else 0 := by
  cases h with
  | fresh hfresh =>
      have hnone : ¬ (c.keyText = key ∧ 0 < cs.countP (·.keyText = key)) := by
        rintro ⟨rfl, hpos⟩
        obtain ⟨d, hd, hkey⟩ := List.countP_pos_iff.1 hpos
        exact hfresh d hd (by simpa using hkey)
      rw [if_neg hnone, List.countP_nil]
  | @shared front back d hsplit hd hback =>
      by_cases hkey : c.keyText = key
      · have hmem : d ∈ cs := by simp [hsplit]
        have hpos : 0 < cs.countP (·.keyText = key) :=
          List.countP_pos_iff.2 ⟨d, hmem, by simp [hd, hkey]⟩
        simp [Report.sharesKey, hkey, hpos]
      · simp [Report.sharesKey, hkey]

/-- Of the columns with one key all but the first are blamed for it. -/
theorem Reported.countP_sharesKey (h : Reported cs rs) (key : String) :
    rs.countP (Report.sharesKey key) = cs.countP (·.keyText = key) - 1 := by
  induction h with
  | nil => rfl
  | @concat cs c rs ks ts _ hk ht ih =>
      rw [List.countP_append, List.countP_append, ih, hk.countP_sharesKey, ht.countP_sharesKey,
        List.countP_append, List.countP_singleton]
      by_cases hkey : c.keyText = key
      · simp only [hkey, true_and, decide_true, if_true]
        split <;> omega
      · simp only [hkey, false_and, decide_false, if_false, Bool.false_eq_true]
        omega

/-! ## The run of the pass -/

/-- What the pass knows after the columns: their keys and names, the nearest first. -/
def seen (cs : List Column) : List (String × String) :=
  ((cs.map Property.ofColumn).map Property.entry).reverse

theorem seen_concat (cs : List Column) (c : Column) :
    seen (cs ++ [c]) = (c.keyText, c.name.val.text) :: seen cs := by
  have hentry : (Property.ofColumn c).entry = (c.keyText, c.name.val.text) := rfl
  simp [seen, hentry]

theorem lookup_seen_eq_none {key : String} (h : ∀ d ∈ cs, d.keyText ≠ key) :
    (seen cs).lookup key = none := by
  rw [List.lookup_eq_none_iff]
  intro e he
  obtain ⟨p, hp, rfl⟩ := List.mem_map.1 (List.mem_reverse.1 he)
  obtain ⟨d, hd, rfl⟩ := List.mem_map.1 hp
  simpa [Property.entry, keyText] using (h d hd).symm

/-- What is known of a key is what was known before the later columns without it. -/
theorem lookup_seen_append {front back : List Column} {key : String}
    (h : ∀ e ∈ back, e.keyText ≠ key) :
    (seen (front ++ back)).lookup key = (seen front).lookup key := by
  have hsplit : seen (front ++ back) = seen back ++ seen front := by simp [seen]
  rw [hsplit, List.lookup_append, lookup_seen_eq_none h, Option.none_or]

theorem lookup_seen_shared {front back : List Column} {d : Column}
    (h : ∀ e ∈ back, e.keyText ≠ d.keyText) :
    (seen (front ++ d :: back)).lookup d.keyText = some d.name.val.text := by
  rw [List.append_cons, lookup_seen_append h, seen_concat, List.lookup_cons_self]

/-- Of the columns before, either none has a given key or one of them is the nearest that has it. -/
theorem nearest (cs : List Column) (key : String) :
    (∀ d ∈ cs, d.keyText ≠ key) ∨ ∃ front d back,
      cs = front ++ d :: back ∧ d.keyText = key ∧ ∀ e ∈ back, e.keyText ≠ key := by
  induction cs using List.reverseRecOn with
  | nil => exact Or.inl fun d hd => nomatch hd
  | append_singleton cs c ih =>
      by_cases hkey : c.keyText = key
      · exact Or.inr ⟨cs, c, [], rfl, hkey, fun e he => nomatch he⟩
      · rcases ih with hnone | ⟨front, d, back, rfl, hd, hback⟩
        · refine Or.inl fun d hd => ?_
          rcases List.mem_append.1 hd with hd | hd
          · exact hnone d hd
          · rwa [List.mem_singleton.1 hd]
        · refine Or.inr ⟨front, d, back ++ [c], by simp, hd, fun e he => ?_⟩
          rcases List.mem_append.1 he with he | he
          · exact hback e he
          · rwa [List.mem_singleton.1 he]

/-- What the pass finds wrong with a column is what is reported of its key, then of its type. -/
theorem problems_ofColumn {ks ts : List Report} (hk : KeyReported cs c ks) (ht : TypeReported c ts) :
    (Property.ofColumn c).problems (seen cs) = ks ++ ts := by
  have htype : (if (Property.ofColumn c).isStorable = true then []
      else [(⟨.unsupportedType c.name.val.text, c.ty.span⟩ : Report)]) = ts := by
    cases ht with
    | storable hs => exact if_pos (Property.isStorable_ofColumn_iff.2 hs)
    | unsupported hs => exact if_neg (mt Property.isStorable_ofColumn_iff.1 hs)
  cases hk with
  | fresh hfresh =>
      have hlookup : (seen cs).lookup (Property.ofColumn c).keyText = none := lookup_seen_eq_none hfresh
      rw [Property.problems, hlookup]
      exact htype
  | @shared front back d hsplit hd hback =>
      have hlookup : (seen cs).lookup (Property.ofColumn c).keyText = some d.name.val.text := by
        rw [hsplit, ← keyText, ← hd, lookup_seen_shared (hd ▸ hback)]
      rw [Property.problems, hlookup]
      exact congrArg _ htype

theorem exists_keyReported (cs : List Column) (c : Column) : ∃ ks, KeyReported cs c ks := by
  rcases nearest cs c.keyText with hnone | ⟨front, d, back, hsplit, hd, hback⟩
  · exact ⟨_, .fresh hnone⟩
  · exact ⟨_, .shared hsplit hd hback⟩

theorem exists_typeReported (c : Column) : ∃ ts, TypeReported c ts := by
  by_cases hs : c.Storable
  · exact ⟨_, .storable hs⟩
  · exact ⟨_, .unsupported hs⟩

theorem listProblems_concat (cs : List Column) (c : Column) :
    Property.listProblems [] ((cs ++ [c]).map .ofColumn) =
      Property.listProblems [] (cs.map .ofColumn) ++ (Property.ofColumn c).problems (seen cs) := by
  rw [List.map_append, Property.listProblems_append, List.append_nil]
  simp [Property.listProblems, seen]

/-- The pass reports what the rule says, and the rule says nothing else. -/
theorem reported_iff : Reported cs rs ↔ rs = Property.listProblems [] (cs.map .ofColumn) := by
  constructor
  · intro h
    induction h with
    | nil => rfl
    | concat _ hk ht ih => rw [listProblems_concat, ← ih, problems_ofColumn hk ht]
  · rintro rfl
    induction cs using List.reverseRecOn with
    | nil => exact .nil
    | append_singleton cs c ih =>
        obtain ⟨ks, hk⟩ := exists_keyReported cs c
        obtain ⟨ts, ht⟩ := exists_typeReported c
        rw [listProblems_concat, problems_ofColumn hk ht]
        exact .concat ih hk ht

end Column

/-! ## The properties of a record -/

namespace Property

/-- The property of a column stands for it: it has its name, its key, its type and its adapter, and its
key stands where that of the column does. -/
structure StandsFor (p : Property) (c : Column) : Prop where
  name : p.name = c.name.val
  keyText : p.keyText = c.keyText
  keySpan : p.key.span = c.keySpan
  ty : p.ty = c.ty
  adapter : p.adapter = c.setting.adapter

theorem standsFor_ofColumn (c : Column) : (ofColumn c).StandsFor c := ⟨rfl, rfl, rfl, rfl, rfl⟩

variable {r : Record} {rs : List Report}

/-- All that is reported of a record is what the rule for columns says. -/
theorem ofRecord_eq_error_iff :
    ofRecord r = .error rs ↔ rs ≠ [] ∧ Column.Reported r.columns rs := by
  rw [ofRecord, Checked.ifClean_eq_error_iff, Column.reported_iff]
  constructor
  · rintro ⟨hne, rfl⟩
    exact ⟨hne, rfl⟩
  · rintro ⟨hne, rfl⟩
    exact ⟨hne, rfl⟩

/-- Properties are read if no two columns have the same key and each can be put into a row. -/
theorem exists_ofRecord_iff :
    (∃ ps, ofRecord r = .ok ps) ↔
      (r.columns.map Column.keyText).Nodup ∧ ∀ c ∈ r.columns, c.Storable := by
  have hkeys : (r.columns.map ofColumn).map keyText = r.columns.map Column.keyText := List.map_map
  constructor
  · rintro ⟨ps, hps⟩
    obtain ⟨hstorable, hnodup, rfl⟩ := ofRecord_eq_ok_iff.1 hps
    refine ⟨hkeys ▸ hnodup, fun c hc => ?_⟩
    exact isStorable_ofColumn_iff.1 (hstorable _ (List.mem_map_of_mem hc))
  · rintro ⟨hnodup, hstorable⟩
    refine ⟨r.columns.map ofColumn, ofRecord_eq_ok_iff.2 ⟨fun p hp => ?_, ?_, rfl⟩⟩
    · obtain ⟨c, hc, rfl⟩ := List.mem_map.1 hp
      exact isStorable_ofColumn_iff.2 (hstorable c hc)
    · rwa [hkeys]

/-- The properties that are read stand for the columns, in their order. -/
theorem forall₂_standsFor {ps : List Property} (h : ofRecord r = .ok ps) :
    List.Forall₂ StandsFor ps r.columns := by
  obtain ⟨-, -, rfl⟩ := ofRecord_eq_ok_iff.1 h
  rw [List.forall₂_map_left_iff, List.forall₂_same]
  exact fun c _ => standsFor_ofColumn c

/-- None of a declared record has an empty key. -/
theorem keyText_ne_empty {ps : List Property} (h : ofRecord r = .ok ps) {i : Item}
    (hi : Record.ofItem i = .ok r) {p : Property} (hp : p ∈ ps) : p.keyText ≠ "" := by
  obtain ⟨-, -, rfl⟩ := ofRecord_eq_ok_iff.1 h
  obtain ⟨c, hc, rfl⟩ := List.mem_map.1 hp
  exact Record.keyText_ne_empty hi hc

/-- Properties are read of a record if no two of its columns have the same key and each can be put into a
row. Then there is one for each column, in their order, and of a declared record none has an empty key.
Otherwise all that is reported is what the rule for columns says, in their order. Of columns with one
key all but one are blamed for it. -/
theorem ofRecord_told (r : Record) :
    (∀ c ∈ r.columns, c.KeyedBy c.keyText c.keySpan) ∧
      ((∃ ps, ofRecord r = .ok ps) ↔
          (r.columns.map Column.keyText).Nodup ∧ ∀ c ∈ r.columns, c.Storable) ∧
      (∀ ps, ofRecord r = .ok ps →
        List.Forall₂ StandsFor ps r.columns ∧
          ∀ i, Record.ofItem i = .ok r → ∀ p ∈ ps, p.keyText ≠ "") ∧
      (∀ rs, ofRecord r = .error rs ↔ rs ≠ [] ∧ Column.Reported r.columns rs) ∧
      ∀ rs, ofRecord r = .error rs → ∀ key,
        rs.countP (Report.sharesKey key) = r.columns.countP (·.keyText = key) - 1 := by
  refine ⟨fun c _ => c.keyedBy, exists_ofRecord_iff, fun ps hps => ?_, fun rs => ofRecord_eq_error_iff,
    fun rs hrs key => ?_⟩
  · exact ⟨forall₂_standsFor hps, fun i hi p hp => keyText_ne_empty hps hi hp⟩
  · exact (ofRecord_eq_error_iff.1 hrs).2.countP_sharesKey key

/-- A declaration with one key three times, written differently, and a type that is not supported. -/
def sharedSource : String :=
  "struct S \x7b #[column(name = \"a\")] x: i32, a: u64, #[column(name = \"\\x61\")] y: i32 \x7d"

/-- The second field and the third are blamed for the key, each beside the field before it. -/
theorem ofRecord_told_shared :
    ∃ i r rs, Item.ofText? sharedSource = some i ∧ Record.ofItem i = .ok r ∧
      ofRecord r = .error rs ∧ Column.Reported r.columns rs ∧
      rs.map Located.val = [.sharedKey "a" "x", .unsupportedType "a", .sharedKey "a" "a"] ∧
      rs.countP (Report.sharesKey "a") = r.columns.countP (·.keyText = "a") - 1 := by
  have hcheck : (Item.ofText? sharedSource).any fun i => (Record.ofItem i).toOption.any fun r =>
      (ofRecord r).reports.map Located.val =
        [.sharedKey "a" "x", .unsupportedType "a", .sharedKey "a" "a"] := by decide +kernel
  obtain ⟨i, hi, hcheck⟩ := (Option.any_eq_true _ _).1 hcheck
  obtain ⟨r, hr, hcheck⟩ := (Option.any_eq_true _ _).1 hcheck
  have hproblems := of_decide_eq_true hcheck
  obtain ⟨-, -, -, herror, hcount⟩ := ofRecord_told r
  cases hrs : ofRecord r with
  | ok ps =>
      rw [hrs] at hproblems
      cases hproblems
  | error rs =>
      rw [hrs] at hproblems
      have hr := eq_ok_of_toOption hr
      exact ⟨i, r, rs, hi, hr, hrs, ((herror rs).1 hrs).2, hproblems, hcount rs hrs "a"⟩

end Property

end RowDerive
