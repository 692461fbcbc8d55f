import RowDerive.Proofs.Column.SettingEntry
import RowDerive.Proofs.Parser.Shrinking
import RowDerive.Proofs.Record.MethodList
import Mathlib.Data.List.Induction

/-!
# Lists of settings

The arguments of an attribute of a column are settings parted by commas, each of another kind; a comma may
stand after the last. What is read of them are the settings as written, in whatever order they stand. If
they are no such list, what is reported is where the first setting fails, and nothing behind it matters to
that. Tokens that are left over between delimiters, though, are reported only where nothing else fails.
-/

namespace RowDerive

open RowDerive.Parser RowDerive.Grammar

namespace Setting

/-! ## Settings put together -/

/-- The settings one after the other, the later ones in the place of those before. -/
def ofEntries (xs : List Entry) : Setting := xs.foldl put none

/-- The settings are those written, and no others. -/
def Holds (s : Setting) (xs : List Entry) : Prop :=
  (∀ x, s.name = some x ↔ .name x ∈ xs) ∧ ∀ t, s.adapter = some t ↔ .adapter t ∈ xs

section

variable {s s' : Setting} {xs ys : List Entry} {k : Kind}

theorem has_put (s : Setting) (x : Entry) (k : Kind) :
    (s.put x).has k = (decide (x.kind = k) || s.has k) := by
  cases x <;> cases k <;> simp [put, has, Entry.kind]

/-- There is a setting of a kind if there was one before or one was added. -/
theorem has_foldl_put (s : Setting) (xs : List Entry) (k : Kind) :
    (xs.foldl put s).has k = true ↔ s.has k = true ∨ k ∈ xs.map Entry.kind := by
  induction xs generalizing s with
  | nil => simp
  | cons x xs ih =>
      rw [List.foldl_cons, ih, has_put, List.map_cons, List.mem_cons]
      simp only [Bool.or_eq_true, decide_eq_true_eq]
      grind

theorem has_ofEntries : (ofEntries xs).has k = true ↔ k ∈ xs.map Entry.kind := by
  rw [ofEntries, has_foldl_put]
  cases k <;> simp [none, has]

theorem has_ofEntries_eq_false : (ofEntries xs).has k = false ↔ k ∉ xs.map Entry.kind := by
  rw [Bool.eq_false_iff, ne_eq, has_ofEntries]

theorem ofEntries_append (xs : List Entry) (x : Entry) : ofEntries (xs ++ [x]) = (ofEntries xs).put x := by
  rw [ofEntries, List.foldl_append]
  rfl

/-- Of each kind there is one more, at the end. -/
theorem nodup_append {x : Entry} : ((xs ++ [x]).map Entry.kind).Nodup ↔
    (xs.map Entry.kind).Nodup ∧ (ofEntries xs).has x.kind = false := by
  rw [has_ofEntries_eq_false, List.map_append, List.map_singleton, List.nodup_append]
  simp

/-- A setting of a kind of which there was none replaces nothing. -/
theorem Holds.put {x : Entry} (h : s.Holds xs) (hx : s.has x.kind = false) :
    (s.put x).Holds (xs ++ [x]) := by
  obtain ⟨hname, hadapter⟩ := h
  cases x with
  | name y =>
      have hnone : ∀ z, .name z ∉ xs := fun z hz => by
        have hsome : s.name.isSome = true := by rw [(hname z).2 hz, Option.isSome_some]
        rw [show s.name.isSome = false from hx] at hsome
        cases hsome
      refine ⟨fun z => ?_, fun t => ?_⟩
      · simp [Setting.put, hnone, eq_comm]
      · simp [Setting.put, hadapter]
  | adapter t =>
      have hnone : ∀ u, .adapter u ∉ xs := fun u hu => by
        have hsome : s.adapter.isSome = true := by rw [(hadapter u).2 hu, Option.isSome_some]
        rw [show s.adapter.isSome = false from hx] at hsome
        cases hsome
      refine ⟨fun z => ?_, fun u => ?_⟩
      · simp [Setting.put, hname]
      · simp [Setting.put, hnone, eq_comm]

theorem holds_ofEntries (h : (xs.map Entry.kind).Nodup) : (ofEntries xs).Holds xs := by
  induction xs using List.reverseRecOn with
  | nil => simp [Holds, ofEntries, none]
  | append_singleton xs x ih =>
      obtain ⟨hxs, hx⟩ := nodup_append.1 h
      rw [ofEntries_append]
      exact (ih hxs).put hx

theorem Holds.eq (h : s.Holds xs) (h' : s'.Holds xs) : s = s' := by
  obtain ⟨hname, hadapter⟩ := h
  obtain ⟨hname', hadapter'⟩ := h'
  have hnames : s.name = s'.name := Option.ext fun x => (hname x).trans (hname' x).symm
  have hadapters : s.adapter = s'.adapter := Option.ext fun t => (hadapter t).trans (hadapter' t).symm
  cases s
  cases s'
  simp_all

theorem Holds.perm (h : s.Holds xs) (hxs : xs.Perm ys) : s.Holds ys :=
  ⟨fun x => (h.1 x).trans hxs.mem_iff, fun t => (h.2 t).trans hxs.mem_iff⟩

end

/-! ## Lists as they stand -/

/-- Settings stand one after the other from the first cursor on, each with a comma behind it, and the
second cursor is behind them. -/
inductive Leads (ρ : Rules) : Cursor → List Entry → Cursor → Prop
  | nil {c : Cursor} : Leads ρ c [] c
  | cons {c d e f : Cursor} {x : Entry} {xs : List Entry} {joint : Bool} {a : Span} (hx : Stands ρ c x d)
    (hcomma : d.Next (.punct ',' joint a) e) (hxs : Leads ρ e xs f) : Leads ρ c (x :: xs) f

/-- The tokens from the first cursor on are settings parted by commas: none, or with a comma behind the
last, or with none there. The second cursor is at their end. -/
inductive Lists (ρ : Rules) (c : Cursor) : List Entry → Cursor → Prop
  | closed {d : Cursor} {xs : List Entry} (h : Leads ρ c xs d) (hd : d.rest = []) : Lists ρ c xs d
  | opened {d e : Cursor} {xs : List Entry} {x : Entry} (h : Leads ρ c xs d) (hx : Stands ρ d x e)
    (he : e.rest = []) : Lists ρ c (xs ++ [x]) e

/-- At the cursor, where something stands, there is no setting that could be added to `s`, or behind it
there is neither a comma nor the end; and that is what is reported. -/
inductive Stuck (ρ : Rules) (s : Setting) (c : Cursor) : Report → Prop
  | entry {r : Report} (hc : c.rest ≠ []) (h : Fails ρ s c r) : Stuck ρ s c r
  | comma {d : Cursor} {x : Entry} {e : SyntaxError} (hx : Stands ρ c x d) (hs : s.has x.kind = false)
    (hd : d.rest ≠ []) (h : discard (op ",") d = .error e) : Stuck ρ s c (.ofSyntax e)

end Setting

theorem Cursor.Next.rest_ne_nil {c d : Cursor} {t : Token} (h : c.Next t d) : c.rest ≠ [] := by
  obtain ⟨us, hts, -⟩ := h
  intro hc
  rw [hc] at hts
  cases hts

theorem Cursor.Next.sizeList_lt {c d : Cursor} {t : Token} (h : c.Next t d) :
    Token.sizeList d.rest < Token.sizeList c.rest := by
  obtain ⟨us, hts, rfl⟩ := h
  exact Token.sizeList_lt_of_reveal hts

namespace Setting

section

variable {ρ : Rules} {s : Setting} {c d e : Cursor} {x : Entry} {xs ys : List Entry} {r : Report}

theorem Stands.rest_ne_nil (h : Stands ρ c x d) : c.rest ≠ [] := by
  cases h with
  | name hkey | adapter hkey => exact hkey.rest_ne_nil

theorem Leads.append {f : Cursor} (h : Leads ρ c xs d) (h' : Leads ρ d ys f) : Leads ρ c (xs ++ ys) f := by
  induction h with
  | nil => exact h'
  | cons hx hcomma _ ih => exact .cons hx hcomma (ih h')

/-! ## The reader of a list -/

theorem read_atEnd (c : Cursor) : read atEnd c = .ok (c.rest.isEmpty, c) := rfl

theorem entries_of_end {n : Nat} (hc : c.rest = []) : entries ρ s (n + 1) c = .ok (s, c) := by
  have hempty : c.rest.isEmpty = true := List.isEmpty_iff.2 hc
  simp only [entries, Reader.bind_apply, read_atEnd, hempty, if_true]
  rfl

/-- What is made of one setting, of which the tokens are not at their end. -/
theorem entries_of_entry {n : Nat} {s' : Setting} (hc : c.rest ≠ []) (h : entry ρ s c = .ok (s', d)) :
    entries ρ s (n + 1) c =
      if d.rest.isEmpty then .ok (s', d) else (read (discard (op ",")) >>= fun _ => entries ρ s' n) d := by
  have hempty : c.rest.isEmpty = false := List.isEmpty_eq_false_iff.2 hc
  simp only [entries, Reader.bind_apply, read_atEnd, hempty, h, Bool.false_eq_true, if_false]
  cases d.rest.isEmpty with
  | true => rfl
  | false => simp only [Bool.false_eq_true, if_false, Reader.bind_apply]

/-- One setting with the comma behind it is read, and then the rest. -/
theorem entries_of_comma {n : Nat} {joint : Bool} {a : Span} (hx : Stands ρ c x d)
    (hs : s.has x.kind = false) (hcomma : d.Next (.punct ',' joint a) e) :
    entries ρ s (n + 1) c = entries ρ (s.put x) n e := by
  have hempty : d.rest.isEmpty = false := List.isEmpty_eq_false_iff.2 hcomma.rest_ne_nil
  rw [entries_of_entry hx.rest_ne_nil (entry_of_stands hx hs), hempty, Reader.bind_apply,
    read_of_ok ((discard_op_eq_ok_iff rfl).2 ⟨joint, a, hcomma⟩)]
  rfl

theorem entries_of_last {n : Nat} (hx : Stands ρ c x d) (hs : s.has x.kind = false) (hd : d.rest = []) :
    entries ρ s (n + 1) c = .ok (s.put x, d) := by
  rw [entries_of_entry hx.rest_ne_nil (entry_of_stands hx hs), if_pos (List.isEmpty_iff.2 hd)]

theorem entries_of_stuck {n : Nat} (h : Stuck ρ s c r) : entries ρ s (n + 1) c = .error r := by
  cases h with
  | entry hc h =>
      have hempty : c.rest.isEmpty = false := List.isEmpty_eq_false_iff.2 hc
      simp only [entries, Reader.bind_apply, read_atEnd, hempty, entry_of_fails h, Bool.false_eq_true,
        if_false]
  | @comma d x e hx hs hd h =>
      have hempty : d.rest.isEmpty = false := List.isEmpty_eq_false_iff.2 hd
      rw [entries_of_entry hx.rest_ne_nil (entry_of_stands hx hs), hempty, Reader.bind_apply,
        read_of_error h]
      rfl

/-! ## All settings -/

/-- Settings of different kinds that stand one after the other are read one after the other. -/
theorem entries_of_leads (ys : List Entry) (h : Leads ρ c xs d) (hxs : ((ys ++ xs).map Entry.kind).Nodup)
    (n : Nat) :
    entries ρ (ofEntries ys) (n + xs.length) c = entries ρ (ofEntries (ys ++ xs)) n d := by
  induction h generalizing ys with
  | nil => rw [List.append_nil, List.length_nil, Nat.add_zero]
  | @cons c d e f x xs joint a hx hcomma hrest ih =>
      rw [← List.singleton_append, ← List.append_assoc] at hxs ⊢
      have hs : (ofEntries ys).has x.kind = false := by
        rw [List.map_append] at hxs
        exact (nodup_append.1 (List.nodup_append.1 hxs).1).2
      rw [List.length_append, List.length_singleton, Nat.add_comm 1, ← Nat.add_assoc,
        entries_of_comma hx hs hcomma, ← ofEntries_append]
      exact ih (ys ++ [x]) hxs

variable [ρ.Shrinks]

theorem Stands.sizeList_lt (h : Stands ρ c x d) : Token.sizeList d.rest < Token.sizeList c.rest := by
  cases h with
  | name hkey heq hvalue =>
      exact Nat.lt_trans hvalue.sizeList_lt (Nat.lt_trans heq.sizeList_lt hkey.sizeList_lt)
  | adapter hkey heq hvalue =>
      have hty : Parser.Shrinks (ρ.ty true) := inferInstance
      exact Nat.lt_of_le_of_lt (hty.le _ _ _ hvalue) (Nat.lt_trans heq.sizeList_lt hkey.sizeList_lt)

/-- There are no more settings than tokens. -/
theorem Leads.length_le (h : Leads ρ c xs d) :
    xs.length + Token.sizeList d.rest ≤ Token.sizeList c.rest := by
  induction h with
  | nil => simp
  | cons hx hcomma _ ih =>
      have hsize := hx.sizeList_lt
      have hcomma := hcomma.sizeList_lt
      rw [List.length_cons]
      omega

/-- The bound on the number of settings is not reached. -/
theorem entries_ahead_of_leads (h : Leads ρ c xs d) (hxs : (xs.map Entry.kind).Nodup) :
    ∃ n, entries ρ none (Token.sizeList c.rest + 1) c = entries ρ (ofEntries xs) (n + 1) d := by
  have hlength := h.length_le
  obtain ⟨n, hn⟩ : ∃ n, Token.sizeList c.rest + 1 = n + 1 + xs.length :=
    ⟨Token.sizeList c.rest - xs.length, by omega⟩
  exact ⟨n, hn ▸ entries_of_leads [] h hxs (n + 1)⟩

theorem entries_of_lists (h : Lists ρ c xs d) (hxs : (xs.map Entry.kind).Nodup) :
    entries ρ none (Token.sizeList c.rest + 1) c = .ok (ofEntries xs, d) := by
  cases h with
  | closed h hd =>
      obtain ⟨n, hn⟩ := entries_ahead_of_leads h hxs
      rw [hn, entries_of_end hd]
  | opened h hx he =>
      obtain ⟨hxs, hs⟩ := nodup_append.1 hxs
      obtain ⟨n, hn⟩ := entries_ahead_of_leads h hxs
      rw [hn, entries_of_last hx hs he, ofEntries_append]

theorem entries_of_leads_stuck (h : Leads ρ c xs d) (hxs : (xs.map Entry.kind).Nodup)
    (hr : Stuck ρ (ofEntries xs) d r) : entries ρ none (Token.sizeList c.rest + 1) c = .error r := by
  obtain ⟨n, hn⟩ := entries_ahead_of_leads h hxs
  rw [hn, entries_of_stuck hr]

/-- From every place on there are settings of different kinds up to the end of the tokens, or up to a place
where there is no further one. The induction is on what is behind the settings found so far. -/
theorem lists_or_stuck (h : Leads ρ c xs d) (hxs : (xs.map Entry.kind).Nodup) :
    (∃ ys e, Lists ρ c ys e ∧ (ys.map Entry.kind).Nodup) ∨
      ∃ ys e r, Leads ρ c ys e ∧ (ys.map Entry.kind).Nodup ∧ Stuck ρ (ofEntries ys) e r := by
  induction hn : Token.sizeList d.rest using Nat.strongRecOn generalizing xs d with
  | ind n ih =>
      by_cases hd : d.rest = []
      · exact .inl ⟨xs, d, .closed h hd, hxs⟩
      rcases stands_or_fails ρ (ofEntries xs) d with ⟨x, e, hx, hs⟩ | ⟨r, hr⟩
      · have hmore := nodup_append.2 ⟨hxs, hs⟩
        by_cases he : e.rest = []
        · exact .inl ⟨xs ++ [x], e, .opened h hx he, hmore⟩
        cases hcomma : discard (op ",") e with
        | error err => exact .inr ⟨xs, d, _, h, hxs, .comma hx hs he hcomma⟩
        | ok u =>
            obtain ⟨joint, a, hnext⟩ := (discard_op_eq_ok_iff rfl).1 hcomma
            have hsize := hx.sizeList_lt
            have hsize' := hnext.sizeList_lt
            exact ih (Token.sizeList u.2.rest) (by omega) (h.append (.cons hx hnext .nil)) hmore rfl
      · exact .inr ⟨xs, d, r, h, hxs, .entry hd hr⟩

end

end Setting

end RowDerive
