import RowDerive.Row.Print
import RowDerive.Proofs.Text.Quoting
import Mathlib.Data.List.Forall2

/-!
# Printed rows

A printed row is taken apart again: a blank parts two entries exactly where it stands within no quotes and
no angles, whatever the keys and the values are. So rows that are printed alike have the same printed
entries. An entry may still be read in two ways, since a bare key can hold an equals sign; where no key
does, the first one ends the key, and the keys and the texts are known.
-/

namespace RowDerive

open RowDerive.Text
open RowDerive.Text.Within (pass? pass?_of_bare pass?_of_forall pass?_append_of_eq_some pass?_quoteChars
  entries_intercalate)

/-! ## Printed values -/

namespace Decimal

theorem isBare_digit {n : Nat} {c : Char} (h : c ∈ Nat.toDigits 10 n) : isBare c = true := by
  have hall : ∀ k < 10, isBare (Char.ofNat (48 + k)) = true := by decide
  have hdigit := Nat.isDigit_of_mem_toDigits (by decide) (by decide) h
  simp only [Char.isDigit, Bool.and_eq_true, decide_eq_true_eq] at hdigit
  have hlow : 48 ≤ c.toNat := hdigit.1
  have hhigh : c.toNat ≤ 57 := hdigit.2
  have hc := hall (c.toNat - 48) (by omega)
  rwa [Nat.add_sub_cancel' hlow, Char.ofNat_toNat] at hc

/-- An integer is printed in digits, behind a minus sign perhaps. -/
theorem isBare_toString (n : Int) : ∀ c ∈ (toString n).toList, isBare c = true := by
  have hnat : ∀ m : Nat, ∀ c ∈ m.repr.toList, isBare c = true := fun m c hc => by
    rw [Nat.repr, String.toList_ofList] at hc
    exact isBare_digit hc
  rw [Int.toString_eq_repr]
  cases n with
  | ofNat m => exact hnat m
  | negSucc m =>
      intro c hc
      rw [Int.repr, String.toList_append, List.mem_append] at hc
      rcases hc with hc | hc
      · obtain rfl : c = '-' := by simpa using hc
        decide
      · exact hnat _ c hc

theorem isBare_layoutPositional (d : Dec) : ∀ c ∈ layoutPositional false d, isBare c = true := by
  have hdigits : ∀ c ∈ digitChars d.digits, isBare c = true := fun c hc => isBare_digit hc
  have hzeros : ∀ n, ∀ c ∈ List.replicate n '0', isBare c = true := by
    intro n c hc
    obtain rfl := List.eq_of_mem_replicate hc
    decide
  have hpoint : ∀ c ∈ ['.'], isBare c = true := List.all_eq_true.1 (by decide)
  unfold layoutPositional
  split
  · rw [List.forall_mem_append, List.forall_mem_append]
    exact ⟨⟨hdigits, hzeros _⟩, by simp⟩
  · simp only
    split
    · rw [List.forall_mem_append, List.forall_mem_append]
      exact ⟨⟨fun c hc => hdigits c (List.mem_of_mem_take hc), hpoint⟩,
        fun c hc => hdigits c (List.mem_of_mem_drop hc)⟩
    · rw [List.forall_mem_append, List.forall_mem_append]
      exact ⟨⟨List.all_eq_true.1 (by decide), hzeros _⟩, hdigits⟩

/-- A number that is printed in short form has digits, a point and a minus sign at most. -/
theorem isBare_render (w : Width) (bits : Nat) :
    ∀ c ∈ (Notation.plain.render w bits).toList, isBare c = true := by
  unfold Notation.render
  split
  · exact List.all_eq_true.1 (by decide)
  · split <;> exact List.all_eq_true.1 (by decide)
  · rename_i negative x _
    have hlayout : Notation.plain.layout x.shortest = layoutPositional false x.shortest := by
      simp [Notation.layout, Notation.plain]
    have hsign : ∀ c ∈ (if negative then ['-'] else []), isBare c = true := by
      cases negative <;> exact List.all_eq_true.1 (by decide)
    intro c hc
    rw [String.toList_ofList, hlayout, List.mem_append] at hc
    exact hc.elim (hsign c) (isBare_layoutPositional x.shortest c)

end Decimal

namespace Value

/-- The short form of a value is passed: it is a quoted text, or a size between angles, or a word. -/
theorem pass?_display (v : Value) : pass? .nothing v.display.toList = some .nothing := by
  cases v with
  | null => exact pass?_of_bare (List.all_eq_true.1 (by decide))
  | bool b => cases b <;> exact pass?_of_bare (List.all_eq_true.1 (by decide))
  | byte n => exact pass?_of_bare (Decimal.isBare_toString n.toInt)
  | short n => exact pass?_of_bare (Decimal.isBare_toString n.toInt)
  | int n => exact pass?_of_bare (Decimal.isBare_toString n.toInt)
  | long n => exact pass?_of_bare (Decimal.isBare_toString n.toInt)
  | float bits => exact pass?_of_bare (Decimal.isBare_render .single bits.toNat)
  | double bits => exact pass?_of_bare (Decimal.isBare_render .double bits.toNat)
  | text s =>
      rw [display, quote, String.toList_ofList]
      exact pass?_quoteChars s.toList
  | blob bytes =>
      have hdigits : ∀ c ∈ Nat.toDigits 10 bytes.length ++ " bytes".toList, c ≠ '>' := by
        rw [List.forall_mem_append]
        have hnot : ∀ c, isBare c = true → c ≠ '>' := by
          rintro c hbare rfl
          exact absurd hbare (by decide)
        have hword : '>' ∉ " bytes".toList := by decide
        exact ⟨fun c hc => hnot c (Decimal.isBare_digit hc), fun c hc heq => hword (heq ▸ hc)⟩
      have hangles : pass? .angles (Nat.toDigits 10 bytes.length ++ " bytes".toList) = some .angles :=
        pass?_of_forall fun c hc => ⟨rfl, by simp [Within.after, hdigits c hc]⟩
      have hdisplay : display (blob bytes) = "<" ++ bytes.length.repr ++ " bytes>" := rfl
      have hlist : (display (blob bytes)).toList =
          '<' :: (Nat.toDigits 10 bytes.length ++ " bytes".toList ++ ['>']) := by
        simp [hdisplay, Nat.repr]
      rw [hlist]
      exact pass?_append_of_eq_some hangles ['>']

end Value

namespace Row

/-! ## Entries -/

theorem toList_entryText (e : String × Value) :
    (entryText e).toList = quoteChars e.1.toList ++ '=' :: e.2.display.toList := by
  simp [entryText, quote]

theorem pass?_entryText (e : String × Value) : pass? .nothing (entryText e).toList = some .nothing := by
  have hequals : pass? .nothing ['='] = some .nothing := rfl
  rw [toList_entryText, pass?_append_of_eq_some (pass?_quoteChars e.1.toList)]
  exact (pass?_append_of_eq_some hequals e.2.display.toList).trans e.2.pass?_display

/-- The printed entries of a row are found in the printed row. -/
theorem entries_display {a : Row} (h : a.toList ≠ []) :
    Within.nothing.entries a.display.toList = a.toList.map fun e => (entryText e).toList := by
  have hblank : " ".toList = [' '] := rfl
  rw [display, String.toList_intercalate, hblank, List.map_map]
  refine entries_intercalate (by simpa using h) fun cs hcs => ?_
  obtain ⟨e, -, rfl⟩ := List.mem_map.1 hcs
  exact pass?_entryText e

/-- A row that has entries is not printed as nothing. -/
theorem toList_eq_nil_of_display {a : Row} (h : a.display = "") : a.toList = [] := by
  by_contra hne
  have hentries := entries_display hne
  rw [h, String.toList_empty, Within.entries] at hentries
  obtain ⟨e, -, hempty⟩ : ∃ e ∈ a.toList, (entryText e).toList = [] := by
    rw [← List.mem_map, ← hentries]
    exact List.mem_singleton_self []
  simp [entryText] at hempty

/-- Rows that are printed alike have the same printed entries. -/
theorem map_entryText_eq {a b : Row} (h : a.display = b.display) :
    a.toList.map entryText = b.toList.map entryText := by
  have hnil : ∀ {r : Row}, r.toList = [] → r.display = "" := fun hr => by rw [display, hr]; rfl
  by_cases ha : a.toList = []
  · rw [ha, toList_eq_nil_of_display (h.symm.trans (hnil ha))]
  by_cases hb : b.toList = []
  · rw [hb, toList_eq_nil_of_display (h.trans (hnil hb))]
  have hentries := entries_display ha
  rw [h, entries_display hb] at hentries
  refine (List.map_inj_right fun s t => String.toList_inj.1).1 ?_
  rw [List.map_map, List.map_map]
  exact hentries.symm

/-! ## Keys and texts -/

/-- The first equals sign ends a key that has none. -/
theorem takeWhile_entryText {e : String × Value} (h : '=' ∉ e.1.toList) :
    (entryText e).toList.takeWhile (· != '=') = quoteChars e.1.toList := by
  have hkey : ∀ c ∈ quoteChars e.1.toList, (c != '=') = true := fun c hc =>
    bne_iff_ne.2 fun heq => equals_notMem_quoteChars h (heq ▸ hc)
  rw [toList_entryText, List.takeWhile_append_of_pos hkey, List.takeWhile_cons_of_neg (by decide),
    List.append_nil]

theorem entryText_inj {d e : String × Value} (hd : '=' ∉ d.1.toList) (he : '=' ∉ e.1.toList)
    (h : entryText d = entryText e) : d.1 = e.1 ∧ d.2.display = e.2.display := by
  have hkeys : quoteChars d.1.toList = quoteChars e.1.toList := by
    rw [← takeWhile_entryText hd, h, takeWhile_entryText he]
  have hwhole := String.toList_inj.2 h
  rw [toList_entryText, toList_entryText, hkeys] at hwhole
  have hvalues := (List.cons.inj (List.append_cancel_left hwhole)).2
  exact ⟨String.toList_inj.1 (quoteChars_inj hkeys), String.toList_inj.1 hvalues⟩

/-- Texts are known by their short forms. -/
theorem text_inj {s t : String} (h : (Value.text s).display = (Value.text t).display) : s = t := by
  have hchars := String.toList_inj.2 h
  rw [Value.display, Value.display, quote, quote, String.toList_ofList, String.toList_ofList] at hchars
  exact String.toList_inj.1 (quoteChars_inj hchars)

/-- Entries with the same keys and values of the same short form. -/
abbrev Looks (ds es : Entries) : Prop :=
  List.Forall₂ (fun d e => d.1 = e.1 ∧ d.2.display = e.2.display) ds es

variable {ds es : Entries}

/-- If no key has an equals sign, entries that are printed alike have the same keys. -/
theorem looks_of_entryText (h : List.Forall₂ (fun d e => entryText d = entryText e) ds es)
    (hds : ∀ k ∈ ds.keys, '=' ∉ k.toList) (hes : ∀ k ∈ es.keys, '=' ∉ k.toList) : Looks ds es := by
  induction h with
  | nil => exact .nil
  | cons hentry _ ih =>
      rw [Entries.keys_cons, List.forall_mem_cons] at hds hes
      exact .cons (entryText_inj hds.1 hes.1 hentry) (ih hds.2 hes.2)

theorem Looks.keys_eq (h : Looks ds es) : ds.keys = es.keys := by
  induction h with
  | nil => rfl
  | cons hentry _ ih => rw [Entries.keys_cons, Entries.keys_cons, hentry.1, ih]

theorem Looks.map_display_get? (h : Looks ds es) (k : String) :
    (Entries.get? k ds).map Value.display = (Entries.get? k es).map Value.display := by
  induction h with
  | nil => rfl
  | @cons d e _ _ hentry _ ih =>
      rw [Entries.get?, Entries.get?, hentry.1]
      split
      · exact congrArg some hentry.2
      · exact ih

/-- Rows that are printed alike have as many entries, and these are printed alike one by one, so that no
key and no text can pass for an entry of its own. If besides no key has an equals sign, the rows have the
same keys in the same order, and the same text wherever both hold a text. -/
theorem entries_of_display_eq {a b : Row} (h : a.display = b.display) :
    a.size = b.size ∧
      List.Forall₂ (fun d e => entryText d = entryText e) a.toList b.toList ∧
      ((∀ k ∈ a.keys, '=' ∉ k.toList) → (∀ k ∈ b.keys, '=' ∉ k.toList) →
        a.keys = b.keys ∧
          ∀ k s t, a.get? k = some (.text s) → b.get? k = some (.text t) → s = t) := by
  have hentries : List.Forall₂ (fun d e => entryText d = entryText e) a.toList b.toList := by
    rw [← List.forall₂_map_right_iff (f := entryText), ← List.forall₂_map_left_iff, List.forall₂_eq_eq_eq]
    exact map_entryText_eq h
  refine ⟨hentries.length_eq, hentries, fun ha hb => ?_⟩
  have hlooks : Looks a.toList b.toList := looks_of_entryText hentries ha hb
  refine ⟨hlooks.keys_eq, fun k s t hs ht => text_inj ?_⟩
  have hvalues := hlooks.map_display_get? k
  rw [← get?, ← get?, hs, ht] at hvalues
  exact Option.some.inj hvalues

/-- A number and a text that are printed alike, between a text that holds what looks like an entry and a
blob. -/
theorem entries_of_display_eq_number :
    ∃ a b : Row,
      a.toList = [("name", .text "it's y=1"), ("n", .int 5), ("two words", .blob [1, 2])] ∧
      b.toList = [("name", .text "it's y=1"), ("n", .text "5"), ("two words", .blob [3, 4])] ∧
      a.display = "name=\"it's y=1\" n=5 'two words'=<2 bytes>" ∧ a.display = b.display ∧
      a.size = b.size ∧
      List.Forall₂ (fun d e => entryText d = entryText e) a.toList b.toList ∧
      a.keys = b.keys ∧
      ∀ k s t, a.get? k = some (.text s) → b.get? k = some (.text t) → s = t := by
  have hdisplay :
      (ofList [("name", .text "it's y=1"), ("n", .int 5), ("two words", .blob [1, 2])]).display =
        (ofList [("name", .text "it's y=1"), ("n", .text "5"), ("two words", .blob [3, 4])]).display := by
    decide
  obtain ⟨hsize, hentries, hkeys⟩ := entries_of_display_eq hdisplay
  obtain ⟨hsame, htexts⟩ := hkeys (by decide) (by decide)
  exact ⟨_, _, rfl, rfl, by decide, hdisplay, hsize, hentries, hsame, htexts⟩

/-- A bare key that has an equals sign is not told from a shorter one. -/
example : (ofList [("a=b", .text "c")]).display = (ofList [("a", .text "b=c")]).display := by
  decide

end Row

end RowDerive
