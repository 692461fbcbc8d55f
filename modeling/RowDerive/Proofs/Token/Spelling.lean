import RowDerive.Token.StringLiteral
import Mathlib.Data.List.TakeWhile

/-!
# What string literals denote

What a string literal denotes is said here by the rules of the language and not by a reader: a text
between quotes, in which a backslash begins an escape, or a raw text between quotes and pounds. A return
stands in neither. One text has many spellings. The reader of string literals finds for each of them
the text that it denotes, so that no literal denotes two. Whatever literal the lexer lets pass denotes the
text that is read, up to a suffix: with one it is a token, but denotes nothing.
-/

namespace RowDerive.Literal

/-! ## The rules -/

/-- What a letter after a backslash stands for. -/
inductive Letter : Char → Char → Prop
  | newline : Letter 'n' '\n'
  | return : Letter 'r' '\r'
  | tab : Letter 't' '\t'
  | null : Letter '0' '\x00'
  | backslash : Letter '\\' '\\'
  | quote : Letter '"' '"'
  | tick : Letter '\'' '\''

/-- The number that hexadecimal digits write, behind those of `n`. -/
def hexNumber (n : Nat) (ds : List Char) : Nat :=
  ds.foldl (fun n d => 16 * n + (hexValue? d).getD 0) n

/-- What stands between the braces of an escape by code point: one to six digits, and underscores that do
not come first. -/
structure CodePoint (ds : List Char) (c : Char) : Prop where
  first : ∃ d ∈ ds.head?, isHex d = true
  all : ∀ d ∈ ds, d = '_' ∨ isHex d = true
  few : (ds.filter (· != '_')).length ≤ 6
  value : c.toNat = hexNumber 0 (ds.filter (· != '_'))

/-- A blank that is left out at the beginning of a line if the line before ends with a backslash. -/
def isIndent (c : Char) : Bool := c == ' ' || c == '\t' || c == '\n'

/-- What stands between two quotes, and the text that it spells. -/
inductive Spells : List Char → List Char → Prop
  | nil : Spells [] []
  | plain {c : Char} {cs s : List Char} (hc : c ∉ ['"', '\\', '\r']) (h : Spells cs s) :
      Spells (c :: cs) (c :: s)
  | letter {x c : Char} {cs s : List Char} (hx : Letter x c) (h : Spells cs s) :
      Spells ('\\' :: x :: cs) (c :: s)
  | hex {a b c : Char} {m n : Nat} {cs s : List Char} (ha : hexValue? a = some m)
      (hb : hexValue? b = some n) (hm : m < 8) (hc : c.toNat = 16 * m + n) (h : Spells cs s) :
      Spells ('\\' :: 'x' :: a :: b :: cs) (c :: s)
  | codePoint {ds : List Char} {c : Char} {cs s : List Char} (hc : CodePoint ds c) (h : Spells cs s) :
      Spells ('\\' :: 'u' :: '\x7b' :: (ds ++ '\x7d' :: cs)) (c :: s)
  /-- A line may end with a backslash, and the blanks that the next begins with are left out. -/
  | indent {ws cs s : List Char} (hws : ∀ w ∈ ws, isIndent w = true)
      (hcs : ∀ c ∈ cs.head?, isIndent c = false) (h : Spells cs s) :
      Spells ('\\' :: '\n' :: (ws ++ cs)) s

/-- The pounds around a raw text. -/
def pounds (n : Nat) : List Char := List.replicate n '#'

/-- A string literal, as an expression, and the text that it denotes. It ends where the text is closed. -/
inductive Denotes : String → String → Prop
  | quoted {cs s : List Char} (h : Spells cs s) :
      Denotes (String.ofList ('"' :: (cs ++ ['"']))) (String.ofList s)
  /-- A raw text does not hold what ends it. -/
  | raw {n : Nat} {s : List Char} (hn : n ≤ 255) (hend : ¬ '"' :: pounds n <:+: s)
      (hreturn : '\r' ∉ s) :
      Denotes (String.ofList ('r' :: (pounds n ++ '"' :: (s ++ '"' :: pounds n)))) (String.ofList s)

variable {cs ds s : List Char} {c : Char}

/-! ## What is read -/

theorem ne_of_isHex {x : Char} (hx : isHex x = false) (h : isHex c = true) : c ≠ x := by
  rintro rfl
  rw [hx] at h
  cases h

/-- The digits between the braces are read as their number. -/
theorem decode_unicode_digits (hds : ∀ d ∈ ds, d = '_' ∨ isHex d = true) (n : Nat) (cs : List Char) :
    decode (.unicode n) (ds ++ '\x7d' :: cs) =
      Char.ofNat (hexNumber n (ds.filter (· != '_'))) :: decode .plain cs := by
  induction ds generalizing n with
  | nil => simp [decode, hexNumber]
  | cons d ds ih =>
      have htail := ih fun e he => hds e (List.mem_cons_of_mem d he)
      rcases hds d List.mem_cons_self with rfl | hd
      · have hnone : hexValue? '_' = none := by decide
        rw [List.cons_append, decode, if_neg (by decide), hnone]
        simpa using htail n
      · obtain ⟨k, hk⟩ := Option.isSome_iff_exists.1 hd
        have hbrace : (d == '\x7d') = false := beq_false_of_ne (ne_of_isHex (by decide) hd)
        have hline : (d != '_') = true := bne_iff_ne.2 (ne_of_isHex (by decide) hd)
        rw [List.cons_append, decode, hbrace, hk, List.filter_cons_of_pos (p := (· != '_')) hline]
        simpa [hexNumber, hk] using htail (16 * n + k)

theorem Spells.not_return (h : Spells cs s) : cs.head? ≠ some '\r' := by
  cases h with
  | plain hc _ =>
      intro hr
      obtain rfl := Option.some.inj hr
      exact hc (by decide)
  | _ => simp

/-- Blanks at the beginning of a line are passed over. -/
theorem decode_blank_indent {ws : List Char} (hws : ∀ w ∈ ws, isIndent w = true) (cs : List Char) :
    decode .blank (ws ++ cs) = decode .blank cs := by
  induction ws with
  | nil => rfl
  | cons w ws ih =>
      have hw : (w == ' ' || w == '\t' || w == '\n' || w == '\r') = true := by
        rw [Bool.or_eq_true]
        exact Or.inl (hws w List.mem_cons_self)
      rw [List.cons_append, decode, if_pos hw]
      exact ih fun v hv => hws v (List.mem_cons_of_mem w hv)

/-- What is no blank is read after a line that goes on as it is read anywhere. -/
theorem decode_blank (hcs : ∀ c ∈ cs.head?, isIndent c = false) (hreturn : cs.head? ≠ some '\r') :
    decode .blank cs = decode .plain cs := by
  cases cs with
  | nil => rfl
  | cons c cs =>
      have hr : (c == '\r') = false := beq_false_of_ne fun h => hreturn (h ▸ rfl)
      have hc : (c == ' ' || c == '\t' || c == '\n' || c == '\r') = false := by
        rw [hr, Bool.or_false]
        exact hcs c rfl
      rw [decode, decode, hc, hr]
      simp

/-- What stands before the closing quote is read as the text that it spells. -/
theorem Spells.decode_plain (h : Spells cs s) (rest : List Char) :
    decode .plain (cs ++ '"' :: rest) = s := by
  induction h with
  | nil => simp [decode]
  | @plain c cs s hc _ ih =>
      simp only [List.mem_cons, List.not_mem_nil, or_false, not_or] at hc
      obtain ⟨hquote, hslash, hreturn⟩ := hc
      simp [decode, hquote, hslash, hreturn, ih]
  | letter hx _ ih => cases hx <;> simp [decode, ih]
  | hex ha hb hm hc _ ih => simp [decode, ha, hb, ← hc, ih, Char.ofNat_toNat]
  | @codePoint c ds cs s hc _ ih =>
      have hnone : hexValue? '\x7b' = none := by decide
      have hdigits := decode_unicode_digits hc.all 0 (cs ++ '"' :: rest)
      rw [← hc.value, Char.ofNat_toNat, ih] at hdigits
      simp [decode, hnone, hdigits]
  | @indent ws cs s hws hcs h ih =>
      have hblank : decode .blank (cs ++ '"' :: rest) = decode .plain (cs ++ '"' :: rest) := by
        cases cs with
        | nil => rfl
        | cons c cs =>
            have hhead : (c :: cs ++ '"' :: rest).head? = (c :: cs).head? := rfl
            exact decode_blank (hhead ▸ hcs) (hhead ▸ h.not_return)
      rw [List.cons_append, List.cons_append, decode, if_neg (by decide), if_pos (by decide), decode,
        List.append_assoc, decode_blank_indent hws, hblank, ih]

/-- What stands before the closing quote and the pounds of a raw text is that text. -/
theorem decodeRaw_append {n : Nat} (hend : ¬ '"' :: pounds n <:+: s) (rest : List Char) :
    decodeRaw (pounds n) (s ++ '"' :: (pounds n ++ rest)) = s := by
  induction s with
  | nil => simp [decodeRaw]
  | cons c s ih =>
      have hnot : ¬ (c = '"' ∧ pounds n <+: s ++ '"' :: (pounds n ++ rest)) := by
        rintro ⟨rfl, hprefix⟩
        have hwhole : s ++ ['"'] <+: s ++ '"' :: (pounds n ++ rest) :=
          (List.prefix_append_right_inj s).2 ⟨pounds n ++ rest, rfl⟩
        have hmem : '"' ∉ pounds n := fun h => absurd (List.eq_of_mem_replicate h) (by decide)
        rcases List.prefix_or_prefix_of_prefix hprefix hwhole with h | h
        · rcases List.prefix_concat_iff.1 h with h | h
          · exact hmem (h ▸ List.mem_append_right s List.mem_cons_self)
          · exact hend ((List.cons_prefix_cons.2 ⟨rfl, h⟩).isInfix)
        · exact hmem (h.subset (List.mem_append_right s List.mem_cons_self))
      have htail := ih fun h => hend (List.infix_cons h)
      rw [List.cons_append, decodeRaw, if_neg (by simpa using hnot), htail]

/-- A literal that denotes a text is read as this text, whatever stands behind it. -/
theorem Denotes.string?_append {t v : String} (h : Denotes t v) (suffix : String) :
    string? (t ++ suffix) = some v := by
  cases h with
  | quoted h => simp [string?, h.decode_plain]
  | @raw n s hn hend _ =>
      have htake : (pounds n ++ '"' :: (s ++ '"' :: (pounds n ++ suffix.toList))).takeWhile (· == '#') =
          pounds n := by
        rw [List.takeWhile_append_of_pos fun d hd => by simp [List.eq_of_mem_replicate hd]]
        simp
      simp [string?, htake, decodeRaw_append hend]

theorem Denotes.string?_eq {t v : String} (h : Denotes t v) : string? t = some v := by
  simpa using h.string?_append ""

/-- No literal denotes two texts. -/
theorem Denotes.unique {t v w : String} (hv : Denotes t v) (hw : Denotes t w) : v = w :=
  Option.some.inj (hv.string?_eq.symm.trans hw.string?_eq)

/-! ## What the lexer lets pass -/

/-- A character that stands for itself is passed over. -/
theorem afterQuoted_plain (hc : c ∉ ['"', '\\', '\r']) (cs : List Char) :
    afterQuoted .string (c :: cs) = afterQuoted .string cs := by
  simp only [List.mem_cons, List.not_mem_nil, or_false, not_or] at hc
  obtain ⟨hquote, hslash, hreturn⟩ := hc
  simp [afterQuoted, hslash, Quoted.allowsPlain]

theorem afterQuoted_append (hds : ∀ d ∈ ds, d ∉ ['"', '\\', '\r']) (cs : List Char) :
    afterQuoted .string (ds ++ cs) = afterQuoted .string cs := by
  induction ds with
  | nil => rfl
  | cons d ds ih =>
      rw [List.cons_append, afterQuoted_plain (hds d List.mem_cons_self)]
      exact ih fun e he => hds e (List.mem_cons_of_mem d he)

theorem notMem_of_isHex (h : isHex c = true) : c ∉ ['"', '\\', '\r'] := by
  simp only [List.mem_cons, List.not_mem_nil, or_false, not_or]
  exact ⟨ne_of_isHex (by decide) h, ne_of_isHex (by decide) h, ne_of_isHex (by decide) h⟩

/-- The digits that are read up to a brace. -/
theorem exists_digits {n k v : Nat} {rest : List Char} (hk : k ≤ 6)
    (h : unicodeDigits n k cs = some (v, rest)) :
    ∃ ds, cs = ds ++ '\x7d' :: rest ∧ (∀ d ∈ ds, d = '_' ∨ isHex d = true) ∧
      (ds.filter (· != '_')).length + k ≤ 6 ∧ v = hexNumber n (ds.filter (· != '_')) ∧
      (k = 0 → ∃ d ∈ ds.head?, isHex d = true) := by
  induction cs generalizing n k with
  | nil => cases h
  | cons c cs ih =>
      rw [unicodeDigits] at h
      split at h
      · rename_i hbrace
        obtain rfl := beq_iff_eq.1 hbrace
        split at h
        · rename_i hpos
          obtain ⟨rfl, rfl⟩ := Prod.mk.inj (Option.some.inj h)
          exact ⟨[], rfl, by simp, by simpa using hk, rfl, fun h => by omega⟩
        · cases h
      · split at h
        · rename_i hline
          obtain rfl := beq_iff_eq.1 hline
          split at h
          · rename_i hpos
            obtain ⟨ds, rfl, hall, hfew, hv, -⟩ := ih hk h
            refine ⟨'_' :: ds, rfl, ?_, by simpa using hfew, by simpa using hv, fun h => by omega⟩
            exact List.forall_mem_cons.2 ⟨.inl rfl, hall⟩
          · cases h
        · rename_i hline
          split at h
          · rename_i d hd
            split at h
            · cases h
            · rename_i hlast
              have hlast' : k ≠ 6 := by simpa using hlast
              obtain ⟨ds, rfl, hall, hfew, hv, -⟩ := ih (by omega) h
              have hhex : isHex c = true := by simp [isHex, hd]
              have hfilter : (c :: ds).filter (· != '_') = c :: ds.filter (· != '_') :=
                List.filter_cons_of_pos (by simpa using hline)
              refine ⟨c :: ds, rfl, List.forall_mem_cons.2 ⟨.inr hhex, hall⟩, ?_, ?_, fun _ => ?_⟩
              · rw [hfilter, List.length_cons]
                omega
              · rw [hfilter, hv]
                simp [hexNumber, hd]
              · exact ⟨c, rfl, hhex⟩
          · cases h

theorem toNat_ofNat {n : Nat} (h : n.isValidChar) : (Char.ofNat n).toNat = n := by
  rw [Char.ofNat, dif_pos h]
  rfl

theorem hexValue?_lt {n : Nat} (h : hexValue? c = some n) : n < 16 := by
  have hle : ∀ d : Char, c ≤ d → c.toNat ≤ d.toNat := fun d hd => hd
  simp only [hexValue?, Bool.and_eq_true, decide_eq_true_eq] at h
  split at h
  · rename_i hc
    obtain rfl := Option.some.inj h
    have hc' : c.toNat ≤ 57 := hle '9' hc.2
    have hzero : '0'.toNat = 48 := rfl
    omega
  · split at h
    · rename_i hc
      obtain rfl := Option.some.inj h
      have hc' : c.toNat ≤ 102 := hle 'f' hc.2
      have ha : 'a'.toNat = 97 := rfl
      omega
    · split at h
      · rename_i hc
        obtain rfl := Option.some.inj h
        have hc' : c.toNat ≤ 70 := hle 'F' hc.2
        have ha : 'A'.toNat = 65 := rfl
        omega
      · cases h

theorem exists_octal (h : '0' ≤ c ∧ c ≤ '7') : ∃ m, hexValue? c = some m ∧ m < 8 := by
  have hle : c.toNat ≤ 55 := h.2
  have hzero : '0'.toNat = 48 := rfl
  have hdigit : ('0' ≤ c && c ≤ '9') = true := by
    have hnine : c ≤ '9' := Char.le_trans h.2 (by decide)
    simp [h.1, hnine]
  exact ⟨c.toNat - '0'.toNat, by rw [hexValue?, if_pos hdigit], by omega⟩

/-- The characters begin with the spelling of a text and the closing quote, and `rest` is left after the
suffix. -/
def Closes (rest cs : List Char) : Prop :=
  ∃ ds s suffix, Spells ds s ∧ rest = afterSuffix suffix ∧ cs = ds ++ '"' :: suffix

namespace Closes

variable {rest : List Char}

theorem plain (hc : c ∉ ['"', '\\', '\r']) (h : Closes rest cs) : Closes rest (c :: cs) := by
  obtain ⟨ds, s, suffix, hds, hrest, rfl⟩ := h
  exact ⟨c :: ds, c :: s, suffix, .plain hc hds, hrest, rfl⟩

theorem letter {x : Char} (hx : Letter x c) (h : Closes rest cs) : Closes rest ('\\' :: x :: cs) := by
  obtain ⟨ds, s, suffix, hds, hrest, rfl⟩ := h
  exact ⟨'\\' :: x :: ds, c :: s, suffix, .letter hx hds, hrest, rfl⟩

theorem hex {a b : Char} (hab : Quoted.string.allowsHex a b = true) (h : Closes rest cs) :
    Closes rest ('\\' :: 'x' :: a :: b :: cs) := by
  obtain ⟨ds, s, suffix, hds, hrest, rfl⟩ := h
  simp only [Quoted.allowsHex, Bool.and_eq_true, decide_eq_true_eq] at hab
  obtain ⟨hoctal, hb⟩ := hab
  obtain ⟨n, hn⟩ := Option.isSome_iff_exists.1 hb
  obtain ⟨m, hm, hlt⟩ := exists_octal hoctal
  have hn16 := hexValue?_lt hn
  have hvalid : (16 * m + n).isValidChar := Or.inl (by omega)
  exact ⟨'\\' :: 'x' :: a :: b :: ds, Char.ofNat (16 * m + n) :: s, suffix,
    .hex hm hn hlt (toNat_ofNat hvalid) hds, hrest, rfl⟩

theorem codePoint (hc : CodePoint ds c) (h : Closes rest cs) :
    Closes rest ('\\' :: 'u' :: '\x7b' :: (ds ++ '\x7d' :: cs)) := by
  obtain ⟨es, s, suffix, hes, hrest, rfl⟩ := h
  exact ⟨'\\' :: 'u' :: '\x7b' :: (ds ++ '\x7d' :: es), c :: s, suffix, .codePoint hc hes, hrest,
    by simp⟩

theorem indent (h : Closes rest (cs.dropWhile isIndent)) : Closes rest ('\\' :: '\n' :: cs) := by
  obtain ⟨ds, s, suffix, hds, hrest, hsplit⟩ := h
  have hws : ∀ w ∈ cs.takeWhile isIndent, isIndent w = true := fun w hw => List.mem_takeWhile_imp hw
  have hhead : ∀ c ∈ ds.head?, isIndent c = false := by
    intro c hc
    have hfirst := List.head?_dropWhile_not isIndent cs
    rw [hsplit, List.head?_append, Option.mem_def.1 hc] at hfirst
    exact hfirst
  refine ⟨'\\' :: '\n' :: (cs.takeWhile isIndent ++ ds), s, suffix, .indent hws hhead hds, hrest, ?_⟩
  rw [List.cons_append, List.cons_append, List.append_assoc, ← hsplit, List.takeWhile_append_dropWhile]

end Closes

theorem exists_codePoint (h : (unicodeEscape? cs).isSome) :
    ∃ ds c rest, cs = '\x7b' :: (ds ++ '\x7d' :: rest) ∧ CodePoint ds c := by
  unfold unicodeEscape? at h
  split at h
  · rename_i cs
    split at h
    · rename_i v rest hread
      split at h
      · rename_i hvalid
        obtain ⟨ds, rfl, hall, hfew, hv, hfirst⟩ := exists_digits (Nat.zero_le 6) hread
        exact ⟨ds, Char.ofNat v, rest, rfl, hfirst rfl, hall, hfew, (toNat_ofNat hvalid).trans hv⟩
      · cases h
    · cases h
  · cases h

theorem exists_letter {x : Char} (h : Quoted.string.allowsLetter x = true) : ∃ c, Letter x c := by
  have hx : x ∈ ['n', 'r', 't', '\\', '\'', '"', '0'] := by
    simpa [Quoted.allowsLetter, or_assoc] using h
  simp only [List.mem_cons, List.not_mem_nil, or_false] at hx
  rcases hx with rfl | rfl | rfl | rfl | rfl | rfl | rfl
  · exact ⟨_, .newline⟩
  · exact ⟨_, .return⟩
  · exact ⟨_, .tab⟩
  · exact ⟨_, .backslash⟩
  · exact ⟨_, .tick⟩
  · exact ⟨_, .quote⟩
  · exact ⟨_, .null⟩

theorem notMem_of_isIndent (h : isIndent c = true) : c ∉ ['"', '\\', '\r'] := by
  simp only [isIndent, Bool.or_eq_true, beq_iff_eq] at h
  rcases h with (rfl | rfl) | rfl <;> decide

/-! An escape that the lexer lets pass is passed over as a whole: none of its characters would end the
literal. -/

theorem exists_of_hex {rest : List Char} (h : afterQuoted .string ('\\' :: 'x' :: cs) = some rest) :
    ∃ a b ds, cs = a :: b :: ds ∧ Quoted.string.allowsHex a b = true ∧
      afterQuoted .string ds = some rest := by
  rw [afterQuoted.eq_def] at h
  cases cs with
  | nil => simp at h
  | cons a cs =>
      cases cs with
      | nil => simp at h
      | cons b ds =>
          obtain ⟨hab, hread⟩ : Quoted.string.allowsHex a b = true ∧
              afterQuoted .string (a :: b :: ds) = some rest := by simpa using h
          have hdigits := hab
          simp only [Quoted.allowsHex, Bool.and_eq_true, decide_eq_true_eq] at hdigits
          obtain ⟨m, hm, -⟩ := exists_octal hdigits.1
          have ha : isHex a = true := by simp [isHex, hm]
          rw [afterQuoted_plain (notMem_of_isHex ha),
            afterQuoted_plain (notMem_of_isHex hdigits.2)] at hread
          exact ⟨a, b, ds, rfl, hab, hread⟩

theorem exists_of_unicode {rest : List Char}
    (h : afterQuoted .string ('\\' :: 'u' :: cs) = some rest) :
    ∃ ds c es, cs = '\x7b' :: (ds ++ '\x7d' :: es) ∧ CodePoint ds c ∧
      afterQuoted .string es = some rest := by
  obtain ⟨hcode, hread⟩ : Quoted.string.allowsUnicode cs = true ∧
      afterQuoted .string cs = some rest := by
    rw [afterQuoted.eq_def] at h
    simpa using h
  obtain ⟨ds, c, es, rfl, hc⟩ := exists_codePoint hcode
  have hds : ∀ d ∈ ds, d ∉ ['"', '\\', '\r'] := by
    intro d hd
    rcases hc.all d hd with rfl | hhex
    · decide
    · exact notMem_of_isHex hhex
  rw [afterQuoted_plain (by decide), afterQuoted_append hds, afterQuoted_plain (by decide)] at hread
  exact ⟨ds, c, es, rfl, hc, hread⟩

theorem afterQuoted_dropWhile (cs : List Char) :
    afterQuoted .string (cs.dropWhile isIndent) = afterQuoted .string cs := by
  have hws : ∀ w ∈ cs.takeWhile isIndent, w ∉ ['"', '\\', '\r'] :=
    fun w hw => notMem_of_isIndent (List.mem_takeWhile_imp hw)
  have hpass := afterQuoted_append hws (cs.dropWhile isIndent)
  rw [List.takeWhile_append_dropWhile] at hpass
  exact hpass.symm

/-- An escape that the lexer lets pass spells a character, or nothing at the end of a line. What stands
behind it closes if the lexer lets it pass. -/
theorem closes_of_escape {x : Char} {rest : List Char} (hreturn : x ≠ '\r')
    (h : afterQuoted .string ('\\' :: x :: cs) = some rest)
    (ih : ∀ ds, ds <:+ cs → afterQuoted .string ds = some rest → Closes rest ds) :
    Closes rest ('\\' :: x :: cs) := by
  by_cases hx : x = 'x'
  · subst hx
    obtain ⟨a, b, ds, rfl, hab, hread⟩ := exists_of_hex h
    exact (ih ds ((List.suffix_cons b ds).trans (List.suffix_cons a _)) hread).hex hab
  by_cases hu : x = 'u'
  · subst hu
    obtain ⟨ds, c, es, rfl, hc, hread⟩ := exists_of_unicode h
    have hsuffix : es <:+ '\x7b' :: (ds ++ '\x7d' :: es) := ⟨'\x7b' :: (ds ++ ['\x7d']), by simp⟩
    exact (ih es hsuffix hread).codePoint hc
  obtain ⟨hkind, hread⟩ : (x = '\n' ∨ Quoted.string.allowsLetter x = true) ∧
      afterQuoted .string cs = some rest := by
    rw [afterQuoted.eq_def] at h
    simpa [hx, hu, hreturn] using h
  by_cases hline : x = '\n'
  · subst hline
    rw [← afterQuoted_dropWhile] at hread
    exact (ih _ (List.dropWhile_suffix _) hread).indent
  · obtain ⟨c, hc⟩ := exists_letter (hkind.resolve_left hline)
    exact (ih cs (List.suffix_refl cs) hread).letter hc

/-- What the lexer passes over up to a closing quote spells a text, unless a return is in it. -/
theorem closes_of_afterQuoted {rest : List Char} (hreturn : '\r' ∉ cs)
    (h : afterQuoted .string cs = some rest) : Closes rest cs := by
  induction hn : cs.length using Nat.strongRecOn generalizing cs with
  | ind n ih =>
      cases cs with
      | nil => cases h
      | cons c cs =>
          obtain ⟨hc, hcs⟩ : c ≠ '\r' ∧ '\r' ∉ cs := by simpa [eq_comm] using hreturn
          have ih' : ∀ ds, ds <:+ cs → afterQuoted .string ds = some rest → Closes rest ds := by
            intro ds hds hread
            have hlt : ds.length < n := by
              rw [← hn, List.length_cons]
              exact Nat.lt_succ_of_le hds.length_le
            exact ih _ hlt (fun hr => hcs (hds.subset hr)) hread rfl
          by_cases hquote : c = '"'
          · subst hquote
            rw [afterQuoted] at h
            exact ⟨[], [], cs, .nil, (Option.some.inj h).symm, rfl⟩
          by_cases hslash : c = '\\'
          · subst hslash
            cases cs with
            | nil => simp [afterQuoted] at h
            | cons x cs =>
                refine closes_of_escape (fun hx => hcs (hx ▸ List.mem_cons_self)) h fun ds hds => ?_
                exact ih' ds (hds.trans (List.suffix_cons x cs))
          · have hplain : c ∉ ['"', '\\', '\r'] := by simp [hquote, hslash, hc]
            rw [afterQuoted_plain hplain] at h
            exact (ih' cs (List.suffix_refl cs) h).plain hplain

/-- What the lexer passes over up to a closing quote and the pounds is a raw text, unless a return is in
it. -/
theorem exists_raw {n : Nat} {rest : List Char} (hreturn : '\r' ∉ cs)
    (h : afterRaw .string (pounds n) cs = some rest) :
    ∃ s suffix, cs = s ++ '"' :: (pounds n ++ suffix) ∧ rest = afterSuffix suffix ∧
      ¬ '"' :: pounds n <:+: s := by
  induction cs with
  | nil => cases h
  | cons c cs ih =>
      obtain ⟨hc, hcs⟩ : c ≠ '\r' ∧ '\r' ∉ cs := by simpa [eq_comm] using hreturn
      rw [afterRaw] at h
      split at h
      · rename_i hend
        rw [Bool.and_eq_true, beq_iff_eq, List.isPrefixOf_iff_prefix] at hend
        obtain ⟨rfl, suffix, rfl⟩ := hend
        rw [List.drop_left] at h
        exact ⟨[], suffix, rfl, (Option.some.inj h).symm, by simp⟩
      · rename_i hend
        have hplain : Quoted.string.allowsPlain c = true := rfl
        rw [if_neg (by simpa using hc), if_pos hplain] at h
        obtain ⟨s, suffix, rfl, hrest, hinfix⟩ := ih hcs h
        refine ⟨c :: s, suffix, rfl, hrest, fun hin => ?_⟩
        rcases List.infix_cons_iff.1 hin with hprefix | hin
        · obtain ⟨hquote, hpounds⟩ := List.cons_prefix_cons.1 hprefix
          rw [Bool.and_eq_true, beq_iff_eq, List.isPrefixOf_iff_prefix] at hend
          exact hend ⟨hquote.symm, hpounds.trans (List.prefix_append s _)⟩
        · exact hinfix hin

/-- No number begins like a string literal. -/
theorem after_quote (cs : List Char) : after ('"' :: cs) = afterQuoted .string cs := by
  have hfloat : afterFloat ('"' :: cs) = none := rfl
  have hinteger : afterInteger ('"' :: cs) = none := rfl
  rw [after, hfloat, hinteger, Option.or_none, Option.or_none]
  rfl

theorem after_raw (cs : List Char) : after ('r' :: cs) = afterRawOpening .string cs := by
  have hfloat : afterFloat ('r' :: cs) = none := rfl
  have hinteger : afterInteger ('r' :: cs) = none := rfl
  rw [after, hfloat, hinteger, Option.or_none, Option.or_none]
  rfl

/-- The pounds of a raw literal, and what stands behind its first quote. -/
theorem exists_pounds {rest : List Char} (h : afterRawOpening .string cs = some rest) :
    ∃ n ds, n ≤ 255 ∧ cs = pounds n ++ '"' :: ds ∧ afterRaw .string (pounds n) ds = some rest := by
  have hpounds : cs.takeWhile (· == '#') = pounds (cs.takeWhile (· == '#')).length :=
    List.eq_replicate_of_mem fun d hd => by simpa using List.mem_takeWhile_imp hd
  have hsplit : cs.takeWhile (· == '#') ++ cs.drop (cs.takeWhile (· == '#')).length = cs :=
    List.prefix_iff_eq_append.1 (List.takeWhile_prefix _)
  rw [afterRawOpening] at h
  split at h
  · rename_i ds hds
    split at h
    · rename_i hn
      rw [hds, hpounds] at hsplit
      rw [hpounds] at h
      exact ⟨_, ds, hn, hsplit.symm, h⟩
    · cases h
  · cases h

/-! ## Suffixes -/

/-- No suffix ends like a literal. -/
theorem not_end_of_afterSuffix (h : afterSuffix cs = []) (hc : c ∈ cs.getLast?) :
    c ≠ '"' ∧ c ≠ '#' := by
  cases cs with
  | nil => cases hc
  | cons d cs =>
      have hstart : Text.isIdentStart d = true := by
        by_contra hd
        simp [afterSuffix, afterIdent?, hd] at h
      have hrest : ∀ e ∈ cs, Text.isIdentContinue e = true := by
        simpa [afterSuffix, afterIdent?, hstart, List.dropWhile_eq_nil_iff] using h
      rcases List.mem_cons.1 (List.mem_of_getLast? hc) with rfl | hmem
      · constructor <;> rintro rfl <;> revert hstart <;> decide
      · have hcontinue := hrest c hmem
        constructor <;> rintro rfl <;> revert hcontinue <;> decide

theorem isSuffixed_of_getLast? {t : String} (h : t.toList.getLast? = some c) :
    isSuffixed t = (c != '"' && c != '#') := by
  rw [isSuffixed, h, Option.any_some]

/-- What denotes a text has no suffix. -/
theorem Denotes.isSuffixed_eq {t v : String} (h : Denotes t v) : isSuffixed t = false := by
  cases h with
  | @quoted cs s =>
      have hlast : (String.ofList ('"' :: (cs ++ ['"']))).toList.getLast? = some '"' := by
        rw [String.toList_ofList, ← List.cons_append, List.getLast?_concat]
      rw [isSuffixed_of_getLast? hlast]
      rfl
  | @raw n s =>
      have hpounds : ('"' :: pounds n).getLast? = if n = 0 then some '"' else some '#' := by
        cases n with
        | zero => rfl
        | succ n => simp [pounds, List.getLast?_cons, List.getLast?_replicate]
      have hlast : (String.ofList ('r' :: (pounds n ++ '"' :: (s ++ '"' :: pounds n)))).toList.getLast? =
          if n = 0 then some '"' else some '#' := by
        have hsplit : 'r' :: (pounds n ++ '"' :: (s ++ '"' :: pounds n)) =
            ('r' :: (pounds n ++ '"' :: s)) ++ '"' :: pounds n := by simp
        rw [String.toList_ofList, hsplit, List.getLast?_append, hpounds]
        split <;> rfl
      split at hlast <;> rw [isSuffixed_of_getLast? hlast] <;> rfl

/-- A string literal that the lexer takes whole, and in which no return stands, is one that denotes the
text that is read, and perhaps a suffix behind it. -/
theorem exists_bare {t v : String} (hreturn : '\r' ∉ t.toList) (h : after t.toList = some [])
    (hv : string? t = some v) :
    ∃ bare suffix, t = bare ++ suffix ∧ Denotes bare v ∧ (isSuffixed t = false ↔ suffix = "") := by
  suffices hbare : ∃ bare suffix w, t = bare ++ suffix ∧ Denotes bare w ∧
      afterSuffix suffix.toList = [] by
    obtain ⟨bare, suffix, w, rfl, hw, hsuffix⟩ := hbare
    obtain rfl := Option.some.inj ((hw.string?_append suffix).symm.trans hv)
    refine ⟨bare, suffix, rfl, hw, fun hnone => ?_, fun hempty => ?_⟩
    · by_contra hne
      obtain ⟨c, hc⟩ : ∃ c, suffix.toList.getLast? = some c :=
        Option.isSome_iff_exists.1 (by simpa using hne)
      have hlast : (bare ++ suffix).toList.getLast? = some c := by
        rw [String.toList_append, List.getLast?_append, hc, Option.some_or]
      obtain ⟨hquote, hpound⟩ := not_end_of_afterSuffix hsuffix hc
      rw [isSuffixed_of_getLast? hlast] at hnone
      simp [hquote, hpound] at hnone
    · rw [hempty, String.append_empty]
      exact hw.isSuffixed_eq
  have ht : t = String.ofList t.toList := String.ofList_toList.symm
  unfold string? at hv
  split at hv
  · rename_i cs hcs
    rw [hcs, after_quote] at h
    obtain ⟨ds, s, suffix, hds, hsuffix, rfl⟩ :=
      closes_of_afterQuoted (fun hr => hreturn (hcs ▸ List.mem_cons_of_mem _ hr)) h
    refine ⟨_, String.ofList suffix, _, ?_, .quoted hds, by simpa using hsuffix.symm⟩
    rw [ht, hcs, ← String.ofList_append]
    simp
  · rename_i cs hcs
    rw [hcs, after_raw] at h
    obtain ⟨n, ds, hn, rfl, hread⟩ := exists_pounds h
    have hds : '\r' ∉ ds := by
      intro hr
      refine hreturn (hcs ▸ List.mem_cons_of_mem _ ?_)
      exact List.mem_append_right _ (List.mem_cons_of_mem _ hr)
    obtain ⟨s, suffix, rfl, hsuffix, hend⟩ := exists_raw hds hread
    refine ⟨_, String.ofList suffix, _, ?_, .raw hn hend fun hr => hds (List.mem_append_left _ hr),
      by simpa using hsuffix.symm⟩
    rw [ht, hcs, ← String.ofList_append]
    simp
  · cases hv

/-- Such a literal denotes the text that is read exactly if it has no suffix. -/
theorem denotes_iff {t v : String} (hreturn : '\r' ∉ t.toList) (h : after t.toList = some [])
    (hv : string? t = some v) : Denotes t v ↔ isSuffixed t = false := by
  obtain ⟨bare, suffix, ht, hbare, hsuffixed⟩ := exists_bare hreturn h hv
  refine ⟨Denotes.isSuffixed_eq, fun hnone => ?_⟩
  rwa [ht, hsuffixed.1 hnone, String.append_empty]

/-! ## Literals that are written -/

theorem hexNumber_hexDigits (n : Nat) : hexNumber 0 (Text.hexDigits n) = n := by
  induction n using Nat.strongRecOn with
  | ind n ih =>
      rw [Text.hexDigits, Nat.toDigits_eq_if (by decide)]
      split
      · rename_i hlt
        simp [hexNumber, hexValue?_digitChar n hlt]
      · have hlast := hexValue?_digitChar (n % 16) (Nat.mod_lt n (by decide))
        have hfront := ih (n / 16) (by omega)
        rw [Text.hexDigits, hexNumber] at hfront
        rw [hexNumber, List.foldl_append, hfront]
        simp only [List.foldl_cons, List.foldl_nil, hlast, Option.getD_some]
        omega

theorem isHex_of_mem_hexDigits {n : Nat} {d : Char} (h : d ∈ Text.hexDigits n) : isHex d = true := by
  induction n using Nat.strongRecOn with
  | ind n ih =>
      rw [Text.hexDigits, Nat.toDigits_eq_if (by decide)] at h
      split at h
      · rename_i hlt
        rw [List.mem_singleton] at h
        simp [isHex, h, hexValue?_digitChar n hlt]
      · rcases List.mem_append.1 h with h | h
        · exact ih (n / 16) (by omega) h
        · rw [List.mem_singleton] at h
          simp [isHex, h, hexValue?_digitChar (n % 16) (Nat.mod_lt n (by decide))]

/-- The digits that a character is written with are its code point. -/
theorem codePoint_hexDigits (c : Char) : CodePoint (Text.hexDigits c.toNat) c := by
  have hne : Text.hexDigits c.toNat ≠ [] := Nat.toDigits_ne_nil
  have hall : ∀ d ∈ Text.hexDigits c.toNat, isHex d = true := fun d hd => isHex_of_mem_hexDigits hd
  have hfilter : (Text.hexDigits c.toNat).filter (· != '_') = Text.hexDigits c.toNat := by
    rw [List.filter_eq_self]
    exact fun d hd => bne_iff_ne.2 (ne_of_isHex (by decide) (hall d hd))
  refine ⟨⟨_, List.head_mem_head? hne, hall _ (List.head_mem hne)⟩, fun d hd => .inr (hall d hd), ?_, ?_⟩
  · rw [hfilter]
    refine (Nat.length_toDigits_le_iff (by decide) (by decide)).2 ?_
    rcases c.valid with hlow | hhigh
    · exact Nat.lt_trans hlow (by decide)
    · exact Nat.lt_trans hhigh.2 (by decide)
  · rw [hfilter, hexNumber_hexDigits]

/-- A character is written so that it is spelled. -/
theorem Spells.escapeDebug (c : Char) (h : Spells cs s) :
    Spells (Text.escapeDebug c ++ cs) (c :: s) := by
  unfold Text.escapeDebug
  split
  · exact .letter .null h
  · exact .letter .tab h
  · exact .letter .newline h
  · exact .letter .return h
  · exact .letter .backslash h
  · exact .letter .quote h
  · rename_i hreturn hslash hquote
    split
    · have hcode := Spells.codePoint (codePoint_hexDigits c) h
      simpa [Text.escapeCodePoint] using hcode
    · refine .plain ?_ h
      simp only [List.mem_cons, List.not_mem_nil, or_false, not_or]
      exact ⟨hquote, hslash, hreturn⟩

theorem spells_escapeLiteral (s : List Char) : Spells (Text.escapeLiteral s) s := by
  induction s with
  | nil => exact .nil
  | cons c s ih =>
      rw [Text.escapeLiteral]
      split
      · rename_i hnull
        obtain ⟨rfl, -⟩ : c = '\x00' ∧ _ := by simpa using hnull
        exact .hex (m := 0) (n := 0) (by decide) (by decide) (by decide) rfl ih
      · exact ih.escapeDebug c

/-- The literal that is written for a text denotes it. -/
theorem denotes_literal (s : String) : Denotes (Text.literal s) s := by
  have hdenotes : Denotes (String.ofList ('"' :: (Text.escapeLiteral s.toList ++ ['"'])))
      (String.ofList s.toList) := .quoted (spells_escapeLiteral s.toList)
  simpa [Text.literal] using hdenotes

end RowDerive.Literal
