import RowDerive.Text.Quote
import RowDerive.Proofs.Token.Spelling

/-!
# Quoted texts

A text is written bare, between single quotes, or between double quotes with escapes. The first character
tells which, so that no two texts are written alike. A reader that goes from left to right knows from the
quotes, the backslashes and the angles that it has passed what the next character stands within: whatever
the text is, it finds no blank of its own in it and stands within nothing again at its end. Between such
texts a blank is therefore always one that parts them.
-/

namespace RowDerive.Text

/-! ## The three forms -/

/-- A character that needs no quotes. -/
def isBare (c : Char) : Bool := !needsEscape c && !isShellSpecial c

/-- What a letter behind a backslash stands for. -/
def escapeLetters : List (Char × Char) :=
  [('"', '"'), ('\\', '\\'), ('$', '$'), ('\x60', '\x60'), ('a', '\x07'), ('b', '\x08'), ('v', '\x0b'),
   ('f', '\x0c'), ('e', '\x1b'), ('t', '\t'), ('r', '\r'), ('n', '\n')]

/-- How a character is written between double quotes. -/
inductive WrittenAs (c : Char) : List Char → Prop
  | plain (hquote : c ≠ '"') (hslash : c ≠ '\\') : WrittenAs c [c]
  | letter {x : Char} (hx : (x, c) ∈ escapeLetters) : WrittenAs c ['\\', x]
  | codePoint : WrittenAs c (escapeCodePoint c)

theorem writtenAs_escapeInvisible (c : Char) : WrittenAs c (escapeInvisible c) := by
  unfold escapeInvisible
  split
  case h_9 => exact .codePoint
  all_goals exact .letter (by decide)

theorem writtenAs_escapeQuoted (c : Char) : WrittenAs c (escapeQuoted c) := by
  unfold escapeQuoted
  split
  case h_3 => exact .plain (by decide) (by decide)
  case h_6 hquote hslash _ _ _ =>
    split
    · exact writtenAs_escapeInvisible c
    · exact .plain hquote hslash
  all_goals exact .letter (by decide)

/-- How a text is written. -/
inductive QuotedAs (cs : List Char) : List Char → Prop
  | bare (h : ∀ c ∈ cs, isBare c = true) : QuotedAs cs cs
  | single (h : '\'' ∉ cs) : QuotedAs cs ('\'' :: (cs ++ ['\'']))
  | double : QuotedAs cs ('"' :: (cs.flatMap escapeQuoted ++ ['"']))

theorem quotedAs_quoteChars (cs : List Char) : QuotedAs cs (quoteChars cs) := by
  unfold quoteChars quoteStyle
  by_cases hescape : cs.any needsEscape = true
  · rw [if_pos hescape]
    exact .double
  · have hplain : ∀ c ∈ cs, needsEscape c = false := by simpa using hescape
    rw [if_neg hescape]
    by_cases hspecial : cs.any isShellSpecial = true
    · rw [if_pos hspecial]
      refine .single fun htick => ?_
      have := hplain '\'' htick
      simp [needsEscape] at this
    · have hordinary : ∀ c ∈ cs, isShellSpecial c = false := by simpa using hspecial
      rw [if_neg hspecial]
      exact .bare fun c hc => by simp [isBare, hplain c hc, hordinary c hc]

/-! ## No two texts are written alike -/

variable {c d : Char} {cs ds xs ys : List Char}

/-- No letter stands for two characters, and none of them begins a code point. -/
theorem escapeLetters_unique : ∀ p ∈ escapeLetters, p.1 ≠ 'u' ∧ ∀ q ∈ escapeLetters, p.1 = q.1 → p.2 = q.2 := by
  decide

theorem escapeCodePoint_eq (c : Char) :
    escapeCodePoint c = '\\' :: 'u' :: '\x7b' :: (hexDigits c.toNat ++ ['\x7d']) := rfl

/-- Characters that are written alike up to what follows are the same. -/
theorem WrittenAs.append_inj (hc : WrittenAs c cs) (hd : WrittenAs d ds) (h : cs ++ xs = ds ++ ys) :
    c = d ∧ xs = ys := by
  cases hc with
  | plain _ hslash =>
      cases hd with
      | plain => simpa using h
      | letter | codePoint => exact absurd (List.cons.inj h).1 hslash
  | letter hx =>
      cases hd with
      | plain _ hslash => exact absurd (List.cons.inj h).1.symm hslash
      | letter hy =>
          obtain ⟨hletter, hrest⟩ : _ ∧ xs = ys := by simpa using h
          exact ⟨(escapeLetters_unique _ hx).2 _ hy hletter, hrest⟩
      | codePoint =>
          rw [escapeCodePoint_eq] at h
          obtain ⟨hletter, -⟩ : _ ∧ _ := by simpa using h
          exact absurd hletter (escapeLetters_unique _ hx).1
  | codePoint =>
      cases hd with
      | plain _ hslash => exact absurd (List.cons.inj h).1.symm hslash
      | letter hy =>
          rw [escapeCodePoint_eq] at h
          obtain ⟨hletter, -⟩ : _ ∧ _ := by simpa using h
          exact absurd hletter.symm (escapeLetters_unique _ hy).1
      | codePoint =>
          -- code points are told apart by the reader of string literals, which has the same ones
          have hread := congrArg (Literal.decode .plain) h
          rw [Literal.decode_escapeCodePoint, Literal.decode_escapeCodePoint] at hread
          obtain rfl := (List.cons.inj hread).1
          exact ⟨rfl, List.append_cancel_left h⟩

theorem flatMap_escapeQuoted_inj (h : cs.flatMap escapeQuoted = ds.flatMap escapeQuoted) : cs = ds := by
  have hne : ∀ c, escapeQuoted c ≠ [] := fun c hc => by
    have hwritten := hc ▸ writtenAs_escapeQuoted c
    cases hwritten
  induction cs generalizing ds with
  | nil =>
      cases ds with
      | nil => rfl
      | cons d ds => exact absurd (List.append_eq_nil_iff.1 h.symm).1 (hne d)
  | cons c cs ih =>
      cases ds with
      | nil => exact absurd (List.append_eq_nil_iff.1 h).1 (hne c)
      | cons d ds =>
          rw [List.flatMap_cons, List.flatMap_cons] at h
          obtain ⟨rfl, hrest⟩ :=
            (writtenAs_escapeQuoted c).append_inj (writtenAs_escapeQuoted d) h
          rw [ih hrest]

theorem isBare_quotes : isBare '\'' = false ∧ isBare '"' = false := by decide

/-- The first character tells the form. -/
theorem QuotedAs.inj (hcs : QuotedAs cs xs) (hds : QuotedAs ds ys) (h : xs = ys) : cs = ds := by
  have habs : ∀ {q : Char} {es fs : List Char}, (∀ c ∈ es, isBare c = true) → isBare q = false →
      es ≠ q :: fs := by
    rintro q es fs hbare hq rfl
    exact absurd (hbare q List.mem_cons_self) (hq ▸ Bool.false_ne_true)
  cases hcs with
  | bare hbare =>
      cases hds with
      | bare => exact h
      | single => exact absurd h (habs hbare isBare_quotes.1)
      | double => exact absurd h (habs hbare isBare_quotes.2)
  | single =>
      cases hds with
      | bare hbare => exact absurd h.symm (habs hbare isBare_quotes.1)
      | single => simpa using h
      | double => exact absurd (List.cons.inj h).1 (by decide)
  | double =>
      cases hds with
      | bare hbare => exact absurd h.symm (habs hbare isBare_quotes.2)
      | single => exact absurd (List.cons.inj h).1 (by decide)
      | double => exact flatMap_escapeQuoted_inj (List.append_cancel_right (List.cons.inj h).2)

/-- A text is known by the way it is written. -/
theorem quoteChars_inj (h : quoteChars cs = quoteChars ds) : cs = ds :=
  (quotedAs_quoteChars cs).inj (quotedAs_quoteChars ds) h

/-! ## The equals sign -/

/-- An equals sign is written for no other character. -/
theorem WrittenAs.equals_notMem (hc : WrittenAs c cs) (h : c ≠ '=') : '=' ∉ cs := by
  cases hc with
  | plain => simpa using h.symm
  | letter hx =>
      have hletter : ∀ p ∈ escapeLetters, p.1 ≠ '=' := by decide
      simpa using (hletter _ hx).symm
  | codePoint =>
      have hdigits : '=' ∉ hexDigits c.toNat := fun hmem =>
        absurd (Literal.isHex_of_mem_hexDigits hmem) (by decide)
      simp [escapeCodePoint_eq, hdigits]

theorem equals_notMem_quoteChars (h : '=' ∉ cs) : '=' ∉ quoteChars cs := by
  have hquoted := quotedAs_quoteChars cs
  generalize quoteChars cs = xs at hquoted
  cases hquoted with
  | bare => exact h
  | single => simpa using h
  | double =>
      have hflat : '=' ∉ cs.flatMap escapeQuoted := fun hmem => by
        obtain ⟨c, hc, hmem⟩ := List.mem_flatMap.1 hmem
        exact (writtenAs_escapeQuoted c).equals_notMem (fun heq => h (heq ▸ hc)) hmem
      simpa using hflat

/-! ## What a character stands within -/

/-- What the next character of a printed row stands within. -/
inductive Within where
  | nothing
  | ticks
  | quotes
  /-- Behind a backslash between double quotes. -/
  | escape
  | angles
deriving DecidableEq, Repr

namespace Within

/-- What stands within what after a character. -/
def after : Within → Char → Within
  | nothing, '\'' => ticks
  | nothing, '"' => quotes
  | nothing, '<' => angles
  | ticks, '\'' => nothing
  | quotes, '"' => nothing
  | quotes, '\\' => escape
  | escape, _ => quotes
  | angles, '>' => nothing
  | w, _ => w

/-- Whether a character parts two entries: a blank that stands within nothing. -/
def parts (w : Within) (c : Char) : Bool := w == nothing && c == ' '

/-- What stands within what after characters of which none parts two entries. -/
def pass? : Within → List Char → Option Within
  | w, [] => some w
  | w, c :: cs => if w.parts c then none else pass? (w.after c) cs

/-- The entries that the characters are parted into. -/
def entries : Within → List Char → List (List Char)
  | _, [] => [[]]
  | w, c :: cs =>
    if w.parts c then [] :: entries nothing cs else (entries (w.after c) cs).modifyHead (c :: ·)

variable {w w' : Within}

theorem pass?_append (w : Within) (xs ys : List Char) :
    pass? w (xs ++ ys) = (pass? w xs).bind (pass? · ys) := by
  induction xs generalizing w with
  | nil => rfl
  | cons x xs ih =>
      rw [List.cons_append, pass?, pass?]
      split
      · rfl
      · exact ih (w.after x)

theorem pass?_append_of_eq_some (h : pass? w xs = some w') (ys : List Char) :
    pass? w (xs ++ ys) = pass? w' ys := by
  rw [pass?_append, h, Option.bind_some]

/-- Characters that change nothing are passed. -/
theorem pass?_of_forall (h : ∀ c ∈ xs, w.parts c = false ∧ w.after c = w) : pass? w xs = some w := by
  induction xs with
  | nil => rfl
  | cons x xs ih =>
      obtain ⟨hparts, hafter⟩ := h x List.mem_cons_self
      rw [pass?, hparts, if_neg Bool.false_ne_true, hafter]
      exact ih fun c hc => h c (List.mem_cons_of_mem x hc)

/-- What is passed is one entry up to the blank behind it. -/
theorem entries_append_blank (h : pass? w xs = some nothing) (ys : List Char) :
    entries w (xs ++ ' ' :: ys) = xs :: entries nothing ys := by
  induction xs generalizing w with
  | nil =>
      obtain rfl := Option.some.inj h
      rfl
  | cons x xs ih =>
      rw [pass?] at h
      split at h
      · cases h
      · rename_i hparts
        rw [List.cons_append, entries, if_neg hparts, ih h, List.modifyHead_cons]

theorem entries_of_pass? (h : (pass? w xs).isSome) : entries w xs = [xs] := by
  induction xs generalizing w with
  | nil => rfl
  | cons x xs ih =>
      rw [pass?] at h
      split at h
      · cases h
      · rename_i hparts
        rw [entries, if_neg hparts, ih h, List.modifyHead_cons]

/-- Entries that are joined by blanks are found again. -/
theorem entries_intercalate {es : List (List Char)} (hne : es ≠ [])
    (h : ∀ e ∈ es, pass? nothing e = some nothing) : entries nothing ([' '].intercalate es) = es := by
  induction es with
  | nil => exact absurd rfl hne
  | cons e es ih =>
      have he := h e List.mem_cons_self
      cases es with
      | nil =>
          rw [List.intercalate_singleton]
          exact entries_of_pass? (he ▸ rfl)
      | cons e' es =>
          have htail := ih (List.cons_ne_nil e' es) fun f hf => h f (List.mem_cons_of_mem e hf)
          rw [List.intercalate_cons_cons, List.append_assoc, List.singleton_append,
            entries_append_blank he, htail]

/-! ### Quoted texts are passed -/

theorem pass?_of_bare (h : ∀ c ∈ xs, isBare c = true) : pass? nothing xs = some nothing := by
  refine pass?_of_forall fun c hc => ?_
  have hbare := h c hc
  have hne : ∀ {d : Char}, isBare d = false → c ≠ d := by
    rintro d hd rfl
    exact Bool.false_ne_true (hd.symm.trans hbare)
  have htick : c ≠ '\'' := hne (by decide)
  have hquote : c ≠ '"' := hne (by decide)
  have hangle : c ≠ '<' := hne (by decide)
  have hblank : c ≠ ' ' := hne (by decide)
  exact ⟨by simp [parts, hblank], by simp [after, htick, hquote, hangle]⟩

theorem pass?_of_writtenAs (h : WrittenAs c xs) : pass? quotes xs = some quotes := by
  have hordinary : ∀ {d : Char}, d ≠ '"' → d ≠ '\\' →
      quotes.parts d = false ∧ quotes.after d = quotes := by
    intro d hquote hslash
    exact ⟨rfl, by simp [after, hquote, hslash]⟩
  cases h with
  | plain hquote hslash =>
      refine pass?_of_forall fun d hd => ?_
      obtain rfl := List.mem_singleton.1 hd
      exact hordinary hquote hslash
  | letter => rfl
  | codePoint =>
      -- the backslash and the letter bring the reader back between the quotes
      have hfront : pass? quotes ['\\', 'u'] = some quotes := rfl
      refine (pass?_append_of_eq_some hfront _).trans (pass?_of_forall fun d hd => ?_)
      rcases List.mem_cons.1 hd with rfl | hd
      · exact hordinary (by decide) (by decide)
      rcases List.mem_append.1 hd with hd | hd
      · have hhex := Literal.notMem_of_isHex (Literal.isHex_of_mem_hexDigits hd)
        simp only [List.mem_cons, not_or] at hhex
        exact hordinary hhex.1 hhex.2.1
      · obtain rfl := List.mem_singleton.1 hd
        exact hordinary (by decide) (by decide)

theorem pass?_flatMap_escapeQuoted (cs : List Char) :
    pass? quotes (cs.flatMap escapeQuoted) = some quotes := by
  induction cs with
  | nil => rfl
  | cons c cs ih =>
      rw [List.flatMap_cons, pass?_append_of_eq_some (pass?_of_writtenAs (writtenAs_escapeQuoted c)), ih]

/-- A quoted text is passed, whatever it holds. -/
theorem pass?_quoteChars (cs : List Char) : pass? nothing (quoteChars cs) = some nothing := by
  have hquoted := quotedAs_quoteChars cs
  generalize quoteChars cs = xs at hquoted
  cases hquoted with
  | bare h => exact pass?_of_bare h
  | single h =>
      have hticks : pass? ticks cs = some ticks := pass?_of_forall fun c hc => by
        have hne : c ≠ '\'' := fun heq => h (heq ▸ hc)
        exact ⟨rfl, by simp [after, hne]⟩
      exact pass?_append_of_eq_some hticks ['\'']
  | double => exact pass?_append_of_eq_some (pass?_flatMap_escapeQuoted cs) ['"']

end Within

end RowDerive.Text
