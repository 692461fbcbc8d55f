import RowDerive.Column.Setting
import RowDerive.Proofs.Follow.Combinator

/-!
# One setting

A setting is a key, `=` and a value. Here it is said which tokens are a setting, and in which ways tokens
fail to be one; a reader of one setting takes the first and reports the second, and nothing else.
-/

namespace RowDerive

open RowDerive.Parser RowDerive.Grammar

/-! ## The next token -/

/-- The token `t` is next, and `d` is the place behind it. -/
def Cursor.Next (c : Cursor) (t : Token) (d : Cursor) : Prop :=
  ∃ us, Token.reveal c.rest = t :: us ∧ d = { c with rest := us, last := t.span }

namespace Parser

variable {c d e : Cursor}

theorem startOf_of_next {t : Token} (h : c.Next t d) : startOf true c = t.span.start := by
  obtain ⟨us, hts, -⟩ := h
  rw [startOf, if_pos rfl, hts]

/-- An operator of one character is read where that character is next. -/
theorem discard_op_eq_ok_iff {str : String} {ch : Char} (hstr : str.toList = [ch]) :
    discard (op str) c = .ok ((), d) ↔ ∃ joint a, c.Next (.punct ch joint a) d := by
  have hlength : str.length = 1 := by rw [← String.length_toList, hstr, List.length_singleton]
  constructor
  · intro h
    obtain ⟨ts, hread⟩ := discard_eq_ok h
    obtain ⟨joint, a, us, hts⟩ := Token.exists_punct_of_op hstr (op_eq_ok hread).1
    refine ⟨joint, a, us, hts, ?_⟩
    simp only [op, bind_get, hts, hstr, hlength, Look.opChars, beq_self_eq_true, if_true] at hread
    cases hread
    rfl
  · rintro ⟨joint, a, us, hts, rfl⟩
    simp only [discard_apply, op, bind_get, hts, hstr, hlength, Look.opChars, beq_self_eq_true, if_true]
    rfl

theorem op?_of_not_ahead {str : String} (h : Look.op str c.rest = false) : op? str c = .ok ([], c) := by
  rw [op?, bind_peek, h]
  rfl

theorem op?_eq_ok_nil {str : String} (hstr : Token.op str ≠ []) (h : op? str c = .ok ([], d)) : d = c := by
  rw [op?, bind_peek] at h
  split at h
  · simp only [op, bind_get] at h
    split at h
    · exact absurd (Prod.mk.inj (Except.ok.inj h)).1 hstr
    · cases h
  · cases h
    rfl

theorem word_eq_ok_iff {x : String} : word c = .ok (x, d) ↔ ∃ a, c.Next (.ident x a) d := by
  constructor
  · intro h
    obtain ⟨t, us, y, hts, hy, hok⟩ := take?_eq_ok (by rintro _ _ ⟨⟩) h
    cases hok
    cases t with
    | ident z a =>
        cases hy
        exact ⟨a, us, hts, rfl⟩
    | literal | lifetime | punct | group => cases hy
  · rintro ⟨a, us, hts, rfl⟩
    simp only [word, Parser.take?, bind_apply, get_apply, hts, set_apply, pure_apply]

theorem located_stringLiteral_eq_ok_iff {x : Located StringLiteral} :
    located stringLiteral c = .ok (x, d) ↔
      ∃ y, StringLiteral.ofToken? y = some x.val ∧ c.Next (.literal y x.span) d := by
  constructor
  · intro h
    obtain ⟨v, hread, rfl⟩ := located_eq_ok h
    obtain ⟨t, us, w, hts, hw, hok⟩ := take?_eq_ok (by rintro _ _ ⟨⟩) hread
    cases hok
    cases t with
    | literal y a =>
        refine ⟨y, hw, us, ?_⟩
        rw [startOf_of_next ⟨us, hts, rfl⟩]
        exact ⟨hts, rfl⟩
    | ident | lifetime | punct | group => cases hw
  · rintro ⟨y, hy, us, hts, rfl⟩
    obtain ⟨v, a⟩ := x
    rw [located_apply, startOf_of_next ⟨us, hts, rfl⟩]
    simp only [stringLiteral, Parser.take?, bind_apply, get_apply, hts, hy, set_apply, pure_apply]
    rfl

end Parser

namespace Setting

/-- What a setting is of. -/
inductive Kind where
  | name
  | adapter
deriving DecidableEq, Repr

/-- The key of such a setting. -/
def Kind.key : Kind → String
  | name => "name"
  | adapter => "adapter"

/-- What is wrong with a second setting of the kind. -/
def Kind.duplicate : Kind → Problem
  | name => .duplicateName
  | adapter => .duplicateAdapter

/-- One setting as written. -/
inductive Entry where
  | name (x : Located StringLiteral)
  | adapter (t : Ty)
deriving DecidableEq, Repr

def Entry.kind : Entry → Kind
  | name _ => .name
  | adapter _ => .adapter

/-- Whether there is a setting of the kind. -/
def has (s : Setting) : Kind → Bool
  | .name => s.name.isSome
  | .adapter => s.adapter.isSome

/-- The settings with one more. -/
def put (s : Setting) : Entry → Setting
  | .name x => { s with name := some x }
  | .adapter t => { s with adapter := some t }

/-- A setting stands at the first cursor and the second is behind it: `name =` and a string literal that is
not empty, or `adapter =` and a type. -/
inductive Stands (ρ : Rules) : Cursor → Entry → Cursor → Prop
  | name {c c₁ c₂ d : Cursor} {a b : Span} {joint : Bool} {y : String} {x : Located StringLiteral}
    (hkey : c.Next (.ident "name" a) c₁) (heq : c₁.Next (.punct '=' joint b) c₂)
    (hvalue : c₂.Next (.literal y x.span) d) (hy : StringLiteral.ofToken? y = some x.val)
    (hne : x.val.value ≠ "") : Stands ρ c (.name x) d
  | adapter {c c₁ c₂ d : Cursor} {a b : Span} {joint : Bool} {t : Ty}
    (hkey : c.Next (.ident "adapter" a) c₁) (heq : c₁.Next (.punct '=' joint b) c₂)
    (hvalue : ρ.ty true c₂ = .ok (t, d)) : Stands ρ c (.adapter t) d

/-- A name without more to it is next, and is the key of settings of the kind. -/
def KeyAt (kind : Kind) (c : Cursor) (a : Span) (d : Cursor) : Prop :=
  c.Next (.ident kind.key a) d ∧ Look.op "::" d.rest = false

/-- Where a key at `c` whose token is at `a` is reported, with the invisible groups that end with it. -/
def keySpan (c : Cursor) (a : Span) : Span :=
  ⟨a.start, (Token.listFrontStop? c.rest).elim a.stop Prod.fst⟩

/-- No setting stands at the cursor that could be added to `s`, and that is what is reported. -/
inductive Fails (ρ : Rules) (s : Setting) (c : Cursor) : Report → Prop
  | key {e : SyntaxError} (h : Setting.key c = .error e) : Fails ρ s c (.ofSyntax e)
  | unknown {k : Located PlainPath} {d : Cursor} (h : located Setting.key c = .ok (k, d))
    (hk : ∀ kind : Kind, k.val.isName kind.key = false) : Fails ρ s c ⟨.unknownSetting, k.span⟩
  | again {kind : Kind} {a : Span} {d : Cursor} (h : KeyAt kind c a d) (hs : s.has kind = true) :
    Fails ρ s c ⟨kind.duplicate, keySpan c a⟩
  | name {a : Span} {d : Cursor} {r : Report} (h : KeyAt .name c a d) (hs : s.has .name = false)
    (hvalue : value (located stringLiteral) d = .error r) : Fails ρ s c r
  | empty {a b : Span} {joint : Bool} {y : String} {x : Located StringLiteral} {d d₁ d₂ : Cursor}
    (h : c.Next (.ident "name" a) d) (hs : s.has .name = false) (heq : d.Next (.punct '=' joint b) d₁)
    (hvalue : d₁.Next (.literal y x.span) d₂) (hy : StringLiteral.ofToken? y = some x.val)
    (hx : x.val.value = "") : Fails ρ s c ⟨.emptyName, x.span⟩
  | adapter {a : Span} {d : Cursor} {r : Report} (h : KeyAt .adapter c a d) (hs : s.has .adapter = false)
    (hvalue : value (ρ.ty true) d = .error r) : Fails ρ s c r

/-! ## Keys -/

section

variable {c d : Cursor} {k : Located PlainPath} {kind : Kind} {a : Span}

/-- The reader of keys at a word. -/
theorem key_of_word {x : String} (h : c.Next (.ident x a) d) :
    Setting.key c = (do return ⟨false, x :: (← keyRest (← ahead))⟩ : Parser PlainPath) d := by
  have hread : word c = .ok (x, d) := word_eq_ok_iff.2 ⟨a, h⟩
  obtain ⟨us, hts, -⟩ := h
  have hcolons : Look.op "::" c.rest = false := by
    rw [Look.op, hts]
    rfl
  have hword : Look.word c.rest = true := by
    rw [Look.word, Look.next, hts]
    rfl
  rw [Setting.key, bind_apply, op?_of_not_ahead hcolons]
  simp only [bind_peek, hword, if_true]
  rw [bind_apply, hread]
  rfl

theorem keyRest_eq_ok_nil_iff {n : Nat} :
    keyRest (n + 1) c = .ok ([], d) ↔ Look.op "::" c.rest = false ∧ d = c := by
  rw [keyRest, bind_peek]
  constructor
  · intro h
    split at h
    · obtain ⟨_, c₁, -, h⟩ := bind_eq_ok h
      obtain ⟨x, c₂, -, h⟩ := bind_eq_ok h
      obtain ⟨xs, c₃, -, h⟩ := bind_eq_ok h
      cases h
    · rename_i hcolons
      cases h
      exact ⟨Bool.eq_false_iff.2 hcolons, rfl⟩
  · rintro ⟨hcolons, rfl⟩
    rw [hcolons]
    rfl

theorem located_key_of_word {x : String} (h : c.Next (.ident x a) d)
    (hcolons : Look.op "::" d.rest = false) :
    located Setting.key c = .ok (⟨⟨false, [x]⟩, a⟩, d) := by
  have hahead : ahead d = .ok (Token.sizeList d.rest + 1, d) := rfl
  rw [located_apply, key_of_word h, startOf_of_next h]
  simp only [bind_apply, hahead, keyRest_eq_ok_nil_iff.2 ⟨hcolons, rfl⟩, pure_apply]
  obtain ⟨us, -, rfl⟩ := h
  rfl

/-- Where a path of one name was read, that name is the next token. -/
theorem keyAt_of_located_key (h : located Setting.key c = .ok (k, d))
    (hk : k.val.isName kind.key = true) : ∃ a, KeyAt kind c a d := by
  obtain ⟨p, hp, rfl⟩ := located_eq_ok h
  obtain ⟨hrooted, hnames⟩ := Bool.and_eq_true_iff.1 hk
  obtain ⟨colons, c₁, hcolons, hread⟩ := bind_eq_ok hp
  rw [bind_peek] at hread
  split at hread
  · obtain ⟨x, c₂, hword, hmore⟩ := bind_eq_ok hread
    obtain ⟨n, c₃, hahead, hmore⟩ := bind_eq_ok hmore
    cases hahead
    obtain ⟨xs, c₄, hrest, hdone⟩ := bind_eq_ok hmore
    cases hdone
    obtain rfl : colons = [] := by simpa using hrooted
    obtain rfl := op?_eq_ok_nil (by decide) hcolons
    obtain ⟨rfl, rfl⟩ : x = kind.key ∧ xs = [] := by simpa using hnames
    obtain ⟨hcolons, rfl⟩ := keyRest_eq_ok_nil_iff.1 hrest
    obtain ⟨a, hnext⟩ := word_eq_ok_iff.1 hword
    exact ⟨a, hnext, hcolons⟩
  · obtain ⟨ended, c₂, -, hread⟩ := bind_eq_ok hread
    split at hread
    · cases hread
    · obtain ⟨literal, c₃, -, hread⟩ := bind_eq_ok hread
      cases hread

/-- Every place has a key that is none, is another one, or is of a kind of setting. -/
theorem located_key_cases (c : Cursor) :
    (∃ e, Setting.key c = .error e) ∨
      (∃ k d, located Setting.key c = .ok (k, d) ∧ ∀ kind : Kind, k.val.isName kind.key = false) ∨
      ∃ kind a d, KeyAt kind c a d := by
  cases h : Setting.key c with
  | error e => exact .inl ⟨e, rfl⟩
  | ok r =>
      have hread := located_apply Setting.key c
      rw [h] at hread
      by_cases hk : ∃ kind : Kind, r.1.isName kind.key = true
      · obtain ⟨kind, hk⟩ := hk
        obtain ⟨a, hkey⟩ := keyAt_of_located_key hread hk
        exact .inr (.inr ⟨kind, a, _, hkey⟩)
      · exact .inr (.inl ⟨_, _, hread, fun kind => Bool.eq_false_iff.2 fun hkey => hk ⟨kind, hkey⟩⟩)

/-- A key before `=` has no more to it. -/
theorem keyAt_of_equals {joint : Bool} {b : Span} {e : Cursor} (h : c.Next (.ident kind.key a) d)
    (heq : d.Next (.punct '=' joint b) e) : KeyAt kind c a d := by
  obtain ⟨us, hts, -⟩ := heq
  refine ⟨h, ?_⟩
  rw [Look.op, hts]
  rfl

end

/-! ## Readers of settings -/

namespace Reader

variable {α β : Type}

theorem bind_apply (p : Reader α) (f : α → Reader β) (c : Cursor) :
    (p >>= f) c = match p c with
      | .ok (a, c) => f a c
      | .error r => .error r := by
  simp only [bind, StateT.bind, Except.bind]
  cases p c <;> rfl

end Reader

section

variable {α : Type} {p : Parser α} {c e : Cursor} {x : α}

theorem read_of_ok {d : Cursor} (h : p c = .ok (x, d)) : read p c = .ok (x, d) := by
  rw [read, h]

theorem read_of_error {err : SyntaxError} (h : p c = .error err) :
    read p c = .error (.ofSyntax err) := by
  rw [read, h]

theorem value_eq_ok_iff : value p c = .ok (x, e) ↔
    ∃ joint b d, c.Next (.punct '=' joint b) d ∧ p d = .ok (x, e) := by
  constructor
  · intro h
    cases hread : (do discard (op "="); p : Parser α) c with
    | error err =>
        rw [value, read_of_error hread] at h
        cases h
    | ok r =>
        rw [value, read_of_ok (x := r.1) (d := r.2) hread] at h
        obtain ⟨_, d, hop, hp⟩ := bind_eq_ok hread
        obtain ⟨joint, b, hnext⟩ := (discard_op_eq_ok_iff rfl).1 hop
        cases h
        exact ⟨joint, b, d, hnext, hp⟩
  · rintro ⟨joint, b, d, hnext, hp⟩
    refine read_of_ok ?_
    rw [Parser.bind_apply, (discard_op_eq_ok_iff rfl).2 ⟨joint, b, hnext⟩]
    exact hp

end

/-! ## The reader of one setting -/

section

variable {ρ : Rules} {s : Setting} {c d : Cursor} {a : Span}

theorem entry_of_name (h : KeyAt .name c a d) :
    entry ρ s c = if s.has .name then .error ⟨.duplicateName, keySpan c a⟩ else
      match value (located stringLiteral) d with
      | .ok (x, e) => if x.val.value.isEmpty then .error ⟨.emptyName, x.span⟩ else .ok (s.put (.name x), e)
      | .error r => .error r := by
  have hget : (get : Reader Cursor) c = .ok (c, c) := rfl
  have hkey := read_of_ok (located_key_of_word h.1 h.2)
  have hname : (PlainPath.mk false [Kind.name.key]).isName "name" = true := rfl
  cases hs : s.name.isSome with
  | true =>
      simp only [entry, Reader.bind_apply, hget, hkey, hname, hs, has, if_true]
      rfl
  | false =>
      simp only [entry, Reader.bind_apply, hget, hkey, hname, hs, has, if_true, Bool.false_eq_true,
        if_false]
      cases value (located stringLiteral) d with
      | error r => rfl
      | ok r => cases hempty : r.1.val.value.isEmpty <;> simp only [hempty] <;> rfl

theorem entry_of_adapter (h : KeyAt .adapter c a d) :
    entry ρ s c = if s.has .adapter then .error ⟨.duplicateAdapter, keySpan c a⟩ else
      match value (ρ.ty true) d with
      | .ok (t, e) => .ok (s.put (.adapter t), e)
      | .error r => .error r := by
  have hget : (get : Reader Cursor) c = .ok (c, c) := rfl
  have hkey := read_of_ok (located_key_of_word h.1 h.2)
  have hname : (PlainPath.mk false [Kind.adapter.key]).isName "name" = false := rfl
  have hadapter : (PlainPath.mk false [Kind.adapter.key]).isName "adapter" = true := rfl
  cases hs : s.adapter.isSome with
  | true =>
      simp only [entry, Reader.bind_apply, hget, hkey, hname, hadapter, hs, has, if_true,
        Bool.false_eq_true, if_false]
      rfl
  | false =>
      simp only [entry, Reader.bind_apply, hget, hkey, hname, hadapter, hs, has, if_true,
        Bool.false_eq_true, if_false]
      cases value (ρ.ty true) d <;> rfl

theorem entry_of_unknown {k : Located PlainPath} (h : located Setting.key c = .ok (k, d))
    (hk : ∀ kind : Kind, k.val.isName kind.key = false) :
    entry ρ s c = .error ⟨.unknownSetting, k.span⟩ := by
  have hget : (get : Reader Cursor) c = .ok (c, c) := rfl
  have hname : k.val.isName "name" = false := hk .name
  have hadapter : k.val.isName "adapter" = false := hk .adapter
  simp only [entry, Reader.bind_apply, hget, read_of_ok h, hname, hadapter, Bool.false_eq_true, if_false]
  rfl

theorem entry_of_key_error {e : SyntaxError} (h : Setting.key c = .error e) :
    entry ρ s c = .error (.ofSyntax e) := by
  have hget : (get : Reader Cursor) c = .ok (c, c) := rfl
  have hkey : located Setting.key c = .error e := by rw [located_apply, h]
  simp only [entry, Reader.bind_apply, hget, read_of_error hkey]

/-- A setting that stands somewhere is read, if there is none of its kind before. -/
theorem entry_of_stands {x : Entry} (h : Stands ρ c x d) (hs : s.has x.kind = false) :
    entry ρ s c = .ok (s.put x, d) := by
  cases h with
  | name hkey heq hvalue hy hne =>
      have hread := value_eq_ok_iff.2 ⟨_, _, _, heq, located_stringLiteral_eq_ok_iff.2 ⟨_, hy, hvalue⟩⟩
      have hat : KeyAt .name c _ _ := keyAt_of_equals hkey heq
      rw [entry_of_name hat, show s.has .name = false from hs, hread]
      simp [hne]
  | adapter hkey heq hvalue =>
      have hread := value_eq_ok_iff.2 ⟨_, _, _, heq, hvalue⟩
      have hat : KeyAt .adapter c _ _ := keyAt_of_equals hkey heq
      rw [entry_of_adapter hat, show s.has .adapter = false from hs, hread]
      rfl

/-- Where something else stands it is reported. -/
theorem entry_of_fails {r : Report} (h : Fails ρ s c r) : entry ρ s c = .error r := by
  cases h with
  | key h => exact entry_of_key_error h
  | unknown h hk => exact entry_of_unknown h hk
  | @again kind a d h hs =>
      cases kind with
      | name =>
          rw [entry_of_name h, hs, if_pos rfl]
          rfl
      | adapter =>
          rw [entry_of_adapter h, hs, if_pos rfl]
          rfl
  | name h hs hvalue =>
      rw [entry_of_name h, hs, hvalue]
      rfl
  | empty h hs heq hvalue hy hx =>
      have hread := value_eq_ok_iff.2 ⟨_, _, _, heq, located_stringLiteral_eq_ok_iff.2 ⟨_, hy, hvalue⟩⟩
      have hat : KeyAt .name c _ _ := keyAt_of_equals h heq
      rw [entry_of_name hat, hs, hread]
      simp [hx]
  | adapter h hs hvalue =>
      rw [entry_of_adapter h, hs, hvalue]
      rfl

/-- Every place has a setting that could be added, or fails to have one. -/
theorem stands_or_fails (ρ : Rules) (s : Setting) (c : Cursor) :
    (∃ x d, Stands ρ c x d ∧ s.has x.kind = false) ∨ ∃ r, Fails ρ s c r := by
  rcases located_key_cases c with ⟨e, he⟩ | ⟨k, d, h, hk⟩ | ⟨kind, a, d, h⟩
  · exact .inr ⟨_, .key he⟩
  · exact .inr ⟨_, .unknown h hk⟩
  · cases hs : s.has kind with
    | true => exact .inr ⟨_, .again h hs⟩
    | false =>
        cases kind with
        | name =>
            cases hvalue : value (located stringLiteral) d with
            | error r => exact .inr ⟨r, .name h hs hvalue⟩
            | ok r =>
                obtain ⟨x, e⟩ := r
                obtain ⟨joint, b, d₁, heq, hread⟩ := value_eq_ok_iff.1 hvalue
                obtain ⟨y, hy, hnext⟩ := located_stringLiteral_eq_ok_iff.1 hread
                by_cases hx : x.val.value = ""
                · exact .inr ⟨_, .empty h.1 hs heq hnext hy hx⟩
                · exact .inl ⟨_, _, .name h.1 heq hnext hy hx, hs⟩
        | adapter =>
            cases hvalue : value (ρ.ty true) d with
            | error r => exact .inr ⟨r, .adapter h hs hvalue⟩
            | ok r =>
                obtain ⟨t, e⟩ := r
                obtain ⟨joint, b, d₁, heq, hread⟩ := value_eq_ok_iff.1 hvalue
                exact .inl ⟨_, _, .adapter h.1 heq hread, hs⟩

end

end Setting

end RowDerive
