import RowDerive.Column.Basic
import RowDerive.Proofs.Column.SettingFault

/-!
# Settings as written

Settings that are right one by one, with a comma between any two and perhaps one behind the last, are read
as written wherever they stand in the list. A setting that ends the list ends it whatever is written behind
it. Tokens that are left over between delimiters do not: they are reported where nothing else is.
-/

namespace RowDerive

open RowDerive.Parser RowDerive.Grammar

/-- The tokens are the type, to the last of them. -/
def Ty.Spelled (ts : List Token) (t : Ty) : Prop :=
  ∃ c, (rulesFor ts).ty true (.ofTokens ts .nowhere) = .ok (t, c) ∧ c.rest = [] ∧ c.leftOver = none

namespace Setting

/-- The tokens are the setting. -/
inductive Entry.Spelled : List Token → Entry → Prop
  | name {a b : Span} {joint : Bool} {y : String} {x : Located StringLiteral}
    (hy : StringLiteral.ofToken? y = some x.val) (hne : x.val.value ≠ "") :
    Spelled [.ident "name" a, .punct '=' joint b, .literal y x.span] (.name x)
  | adapter {a b : Span} {joint : Bool} {ts : List Token} {t : Ty} (ht : Ty.Spelled ts t) :
    Spelled (.ident "adapter" a :: .punct '=' joint b :: ts) (.adapter t)

/-- The tokens are the settings, each with a comma behind it. -/
inductive SpelledFront : List Token → List Entry → Prop
  | nil : SpelledFront [] []
  | cons {ts us : List Token} {x : Entry} {xs : List Entry} {joint : Bool} {a : Span}
    (hx : Entry.Spelled ts x) (hxs : SpelledFront us xs) :
    SpelledFront (ts ++ .punct ',' joint a :: us) (x :: xs)

/-- The tokens are the settings, with commas between them and perhaps one behind the last. -/
inductive Spelled : List Token → List Entry → Prop
  | closed {ts : List Token} {xs : List Entry} (h : SpelledFront ts xs) : Spelled ts xs
  | opened {ts us : List Token} {xs : List Entry} {x : Entry} (h : SpelledFront ts xs)
    (hx : Entry.Spelled us x) : Spelled (ts ++ us) (xs ++ [x])

/-! ## Settings among others -/

instance (joint : Bool) (a : Span) (us : List Token) : Token.Ending (.punct ',' joint a :: us) := ⟨.inl rfl⟩

/-- The tokens are at their end, or a comma is next. -/
inductive Parted : List Token → Prop
  | nil : Parted []
  | comma {joint : Bool} {a : Span} {us : List Token} : Parted (.punct ',' joint a :: us)

section

variable {ts vs : List Token} {t : Ty} {x : Entry} {xs : List Entry}

/-- A type is read among more tokens as it is alone, at their end or in front of a comma. -/
theorem read_of_spelled (us : List Token) (h : Ty.Spelled ts t)
    (hsize : Token.sizeList ts ≤ Token.sizeList us) (hvs : Parted vs) (close last : Span) :
    ∃ close' last', (rulesFor us).ty true ⟨ts ++ vs, close, last, .none⟩ =
      .ok (t, ⟨vs, close', last', .none⟩) := by
  obtain ⟨c, hread, hrest, hleft⟩ := h
  have hdeeper := rulesFor_agree hsize
  have hagrees : Agrees ((rulesFor ts).ty true) ((rulesFor us).ty true) := inferInstance
  obtain ⟨t', ⟨_, close', last', _⟩, hd, halike, rfl, rfl⟩ :=
    hagrees.read_elsewhere hread hrest hleft close last
  obtain rfl : t = t' := halike.eq
  refine ⟨close', last', ?_⟩
  cases hvs with
  | nil => rwa [List.append_nil]
  | @comma joint a ws =>
      have hstops : Parser.Stops (.punct ',' joint a :: ws) ((rulesFor us).ty true)
          ((rulesFor us).ty true) := inferInstance
      exact (hstops.kept _ t _ (.of_not rfl) hd).ok rfl

/-- A setting as written stands among more tokens. -/
theorem stands_of_spelled (us : List Token) (h : Entry.Spelled ts x)
    (hsize : Token.sizeList ts ≤ Token.sizeList us) (hvs : Parted vs) (close last : Span) :
    ∃ close' last', Stands (rulesFor us) ⟨ts ++ vs, close, last, .none⟩ x ⟨vs, close', last', .none⟩ := by
  cases h with
  | name hy hne => exact ⟨_, _, .name ⟨_, rfl, rfl⟩ ⟨_, rfl, rfl⟩ ⟨_, rfl, rfl⟩ hy hne⟩
  | @adapter a b joint ts t ht =>
      have hts : Token.sizeList ts ≤ Token.sizeList us := by
        simp only [Token.sizeList, Token.size] at hsize
        omega
      obtain ⟨close', last', hread⟩ := read_of_spelled us ht hts hvs close b
      exact ⟨close', last', .adapter ⟨_, rfl, rfl⟩ ⟨_, rfl, rfl⟩ hread⟩

/-- Settings as written, each with a comma behind it, stand in front of any tokens. -/
theorem leads_of_spelledFront (us : List Token) (h : SpelledFront ts xs)
    (hsize : Token.sizeList ts ≤ Token.sizeList us) (vs : List Token) (close last : Span) :
    ∃ close' last', Leads (rulesFor us) ⟨ts ++ vs, close, last, .none⟩ xs ⟨vs, close', last', .none⟩ := by
  induction h generalizing close last with
  | nil => exact ⟨close, last, .nil⟩
  | @cons ts ws x xs joint a hx _ ih =>
      rw [Token.sizeList_append, Token.sizeList, Token.size] at hsize
      have hcomma : Parted (.punct ',' joint a :: (ws ++ vs)) := .comma
      obtain ⟨close₁, last₁, hstands⟩ := stands_of_spelled us hx (by omega) hcomma close last
      obtain ⟨close₂, last₂, hleads⟩ := ih (by omega) close₁ a
      rw [List.append_assoc, List.cons_append]
      exact ⟨close₂, last₂, .cons hstands ⟨_, rfl, rfl⟩ hleads⟩

theorem lists_of_spelled (h : Spelled ts xs) (close : Span) :
    ∃ d, Lists (rulesFor ts) (.ofTokens ts close) xs d ∧ d.leftOver = .none := by
  cases h with
  | closed h =>
      obtain ⟨close', last', hleads⟩ := leads_of_spelledFront ts h (Nat.le_refl _) [] close close
      rw [List.append_nil] at hleads
      exact ⟨_, .closed hleads rfl, rfl⟩
  | @opened ts us xs x h hx =>
      have hsize := Token.sizeList_append ts us
      obtain ⟨close₁, last₁, hleads⟩ :=
        leads_of_spelledFront (ts ++ us) h (by omega) us close close
      obtain ⟨close₂, last₂, hstands⟩ := stands_of_spelled (ts ++ us) hx (by omega) .nil close₁ last₁
      rw [List.append_nil] at hstands
      exact ⟨_, .opened hleads hstands rfl, rfl⟩

end

/-! ## All tokens -/

section

variable {ts : List Token} {close : Span} {s : Setting} {r : Report} {xs : List Entry} {d : Cursor}

theorem Lists.remainder?_eq {ρ : Rules} {c : Cursor} (h : Lists ρ c xs d) : d.remainder? = d.leftOver := by
  cases h with
  | closed _ hd | opened _ _ hd =>
      rw [Cursor.remainder?, hd]
      exact Option.or_none

/-- What is made of a list that is read to its end. -/
theorem ofTokens_of_lists (h : Lists (rulesFor ts) (.ofTokens ts close) xs d)
    (hxs : (xs.map Entry.kind).Nodup) :
    ofTokens ts close = match d.leftOver with
      | .none => .ok (ofEntries xs)
      | some left => .error (.ofSyntax ⟨.leftOver left.val, left.span⟩) := by
  have hread : entries (rulesFor ts) none (Token.sizeList ts + 1) (.ofTokens ts close) = _ :=
    entries_of_lists h hxs
  cases hleft : d.leftOver with
  | none =>
      have hend : d.remainder? = .none := h.remainder?_eq.trans hleft
      simp only [ofTokens, hread, hend]
  | some left =>
      have hend : d.remainder? = some left := h.remainder?_eq.trans hleft
      simp only [ofTokens, hread, hend]

theorem ofTokens_of_stuck (h : Leads (rulesFor ts) (.ofTokens ts close) xs d)
    (hxs : (xs.map Entry.kind).Nodup) (hr : Stuck (rulesFor ts) (ofEntries xs) d r) :
    ofTokens ts close = .error r := by
  have hread : entries (rulesFor ts) none (Token.sizeList ts + 1) (.ofTokens ts close) = _ :=
    entries_of_leads_stuck h hxs hr
  rw [ofTokens, hread]

/-- The tokens are a list with nothing left over, a list with something left over, or no list. -/
theorem ofTokens_cases (ts : List Token) (close : Span) :
    (∃ xs d, Lists (rulesFor ts) (.ofTokens ts close) xs d ∧ (xs.map Entry.kind).Nodup ∧
        d.leftOver = .none ∧ ofTokens ts close = .ok (ofEntries xs)) ∨
      (∃ xs d left, Lists (rulesFor ts) (.ofTokens ts close) xs d ∧ (xs.map Entry.kind).Nodup ∧
        d.leftOver = some left ∧
        ofTokens ts close = .error (.ofSyntax ⟨.leftOver left.val, left.span⟩)) ∨
      ∃ xs d r, Leads (rulesFor ts) (.ofTokens ts close) xs d ∧ (xs.map Entry.kind).Nodup ∧
        Stuck (rulesFor ts) (ofEntries xs) d r ∧ ofTokens ts close = .error r := by
  rcases lists_or_stuck (ρ := rulesFor ts) (c := .ofTokens ts close) .nil List.nodup_nil with
    ⟨xs, d, hlists, hxs⟩ | ⟨xs, d, r, hleads, hxs, hr⟩
  · have hread := ofTokens_of_lists hlists hxs
    cases hleft : d.leftOver with
    | none => exact .inl ⟨xs, d, hlists, hxs, hleft, by rw [hread, hleft]⟩
    | some left => exact .inr (.inl ⟨xs, d, left, hlists, hxs, hleft, by rw [hread, hleft]⟩)
  · exact .inr (.inr ⟨xs, d, r, hleads, hxs, hr, ofTokens_of_stuck hleads hxs hr⟩)

theorem ofTokens_eq_ok_iff : ofTokens ts close = .ok s ↔
    ∃ xs d, Lists (rulesFor ts) (.ofTokens ts close) xs d ∧ (xs.map Entry.kind).Nodup ∧ s.Holds xs ∧
      d.leftOver = .none := by
  constructor
  · intro h
    rcases ofTokens_cases ts close with ⟨xs, d, hlists, hxs, hleft, hok⟩ | ⟨_, _, _, _, _, _, herror⟩ |
      ⟨_, _, _, _, _, _, herror⟩
    · obtain rfl := Except.ok.inj (hok.symm.trans h)
      exact ⟨xs, d, hlists, hxs, holds_ofEntries hxs, hleft⟩
    · exact nomatch h.symm.trans herror
    · exact nomatch h.symm.trans herror
  · rintro ⟨xs, d, hlists, hxs, hs, hleft⟩
    rw [ofTokens_of_lists hlists hxs, hleft, hs.eq (holds_ofEntries hxs)]

theorem ofTokens_eq_error_iff : ofTokens ts close = .error r ↔
    (∃ xs d, Leads (rulesFor ts) (.ofTokens ts close) xs d ∧ (xs.map Entry.kind).Nodup ∧
        Stuck (rulesFor ts) (ofEntries xs) d r) ∨
      ∃ xs d left, Lists (rulesFor ts) (.ofTokens ts close) xs d ∧ (xs.map Entry.kind).Nodup ∧
        d.leftOver = some left ∧ r = .ofSyntax ⟨.leftOver left.val, left.span⟩ := by
  constructor
  · intro h
    rcases ofTokens_cases ts close with ⟨_, _, _, _, _, hok⟩ | ⟨xs, d, left, hlists, hxs, hleft, herror⟩ |
      ⟨xs, d, q, hleads, hxs, hq, herror⟩
    · exact nomatch h.symm.trans hok
    · exact .inr ⟨xs, d, left, hlists, hxs, hleft, Except.error.inj (h.symm.trans herror)⟩
    · obtain rfl := Except.error.inj (herror.symm.trans h)
      exact .inl ⟨xs, d, hleads, hxs, hq⟩
  · rintro (⟨xs, d, hleads, hxs, hr⟩ | ⟨xs, d, left, hlists, hxs, hleft, rfl⟩)
    · exact ofTokens_of_stuck hleads hxs hr
    · rw [ofTokens_of_lists hlists hxs, hleft]

theorem ofTokens_of_spelled (h : Spelled ts xs) (hxs : (xs.map Entry.kind).Nodup) (close : Span) :
    ofTokens ts close = .ok (ofEntries xs) := by
  obtain ⟨d, hlists, hleft⟩ := lists_of_spelled h close
  rw [ofTokens_of_lists hlists hxs, hleft]

theorem ofTokens_of_spoils {us vs ws : List Token} (h : SpelledFront us xs)
    (hxs : (xs.map Entry.kind).Nodup) (hr : Spoils (ofEntries xs) vs r) (close : Span) :
    ofTokens (us ++ (vs ++ ws)) close = .error r := by
  have hsize := Token.sizeList_append us (vs ++ ws)
  obtain ⟨close', last', hleads⟩ :=
    leads_of_spelledFront (us ++ (vs ++ ws)) h (by omega) (vs ++ ws) close close
  exact ofTokens_of_stuck hleads hxs (stuck_of_spoils hr _ rfl)

end

end Setting

/-! ## The settings of an attribute -/

/-- A field with one attribute has the settings in that, or what is reported of it and nothing else. -/
theorem Column.ofField_of_single {f : Field} {a : Attribute} (hf : settingAttrs f.attrs = [a]) :
    ofField f = match Setting.ofAttribute a with
      | .ok s => .ok ⟨f.name, f.ty, s⟩
      | .error r => .error [r] := by
  rw [ofField, hf]
  simp only [readSettings]
  cases Setting.ofAttribute a <;> rfl

namespace Setting

/-- The settings of a column that has one attribute are those in it, in whatever order they stand: any
number of them, each of another kind, parted by commas and perhaps with a comma behind the last. If the
tokens are no such list, one report is made, of the first place where the list cannot go on: a key that is
none or stands twice, an empty name, or a token that is not what is due, whatever stands behind. Only tokens
left over between the delimiters of a type do not end the list, and the first of them is reported where
nothing else is. -/
theorem settings_grammar {a : Attribute} {ts : List Token} {close : Span} (ha : a.args = .ok (ts, close)) :
    (∀ f : Field, Column.settingAttrs f.attrs = [a] → Column.ofField f = match ofAttribute a with
      | .ok s => .ok ⟨f.name, f.ty, s⟩
      | .error r => .error [r]) ∧
    (∀ s, ofAttribute a = .ok s ↔ ∃ xs d, Lists (rulesFor ts) (.ofTokens ts close) xs d ∧
      (xs.map Entry.kind).Nodup ∧ s.Holds xs ∧ d.leftOver = .none) ∧
    (∀ r, ofAttribute a = .error r ↔
      (∃ xs d, Leads (rulesFor ts) (.ofTokens ts close) xs d ∧ (xs.map Entry.kind).Nodup ∧
        Stuck (rulesFor ts) (ofEntries xs) d r) ∨
      ∃ xs d left, Lists (rulesFor ts) (.ofTokens ts close) xs d ∧ (xs.map Entry.kind).Nodup ∧
        d.leftOver = some left ∧ r = .ofSyntax ⟨.leftOver left.val, left.span⟩) ∧
    (∀ xs, Spelled ts xs → (xs.map Entry.kind).Nodup → ∃ s, ofAttribute a = .ok s ∧ s.Holds xs ∧
      ∀ b us close' ys, b.args = .ok (us, close') → Spelled us ys → ys.Perm xs → ofAttribute b = .ok s) ∧
    ∀ us vs ws xs r, ts = us ++ (vs ++ ws) → SpelledFront us xs → (xs.map Entry.kind).Nodup →
      Spoils (ofEntries xs) vs r → ofAttribute a = .error r := by
  have hread (b : Attribute) (us : List Token) (close' : Span) (hb : b.args = .ok (us, close')) :
      ofAttribute b = ofTokens us close' := by rw [ofAttribute, hb]
  refine ⟨fun f => Column.ofField_of_single, ?_⟩
  rw [hread a ts close ha]
  refine ⟨fun s => ofTokens_eq_ok_iff, fun r => ofTokens_eq_error_iff, fun xs hts hxs => ?_, ?_⟩
  · refine ⟨_, ofTokens_of_spelled hts hxs close, holds_ofEntries hxs, ?_⟩
    intro b us close' ys hb hus hperm
    have hys : (ys.map Entry.kind).Nodup := (hperm.map Entry.kind).nodup_iff.2 hxs
    have hsame := (holds_ofEntries hys).eq ((holds_ofEntries hxs).perm hperm.symm)
    rw [hread b us close' hb, ofTokens_of_spelled hus hys, hsame]
  · rintro us vs ws xs r rfl hus hxs hr
    exact ofTokens_of_spoils hus hxs hr close

/-- An attribute of a column with the arguments. -/
def attributeOf (ts : List Token) (close : Span) : Attribute where
  path := ⟨⟨false, ["column"]⟩, ⟨13, 19⟩⟩
  input := .args ts close
  span := ⟨11, close.stop + 1⟩
  tokens := Token.op "#" ++
    [Token.enclose .bracket [Token.word "column", Token.parens (ts.map Token.erase)]]

/-- The tokens of `adapter = T`. -/
def adapterTokens : List Token :=
  [.ident "adapter" ⟨20, 27⟩, .punct '=' false ⟨28, 29⟩, .ident "T" ⟨30, 31⟩]

/-- The tokens of `name = "a"`. -/
def nameTokens : List Token :=
  [.ident "name" ⟨33, 37⟩, .punct '=' false ⟨38, 39⟩, .literal "\"a\"" ⟨40, 43⟩]

/-- Two settings are read in either order, with a comma behind the last or without; a second name is
reported whatever its value is. -/
theorem settings_grammar_spelled :
    ∃ s, s.Holds [.adapter (.path false [] (.bare "T")), .name ⟨.ofText "a", ⟨40, 43⟩⟩] ∧
      ofAttribute (attributeOf (adapterTokens ++ .punct ',' false ⟨31, 32⟩ :: nameTokens) ⟨43, 44⟩) =
        .ok s ∧
      ofAttribute (attributeOf (nameTokens ++ .punct ',' false ⟨43, 44⟩ ::
        (adapterTokens ++ [.punct ',' false ⟨44, 45⟩])) ⟨45, 46⟩) = .ok s ∧
      ∀ ws, ofAttribute (attributeOf (nameTokens ++ .punct ',' false ⟨43, 44⟩ ::
        ([.ident "name" ⟨45, 49⟩, .punct '=' false ⟨50, 51⟩] ++ ws)) ⟨99, 100⟩) =
          .error ⟨.duplicateName, ⟨45, 49⟩⟩ := by
  have hadapter : Entry.Spelled adapterTokens (.adapter (.path false [] (.bare "T"))) :=
    .adapter ⟨_, rfl, rfl, rfl⟩
  have hliteral : StringLiteral.ofToken? "\"a\"" = some (.ofText "a") := by decide +kernel
  have hname : Entry.Spelled nameTokens (.name ⟨.ofText "a", ⟨40, 43⟩⟩) :=
    @Entry.Spelled.name _ _ _ _ ⟨.ofText "a", ⟨40, 43⟩⟩ hliteral (by decide +kernel)
  have hlist : Spelled (adapterTokens ++ .punct ',' false ⟨31, 32⟩ :: nameTokens)
      [.adapter (.path false [] (.bare "T")), .name ⟨.ofText "a", ⟨40, 43⟩⟩] :=
    .opened (.cons hadapter .nil) hname
  obtain ⟨-, -, -, hspelled, -⟩ := settings_grammar (a := attributeOf
    (adapterTokens ++ .punct ',' false ⟨31, 32⟩ :: nameTokens) ⟨43, 44⟩) rfl
  obtain ⟨s, hs, hholds, hperm⟩ := hspelled _ hlist (by decide)
  refine ⟨s, hholds, hs, hperm _ _ _ _ rfl (.closed (.cons hname (.cons hadapter .nil))) (.swap _ _ _), ?_⟩
  intro ws
  obtain ⟨-, -, -, -, hspoils⟩ := settings_grammar (a := attributeOf
    (nameTokens ++ .punct ',' false ⟨43, 44⟩ ::
      ([.ident "name" ⟨45, 49⟩, .punct '=' false ⟨50, 51⟩] ++ ws)) ⟨99, 100⟩) rfl
  exact hspoils (nameTokens ++ [.punct ',' false ⟨43, 44⟩]) _ ws _ _ rfl (.cons hname .nil) (by decide)
    (@Spoils.again _ .name _ _ _ rfl)

/-- Tokens that cannot be read as a type are not one. -/
theorem not_spelled_of_error {ts : List Token} {e : SyntaxError} (h : Ty.ofTokens ts = .error e)
    (t : Ty) : ¬ Ty.Spelled ts t := by
  rintro ⟨⟨rest, close, last, left⟩, hread, rfl, rfl⟩
  rw [Ty.ofTokens, runAll, hread] at h
  cases h

/-- The tokens of `[A B]`. -/
def leftOverType : List Token :=
  [.group .bracket [.ident "A" ⟨31, 32⟩, .ident "B" ⟨33, 34⟩] ⟨30, 31⟩ ⟨34, 35⟩]

/-- The tokens of `adapter = [A B], name = y`. -/
def leftOverTokens (y : String) (n : Nat) : List Token :=
  .ident "adapter" ⟨20, 27⟩ :: .punct '=' false ⟨28, 29⟩ :: leftOverType ++
    [.punct ',' false ⟨35, 36⟩, .ident "name" ⟨37, 41⟩, .punct '=' false ⟨42, 43⟩, .literal y ⟨44, n⟩]

/-- Behind an adapter that is no type, an empty name is reported in its place; a name that is not empty is
not. -/
theorem leftOver_deferred :
    (∀ t, ¬ Ty.Spelled leftOverType t) ∧
      ofAttribute (attributeOf (leftOverTokens "\"\"" 46) ⟨46, 47⟩) = .error ⟨.emptyName, ⟨44, 46⟩⟩ ∧
      ofAttribute (attributeOf (leftOverTokens "\"x\"" 47) ⟨47, 48⟩) =
        .error (.ofSyntax ⟨.leftOver .bracket, ⟨33, 34⟩⟩) :=
  ⟨not_spelled_of_error (e := ⟨.leftOver .bracket, ⟨33, 34⟩⟩) (by decide +kernel), by decide +kernel,
    by decide +kernel⟩

end Setting

end RowDerive
