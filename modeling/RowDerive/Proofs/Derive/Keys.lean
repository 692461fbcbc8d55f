import RowDerive.Proofs.Derive.Shape
import RowDerive.Proofs.Property.Reported
import RowDerive.Proofs.Token.Spelling

/-!
# Keys that are written

Two keys are the same if they denote the same text, however they are spelled, and it is texts that are
compared where properties are read. A statement that is made holds no literal but the key of its column,
in its own spelling. So the keys in a method that is made are different when it runs, and none is empty.
A suffix is not looked at, though: a key with one is compared by the text in front of it, and is written
with it, where it denotes nothing.
-/

namespace RowDerive

open RowDerive.Literal

/-! ## Literals in tokens -/

namespace Token

mutual

/-- The literals in a token, as written. -/
def literals : Token → List String
  | literal x _ => [x]
  | group _ ts _ _ => listLiterals ts
  | ident .. | lifetime .. | punct .. => []

/-- The literals in tokens, as written. -/
def listLiterals : List Token → List String
  | [] => []
  | t :: ts => t.literals ++ listLiterals ts

end

end Token

/-- No literal stands in a statement but its key. -/
theorem Statement.mem_listLiterals_tokens (s : Statement) (k : String) :
    k ∈ Token.listLiterals s.tokens ↔ k = s.key.token := by
  cases s with
  | adapted i x f =>
      have hliterals : Token.listLiterals (tokens (adapted i x f)) = [x.token] := rfl
      rw [hliterals, List.mem_singleton]
      rfl
  | optional x f deref =>
      have hliterals : Token.listLiterals (tokens (optional x f deref)) = [x.token, x.token] := by
        cases deref <;> rfl
      rw [hliterals, List.mem_pair, or_self]
      rfl
  | direct x f borrow =>
      have hliterals : Token.listLiterals (tokens (direct x f borrow)) = [x.token] := by
        cases borrow <;> rfl
      rw [hliterals, List.mem_singleton]
      rfl

/-! ## Keys of columns -/

namespace Column

variable {c : Column}

/-- The key of the column as written: the literal in its settings, or the one that is made of its
name. -/
def keyLiteral (c : Column) : String :=
  match c.setting.name with
  | some x => x.val.token
  | none => Text.literal c.name.val.plain

theorem token_key_ofColumn (c : Column) : (Property.ofColumn c).key.val.token = c.keyLiteral := by
  cases h : c.setting.name with
  | some x => simp [keyLiteral, Property.ofColumn, h]
  | none => simp [keyLiteral, Property.ofColumn, Property.defaultKey, h]

theorem string?_keyLiteral (c : Column) : string? c.keyLiteral = some c.keyText := by
  rw [← token_key_ofColumn, StringLiteral.string?_token]
  rfl

/-- The literal is a token as a whole, in which no return stands. -/
def HasWholeKey (c : Column) : Prop :=
  after c.keyLiteral.toList = some [] ∧ '\r' ∉ c.keyLiteral.toList

/-- What the key of a column denotes is its text. -/
structure KeyDenotes (c : Column) : Prop where
  /-- It is this text that keys are compared by. -/
  read : string? c.keyLiteral = some c.keyText
  /-- The literal denotes nothing else. -/
  only : ∀ v, Denotes c.keyLiteral v → v = c.keyText
  /-- It denotes the text exactly if it has no suffix. -/
  denotes_iff : c.HasWholeKey → (Denotes c.keyLiteral c.keyText ↔ isSuffixed c.keyLiteral = false)
  /-- What stands in front of a suffix denotes the text. -/
  bare : c.HasWholeKey → ∃ bare suffix, c.keyLiteral = bare ++ suffix ∧ Denotes bare c.keyText
  /-- A name that is given stays as it is spelled. -/
  given : ∀ x, c.setting.name = some x → c.keyLiteral = x.val.token
  /-- Without one the key denotes what the name of the field says. -/
  default : c.setting.name = none → c.keyText = c.name.val.plain ∧ Denotes c.keyLiteral c.keyText
  nonempty : c.keyText ≠ ""

theorem keyDenotes (h : c.keyText ≠ "") : c.KeyDenotes where
  read := c.string?_keyLiteral
  only v hv := Option.some.inj (hv.string?_eq.symm.trans c.string?_keyLiteral)
  denotes_iff hwhole := Literal.denotes_iff hwhole.2 hwhole.1 c.string?_keyLiteral
  bare hwhole := by
    obtain ⟨bare, suffix, heq, hbare, -⟩ := exists_bare hwhole.2 hwhole.1 c.string?_keyLiteral
    exact ⟨bare, suffix, heq, hbare⟩
  given x hx := by rw [keyLiteral, hx]
  default hnone := by
    have hliteral : c.keyLiteral = Text.literal c.name.val.plain := by rw [keyLiteral, hnone]
    rw [keyText_of_default hnone, hliteral]
    exact ⟨rfl, denotes_literal _⟩
  nonempty := h

/-- The statement puts the column under its key, and holds no other literal. -/
structure PutBy (ps : List Property) (c : Column) (us : List Token) : Prop where
  written : (Property.ofColumn c).Written ps (Token.listText us)
  literals : ∀ k, k ∈ Token.listLiterals us ↔ k = c.keyLiteral

theorem putBy_of_statement? {cs : List Column} {s : Statement} (hc : c ∈ cs)
    (hs : Body.statement? (Body.adaptersOf (cs.map .ofColumn)) (.ofColumn c) = some s) :
    c.PutBy (cs.map .ofColumn) s.tokens where
  written := Property.written_of_statement? (List.mem_map_of_mem hc) hs
  literals k := by
    rw [Statement.mem_listLiterals_tokens, Body.key_of_statement? hs, token_key_ofColumn]

/-- Columns with different keys have literals that denote different texts. -/
theorem not_denotes_of_ne {d : Column} (hne : c.keyText ≠ d.keyText) {v : String}
    (hc : Denotes c.keyLiteral v) : ¬ Denotes d.keyLiteral v := by
  intro hd
  have hcv := hc.string?_eq
  rw [string?_keyLiteral] at hcv
  have hdv := hd.string?_eq
  rw [string?_keyLiteral] at hdv
  exact hne (Option.some.inj (hcv.trans hdv.symm))

end Column

namespace Record

variable {r : Record} {ps : List Property}

theorem nodup_keyText (h : Property.ofRecord r = .ok ps) : (r.columns.map Column.keyText).Nodup := by
  obtain ⟨-, hnodup, rfl⟩ := Property.ofRecord_eq_ok_iff.1 h
  rwa [List.map_map] at hnodup

/-- What holds of any two members of a list holds of what is related to them, in turn. -/
theorem pairwise_of_forall₂ {α β : Type} {R : α → β → Prop} {S : α → α → Prop} {T : β → β → Prop}
    (hT : ∀ x y x' y', R x y → R x' y' → S x x' → T y y') {xs : List α} {ys : List β}
    (h : List.Forall₂ R xs ys) (hxs : xs.Pairwise S) : ys.Pairwise T := by
  induction h with
  | nil => exact .nil
  | @cons x y xs ys hxy htail ih =>
      obtain ⟨hx, hxs⟩ := List.pairwise_cons.1 hxs
      refine List.pairwise_cons.2 ⟨fun y' hy' => ?_, ih hxs⟩
      obtain ⟨i, hi, rfl⟩ := List.mem_iff_getElem.1 hy'
      have hi' : i < xs.length := htail.length_eq ▸ hi
      exact hT _ _ _ _ hxy (htail.get hi' hi) (hx _ (List.getElem_mem hi'))

/-- Literals of statements that put columns with different keys denote different texts. -/
theorem pairwise_literals {insertions : List (List Token)} (hps : Property.ofRecord r = .ok ps)
    (h : List.Forall₂ (Column.PutBy ps) r.columns insertions) :
    insertions.Pairwise fun us vs => ∀ k ∈ Token.listLiterals us, ∀ l ∈ Token.listLiterals vs,
      string? k ≠ string? l ∧ ∀ v, Denotes k v → ¬ Denotes l v := by
  refine pairwise_of_forall₂ ?_ h (List.pairwise_map.1 (nodup_keyText hps))
  intro c us d vs hc hd hne k hk l hl
  obtain rfl := (hc.literals k).1 hk
  obtain rfl := (hd.literals l).1 hl
  refine ⟨?_, fun v => Column.not_denotes_of_ne hne⟩
  rw [Column.string?_keyLiteral, Column.string?_keyLiteral, Ne, Option.some_inj]
  exact hne

/-- Of each column of a declared record the key that is written denotes the text that is compared, if it
has no suffix, and nothing else. Two columns whose keys denote the same text are never both read. A method
that is made puts each column under its key, so that the literals of any two statements denote different
texts. -/
theorem keys_denote {i : Item} (h : ofItem i = .ok r) :
    (∀ c ∈ r.columns, c.KeyDenotes) ∧
      (∀ (a b : Nat) (c d : Column) v, a ≠ b → r.columns[a]? = some c → r.columns[b]? = some d →
        Denotes c.keyLiteral v → Denotes d.keyLiteral v → ∃ rs, Property.ofRecord r = .error rs) ∧
      ∀ ps (m : Method) ts, Property.ofRecord r = .ok ps → m.implement ps = .ok ts →
        ∃ front insertions,
          ts = m.tokens ++
            [Token.enclose .brace (front ++ insertions.flatten ++ [Token.word "values"])] ∧
          List.Forall₂ (Column.PutBy ps) r.columns insertions ∧
          insertions.Pairwise fun us vs => ∀ k ∈ Token.listLiterals us, ∀ l ∈ Token.listLiterals vs,
            string? k ≠ string? l ∧ ∀ v, Denotes k v → ¬ Denotes l v := by
  refine ⟨fun c hc => Column.keyDenotes (keyText_ne_empty h hc), ?_, ?_⟩
  · intro a b c d v hne hc hd hcv hdv
    cases hread : Property.ofRecord r with
    | error rs => exact ⟨rs, rfl⟩
    | ok ps =>
        have hlt : a < (r.columns.map Column.keyText).length := by
          rw [List.length_map]
          exact (List.getElem?_eq_some_iff.1 hc).1
        refine absurd ((List.getElem?_inj hlt (nodup_keyText hread)).1 ?_) hne
        rw [List.getElem?_map, List.getElem?_map, hc, hd, Option.map_some, Option.map_some,
          Option.some_inj]
        exact not_not.1 fun hkeys => Column.not_denotes_of_ne hkeys hcv hdv
  · intro ps m ts hps hts
    obtain ⟨b, hb, rfl⟩ := Method.implement_eq_ok hts
    obtain ⟨-, hstatements⟩ := Body.ofProperties_eq_ok_iff.1 hb
    have hputs : List.Forall₂ (Column.PutBy ps) r.columns (b.statements.map Statement.tokens) := by
      obtain ⟨-, -, rfl⟩ := Property.ofRecord_eq_ok_iff.1 hps
      rw [List.forall₂_map_right_iff]
      exact (Body.forall₂_mem (List.forall₂_map_left_iff.1 hstatements)).imp fun c s hs =>
        Column.putBy_of_statement? hs.1 hs.2
    refine ⟨(Body.rowTokens b.statements.length :: b.adapters.mapIdx Body.adapterTokens).flatten, _, ?_,
      hputs, pairwise_literals hps hputs⟩
    simp [Body.tokens_eq_flatten, Body.parts]

/-- A declaration with a key that is given, in an uncommon spelling, and one that is not. -/
def keySource : String := "struct S \x7b #[column(name = \"\\x61\")] b: i32, r#type: i32 \x7d"

/-- Its keys denote `a` and `type`, and the method for it is made. -/
theorem keys_denote_spelled :
    ∃ i r ps ts, Item.ofText? keySource = some i ∧ ofItem i = .ok r ∧ Property.ofRecord r = .ok ps ∧
      Method.default.implement ps = .ok ts ∧ r.columns.map Column.keyText = ["a", "type"] ∧
      (∀ c ∈ r.columns, c.KeyDenotes ∧ Denotes c.keyLiteral c.keyText) ∧
      ∃ insertions, List.Forall₂ (Column.PutBy ps) r.columns insertions := by
  have hcheck : (Item.ofText? keySource).any fun i => (ofItem i).toOption.any fun r =>
      (Property.ofRecord r).toOption.any fun ps =>
        (Method.default.implement ps).toOption.isSome ∧
          r.columns.map Column.keyText = ["a", "type"] ∧
          ∀ c ∈ r.columns, after c.keyLiteral.toList = some [] ∧ '\r' ∉ c.keyLiteral.toList ∧
            isSuffixed c.keyLiteral = false := by
    decide +kernel
  obtain ⟨i, hi, hcheck⟩ := (Option.any_eq_true _ _).1 hcheck
  obtain ⟨r, hr, hcheck⟩ := (Option.any_eq_true _ _).1 hcheck
  obtain ⟨ps, hps, hcheck⟩ := (Option.any_eq_true _ _).1 hcheck
  obtain ⟨hmade, hkeys, hliterals⟩ := of_decide_eq_true hcheck
  obtain ⟨ts, hts⟩ := Option.isSome_iff_exists.1 hmade
  have hr := eq_ok_of_toOption hr
  have hps := eq_ok_of_toOption hps
  have hts := eq_ok_of_toOption hts
  obtain ⟨hdenote, -, hmethod⟩ := keys_denote hr
  obtain ⟨-, insertions, -, hputs, -⟩ := hmethod ps _ ts hps hts
  refine ⟨i, r, ps, ts, hi, hr, hps, hts, hkeys, fun c hc => ?_, insertions, hputs⟩
  obtain ⟨hafter, hreturn, hsuffix⟩ := hliterals c hc
  exact ⟨hdenote c hc, ((hdenote c hc).denotes_iff ⟨hafter, hreturn⟩).2 hsuffix⟩

/-- A key with a suffix is accepted, and the method for it is made with a literal that denotes nothing. -/
theorem not_denotes_suffixed :
    ∃ i r ps ts, Item.ofText? Sample.suffixed = some i ∧ ofItem i = .ok r ∧
      Property.ofRecord r = .ok ps ∧ Method.default.implement ps = .ok ts ∧
      ps.map Property.keyText = ["a"] ∧ (∀ k ∈ Token.listLiterals ts, k = "1usize" ∨ k = "\"a\"x") ∧
      "\"a\"x" ∈ Token.listLiterals ts ∧ ∀ v, ¬ Denotes "\"a\"x" v := by
  have hcheck : (Item.ofText? Sample.suffixed).any fun i => (ofItem i).toOption.any fun r =>
      (Property.ofRecord r).toOption.any fun ps => (Method.default.implement ps).toOption.any fun ts =>
        ps.map Property.keyText = ["a"] ∧
          (∀ k ∈ Token.listLiterals ts, k = "1usize" ∨ k = "\"a\"x") ∧
          "\"a\"x" ∈ Token.listLiterals ts := by decide +kernel
  obtain ⟨i, hi, hcheck⟩ := (Option.any_eq_true _ _).1 hcheck
  obtain ⟨r, hr, hcheck⟩ := (Option.any_eq_true _ _).1 hcheck
  obtain ⟨ps, hps, hcheck⟩ := (Option.any_eq_true _ _).1 hcheck
  obtain ⟨ts, hts, hcheck⟩ := (Option.any_eq_true _ _).1 hcheck
  obtain ⟨hkeys, hall, hmem⟩ := of_decide_eq_true hcheck
  refine ⟨i, r, ps, ts, hi, eq_ok_of_toOption hr, eq_ok_of_toOption hps, eq_ok_of_toOption hts, hkeys,
    hall, hmem, fun v hv => ?_⟩
  have hsuffix : isSuffixed "\"a\"x" = true := by decide
  rw [hv.isSuffixed_eq] at hsuffix
  cases hsuffix

end Record

end RowDerive
