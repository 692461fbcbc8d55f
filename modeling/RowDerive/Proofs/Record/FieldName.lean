import RowDerive.Grammar.Item
import RowDerive.Proofs.Parser.Front

/-!
# Names of fields

Whatever tokens a declaration is read from, each of its fields is named by an identifier that is no
keyword, or by `_`. This follows the readers from a name up to the whole declaration.
-/

namespace RowDerive

open RowDerive.Parser

namespace Parser

variable {α β : Type}

/-! ## What a reader returns -/

/-- All that the reader returns satisfies `P`, wherever it reads. -/
def Always (p : Parser α) (P : α → Prop) : Prop :=
  ∀ c a c', p c = .ok (a, c') → P a

namespace Always

variable {P : α → Prop} {Q : β → Prop}

theorem trivial (p : Parser α) : Always p fun _ => True := fun _ _ _ _ => True.intro

theorem pure {a : α} (h : P a) : Always (Pure.pure a) P := by
  rintro c b c' hb
  cases hb
  exact h

theorem bind {p : Parser α} {f : α → Parser β} (hp : Always p P)
    (hf : ∀ a, P a → Always (f a) Q) : Always (p >>= f) Q := by
  intro c b c' hb
  rw [bind_apply] at hb
  split at hb
  · rename_i a d hpc
    exact hf a (hp c a d hpc) d b c' hb
  · cases hb

/-- What a reader returns does not matter to what is read after it. -/
theorem bind_right {p : Parser α} {f : α → Parser β} (hf : ∀ a, Always (f a) Q) : Always (p >>= f) Q :=
  bind (trivial p) fun a _ => hf a

theorem ite {b : Prop} [Decidable b] {p q : Parser α} (hp : Always p P) (hq : Always q P) :
    Always (if b then p else q) P := by
  split
  · exact hp
  · exact hq

theorem fail (fault : SyntaxFault) (span : Span) : Always (Parser.fail fault span) P := by
  intro c a c' h
  cases h

theorem failHere (fault : SyntaxFault) : Always (Parser.failHere fault) P :=
  bind_right fun _ => fail _ _

theorem failExpected (what : String) : Always (Parser.failExpected what) P :=
  bind_right fun _ => fail _ _

theorem failNoneOf (what : List (String × Look)) : Always (Parser.failNoneOf what) P :=
  bind_right fun _ => fail _ _

theorem failTooDeep : Always (Parser.failTooDeep : Parser α) P := failHere _

theorem located {p : Parser α} (h : Always p P) : Always (Parser.located p) fun a => P a.val :=
  bind_right fun _ => bind h fun _ ha => bind_right fun _ => pure ha

theorem openGroup {d : Delimiter} {p : Parser α} (h : Always p P) :
    Always (Parser.openGroup d p) fun a => P a.1 := by
  refine bind_right fun c => ?_
  generalize (if d = .invisible then c.rest else Token.reveal c.rest) = ts
  dsimp only
  split
  · refine ite ?_ (failExpected _)
    split
    · rename_i hp
      exact bind_right fun _ => pure (h _ _ _ hp)
    · intro c a c' h
      cases h
  · exact failExpected _

theorem inGroup {d : Delimiter} {p : Parser α} (h : Always p P) : Always (Parser.inGroup d p) P :=
  bind (openGroup h) fun _ ha => bind_right fun _ => pure ha

/-- What holds of every item holds of all items of a list. -/
theorem listUntil {sep : String} {done : Parser Bool} {item : Parser α} (h : Always item P)
    (fuel : Nat) : Always (Parser.listUntil sep done item fuel) fun l => ∀ a ∈ l.items, P a := by
  induction fuel with
  | zero => exact failTooDeep
  | succ fuel ih =>
      refine bind_right fun b => ite (pure fun _ ha => absurd ha List.not_mem_nil) ?_
      refine bind h fun a ha => ?_
      refine bind_right fun b => ite (pure (List.forall_mem_singleton.2 ha)) ?_
      exact bind_right fun _ => bind ih fun l hl => pure (List.forall_mem_cons.2 ⟨ha, hl⟩)

theorem commaList {item : Parser α} (h : Always item P) :
    Always (Parser.commaList item) fun l => ∀ a ∈ l.items, P a :=
  bind_right fun _ => listUntil h _

end Always

/-! ## Words -/

theorem take?_some {f : Token → Option α} {c c' : Cursor} {a : α}
    (h : take? f c = .ok (some a, c')) : ∃ t ts, Token.reveal c.rest = t :: ts ∧ f t = some a := by
  simp only [take?, bind_apply, get_apply] at h
  cases hrest : Token.reveal c.rest with
  | nil =>
      rw [hrest] at h
      cases h
  | cons t ts =>
      rw [hrest] at h
      cases hf : f t with
      | none =>
          simp only [hf] at h
          cases h
      | some b =>
          simp only [hf] at h
          cases h
          exact ⟨t, ts, rfl, hf⟩

/-- The word that is taken is the next token. -/
theorem reveal_of_word {c c' : Cursor} {x : String} (h : word c = .ok (x, c')) :
    ∃ s ts, Token.reveal c.rest = .ident x s :: ts := by
  simp only [word, bind_apply] at h
  split at h
  · rename_i found d htake
    cases found with
    | none => exact (Always.failExpected (P := fun _ => False) "ident" d x c' h).elim
    | some y =>
        obtain ⟨t, ts, hrest, ht⟩ := take?_some htake
        cases t with
        | ident z s =>
            cases ht
            cases h
            exact ⟨s, ts, hrest⟩
        | _ => cases ht
  · cases h

theorem name_always : Always name (· ∉ Look.keywords) := by
  intro c x c' h
  have hname : peek Look.name c = .ok (Look.name c.rest, c) := rfl
  have hword : peek Look.word c = .ok (Look.word c.rest, c) := rfl
  simp only [name, bind_apply, hname] at h
  split at h
  · rename_i hahead
    obtain ⟨s, ts, hrest⟩ := reveal_of_word h
    simpa [Look.name, Look.next, hrest] using hahead
  · have hfail : Always (do
        if ← peek Look.word then
          let c ← get
          let x ← word
          fail (.keyword x) (here c)
        else failExpected "identifier" : Parser String) fun _ => False :=
      Always.bind_right fun _ => Always.ite
        (Always.bind_right fun _ => Always.bind_right fun _ => Always.fail _ _) (Always.failExpected _)
    exact (hfail c x c' h).elim

/-- The word that is taken where a keyword is ahead is this keyword. -/
theorem eq_of_word {k : String} {c c' : Cursor} {x : String} (hk : Look.keyword k c.rest = true)
    (h : word c = .ok (x, c')) : x = k := by
  obtain ⟨s, ts, hrest⟩ := reveal_of_word h
  simpa [Look.keyword, Look.next, hrest] using hk

/-- What is read where either a keyword is ahead, which is taken, or a name. -/
theorem Always.keyword_or_name {k : String} {f : String → Parser β} {P : β → Prop}
    (hf : ∀ x, x ∉ Look.keywords ∨ x = k → Always (f x) P) :
    Always (peek (Look.keyword k) >>= fun b => if b then word >>= f else name >>= f) P := by
  intro c y c' h
  have hpeek : peek (Look.keyword k) c = .ok (Look.keyword k c.rest, c) := rfl
  simp only [bind_apply, hpeek] at h
  split at h
  · rename_i hahead
    rw [bind_apply] at h
    split at h
    · rename_i x d hword
      exact hf x (.inr (eq_of_word hahead hword)) d y c' h
    · cases h
  · exact Always.bind name_always (fun x hx => hf x (.inl hx)) c y c' h

end Parser

namespace Name

/-- Whether the name may be the name of a field. -/
def IsFieldName (x : Name) : Prop := x.text ∉ Look.keywords ∨ x.text = "_"

theorem isFieldName_of_ofText? {x : String} {y : Name} (hx : x ∉ Look.keywords ∨ x = "_")
    (h : ofText? x = some y) : y.IsFieldName := by
  unfold ofText? at h
  split at h
  · cases h
    exact hx
  · cases h

end Name

/-- Whether the fields of the shape have names that fields may have. -/
def Shape.HasFieldNames (σ : Shape) : Prop :=
  ∀ fs, σ = .named fs → ∀ f ∈ fs, f.name.val.IsFieldName

namespace Grammar

variable {ρ : Rules}

theorem fieldIdent_always : Always fieldIdent Name.IsFieldName := by
  refine Always.keyword_or_name fun x hx => ?_
  dsimp only
  split
  · rename_i y hy
    exact Always.pure (Name.isFieldName_of_ofText? hx hy)
  · exact Always.failExpected _

theorem namedField_always (inner : Parser (Listed Field)) :
    Always (namedField ρ inner) fun f => f.name.val.IsFieldName := by
  refine Always.bind_right fun attrs => Always.bind_right fun vis => Always.bind_right fun b => ?_
  refine Always.bind (Always.located fieldIdent_always) fun x hx => Always.bind_right fun _ => ?_
  refine Always.bind_right fun nameless => Always.ite ?_ ?_
  · exact Always.bind_right fun ty => Always.pure hx
  · exact Always.bind_right fun ty => Always.pure hx

theorem namedFields_always (depth : Nat) :
    Always (namedFields ρ depth) fun l => ∀ f ∈ l.items, f.name.val.IsFieldName := by
  cases depth with
  | zero => exact Always.failTooDeep
  | succ depth => exact Always.commaList (namedField_always _)

theorem bracedFields_always :
    Always (bracedFields ρ) fun l => ∀ f ∈ l.items, f.name.val.IsFieldName :=
  Always.bind_right fun depth => Always.inGroup (namedFields_always depth)

theorem positionalBody_always : Always (positionalBody ρ) fun b => b.shape.HasFieldNames := by
  refine Always.bind_right fun fields => Always.bind_right fun preds => ?_
  refine Always.bind_right fun b => Always.ite ?_ (Always.failNoneOf _)
  exact Always.bind_right fun semi => Always.pure fun fs h => Shape.noConfusion h

theorem recordBody_always : Always (recordBody ρ) fun b => b.shape.HasFieldNames := by
  refine Always.bind_right fun preds => Always.bind_right fun b => ?_
  refine Always.ite positionalBody_always (Always.bind_right fun b => Always.ite ?_ ?_)
  · refine Always.bind bracedFields_always fun l hl => Always.pure ?_
    rintro fs h
    cases h
    exact hl
  · refine Always.bind_right fun b => Always.ite ?_ (Always.failNoneOf _)
    exact Always.bind_right fun semi => Always.pure fun fs h => Shape.noConfusion h

theorem shape_always (kind : String) (span : Span) :
    Always (shape ρ kind span) fun x => x.2.HasFieldNames := by
  refine Always.ite ?_ (Always.ite ?_ ?_)
  · exact Always.bind recordBody_always fun b hb => Always.pure hb
  · exact Always.bind_right fun x => Always.pure fun fs h => Shape.noConfusion h
  · exact Always.bind_right fun x => Always.pure fun fs h => Shape.noConfusion h

theorem item_always : Always (item ρ) fun i => i.shape.HasFieldNames := by
  refine Always.bind_right fun attrs => Always.bind_right fun vis => Always.bind_right fun b => ?_
  refine Always.ite (Always.bind_right fun _ => ?_) ?_ <;>
    exact Always.bind_right fun kind => Always.bind_right fun x => Always.bind_right fun params =>
      Always.bind (shape_always _ _) fun x hx => Always.pure hx

end Grammar

/-- The fields of a declaration that is read have names that fields may have. -/
theorem Item.hasFieldNames_of_ofTokens {ts : List Token} {i : Item} (h : Item.ofTokens ts = .ok i) :
    i.shape.HasFieldNames := by
  unfold Item.ofTokens runAll at h
  split at h
  · rename_i j c hread
    split at h
    · cases h
      exact Grammar.item_always _ _ _ hread
    · cases h
  · cases h

end RowDerive
