import RowDerive.Proofs.Depth.Item
import RowDerive.Proofs.Derive.Readable
import RowDerive.Proofs.Follow.Start
import RowDerive.Proofs.Grammar.Sum

/-!
# What is read alone is read at its new place

In a method that is made `as` follows the type of an adapter, and a body follows the head of the method.
Neither goes on with what stands before it, but for `as` behind a sign that asks for more. So a type that
is read of its own tokens is read at its new place unless it ends with such a sign, and the head of a
method always. A sum of paths that ends with a `+` is one that is not.
-/

namespace RowDerive

open RowDerive.Parser RowDerive.Grammar

deriving instance DecidableEq for Cursor

/-- Whether tokens are read to the last of them can be computed. -/
instance Parser.decidableReadsFront {α : Type} (p : Parser α) (ts : List Token) :
    Decidable (∃ a, p (.front ts) = .ok (a, .front [])) :=
  match h : p (.front ts) with
  | .ok (a, c) =>
    if hc : c = .front [] then .isTrue ⟨a, by rw [hc]⟩
    else .isFalse fun ⟨_, ha⟩ => hc (Prod.mk.inj (Except.ok.inj ha)).2
  | .error _ => .isFalse fun ⟨_, ha⟩ => nomatch ha

/-! ## Types -/

instance (ts : List Token) : Token.Ending (Token.word "as" :: ts) := ⟨.inl rfl⟩

namespace Ty

variable {t : Ty}

/-- Whether a type is read of its own tokens. -/
def ReadsAlone (t : Ty) : Prop :=
  ∃ u, (rulesFor t.tokens).ty true (.front t.tokens) = .ok (u, .front [])

instance (t : Ty) : Decidable t.ReadsAlone := Parser.decidableReadsFront _ _

/-- Whether it is read as itself. -/
def ReadsBackAlone (t : Ty) : Prop :=
  (rulesFor t.tokens).ty true (.front t.tokens) = .ok (t, .front [])

theorem read_of_alone {u : Ty}
    (hread : (rulesFor t.tokens).ty true (.front t.tokens) = .ok (u, .front []))
    (hclosed : ¬ Token.OpenEnded t.tokens) {d : Nat} (hd : 4 * Token.sizeList t.tokens + 8 ≤ d)
    (ts : List Token) :
    (rules d).ty true (.front (t.tokens ++ Token.word "as" :: ts)) =
      .ok (u, .front (Token.word "as" :: ts)) := by
  have hdeeper : (rulesFor t.tokens).Agrees (rules d) := rules_agree hd
  have hagrees : Agrees ((rulesFor t.tokens).ty true) ((rules d).ty true) := inferInstance
  have hstop : (rules d).Stops (Token.word "as" :: ts) := rules_stop _ d
  have hstops : Parser.Stops (Token.word "as" :: ts) ((rules d).ty true) ((rules d).ty true) :=
    inferInstance
  exact (hstops.kept _ u _ (fun _ => hclosed) (hagrees.eq_ok hread)).ok rfl

/-- A type that is read alone is read before `as`, if its last sign asks for no more. -/
theorem ReadsAlone.readsBeforeAs (h : t.ReadsAlone) (hclosed : ¬ Token.OpenEnded t.tokens) :
    t.ReadsBeforeAs := by
  obtain ⟨u, hread⟩ := h
  exact fun d hd ts => ⟨u, read_of_alone hread hclosed hd ts⟩

theorem ReadsBackAlone.readsBackBeforeAs (h : t.ReadsBackAlone) (hclosed : ¬ Token.OpenEnded t.tokens) :
    t.ReadsBackBeforeAs :=
  fun _ hd ts => read_of_alone h hclosed hd ts

theorem openEnded_sum (p : Path) (qs : List Path) : Token.OpenEnded (Ty.sum p qs true).tokens := by
  have htokens : (Ty.sum p qs true).tokens = p.tokens ++ Path.addedTokens qs ++ Token.op "+" := by
    simp [Ty.sum, Ty.tokens]
  rw [htokens]
  exact Token.OpenEnded.of_suffix (Token.openedList_append _ _) rfl

/-- A sum of paths is read before `as` unless its last `+` is left open. -/
theorem readsBeforeAs_sum_iff {p : Path} {qs : List Path} {isOpen : Bool} (hp : p.toTy.isTree = true)
    (hqs : ∀ q ∈ qs, q.toTy.isTree = true) : (Ty.sum p qs isOpen).ReadsBeforeAs ↔ isOpen = false := by
  -- rules that are deep enough for the sum are so for each of its paths
  have hreads (d : Nat) (hd : Token.sizeList (Ty.sum p qs isOpen).tokens ≤ d) :
      ReadsSegments (rules d) p ∧ ∀ q ∈ qs, q.toTy.isTree = true ∧ ReadsSegments (rules d) q := by
    have hsize : Token.sizeList p.tokens + Token.sizeList (Path.addedTokens qs) ≤ d := by
      rw [Ty.sum, Ty.tokens, Token.sizeList_append, Token.sizeList_append] at hd
      omega
    refine ⟨readsSegments_of_isTree hp (by omega), fun q hq => ⟨hqs q hq, ?_⟩⟩
    have hle := Token.sizeList_le_flatMap (f := fun q : Path => Token.op "+" ++ q.tokens) hq
    rw [Token.sizeList_append] at hle
    exact readsSegments_of_isTree (hqs q hq) (by rw [Path.addedTokens] at hsize; omega)
  constructor
  · intro h
    obtain ⟨hs, hss⟩ := hreads (4 * Token.sizeList (Ty.sum p qs isOpen).tokens + 7) (by omega)
    obtain ⟨u, hread⟩ := h _ (Nat.le_refl _) []
    cases isOpen with
    | false => rfl
    | true =>
        obtain ⟨e, herror⟩ := type_sum_open hp hs hss []
        cases hread.symm.trans herror
  · rintro rfl d hd ts
    obtain ⟨d, rfl⟩ : ∃ k, d = k + 1 := ⟨d - 1, by omega⟩
    obtain ⟨hs, hss⟩ := hreads d (by omega)
    exact ⟨_, type_sum_as hp hs hss ts⟩

end Ty

/-! ## Methods -/

instance (us ts : List Token) : Token.EndsMethod (Token.enclose .brace us :: ts) where
  ends := .inl rfl
  comma := rfl
  as_word := rfl

namespace Method

variable {m : Method}

/-- Whether a method without its body is read of its own tokens. -/
def ReadsAlone (m : Method) : Prop :=
  ∃ n, method (rulesFor m.tokens) (.front m.tokens) = .ok (n, .front [])

instance (m : Method) : Decidable m.ReadsAlone := Parser.decidableReadsFront _ _

/-- Whether it is read as itself. -/
def ReadsBackAlone (m : Method) : Prop :=
  ∃ span, method (rulesFor m.tokens) (.front m.tokens) = .ok (⟨m, span⟩, .front [])

/-- What is read as a method is read as one that may be `default`, which it is not. -/
theorem implementationHead_of_method {ρ : Rules} {c d : Cursor} {n : Located Method}
    (h : method ρ c = .ok (n, d)) : implementationHead ρ c = .ok (n.val.tokens, d) := by
  obtain ⟨attrs, c₁, hattrs, h⟩ := bind_eq_ok h
  obtain ⟨vis, c₂, hvis, h⟩ := bind_eq_ok h
  obtain ⟨sig, c₃, hsig, h⟩ := bind_eq_ok h
  cases h
  have hcut : Token.CutMethod c₂.rest := ⟨[], by rw [List.append_nil]; exact startsMethod_of_signature hsig⟩
  have hunseen : Look.Unseen Token.Ended (Look.keyword "default") := Look.unseen_keyword (by decide)
  have hdefault := hunseen.eq c₂.rest hcut.ended
  have hnone : keyword? "default" c₂ = .ok ([], c₂) := by
    rw [keyword?, bind_peek, hdefault]
    rfl
  simp only [implementationHead, bind_apply, hattrs, hvis, hnone, hsig, pure_apply]
  simp [tokens]

theorem implementationHead_of_alone {n : Located Method}
    (hread : method (rulesFor m.tokens) (.front m.tokens) = .ok (n, .front [])) {d : Nat}
    (hd : 4 * Token.sizeList m.tokens + 8 ≤ d) (us : List Token) :
    implementationHead (rules d) (.front (m.tokens ++ [Token.enclose .brace us])) =
      .ok (n.val.tokens, .front [Token.enclose .brace us]) := by
  have hdeeper : (rulesFor m.tokens).Agrees (rules d) := rules_agree hd
  have hagrees : Agrees (method (rulesFor m.tokens)) (method (rules d)) := inferInstance
  have hstop : (rules d).Stops [Token.enclose .brace us] := rules_stop _ d
  have hrefuses : (rules d).Refuses := rules_refuse d
  have hstops : Parser.Stops [Token.enclose .brace us] (method (rules d)) (method (rules d)) :=
    inferInstance
  exact implementationHead_of_method
    ((hstops.kept _ n _ (.of_not rfl) (hagrees.eq_ok hread)).ok rfl)

/-- A method that is read alone is read before its body. -/
theorem ReadsAlone.readsBeforeBody (h : m.ReadsAlone) : m.ReadsBeforeBody := by
  obtain ⟨n, hread⟩ := h
  exact fun d hd us => ⟨_, implementationHead_of_alone hread hd us⟩

theorem ReadsBackAlone.readsBackBeforeBody (h : m.ReadsBackAlone) : m.ReadsBackBeforeBody := by
  obtain ⟨span, hread⟩ := h
  exact fun d hd us => implementationHead_of_alone hread hd us

/-- Where the parts are read back alone, what is assembled is what is read of it. -/
theorem implement_eq_implementation? {b : Body} {ps : List Property} (hb : Body.ofProperties ps = .ok b)
    (hm : m.ReadsBackAlone) (hfields : ∀ s ∈ b.statements, s.field.text ∉ Look.keywords)
    (hadapters : ∀ t ∈ b.adapters, t.ReadsBackAlone ∧ ¬ Token.OpenEnded t.tokens) :
    m.implement ps = (implementation? (m.withBody b)).mapError fun e => .unreadable e.fault := by
  have hread := implementation?_withBody_eq hm.readsBackBeforeBody hfields fun t ht =>
    (hadapters t ht).1.readsBackBeforeAs (hadapters t ht).2
  simp only [implement, hb, hread]
  rfl

end Method

/-! ## Records -/

section

variable {r : Record} (hmethods : ∀ m ∈ r.methods, m.val.ReadsAlone)

include hmethods

/-- What a record takes from its declaration is read at its new places if it is read alone, and no type of
an adapter ends with a sign that asks for more. -/
theorem Record.reads_of_alone (hadapters : ∀ c ∈ r.columns, ∀ t, c.setting.adapter = some t →
    t.ReadsAlone ∧ ¬ Token.OpenEnded t.tokens) : r.Reads where
  methods m hm := (hmethods m hm).readsBeforeBody
  adapters c hc t ht := (hadapters c hc t ht).1.readsBeforeAs (hadapters c hc t ht).2

/-- If the other types of adapters are sums of paths with a `+` left open, it is read there only if there
are no others. -/
theorem Record.reads_iff_of_alone (hadapters : ∀ c ∈ r.columns, ∀ t, c.setting.adapter = some t →
    (t.ReadsAlone ∧ ¬ Token.OpenEnded t.tokens) ∨
      ∃ p qs, t = Ty.sum p qs true ∧ p.toTy.isTree = true ∧ ∀ q ∈ qs, q.toTy.isTree = true) :
    r.Reads ↔ ∀ c ∈ r.columns, ∀ t, c.setting.adapter = some t → ¬ Token.OpenEnded t.tokens := by
  constructor
  · intro hreads c hc t ht
    rcases hadapters c hc t ht with ⟨-, hclosed⟩ | ⟨p, qs, rfl, hp, hqs⟩
    · exact hclosed
    · cases (Ty.readsBeforeAs_sum_iff hp hqs).1 (hreads.adapters c hc _ ht)
  · intro hclosed
    refine Record.reads_of_alone hmethods fun c hc t ht => ?_
    rcases hadapters c hc t ht with h | ⟨p, qs, rfl, -⟩
    · exact h
    · exact absurd (Ty.openEnded_sum p qs) (hclosed c hc _ ht)

end

/-- A declaration with a method that is not simple and an adapter that is a sum of bounds. -/
def boundsSource : String :=
  "#[content_values(fn f<'a, T: A + B>(&'a self, x: [T; 2]) -> Option<T> where T: 'a + C)] " ++
    "struct S \x7b #[column(adapter = Box<A> + 'static)] a: u8 \x7d"

example : (Item.ofText? boundsSource).any (fun i => (Record.ofItem i).toOption.any fun r =>
    (∀ m ∈ r.methods, m.val.ReadsAlone) ∧
      ∀ c ∈ r.columns, c.setting.adapter.any fun t => t.ReadsAlone ∧ ¬ Token.OpenEnded t.tokens) = true := by
  decide +kernel

end RowDerive
