import RowDerive.Parser.Basic

/-!
# Readers at the front of tokens

What is assembled stands in no source, so all its tokens are nowhere, and a reader of them is told all by
the tokens ahead. Here it is said of each primitive reader what it takes from the front of such tokens.
-/

namespace RowDerive

/-- At the front of tokens that stand in no source. -/
def Cursor.front (ts : List Token) : Cursor := .ofTokens ts .nowhere

namespace Token

variable {α : Type}

theorem length_le_sizeList (ts : List Token) : ts.length ≤ sizeList ts := by
  induction ts with
  | nil => exact Nat.le_refl 0
  | cons t ts ih =>
      have ht := t.size_pos
      rw [List.length_cons, sizeList]
      omega

theorem exists_sizeList {ts : List Token} {k : Nat} (h : k ≤ ts.length) :
    ∃ n, sizeList ts = n + k :=
  ⟨sizeList ts - k, (Nat.sub_add_cancel (Nat.le_trans h (length_le_sizeList ts))).symm⟩

theorem sizeList_pos {ts : List Token} (h : ts ≠ []) : 0 < sizeList ts :=
  Nat.lt_of_lt_of_le (List.length_pos_iff.2 h) (length_le_sizeList ts)

/-- As many items as are written out are no more than the tokens of which each has some. -/
theorem length_le_sizeList_flatMap {f : α → List Token} {as : List α} (h : ∀ a ∈ as, f a ≠ []) :
    as.length ≤ sizeList (as.flatMap f) := by
  induction as with
  | nil => exact Nat.le_refl 0
  | cons a as ih =>
      have ha := sizeList_pos (h a List.mem_cons_self)
      have has := ih fun b hb => h b (List.mem_cons_of_mem a hb)
      rw [List.length_cons, List.flatMap_cons, sizeList_append]
      omega

theorem sizeList_le_flatMap {f : α → List Token} {as : List α} {a : α} (h : a ∈ as) :
    sizeList (f a) ≤ sizeList (as.flatMap f) := by
  obtain ⟨before, after, rfl⟩ := List.append_of_mem h
  rw [List.flatMap_append, List.flatMap_cons, sizeList_append, sizeList_append]
  omega

end Token

namespace Parser

variable {α β : Type}

/-! ## Steps -/

@[simp] theorem bind_apply (p : Parser α) (f : α → Parser β) (c : Cursor) :
    (p >>= f) c = match p c with
      | .ok (a, c) => f a c
      | .error e => .error e := by
  simp only [bind, StateT.bind, Except.bind]
  cases p c <;> rfl

@[simp] theorem pure_apply (a : α) (c : Cursor) : (pure a : Parser α) c = .ok (a, c) := rfl

@[simp] theorem map_apply (f : α → β) (p : Parser α) (c : Cursor) :
    (f <$> p) c = match p c with
      | .ok (a, c) => .ok (f a, c)
      | .error e => .error e := by
  simp only [Functor.map, StateT.map, bind, Except.bind]
  cases p c <;> rfl

@[simp] theorem discard_apply (p : Parser α) (c : Cursor) :
    Functor.discard p c = match p c with
      | .ok (_, c) => .ok ((), c)
      | .error e => .error e := by
  change (Function.const α () <$> p) c = _
  rw [map_apply]

@[simp] theorem get_apply (c : Cursor) : (get : Parser Cursor) c = .ok (c, c) := rfl

@[simp] theorem set_apply (c d : Cursor) : (set d : Parser PUnit) c = .ok (⟨⟩, d) := rfl

@[simp] theorem peek_front (p : Look) (ts : List Token) :
    peek p (.front ts) = .ok (p ts, .front ts) := rfl

@[simp] theorem ahead_front (ts : List Token) :
    ahead (.front ts) = .ok (Token.sizeList ts + 1, .front ts) := rfl

@[simp] theorem atEnd_front (ts : List Token) :
    atEnd (.front ts) = .ok (ts.isEmpty, .front ts) := rfl

@[simp] theorem rest_front (ts : List Token) : (Cursor.front ts).rest = ts := rfl

theorem optionally_of_ahead {cond : Look} {ts : List Token} (h : cond ts = true) (p : Parser α) :
    optionally cond p (.front ts) = (some <$> p) (.front ts) := by
  simp [optionally, h]

theorem optionally_of_not {cond : Look} {ts : List Token} (h : cond ts = false) (p : Parser α) :
    optionally cond p (.front ts) = .ok (none, .front ts) := by
  simp [optionally, h]

/-! ## Operators -/

theorem Look.opChars_append (cs : List Char) (ts : List Token) :
    Look.opChars cs (Token.opChars cs ++ ts) = true := by
  induction cs with
  | nil => rfl
  | cons c cs ih =>
      cases cs with
      | nil => simp [Token.opChars, Look.opChars]
      | cons d cs => simpa [Token.opChars, Look.opChars] using ih

theorem length_opChars (cs : List Char) : (Token.opChars cs).length = cs.length := by
  induction cs with
  | nil => rfl
  | cons c cs ih =>
      cases cs with
      | nil => rfl
      | cons d cs => simpa [Token.opChars] using ih

theorem span_of_mem_opChars {cs : List Char} {t : Token} (h : t ∈ Token.opChars cs) :
    t.span = .nowhere := by
  induction cs with
  | nil => cases h
  | cons c cs ih =>
      cases cs with
      | nil =>
          obtain rfl := List.mem_singleton.1 h
          rfl
      | cons d cs =>
          rcases List.mem_cons.1 h with rfl | h
          · rfl
          · exact ih h

theorem reveal_opChars {cs : List Char} (h : cs ≠ []) (ts : List Token) :
    Token.reveal (Token.opChars cs ++ ts) = Token.opChars cs ++ ts := by
  match cs with
  | [_] => rfl
  | _ :: _ :: _ => rfl

/-- An operator is taken whatever follows it. -/
theorem op_front {s : String} (hs : s.toList ≠ []) (ts : List Token) :
    op s (.front (Token.op s ++ ts)) = .ok (Token.op s, .front ts) := by
  have hreveal : Token.reveal (Token.op s ++ ts) = Token.op s ++ ts := reveal_opChars hs ts
  have hlook : Look.opChars s.toList (Token.op s ++ ts) = true := Look.opChars_append _ _
  have hlength : s.length = (Token.op s).length := by
    rw [Token.op, length_opChars, String.length_toList]
  have hlast : ((Token.op s).getLast?.map Token.span).getD .nowhere = .nowhere := by
    cases h : (Token.op s).getLast? with
    | none => rfl
    | some t => exact span_of_mem_opChars (List.mem_of_getLast? h)
  have htake : (Token.op s ++ ts).take s.length = Token.op s := by
    rw [hlength, List.take_left]
  have hdrop : (Token.op s ++ ts).drop s.length = ts := by
    rw [hlength, List.drop_left]
  simp only [op, bind_apply, get_apply, rest_front, hreveal, hlook, if_true, htake, hdrop]
  simp only [Cursor.front, Cursor.ofTokens, hlast]
  rfl

theorem op?_front {s : String} (hs : s.toList ≠ []) (ts : List Token) :
    op? s (.front (Token.op s ++ ts)) = .ok (Token.op s, .front ts) := by
  have hlook : Look.op s (Token.op s ++ ts) = true := by
    rw [Look.op, Token.op, reveal_opChars hs]
    exact Look.opChars_append _ _
  simp [op?, hlook, op_front hs]

theorem op?_of_not {s : String} {ts : List Token} (h : Look.op s ts = false) :
    op? s (.front ts) = .ok ([], .front ts) := by
  simp [op?, h]

/-! ## Words -/

theorem take?_front {t : Token} {ts : List Token} (hreveal : Token.reveal (t :: ts) = t :: ts)
    (hspan : t.span = .nowhere) (f : Token → Option α) :
    take? f (.front (t :: ts)) = match f t with
      | some a => .ok (some a, .front ts)
      | none => .ok (none, .front (t :: ts)) := by
  simp only [take?, bind_apply, get_apply, rest_front, hreveal]
  cases f t with
  | none => rfl
  | some a => simp [hspan, Cursor.front, Cursor.ofTokens]

@[simp] theorem word_front (x : String) (ts : List Token) :
    word (.front (Token.word x :: ts)) = .ok (x, .front ts) := rfl

@[simp] theorem lifetime_front (x : String) (ts : List Token) :
    lifetime (.front (Token.tick x :: ts)) = .ok (x, .front ts) := rfl

@[simp] theorem Look.keyword_word (k x : String) (ts : List Token) :
    Look.keyword k (Token.word x :: ts) = (x == k) := rfl

@[simp] theorem keyword_front (k : String) (ts : List Token) :
    keyword k (.front (Token.word k :: ts)) = .ok (Token.word k, .front ts) := by
  have hlook : Look.keyword k [Token.word k] = true := beq_self_eq_true k
  have hreveal : Token.reveal (Token.word k :: ts) = Token.word k :: ts := rfl
  simp [keyword, take?_front hreveal rfl, hlook]

@[simp] theorem keyword?_front (k : String) (ts : List Token) :
    keyword? k (.front (Token.word k :: ts)) = .ok ([Token.word k], .front ts) := by
  simp [keyword?]

theorem keyword?_of_not {k : String} {ts : List Token} (h : Look.keyword k ts = false) :
    keyword? k (.front ts) = .ok ([], .front ts) := by
  simp [keyword?, h]

theorem Look.name_word {x : String} (h : x ∉ keywords) (ts : List Token) :
    Look.name (Token.word x :: ts) = true := by
  change (!keywords.contains x) = true
  simp [h]

theorem name_front {x : String} (h : x ∉ Look.keywords) (ts : List Token) :
    name (.front (Token.word x :: ts)) = .ok (x, .front ts) := by
  simp [name, Look.name_word h]

/-- A word that is a name is none of the keywords. -/
theorem Look.not_keyword_of_name {x : String} (h : x ∉ keywords) {k : String} (hk : k ∈ keywords)
    (ts : List Token) : Look.keyword k (Token.word x :: ts) = false := by
  rw [keyword_word, beq_eq_false_iff_ne]
  rintro rfl
  exact h hk

theorem Look.not_anyKeyword_of_name {x : String} (h : x ∉ keywords) {ks : List String}
    (hks : ∀ k ∈ ks, k ∈ keywords) (ts : List Token) :
    Look.anyKeyword ks (Token.word x :: ts) = false := by
  rw [anyKeyword, List.any_eq_false]
  intro k hk
  rw [not_keyword_of_name h (hks k hk)]
  exact Bool.false_ne_true

/-! ## What is ahead -/

namespace Look

variable {ts : List Token} {q : Token → Bool}

/-- The test `q` on the next token, if there is one. -/
def only (q : Token → Bool) : Look := fun ts => (Token.reveal ts).head?.all q

theorem only_of_next (h : next q ts = true) : only q ts = true := by
  unfold next at h
  unfold only
  cases hts : Token.reveal ts with
  | nil => rfl
  | cons t us =>
      rw [hts] at h
      exact h

theorem not_next_of_only (h : only q ts = true) {p : Token → Bool}
    (hp : ∀ t, q t = true → p t = false) : next p ts = false := by
  unfold only at h
  unfold next
  cases hts : Token.reveal ts with
  | nil => rfl
  | cons t us =>
      rw [hts] at h
      exact hp t h

theorem not_op_of_only (h : only q ts = true) {s : String} {c : Char} {cs : List Char}
    (hs : s.toList = c :: cs) (hc : ∀ joint span, q (.punct c joint span) = false) :
    op s ts = false := by
  unfold only at h
  rw [op, hs]
  cases hts : Token.reveal ts with
  | nil => cases cs <;> rfl
  | cons t us =>
      rw [hts] at h
      cases t with
      | punct d joint span =>
          have hne : (c == d) = false := by
            rw [beq_eq_false_iff_ne]
            rintro rfl
            have hd : q (.punct c joint span) = true := h
            rw [hc joint span] at hd
            cases hd
          cases cs with
          | nil => exact hne
          | cons c' cs => simp [opChars, hne]
      | _ => cases cs <;> rfl

end Look

/-! ## Groups -/

theorem openGroup_front {d : Delimiter} {p : Parser α} {us : List Token} {a : α}
    (h : p (.front us) = .ok (a, .front [])) (ts : List Token) :
    openGroup d p (.front (Token.enclose d us :: ts)) = .ok ((a, none), .front ts) := by
  have hp : p ⟨us, .nowhere, .nowhere, none⟩ = .ok (a, .front []) := h
  have hgroup : (if d = .invisible then Token.enclose d us :: ts
      else Token.reveal (Token.enclose d us :: ts)) = Token.enclose d us :: ts := by
    cases d <;> rfl
  simp only [openGroup, bind_apply, get_apply, rest_front, hgroup]
  simp only [Token.enclose, if_true, Cursor.front, Cursor.ofTokens] at hp ⊢
  rw [hp]
  rfl

theorem inGroup_front {d : Delimiter} {p : Parser α} {us : List Token} {a : α}
    (h : p (.front us) = .ok (a, .front [])) (ts : List Token) :
    inGroup d p (.front (Token.enclose d us :: ts)) = .ok (a, .front ts) := by
  rw [inGroup, bind_apply, openGroup_front h]
  rfl

@[simp] theorem note_none (c : Cursor) : note none c = .ok ((), c) := by
  have hleft : c.leftOver.or none = c.leftOver := Option.or_none
  change Except.ok ((), { c with leftOver := c.leftOver.or none }) = _
  rw [hleft]

theorem runAll_front {p : Parser α} {ts : List Token} {a : α}
    (h : p (.front ts) = .ok (a, .front [])) : runAll p ts .nowhere = .ok a := by
  have hp : p (.ofTokens ts .nowhere) = .ok (a, .front []) := h
  rw [runAll, hp]
  rfl

/-! ## Lists -/

theorem Listed.tokens_nil (sep : List Token) (f : α → List Token) :
    (⟨[], false⟩ : Listed α).tokens sep f = [] := rfl

theorem Listed.tokens_singleton (sep : List Token) (f : α → List Token) (a : α) (trailing : Bool) :
    (⟨[a], trailing⟩ : Listed α).tokens sep f = f a ++ if trailing then sep else [] := rfl

theorem Listed.tokens_cons_cons (sep : List Token) (f : α → List Token) (a b : α) (as : List α)
    (trailing : Bool) :
    (⟨a :: b :: as, trailing⟩ : Listed α).tokens sep f =
      f a ++ (sep ++ (⟨b :: as, trailing⟩ : Listed α).tokens sep f) := by
  simp [tokens, Token.sepBy]

theorem Listed.length_le_sizeList {sep : List Token} {f : α → List Token} {l : Listed α}
    (h : ∀ a ∈ l.items, f a ≠ []) : l.items.length ≤ Token.sizeList (l.tokens sep f) := by
  obtain ⟨as, trailing⟩ := l
  induction as with
  | nil => exact Nat.zero_le _
  | cons a as ih =>
      have ha := Token.sizeList_pos (h a List.mem_cons_self)
      cases as with
      | nil =>
          rw [tokens_singleton, Token.sizeList_append, List.length_singleton]
          omega
      | cons b as =>
          have has := ih fun c hc => h c (List.mem_cons_of_mem a hc)
          rw [tokens_cons_cons, Token.sizeList_append, Token.sizeList_append]
          simp only [List.length_cons] at has ⊢
          omega

theorem Listed.sizeList_le {sep : List Token} {f : α → List Token} {l : Listed α} {a : α}
    (h : a ∈ l.items) : Token.sizeList (f a) ≤ Token.sizeList (l.tokens sep f) := by
  obtain ⟨as, trailing⟩ := l
  induction as with
  | nil => cases h
  | cons b as ih =>
      cases as with
      | nil =>
          obtain rfl := List.mem_singleton.1 h
          rw [tokens_singleton, Token.sizeList_append]
          exact Nat.le_add_right _ _
      | cons c as =>
          rw [tokens_cons_cons, Token.sizeList_append, Token.sizeList_append]
          rcases List.mem_cons.1 h with rfl | h
          · exact Nat.le_add_right _ _
          · have has := ih h
            omega

theorem listUntil_front {sep : String} (hsep : sep.toList ≠ []) {done : Parser Bool}
    {item : Parser α} {f : α → List Token} {vs : List Token}
    (hend : done (.front vs) = .ok (true, .front vs))
    (hmore : ∀ ts, done (.front (Token.op sep ++ ts)) = .ok (false, .front (Token.op sep ++ ts)))
    {l : Listed α} (hl : l.items = [] → l.trailing = false)
    (hitem : ∀ a ∈ l.items, ∀ ts, done (.front (f a ++ ts)) = .ok (false, .front (f a ++ ts)))
    (hread : ∀ a ∈ l.items, ∀ ts, ts = vs ∨ (∃ us, ts = Token.op sep ++ us) →
      item (.front (f a ++ ts)) = .ok (a, .front ts))
    {fuel : Nat} (hfuel : l.items.length < fuel) :
    listUntil sep done item fuel (.front (l.tokens (Token.op sep) f ++ vs)) = .ok (l, .front vs) := by
  obtain ⟨as, trailing⟩ := l
  -- an item is followed by a separator or by what follows the list; after a trailing separator the
  -- reader looks once more, which takes fuel beyond the items
  induction as generalizing fuel with
  | nil =>
      obtain ⟨fuel, rfl⟩ := Nat.exists_eq_succ_of_ne_zero (Nat.ne_of_gt hfuel)
      obtain rfl : trailing = false := hl rfl
      simp [listUntil, Listed.tokens_nil, hend]
  | cons a as ih =>
      obtain ⟨fuel, rfl⟩ := Nat.exists_eq_succ_of_ne_zero (Nat.ne_zero_of_lt hfuel)
      have hitem' := hitem a List.mem_cons_self
      have hread' := hread a List.mem_cons_self
      cases as with
      | nil =>
          cases trailing with
          | false =>
              simp [listUntil, Listed.tokens_singleton, hitem', hread', hend]
          | true =>
              obtain ⟨fuel, rfl⟩ :=
                Nat.exists_eq_succ_of_ne_zero (Nat.ne_of_gt (Nat.lt_of_succ_lt_succ hfuel))
              simp [listUntil, Listed.tokens_singleton, hitem', hread', hend, hmore, op_front hsep]
      | cons b bs =>
          have hrest := ih (fun h => absurd h (List.cons_ne_nil _ _))
            (fun c hc => hitem c (List.mem_cons_of_mem a hc))
            (fun c hc => hread c (List.mem_cons_of_mem a hc)) (Nat.lt_of_succ_lt_succ hfuel)
          simp [listUntil, Listed.tokens_cons_cons, hitem', hread', hmore, op_front hsep, hrest]

theorem manyWhile_front {cond : Look} {item : Parser α} {f : α → List Token} {vs : List Token}
    (hend : cond vs = false) {as : List α} (hcond : ∀ a ∈ as, ∀ ts, cond (f a ++ ts) = true)
    (hread : ∀ a ∈ as, ∀ ts, ts = vs ∨ (∃ b ∈ as, ∃ us, ts = f b ++ us) →
      item (.front (f a ++ ts)) = .ok (a, .front ts))
    {fuel : Nat} (hfuel : as.length < fuel) :
    manyWhile cond item fuel (.front (as.flatMap f ++ vs)) = .ok (as, .front vs) := by
  induction as generalizing fuel with
  | nil =>
      obtain ⟨fuel, rfl⟩ := Nat.exists_eq_succ_of_ne_zero (Nat.ne_of_gt hfuel)
      simp [manyWhile, hend]
  | cons a as ih =>
      obtain ⟨fuel, rfl⟩ := Nat.exists_eq_succ_of_ne_zero (Nat.ne_zero_of_lt hfuel)
      have hrest := ih (fun b hb => hcond b (List.mem_cons_of_mem a hb))
        (fun b hb ts hts => hread b (List.mem_cons_of_mem a hb) ts (hts.imp_right
          fun ⟨c, hc, us, hus⟩ => ⟨c, List.mem_cons_of_mem a hc, us, hus⟩))
        (Nat.lt_of_succ_lt_succ hfuel)
      have hnext : as.flatMap f ++ vs = vs ∨ ∃ b ∈ a :: as, ∃ us, as.flatMap f ++ vs = f b ++ us := by
        cases as with
        | nil => exact .inl rfl
        | cons b bs =>
            refine .inr ⟨b, by simp, bs.flatMap f ++ vs, ?_⟩
            rw [List.flatMap_cons, List.append_assoc]
      rw [List.flatMap_cons, List.append_assoc]
      simp [manyWhile, hcond a List.mem_cons_self, hread a List.mem_cons_self _ hnext, hrest]

end Parser

end RowDerive
