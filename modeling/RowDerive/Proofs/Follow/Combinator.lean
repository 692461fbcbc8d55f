import RowDerive.Proofs.Follow.Reader

/-!
# Combinators in front of other tokens

Readers of a token, of a group, of a list and of what has a place stop in front of other tokens if their
parts do. Beside each stands what it has read if it has read something.
-/

set_option synthInstance.maxSize 10000

namespace RowDerive

open RowDerive.Parser

namespace Parser

variable {α β : Type} {s : List Token} {P : List Token → Prop}

/-! ## Tokens -/

section

variable {f : Token → Option α} {k k' : Option α → Parser β}

/-- What was read where a token had to be taken. -/
theorem take?_eq_ok {c e : Cursor} {b : β} (hnone : ∀ c r, k none c ≠ .ok r)
    (h : (Parser.take? f >>= k) c = .ok (b, e)) :
    ∃ t us a, Token.reveal c.rest = t :: us ∧ f t = some a ∧
      k (some a) { c with rest := us, last := t.span } = .ok (b, e) := by
  simp only [Parser.take?, bind_apply, get_apply] at h
  cases hts : Token.reveal c.rest with
  | nil =>
      rw [hts] at h
      exact absurd h (hnone c _)
  | cons t us =>
      rw [hts] at h
      cases hft : f t with
      | none =>
          simp only [hft] at h
          exact absurd h (hnone c _)
      | some a =>
          simp only [hft, bind_apply, set_apply, pure_apply] at h
          exact ⟨t, us, a, rfl, hft, h⟩

/-- A token that is taken is taken whatever follows it, if there has to be one. -/
theorem Stops.take? (hsome : ∀ a, Stops s (k (some a)) (k' (some a))) (hnone : ∀ c r, k none c ≠ .ok r) :
    Stops s (Parser.take? f >>= k) (Parser.take? f >>= k') where
  kept c b e hc h := by
    obtain ⟨t, us, a, hts, hft, hok⟩ := take?_eq_ok hnone h
    have htake : (Parser.take? f >>= k') (c.followedBy s) =
        k' (some a) (Cursor.followedBy { c with rest := us, last := t.span } s) := by
      simp only [Parser.take?, bind_apply, get_apply, Cursor.rest_followedBy,
        Token.reveal_append_of_cons hts, hft, set_apply, pure_apply]
      rfl
    rw [htake]
    exact (hsome a).kept _ b e (hc.of_reveal hts) hok

/-- Nothing is taken where no token is known. -/
theorem FailsAt.take? (hf : ∀ ts t us, P ts → Token.reveal ts = t :: us → f t = none)
    [hnone : FailsAt P (k none)] : FailsAt P (Parser.take? f >>= k) where
  error c hc := by
    obtain ⟨e, he⟩ := hnone.error c hc
    refine ⟨e, ?_⟩
    simp only [Parser.take?, bind_apply, get_apply]
    cases hts : Token.reveal c.rest with
    | nil => simp only [pure_apply, he]
    | cons t us => simp only [hf c.rest t us hc hts, pure_apply, he]

theorem FailsAt.take?_blank [FailsAt Token.Blank (k none)] : FailsAt Token.Blank (Parser.take? f >>= k) :=
  .take? fun ts t us hts hcons => by
    rw [Token.Blank, hcons] at hts
    cases hts

end

section

variable {p q : Parser α} {look : Look}

instance (k : String) : Stops s (keyword k) (keyword k) :=
  .take? (fun _ => inferInstance) fun _ _ h => nomatch h

instance (k : String) : FailsAt Token.Blank (keyword k) := .take?_blank

instance (k : String) : FailsAt Token.Separated (keyword k) :=
  .take? fun ts t us hts hcons => by
    obtain ⟨c, joint, a, vs, hreveal, -⟩ := Token.separator_cases hts
    rw [hcons] at hreveal
    cases hreveal
    rfl

theorem keyword_eq_ok {k : String} {c d : Cursor} {t : Token} (h : keyword k c = .ok (t, d)) :
    ∃ a us, Token.reveal c.rest = .ident k a :: us ∧ d = { c with rest := us, last := a } := by
  obtain ⟨u, us, x, hts, hu, hok⟩ := take?_eq_ok (by rintro _ _ ⟨⟩) h
  cases hok
  split at hu
  · rename_i hlook
    cases u with
    | ident y a =>
        obtain rfl : y = k := beq_iff_eq.1 hlook
        exact ⟨a, us, hts, rfl⟩
    | lifetime | punct | literal => exact absurd hlook Bool.false_ne_true
    | group d vs o cl =>
        cases d with
        | invisible => exact absurd rfl (Token.ne_invisible_of_reveal hts vs o cl)
        | paren | bracket | brace => exact absurd hlook Bool.false_ne_true
  · cases hu

theorem keyword?_eq_ok {k : String} {c d : Cursor} {ts : List Token} (h : keyword? k c = .ok (ts, d)) :
    d = c ∨ ∃ a, Token.reveal c.rest = .ident k a :: d.rest := by
  unfold keyword? at h
  rw [bind_peek] at h
  split at h
  · obtain ⟨_, e, hread, h⟩ := bind_eq_ok h
    cases h
    obtain ⟨a, us, hts, rfl⟩ := keyword_eq_ok hread
    exact .inr ⟨a, hts⟩
  · cases h
    exact .inl rfl

theorem optionally_eq_ok {c d : Cursor} {x : Option α} (h : optionally look p c = .ok (x, d)) :
    d = c ∨ ∃ a, p c = .ok (a, d) := by
  unfold optionally at h
  rw [bind_peek] at h
  split at h
  · obtain ⟨a, e, hread, h⟩ := bind_eq_ok h
    cases h
    exact .inr ⟨a, hread⟩
  · cases h
    exact .inl rfl

theorem stringLiteral_eq_ok {c d : Cursor} {x : StringLiteral} (h : stringLiteral c = .ok (x, d)) :
    ∃ y a, Token.reveal c.rest = .literal y a :: d.rest := by
  obtain ⟨u, us, y, hts, hu, hok⟩ := take?_eq_ok (by rintro _ _ ⟨⟩) h
  cases hok
  cases u with
  | literal z a => exact ⟨z, a, hts⟩
  | ident | lifetime | punct | group => cases hu

instance : Stops s word word := .take? (fun _ => inferInstance) fun _ _ h => nomatch h

theorem word_eq_ok {c d : Cursor} {x : String} (h : word c = .ok (x, d)) :
    ∃ a, Token.reveal c.rest = .ident x a :: d.rest := by
  obtain ⟨u, us, y, hts, hu, hok⟩ := take?_eq_ok (by rintro _ _ ⟨⟩) h
  cases hok
  cases u with
  | ident z a =>
      cases hu
      exact ⟨a, hts⟩
  | literal | lifetime | punct | group => cases hu

instance : Stops s lifetime lifetime := .take? (fun _ => inferInstance) fun _ _ h => nomatch h

instance : FailsAt Token.Ended lifetime :=
  .take? fun ts t us hts hcons => by
    rw [Token.Ended, Look.only, hcons] at hts
    cases t with
    | lifetime => cases hts
    | ident | punct | literal | group => rfl

instance : Stops s stringLiteral stringLiteral :=
  .take? (fun _ => inferInstance) fun _ _ h => nomatch h

instance : Stops s name name := by
  unfold name
  infer_instance

instance : Look.Unseen (fun ts => Look.word ts = false) Look.name where
  eq ts hts := by
    unfold Look.word at hts
    unfold Look.name
    rw [Look.next] at hts ⊢
    cases hreveal : Token.reveal ts with
    | nil => rfl
    | cons t us =>
        rw [hreveal] at hts
        cases t with
        | ident => cases hts
        | lifetime | punct | literal | group => rfl

instance : Look.Unseen (fun ts => Look.word ts = false) Look.word := ⟨fun _ hts => hts⟩

instance : FailsAt (fun ts => Look.word ts = false) name := by
  unfold name
  infer_instance

theorem name_eq_ok {c d : Cursor} {x : String} (h : name c = .ok (x, d)) :
    Look.name c.rest = true ∧ ∃ a, Token.reveal c.rest = .ident x a :: d.rest := by
  unfold name at h
  rw [bind_peek] at h
  split at h
  · rename_i hname
    exact ⟨hname, word_eq_ok h⟩
  · rw [bind_peek] at h
    split at h
    · rw [bind_get] at h
      obtain ⟨_, _, _, hfail⟩ := bind_eq_ok h
      cases hfail
    · cases h

/-- A keyword that may follow is no name. -/
instance : FailsAt Token.Ended name :=
  failsAt_of_not_ok fun c x d hc h => by
    have hname : Look.name c.rest = false := Look.Unseen.eq c.rest hc
    rw [(name_eq_ok h).1] at hname
    cases hname

theorem opChars_append {cs : List Char} {ts : List Token} (h : Look.opChars cs ts = true)
    (s : List Token) : Look.opChars cs (ts ++ s) = true ∧ cs.length ≤ ts.length := by
  induction cs generalizing ts with
  | nil => exact ⟨rfl, Nat.zero_le _⟩
  | cons c cs ih =>
      cases ts with
      | nil => cases cs <;> cases h
      | cons t ts =>
          cases t with
          | punct d joint a =>
              cases cs with
              | nil => exact ⟨h, by simp⟩
              | cons c' cs =>
                  obtain ⟨hc, hcs⟩ := Bool.and_eq_true_iff.1 h
                  obtain ⟨hmore, hlength⟩ := ih hcs
                  exact ⟨Bool.and_eq_true_iff.2 ⟨hc, hmore⟩, Nat.succ_le_succ hlength⟩
          | ident | lifetime | literal | group => cases cs <;> cases h

instance (str : String) [h : Look.Unseen Token.Blank (Look.op str)] : Stops s (op str) (op str) where
  kept c a d hc hp := by
    simp only [op, bind_apply, get_apply] at hp
    by_cases hlook : Look.opChars str.toList (Token.reveal c.rest) = true
    · simp only [hlook, if_true, bind_apply, set_apply, pure_apply] at hp
      cases hp
      have hts : Token.reveal c.rest ≠ [] := by
        intro hts
        have hshut : Look.opChars str.toList (Token.reveal c.rest) = false := h.eq c.rest hts
        rw [hlook] at hshut
        cases hshut
      obtain ⟨hmore, hlength⟩ := opChars_append hlook s
      rw [String.length_toList] at hlength
      refine ⟨hc.drop_reveal _, .inl ?_⟩
      simp only [op, bind_apply, get_apply, Cursor.rest_followedBy, Token.reveal_append_of_ne hts, hmore,
        if_true, set_apply, pure_apply, List.take_append_of_le_length hlength,
        List.drop_append_of_le_length hlength]
      rfl
    · simp only [hlook] at hp
      cases hp

instance (str : String) [h : Look.Unseen P (Look.op str)] : FailsAt P (op str) where
  error c hc := by
    have hshut : Look.opChars str.toList (Token.reveal c.rest) = false := h.eq c.rest hc
    simp only [op, bind_apply, get_apply, hshut]
    exact ⟨_, rfl⟩

theorem op_eq_ok {str : String} {c d : Cursor} {ts : List Token} (h : op str c = .ok (ts, d)) :
    Look.op str c.rest = true ∧ d.rest = (Token.reveal c.rest).drop str.length := by
  simp only [op, bind_get] at h
  split at h
  · rename_i hlook
    cases h
    exact ⟨hlook, rfl⟩
  · cases h

instance (str : String) [Look.Firm s (Look.op str)] [Look.Unseen Token.Blank (Look.op str)] :
    Stops s (op? str) (op? str) := by
  unfold op?
  infer_instance

instance (str : String) [Look.Unseen P (Look.op str)] : Stays P (op? str) := by
  unfold op?
  infer_instance

instance (k : String) [Look.Firm s (Look.keyword k)] : Stops s (keyword? k) (keyword? k) := by
  unfold keyword?
  infer_instance

instance (k : String) : StopsInside s (keyword? k) (keyword? k) := by
  unfold keyword?
  infer_instance

instance (k : String) [Look.Unseen P (Look.keyword k)] : Stays P (keyword? k) := by
  unfold keyword?
  infer_instance

instance [Look.Firm s look] [Stops s p q] : Stops s (optionally look p) (optionally look q) := by
  unfold optionally
  infer_instance

instance [Look.Near s look] [StopsInside s p q] [Stays Token.Blank p] :
    StopsInside s (optionally look p) (optionally look q) := by
  unfold optionally
  infer_instance

instance [Look.Unseen P look] : Stays P (optionally look p) := by
  unfold optionally
  infer_instance

instance (f : Token → Option α) : StopsInside s (Parser.take? f) (Parser.take? f) where
  kept c x d hc h hd := by
    simp only [Parser.take?, bind_apply, get_apply] at h
    cases hts : Token.reveal c.rest with
    | nil =>
        rw [hts] at h
        cases h
        exact absurd hts hd
    | cons t ts =>
        rw [hts] at h
        cases hft : f t with
        | none =>
            simp only [hft] at h
            cases h
            refine ⟨hc, .inl ?_⟩
            simp only [Parser.take?, bind_apply, get_apply, Cursor.rest_followedBy,
              Token.reveal_append_of_cons hts, hft]
            rfl
        | some a =>
            simp only [hft] at h
            cases h
            refine ⟨hc.of_reveal hts, .inl ?_⟩
            simp only [Parser.take?, bind_apply, get_apply, Cursor.rest_followedBy,
              Token.reveal_append_of_cons hts, hft]
            rfl

instance [Token.Ending s] : StopsInside s literal literal := by
  unfold literal
  infer_instance

/-! ## Groups -/

/-- The tokens among which a group between `d` is looked for: a visible one may stand in invisible ones. -/
def groupAhead (d : Delimiter) (ts : List Token) : List Token :=
  if d = .invisible then ts else Token.reveal ts

theorem groupAhead_append {d e : Delimiter} {ts us rest : List Token} {o cl : Span}
    (h : groupAhead d ts = .group e us o cl :: rest) (s : List Token) :
    groupAhead d (ts ++ s) = .group e us o cl :: (rest ++ s) := by
  unfold groupAhead at h ⊢
  by_cases hd : d = .invisible
  · rw [if_pos hd] at h ⊢
    rw [h, List.cons_append]
  · rw [if_neg hd] at h ⊢
    exact Token.reveal_append_of_cons h s

theorem closed_of_groupAhead {d e : Delimiter} {ts us rest : List Token} {o cl : Span}
    (h : groupAhead d ts = .group e us o cl :: rest) (hts : Token.Closed s ts) : Token.Closed s rest := by
  have hopened : Token.openedList (groupAhead d ts) = Token.openedList ts := by
    unfold groupAhead
    split
    · rfl
    · exact Token.openedList_reveal ts
  refine hts.of_suffix (Token.opened (.group e us o cl)) ?_
  rw [← hopened, h, Token.openedList]

theorem openGroup_of_group {d : Delimiter} {c : Cursor} {us rest : List Token} {o cl : Span}
    (h : groupAhead d c.rest = .group d us o cl :: rest) :
    openGroup d p c = (p ⟨us, cl, o, c.leftOver⟩).map fun r =>
      ((r.1, Token.firstLeftOver? d r.2.rest),
        { c with rest := rest, last := cl, leftOver := r.2.leftOver }) := by
  rw [groupAhead] at h
  simp only [openGroup, bind_apply, get_apply, h, if_true]
  cases p ⟨us, cl, o, c.leftOver⟩ <;> rfl

theorem openGroup_of_not {d : Delimiter} {c : Cursor}
    (h : ¬ ∃ us o cl rest, groupAhead d c.rest = .group d us o cl :: rest) :
    openGroup d p c = failExpected (delimiterName d) c := by
  rw [groupAhead] at h
  simp only [openGroup, bind_apply, get_apply]
  generalize (if d = .invisible then c.rest else Token.reveal c.rest) = ts at h
  cases ts with
  | nil => rfl
  | cons t ts =>
      cases t with
      | group e us o cl =>
          have hne : e ≠ d := fun hd => h ⟨us, o, cl, ts, by rw [hd]⟩
          simp only [hne, if_false]
      | ident | lifetime | punct | literal => rfl

theorem openGroup_eq_ok_iff {d : Delimiter} {c e : Cursor} {a : α} {left : Option (Located Delimiter)} :
    openGroup d p c = .ok ((a, left), e) ↔
      ∃ us o cl rest inner, groupAhead d c.rest = .group d us o cl :: rest ∧
        p ⟨us, cl, o, c.leftOver⟩ = .ok (a, inner) ∧ left = Token.firstLeftOver? d inner.rest ∧
        e = { c with rest := rest, last := cl, leftOver := inner.leftOver } := by
  constructor
  · intro h
    by_cases hgroup : ∃ us o cl rest, groupAhead d c.rest = .group d us o cl :: rest
    · obtain ⟨us, o, cl, rest, hts⟩ := hgroup
      rw [openGroup_of_group hts] at h
      cases hp : p ⟨us, cl, o, c.leftOver⟩ with
      | error e =>
          rw [hp] at h
          cases h
      | ok r =>
          rw [hp] at h
          cases h
          exact ⟨us, o, cl, rest, r.2, hts, hp, rfl, rfl⟩
    · rw [openGroup_of_not hgroup] at h
      cases h
  · rintro ⟨us, o, cl, rest, inner, hts, hp, rfl, rfl⟩
    rw [openGroup_of_group hts, hp]
    rfl

theorem inGroup_eq_ok {d : Delimiter} {c e : Cursor} {a : α} (h : inGroup d p c = .ok (a, e)) :
    ∃ us o cl rest, groupAhead d c.rest = .group d us o cl :: rest := by
  obtain ⟨x, e', hopen, -⟩ := bind_eq_ok h
  obtain ⟨us, o, cl, rest, _, hts, -⟩ := openGroup_eq_ok_iff.1 hopen
  exact ⟨us, o, cl, rest, hts⟩

/-- What is between delimiters has nothing behind it. -/
instance (d : Delimiter) (p : Parser α) : Stops s (openGroup d p) (openGroup d p) where
  kept c x e hc h := by
    obtain ⟨us, o, cl, rest, inner, hts, hp, hleft, rfl⟩ := openGroup_eq_ok_iff.1 h
    exact ⟨closed_of_groupAhead hts hc, .inl (openGroup_eq_ok_iff.2
      ⟨us, o, cl, rest ++ s, inner, groupAhead_append hts s, hp, hleft, rfl⟩)⟩

/-- Of a method an invisible group holds no more than the start. -/
instance [hp : FailsAt Token.CutMethod p] : FailsAt Token.CutMethod (openGroup .invisible p) :=
  failsAt_of_not_ok fun c x e hc h => by
    obtain ⟨us, o, cl, rest, inner, hts, hok, -⟩ := openGroup_eq_ok_iff.1 h
    have hrest : c.rest = .group .invisible us o cl :: rest := hts
    obtain ⟨F, hF⟩ := hc
    rw [hrest, Token.openedList, Token.opened, List.append_assoc] at hF
    exact hp.not_ok ⟨_, hF⟩ hok

instance (left : Option (Located Delimiter)) : Stops s (note left) (note left) where
  kept c x d hc h := by
    cases h
    exact ⟨hc, .inl rfl⟩

instance (d : Delimiter) (p : Parser α) : Stops s (inGroup d p) (inGroup d p) := by
  unfold inGroup
  infer_instance

instance (d : Delimiter) [FailsAt P (openGroup d p)] : FailsAt P (inGroup d p) := by
  unfold inGroup
  infer_instance

/-! ## Lists -/

theorem manyWhile_eq_ok {n : Nat} {c d : Cursor} {as : List α} (h : manyWhile look p n c = .ok (as, d)) :
    d = c ∨ ∃ a e, p c = .ok (a, e) := by
  cases n with
  | zero => cases h
  | succ n =>
      rw [manyWhile, bind_peek] at h
      split at h
      · obtain ⟨a, e, hread, -⟩ := bind_eq_ok h
        exact .inr ⟨a, e, hread⟩
      · cases h
        exact .inl rfl

instance [Look.Unseen P look] (n : Nat) : Stays P (manyWhile look p n) := by
  cases n with
  | zero => exact inferInstanceAs (Stays P failTooDeep)
  | succ n =>
      unfold manyWhile
      infer_instance

instance [Look.Firm s look] [hpq : Stops s p q] (n k : Nat) :
    Stops s (manyWhile look p n) (manyWhile look q (n + k)) := by
  refine .bounded rfl (fun n k ih => ?_) n k
  unfold manyWhile
  infer_instance

instance [Look.Near s look] [Look.Unseen Token.Blank look] [hpq : Stops s p q]
    [FailsAt Token.Blank p] (n k : Nat) :
    StopsInside s (manyWhile look p n) (manyWhile look q (n + k)) := by
  refine .bounded rfl (fun n k ih => ?_) n k
  unfold manyWhile
  infer_instance

instance [Look.Firm s look] [Look.Unseen Token.Blank look] [StopsInside s p q] (n k : Nat) :
    Stops s (listUntil "," (peek look) p n) (listUntil "," (peek look) q (n + k)) := by
  refine .bounded rfl (fun n k ih => ?_) n k
  unfold listUntil
  infer_instance

instance [Token.Ending s] [StopsInside s p q] : Stops s (angleList p) (angleList q) := by
  unfold angleList
  infer_instance

/-! ## Places -/

theorem located_apply (p : Parser α) (c : Cursor) :
    located p c = match p c with
      | .ok (a, d) => .ok (⟨a, startOf true c, d.last.stop⟩, d)
      | .error e => .error e := by
  cases h : p c <;> simp only [located, bind_apply, get_apply, pure_apply, h]

theorem located_eq_ok {c e : Cursor} {x : Located α} (h : located p c = .ok (x, e)) :
    ∃ a, p c = .ok (a, e) ∧ x = ⟨a, startOf true c, e.last.stop⟩ := by
  rw [located_apply] at h
  cases hp : p c with
  | ok r =>
      rw [hp] at h
      cases h
      exact ⟨r.1, rfl, rfl⟩
  | error e =>
      rw [hp] at h
      cases h

/-- A place begins with the first token, if there is one before what follows. -/
theorem Kept.located {c d : Cursor} {a : α} (h : Kept s (q (c.followedBy s)) a d)
    (hc : ¬ Token.Blank c.rest) :
    Kept s (located q (c.followedBy s)) ⟨a, startOf true c, d.last.stop⟩ d where
  closed := h.closed
  read := by
    have hstart : startOf true (c.followedBy s) = startOf true c := by
      cases hts : Token.reveal c.rest with
      | nil => exact absurd hts hc
      | cons t ts =>
          simp only [startOf, Cursor.rest_followedBy, Token.reveal_append_of_cons hts, hts, if_true]
    rw [located_apply, hstart]
    rcases h.read with hok | ⟨hparting, e', herror⟩
    · rw [hok]
      exact .inl rfl
    · rw [herror]
      exact .inr ⟨hparting, e', rfl⟩

instance [hpq : Stops s p q] [hp : FailsAt Token.Blank p] : Stops s (located p) (located q) where
  kept c x e hc h := by
    obtain ⟨a, hpc, rfl⟩ := located_eq_ok h
    exact (hpq.kept c a e hc hpc).located fun hblank => hp.not_ok hblank hpc

/-- The place of what is not there does not matter. -/
theorem stops_located_optionally {f : Located (Option α) → Parser β} [hfirm : Look.Firm s look]
    [hunseen : Look.Unseen Token.Blank look] [hpq : Stops s p q] [hf : ∀ x, Stops s (f x) (f x)]
    (hnone : ∀ a b, f ⟨none, a⟩ = f ⟨none, b⟩) :
    Stops s (located (optionally look p) >>= f) (located (optionally look q) >>= f) where
  kept c b e hc h := by
    obtain ⟨x, d, hx, hok⟩ := bind_eq_ok h
    by_cases hblank : Token.Blank c.rest
    · have hlook : look c.rest = false := hunseen.eq c.rest hblank
      have hnot (c : Cursor) (h : look c.rest = false) (p : Parser α) :
          located (optionally look p) c = .ok (⟨none, startOf true c, c.last.stop⟩, c) := by
        simp only [located_apply, optionally, bind_peek, h]
        rfl
      rw [hnot c hlook] at hx
      cases hx
      rw [hnone _ ⟨startOf true (c.followedBy s), c.last.stop⟩] at hok
      have hs : look (c.followedBy s).rest = false := (hfirm.eq c.rest).trans hlook
      rw [bind_apply, hnot _ hs]
      exact (hf _).kept c b e hc hok
    · obtain ⟨a, hpc, rfl⟩ := located_eq_ok hx
      have hoptionally : Stops s (optionally look p) (optionally look q) := inferInstance
      have hkept := hoptionally.kept c a d hc hpc
      exact (hkept.located hblank).bind ((hf _).kept d b e hkept.closed hok)

instance [hp : FailsAt P p] : FailsAt P (located p) := by
  unfold located
  infer_instance

/-- What is taken as it stood in the source has nothing of what follows. -/
instance (c : Cursor) : Stops s (takenSince c) (takenSince (c.followedBy s)) where
  kept d x e hd h := by
    cases h
    refine ⟨hd, .inl ?_⟩
    have hsize : Token.sizeList (c.followedBy s).rest - Token.sizeList (d.followedBy s).rest =
        Token.sizeList c.rest - Token.sizeList d.rest := by
      simp only [Cursor.rest_followedBy, Token.sizeList_append]
      omega
    simp only [takenSince, bind_apply, get_apply, pure_apply, hsize]
    rw [Cursor.rest_followedBy, Token.listFirst_append (Nat.sub_le _ _)]

end

end Parser

end RowDerive
