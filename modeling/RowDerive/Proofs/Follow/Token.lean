import RowDerive.Proofs.Parser.Front

/-!
# Tokens that follow others

A reader of a part of the source has other tokens behind that part, and looks at them where the part ends.
Here it is said of each look what it sees of what follows: a look is `Firm` if it sees the same as at the
end of the tokens, and `Near` if it does so unless it stands at the end itself.
-/

namespace RowDerive

open RowDerive.Parser

namespace Token

/-! ## Invisible groups -/

mutual

/-- What of the token shows: an invisible group is opened, and so is each one in it. -/
def opened : Token → List Token
  | group .invisible ts _ _ => openedList ts
  | t => [t]

/-- What of the tokens shows. -/
def openedList : List Token → List Token
  | [] => []
  | t :: ts => opened t ++ openedList ts

end

@[simp] theorem openedList_append (ts us : List Token) :
    openedList (ts ++ us) = openedList ts ++ openedList us := by
  induction ts with
  | nil => rfl
  | cons t ts ih => rw [List.cons_append, openedList, openedList, ih, List.append_assoc]

mutual

theorem shown?_opened (t : Token) :
    (shown? t = none ∧ t.opened = []) ∨
      ∃ u us, shown? t = some (u, us) ∧ t.opened = u :: openedList us := by
  match t with
  | group .invisible ts o c =>
      rw [shown?, opened]
      exact firstShown?_opened ts
  | group .paren .. | group .bracket .. | group .brace .. | ident .. | lifetime .. | punct ..
  | literal .. => exact .inr ⟨_, [], rfl, rfl⟩

theorem firstShown?_opened (ts : List Token) :
    (firstShown? ts = none ∧ openedList ts = []) ∨
      ∃ u us, firstShown? ts = some (u, us) ∧ openedList ts = u :: openedList us := by
  match ts with
  | [] => exact .inl ⟨rfl, rfl⟩
  | t :: ts =>
      rw [firstShown?, openedList]
      rcases shown?_opened t with ⟨ht, hopened⟩ | ⟨u, us, ht, hopened⟩
      · rw [ht, hopened]
        exact firstShown?_opened ts
      · rw [ht, hopened]
        exact .inr ⟨u, us ++ ts, rfl, by rw [openedList_append, List.cons_append]⟩

end

mutual

theorem ne_invisible_of_shown? {t u : Token} {us : List Token} (h : shown? t = some (u, us))
    (vs : List Token) (o c : Span) : u ≠ group .invisible vs o c := by
  match t with
  | group .invisible ts _ _ =>
      rw [shown?] at h
      exact ne_invisible_of_firstShown? h vs o c
  | group .paren .. | group .bracket .. | group .brace .. | ident .. | lifetime .. | punct ..
  | literal .. =>
      cases h
      simp

theorem ne_invisible_of_firstShown? {ts us : List Token} {u : Token} (h : firstShown? ts = some (u, us))
    (vs : List Token) (o c : Span) : u ≠ group .invisible vs o c := by
  match ts with
  | [] => cases h
  | t :: ts =>
      rw [firstShown?] at h
      cases ht : shown? t with
      | none =>
          rw [ht] at h
          exact ne_invisible_of_firstShown? h vs o c
      | some x =>
          rw [ht] at h
          cases h
          exact ne_invisible_of_shown? ht vs o c

end

/-- No invisible group shows. -/
theorem ne_invisible_of_reveal {ts us : List Token} {u : Token} (h : reveal ts = u :: us)
    (vs : List Token) (o c : Span) : u ≠ group .invisible vs o c := by
  unfold reveal at h
  cases hts : firstShown? ts with
  | none =>
      rw [hts] at h
      cases h
  | some x =>
      rw [hts] at h
      cases h
      exact ne_invisible_of_firstShown? hts vs o c

/-- The first token that shows is the next one. -/
theorem reveal_opened (ts : List Token) :
    (reveal ts = [] ∧ openedList ts = []) ∨
      ∃ u us, reveal ts = u :: us ∧ openedList ts = u :: openedList us := by
  rcases firstShown?_opened ts with ⟨h, hopened⟩ | ⟨u, us, h, hopened⟩
  · exact .inl ⟨by rw [reveal, h], hopened⟩
  · exact .inr ⟨u, us, by rw [reveal, h], hopened⟩

theorem openedList_of_reveal {ts us : List Token} {t : Token} (h : reveal ts = t :: us) :
    openedList ts = t :: openedList us := by
  rcases reveal_opened ts with ⟨hnil, -⟩ | ⟨u, vs, hcons, hopened⟩
  · rw [h] at hnil
    cases hnil
  · rw [h] at hcons
    cases hcons
    exact hopened

theorem openedList_of_reveal_nil {ts : List Token} (h : reveal ts = []) : openedList ts = [] := by
  rcases reveal_opened ts with ⟨-, hopened⟩ | ⟨u, us, hcons, -⟩
  · exact hopened
  · rw [h] at hcons
    cases hcons

theorem exists_reveal_of_opened {ts F : List Token} {t : Token} (h : openedList ts = t :: F) :
    ∃ us, reveal ts = t :: us ∧ openedList us = F := by
  rcases reveal_opened ts with ⟨-, hnil⟩ | ⟨u, us, hcons, hopened⟩
  · rw [h] at hnil
    cases hnil
  · rw [h] at hopened
    cases hopened
    exact ⟨us, hcons, rfl⟩

/-- Nothing that shows is among the tokens. -/
def Blank (ts : List Token) : Prop := reveal ts = []

/-! ## Tokens behind -/

theorem firstShown?_append (ts s : List Token) :
    firstShown? (ts ++ s) = ((firstShown? ts).map fun x => (x.1, x.2 ++ s)).or (firstShown? s) := by
  induction ts with
  | nil => rfl
  | cons t ts ih =>
      rw [List.cons_append, firstShown?, firstShown?]
      cases shown? t with
      | none => exact ih
      | some x => simp

theorem reveal_append_of_cons {ts us : List Token} {t : Token} (h : reveal ts = t :: us)
    (s : List Token) : reveal (ts ++ s) = t :: (us ++ s) := by
  unfold reveal at h ⊢
  rw [firstShown?_append]
  cases hts : firstShown? ts with
  | none =>
      rw [hts] at h
      cases h
  | some x =>
      rw [hts] at h
      cases h
      rfl

theorem reveal_append_of_nil {ts : List Token} (h : reveal ts = []) (s : List Token) :
    reveal (ts ++ s) = reveal s := by
  unfold reveal at h ⊢
  rw [firstShown?_append]
  cases hts : firstShown? ts with
  | none => simp
  | some x =>
      rw [hts] at h
      cases h

theorem reveal_append_of_ne {ts : List Token} (h : reveal ts ≠ []) (s : List Token) :
    reveal (ts ++ s) = reveal ts ++ s := by
  cases hts : reveal ts with
  | nil => exact absurd hts h
  | cons t us => rw [reveal_append_of_cons hts, List.cons_append]

@[simp] theorem listFirst_zero (ts : List Token) : listFirst 0 ts = [] := by
  cases ts <;> simp [listFirst]

/-- Of the first tokens nothing lies among those behind, if there are enough before them. -/
theorem listFirst_append {n : Nat} {ts : List Token} (h : n ≤ sizeList ts) (s : List Token) :
    listFirst n (ts ++ s) = listFirst n ts := by
  induction ts generalizing n with
  | nil =>
      obtain rfl : n = 0 := Nat.le_zero.1 h
      rw [listFirst_zero, listFirst_zero]
  | cons t ts ih =>
      rw [sizeList] at h
      rw [List.cons_append, listFirst, listFirst, ih (by omega)]

end Token

namespace Parser.Look

/-! ## Looks past an end -/

/-- The look sees the same whether the tokens `s` follow or none. -/
class Firm (s : List Token) (look : Look) : Prop where
  eq : ∀ ts, look (ts ++ s) = look ts

/-- The look sees the same whether the tokens `s` follow or none, unless it stands at the end. -/
class Near (s : List Token) (look : Look) : Prop where
  eq : ∀ ts, ¬ Token.Blank ts → look (ts ++ s) = look ts

/-- The look does not see what it looks for among tokens for which `P` holds. -/
class Unseen (P : List Token → Prop) (look : Look) : Prop where
  eq : ∀ ts, P ts → look ts = false

variable {s : List Token} {P : List Token → Prop} {p q : Look}

instance (priority := low) [h : Firm s p] : Near s p := ⟨fun ts _ => h.eq ts⟩

/-! ### Combinations -/

instance [hp : Firm s p] [hq : Firm s q] : Firm s fun ts => p ts && q ts where
  eq ts := by rw [hp.eq, hq.eq]

instance [hp : Firm s p] [hq : Firm s q] : Firm s fun ts => p ts || q ts where
  eq ts := by rw [hp.eq, hq.eq]

instance [hp : Near s p] [hq : Near s q] : Near s fun ts => p ts && q ts where
  eq ts h := by rw [hp.eq ts h, hq.eq ts h]

instance [hp : Near s p] [hq : Near s q] : Near s fun ts => p ts || q ts where
  eq ts h := by rw [hp.eq ts h, hq.eq ts h]

instance [hp : Near s p] : Near s fun ts => !p ts where
  eq ts h := by rw [hp.eq ts h]

/-- What comes second in a look may stand at the end if what comes first does not. -/
instance (priority := low) [hp : Firm s p] [hblank : Unseen Token.Blank p] [hq : Near s q] :
    Firm s fun ts => p ts && q ts where
  eq ts := by
    by_cases hts : Token.Blank ts
    · rw [hp.eq, hblank.eq ts hts, Bool.false_and, Bool.false_and]
    · rw [hp.eq, hq.eq ts hts]

instance (b : Bool) : Firm s fun _ => b := ⟨fun _ => rfl⟩

instance [hp : Unseen P p] : Unseen P fun ts => p ts && q ts where
  eq ts h := by rw [hp.eq ts h, Bool.false_and]

instance (priority := low) [hq : Unseen P q] : Unseen P fun ts => p ts && q ts where
  eq ts h := by rw [hq.eq ts h, Bool.and_false]

instance [hp : Unseen P p] [hq : Unseen P q] : Unseen P fun ts => p ts || q ts where
  eq ts h := by rw [hp.eq ts h, hq.eq ts h, Bool.or_false]

section

variable {α : Type} {f : α → Look} {a : α} {as : List α}

instance : Near s fun ts => ([] : List α).any (f · ts) := ⟨fun _ _ => rfl⟩

instance [ha : Near s (f a)] [has : Near s fun ts => as.any (f · ts)] :
    Near s fun ts => (a :: as).any (f · ts) where
  eq ts h := by
    have hrest : as.any (f · (ts ++ s)) = as.any (f · ts) := has.eq ts h
    rw [List.any_cons, List.any_cons, ha.eq ts h, hrest]

instance : Unseen P fun ts => ([] : List α).any (f · ts) := ⟨fun _ _ => rfl⟩

instance [ha : Unseen P (f a)] [has : Unseen P fun ts => as.any (f · ts)] :
    Unseen P fun ts => (a :: as).any (f · ts) where
  eq ts h := by
    have hrest : as.any (f · ts) = false := has.eq ts h
    rw [List.any_cons, ha.eq ts h, hrest, Bool.or_false]

end

/-! ### The next token -/

instance (p : Token → Bool) : Near s (next p) where
  eq ts h := by
    cases hts : Token.reveal ts with
    | nil => exact absurd hts h
    | cons t us =>
        rw [next, next, Token.reveal_append_of_cons hts, hts]
        rfl

instance (p : Token → Bool) : Unseen Token.Blank (next p) where
  eq ts h := by
    rw [next, h]
    rfl

instance (k : String) : Near s (keyword k) := inferInstanceAs (Near s (next _))
instance : Near s name := inferInstanceAs (Near s (next _))
instance : Near s word := inferInstanceAs (Near s (next _))
instance : Near s lifetime := inferInstanceAs (Near s (next _))
instance : Near s stringLiteral := inferInstanceAs (Near s (next _))
instance (d : Delimiter) : Near s (group d) := inferInstanceAs (Near s (next _))

instance (ks : List String) : Near s (anyKeyword ks) := by
  unfold anyKeyword
  induction ks with
  | nil => infer_instance
  | cons k ks ih => infer_instance

instance (k : String) : Unseen Token.Blank (keyword k) := inferInstanceAs (Unseen _ (next _))
instance : Unseen Token.Blank name := inferInstanceAs (Unseen _ (next _))
instance : Unseen Token.Blank word := inferInstanceAs (Unseen _ (next _))

instance (ks : List String) : Unseen Token.Blank (anyKeyword ks) := by
  unfold anyKeyword
  induction ks with
  | nil => infer_instance
  | cons k ks ih => infer_instance

theorem second_of_reveal {ts us : List Token} {t : Token} (h : Token.reveal ts = t :: us) (p : Look) :
    second p ts = p us := by
  rw [second, h]

theorem second_append {ts us : List Token} {t : Token} (h : Token.reveal ts = t :: us)
    (s : List Token) (p : Look) : second p (ts ++ s) = p (us ++ s) :=
  second_of_reveal (Token.reveal_append_of_cons h s) p

instance [hp : Firm s p] : Near s (second p) where
  eq ts h := by
    cases hts : Token.reveal ts with
    | nil => exact absurd hts h
    | cons t us => rw [second_of_reveal hts, second_append hts, hp.eq]

end Parser.Look

end RowDerive
