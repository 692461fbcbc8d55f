import RowDerive.Proofs.Follow.Ending
import Mathlib.Logic.Basic

/-!
# Readers in front of other tokens

A reader `Stops` in front of the tokens `s` if what it reads where nothing follows, it reads there too, and
leaves `s` as it is. Where a method follows it may fail instead; in front of `as` the tokens are to be
`Closed`, or a sign at their end would ask for more. That is told apart from a reader that stops only
`Inside` the tokens: one that takes what follows for its own where its tokens end, as attributes do. What
comes after such a reader has to fail at the end of the tokens.
-/

set_option synthInstance.maxSize 10000

namespace RowDerive

open RowDerive.Parser

namespace Cursor

/-- The same place with the tokens `s` behind all that is ahead. -/
def followedBy (c : Cursor) (s : List Token) : Cursor := { c with rest := c.rest ++ s }

@[simp] theorem rest_followedBy (c : Cursor) (s : List Token) : (c.followedBy s).rest = c.rest ++ s := rfl

end Cursor

namespace Parser

variable {α β : Type} {s : List Token} {P : List Token → Prop}

/-- What is read of the longer tokens: what was read of the shorter ones, or nothing if a method
follows. -/
structure Kept (s : List Token) (r : Except SyntaxError (α × Cursor)) (a : α) (d : Cursor) : Prop where
  closed : Token.Closed s d.rest
  read : r = .ok (a, d.followedBy s) ∨ (Look.parting s = false ∧ ∃ e, r = .error e)

/-- Where no method follows, what was read of the shorter tokens is read. -/
theorem Kept.ok {r : Except SyntaxError (α × Cursor)} {a : α} {d : Cursor} (h : Kept s r a d)
    (hs : Look.parting s = true) : r = .ok (a, d.followedBy s) := by
  refine h.read.resolve_right ?_
  rw [hs]
  exact fun h => nomatch h.1

/-- What the first reader reads, the second reads in front of `s`. -/
class Stops (s : List Token) (p q : Parser α) : Prop where
  kept : ∀ c a d, Token.Closed s c.rest → p c = .ok (a, d) → Kept s (q (c.followedBy s)) a d

/-- What the first reader reads, the second reads in front of `s` if more tokens come before `s`. -/
class StopsInside (s : List Token) (p q : Parser α) : Prop where
  kept : ∀ c a d, Token.Closed s c.rest → p c = .ok (a, d) → ¬ Token.Blank d.rest →
    Kept s (q (c.followedBy s)) a d

/-- Nothing can be read from tokens for which `P` holds. -/
class FailsAt (P : List Token → Prop) (p : Parser α) : Prop where
  error : ∀ c : Cursor, P c.rest → ∃ e, p c = .error e

/-- What is read from tokens for which `P` holds leaves such tokens. -/
class Stays (P : List Token → Prop) (p : Parser α) : Prop where
  stays : ∀ c a d, P c.rest → p c = .ok (a, d) → P d.rest

/-! ## Rules -/

section

variable {p q : Parser α} {f g : α → Parser β}

theorem FailsAt.not_ok (h : FailsAt P p) {c d : Cursor} {a : α} (hc : P c.rest) : p c ≠ .ok (a, d) := by
  obtain ⟨e, he⟩ := h.error c hc
  rw [he]
  rintro ⟨⟩

theorem failsAt_of_not_ok (h : ∀ c a d, P c.rest → p c ≠ .ok (a, d)) : FailsAt P p where
  error c hc := by
    cases hp : p c with
    | ok r => exact absurd hp (h c r.1 r.2 hc)
    | error e => exact ⟨e, rfl⟩

instance (priority := low) [h : FailsAt Token.Ended p] : FailsAt Token.CutMethod p :=
  ⟨fun c hc => h.error c hc.ended⟩

instance (priority := low) [h : FailsAt Token.CutMethod p] : FailsAt Token.Blank p :=
  ⟨fun c hc => h.error c hc.cutMethod⟩

instance (priority := low) [h : FailsAt P p] : Stays P p :=
  ⟨fun _ _ _ hc hp => absurd hp (h.not_ok hc)⟩

instance (priority := low) [h : Stops s p q] : StopsInside s p q :=
  ⟨fun c a d hc hp _ => h.kept c a d hc hp⟩

theorem bind_eq_ok {c : Cursor} {b : β} {e : Cursor} (h : (p >>= f) c = .ok (b, e)) :
    ∃ a d, p c = .ok (a, d) ∧ f a d = .ok (b, e) := by
  rw [bind_apply] at h
  cases hp : p c with
  | ok r => exact ⟨r.1, r.2, rfl, by rwa [hp] at h⟩
  | error e =>
      rw [hp] at h
      cases h

theorem Kept.bind {c : Cursor} {a : α} {b : β} {d e : Cursor} (h : Kept s (q c) a d)
    (hg : Kept s (g a (d.followedBy s)) b e) : Kept s ((q >>= g) c) b e where
  closed := hg.closed
  read := by
    rw [bind_apply]
    rcases h.read with hok | ⟨hparting, e', herror⟩
    · rw [hok]
      exact hg.read
    · rw [herror]
      exact .inr ⟨hparting, e', rfl⟩

theorem Stops.bind (hpq : Stops s p q) (hfg : ∀ a, Stops s (f a) (g a)) :
    Stops s (p >>= f) (q >>= g) where
  kept c b e hc h := by
    obtain ⟨a, d, hp, hf⟩ := bind_eq_ok h
    have hkept := hpq.kept c a d hc hp
    exact hkept.bind ((hfg a).kept d b e hkept.closed hf)

/-- After a reader that stops inside the tokens something has to be read. -/
theorem StopsInside.bind (hpq : StopsInside s p q) (hfg : ∀ a, Stops s (f a) (g a))
    (hf : ∀ a, FailsAt Token.Blank (f a)) : Stops s (p >>= f) (q >>= g) where
  kept c b e hc h := by
    obtain ⟨a, d, hp, hfa⟩ := bind_eq_ok h
    have hkept := hpq.kept c a d hc hp fun hd => (hf a).not_ok hd hfa
    exact hkept.bind ((hfg a).kept d b e hkept.closed hfa)

theorem StopsInside.bind_inside (hpq : StopsInside s p q) (hfg : ∀ a, StopsInside s (f a) (g a))
    (hf : ∀ a, Stays Token.Blank (f a)) : StopsInside s (p >>= f) (q >>= g) where
  kept c b e hc h he := by
    obtain ⟨a, d, hp, hfa⟩ := bind_eq_ok h
    have hkept := hpq.kept c a d hc hp fun hd => he ((hf a).stays d b e hd hfa)
    exact hkept.bind ((hfg a).kept d b e hkept.closed hfa he)

instance [hpq : Stops s p q] [hfg : ∀ a, Stops s (f a) (g a)] : Stops s (p >>= f) (q >>= g) :=
  hpq.bind hfg

instance (priority := low) bind_inside [hpq : StopsInside s p q] [hfg : ∀ a, Stops s (f a) (g a)]
    [hf : ∀ a, FailsAt Token.Blank (f a)] : Stops s (p >>= f) (q >>= g) :=
  hpq.bind hfg hf

theorem Stops.bind_inside (hpq : Stops s p q) (hfg : ∀ a, StopsInside s (f a) (g a)) :
    StopsInside s (p >>= f) (q >>= g) where
  kept c b e hc h he := by
    obtain ⟨a, d, hp, hf⟩ := bind_eq_ok h
    have hkept := hpq.kept c a d hc hp
    exact hkept.bind ((hfg a).kept d b e hkept.closed hf he)

instance [hpq : Stops s p q] [hfg : ∀ a, StopsInside s (f a) (g a)] :
    StopsInside s (p >>= f) (q >>= g) :=
  hpq.bind_inside hfg

instance (priority := low) [hpq : StopsInside s p q] [hfg : ∀ a, StopsInside s (f a) (g a)]
    [hf : ∀ a, Stays Token.Blank (f a)] : StopsInside s (p >>= f) (q >>= g) :=
  hpq.bind_inside hfg hf

instance [hp : FailsAt P p] : FailsAt P (p >>= f) where
  error c hc := by
    obtain ⟨e, he⟩ := hp.error c hc
    exact ⟨e, by rw [bind_apply, he]⟩

theorem discard_eq_ok {c d : Cursor} {u : Unit} (h : Functor.discard p c = .ok (u, d)) :
    ∃ a, p c = .ok (a, d) := by
  rw [discard_apply] at h
  cases hp : p c with
  | ok r =>
      rw [hp] at h
      cases h
      exact ⟨r.1, rfl⟩
  | error e =>
      rw [hp] at h
      cases h

theorem FailsAt.bind {Q : List Token → Prop}
    (hp : ∀ c a d, P c.rest → p c = .ok (a, d) → Q d.rest) (hf : ∀ a, FailsAt Q (f a)) :
    FailsAt P (p >>= f) :=
  failsAt_of_not_ok fun c b e hc h => by
    obtain ⟨a, d, hpa, hfa⟩ := bind_eq_ok h
    exact (hf a).not_ok (hp c a d hc hpa) hfa

instance (priority := low) bind_stays_fails [hp : Stays P p] [hf : ∀ a, FailsAt P (f a)] :
    FailsAt P (p >>= f) :=
  .bind hp.stays hf

instance [hp : Stays P p] [hf : ∀ a, Stays P (f a)] : Stays P (p >>= f) where
  stays c b e hc h := by
    obtain ⟨a, d, hpa, hfa⟩ := bind_eq_ok h
    exact (hf a).stays d b e (hp.stays c a d hc hpa) hfa

theorem Stops.ite {b : Prop} [Decidable b] {p' q' : Parser α} (h : Stops s p q) (h' : Stops s p' q') :
    Stops s (if b then p else p') (if b then q else q') := by
  split
  · exact h
  · exact h'

instance {b : Prop} [Decidable b] {p' q' : Parser α} [h : Stops s p q] [h' : Stops s p' q'] :
    Stops s (if b then p else p') (if b then q else q') :=
  h.ite h'

theorem StopsInside.ite {b : Prop} [Decidable b] {p' q' : Parser α} (h : StopsInside s p q)
    (h' : StopsInside s p' q') : StopsInside s (if b then p else p') (if b then q else q') := by
  split
  · exact h
  · exact h'

instance {b : Prop} [Decidable b] {p' q' : Parser α} [h : StopsInside s p q]
    [h' : StopsInside s p' q'] : StopsInside s (if b then p else p') (if b then q else q') :=
  h.ite h'

instance {b : Prop} [Decidable b] [h : FailsAt P p] [h' : FailsAt P q] :
    FailsAt P (if b then p else q) := by
  split
  · exact h
  · exact h'

instance {b : Prop} [Decidable b] [h : Stays P p] [h' : Stays P q] :
    Stays P (if b then p else q) := by
  split
  · exact h
  · exact h'

instance [h : FailsAt P p] : FailsAt P (if true = true then p else q) := h

instance [h : FailsAt P q] : FailsAt P (if false = true then p else q) := h

instance [h : Stays P q] : Stays P (if false = true then p else q) := h

instance (a : α) : Stops s (pure a : Parser α) (pure a) where
  kept c b d hc h := by
    cases h
    exact ⟨hc, .inl rfl⟩

instance (a : α) : Stays P (pure a : Parser α) where
  stays c b d hc h := by
    cases h
    exact hc

instance [Stops s p q] : Stops s (Functor.discard p) (Functor.discard q) :=
  inferInstanceAs (Stops s (p >>= fun _ => pure ()) (q >>= fun _ => pure ()))

instance [FailsAt P p] : FailsAt P (Functor.discard p) :=
  inferInstanceAs (FailsAt P (p >>= fun _ => pure ()))

instance [Stays P p] : Stays P (Functor.discard p) :=
  inferInstanceAs (Stays P (p >>= fun _ => pure ()))

end

/-! ## Looks -/

section

theorem bind_get (f : Cursor → Parser β) (c : Cursor) : (get >>= f) c = f c c := rfl

theorem bind_peek (look : Look) (f : Bool → Parser β) (c : Cursor) :
    (peek look >>= f) c = f (look c.rest) c := rfl

variable {look : Look} {f g : Bool → Parser β}

instance [h : Look.Firm s look] : Stops s (peek look) (peek look) where
  kept c b d hc hp := by
    cases hp
    exact ⟨hc, .inl (by rw [← h.eq c.rest]; rfl)⟩

instance [h : Look.Near s look] : StopsInside s (peek look) (peek look) where
  kept c b d hc hp hd := by
    cases hp
    exact ⟨hc, .inl (by rw [← h.eq c.rest hd]; rfl)⟩

instance : Stays P (peek look) where
  stays c b d hc hp := by
    cases hp
    exact hc

/-- If a look sees nothing at the end of the tokens, it is only what is read then that has to fail. -/
instance bind_unseen [hnear : Look.Near s look] [hunseen : Look.Unseen Token.Blank look]
    [hfg : ∀ b, Stops s (f b) (g b)] [hf : FailsAt Token.Blank (f false)] :
    Stops s (peek look >>= f) (peek look >>= g) where
  kept c b e hc h := by
    obtain ⟨seen, d, hpeek, hseen⟩ := bind_eq_ok h
    cases hpeek
    by_cases hblank : Token.Blank c.rest
    · rw [hunseen.eq c.rest hblank] at hseen
      exact absurd hseen (hf.not_ok hblank)
    · have hkept : Kept s (peek look (c.followedBy s)) (look c.rest) c :=
        ⟨hc, .inl (by rw [← hnear.eq c.rest hblank]; rfl)⟩
      exact hkept.bind ((hfg _).kept c b e hc hseen)

instance [hunseen : Look.Unseen P look] [hf : FailsAt P (f false)] : FailsAt P (peek look >>= f) where
  error c hc := by
    obtain ⟨e, he⟩ := hf.error c hc
    refine ⟨e, ?_⟩
    show f (look c.rest) c = .error e
    rw [hunseen.eq c.rest hc, he]

instance [hunseen : Look.Unseen P look] [hf : Stays P (f false)] : Stays P (peek look >>= f) where
  stays c b d hc h := by
    have hfalse : f (look c.rest) c = .ok (b, d) := h
    rw [hunseen.eq c.rest hc] at hfalse
    exact hf.stays c b d hc hfalse

/-- A look may see something else in front of a method if nothing can be read then. -/
theorem Stops.peek [Token.Ending s]
    (hfirm : Look.parting s = true → ∀ ts, Token.Closed s ts → look (ts ++ s) = look ts)
    (hfg : ∀ b, Stops s (f b) (g b))
    (hg : ∀ c r, Token.StartsMethod (Token.openedList s) → look (c.rest ++ s) ≠ look c.rest →
      f (look c.rest) c = .ok r → ∃ e, g (look (c.rest ++ s)) (c.followedBy s) = .error e) :
    Stops s (Parser.peek look >>= f) (Parser.peek look >>= g) where
  kept c b e hc h := by
    obtain ⟨seen, d, hpeek, hseen⟩ := bind_eq_ok h
    cases hpeek
    have hkept := (hfg (look c.rest)).kept c b e hc hseen
    show Kept s (g (look (c.rest ++ s)) (c.followedBy s)) b e
    by_cases hlook : look (c.rest ++ s) = look c.rest
    · rw [hlook]
      exact hkept
    · have hparting : Look.parting s = false :=
        Bool.eq_false_iff.2 fun hparting => hlook (hfirm hparting c.rest hc)
      exact ⟨hkept.closed, .inr ⟨hparting, hg c _ (Token.Ending.startsMethod hparting) hlook hseen⟩⟩

/-- If a look sees nothing at the end of the tokens and a method is refused where it sees one, it does not
matter to what else is read. -/
instance (priority := low) bind_refused [Token.Ending s] [hnear : Look.Near s look]
    [hunseen : Look.Unseen Token.Blank look] [htight : Look.Tight s look]
    [hfg : ∀ b, Stops s (f b) (g b)] [hg : FailsAt Token.CutMethod (g true)] :
    Stops s (peek look >>= f) (peek look >>= g) :=
  .peek (fun hparting ts _ => (htight.firm hparting).eq ts) hfg fun c r hmethod hne _ => by
    have hblank : Token.Blank c.rest :=
      Classical.byContradiction fun hblank => hne (hnear.eq c.rest hblank)
    rw [hunseen.eq c.rest hblank] at hne
    rw [eq_true_of_ne_false hne]
    exact hg.error _ (hblank.cutMethod_append hmethod)

end

/-! ## Primitive readers -/

section

variable {p q : Parser α}

instance (fault : SyntaxFault) (span : Span) (q : Parser α) : Stops s (fail fault span) q :=
  ⟨fun _ _ _ _ h => nomatch h⟩

instance (fault : SyntaxFault) (q : Parser α) : Stops s (failHere fault) q := ⟨fun _ _ _ _ h => nomatch h⟩

instance (q : Parser α) : Stops s failTooDeep q := ⟨fun _ _ _ _ h => nomatch h⟩

instance (what : String) (q : Parser α) : Stops s (failExpected what) q := ⟨fun _ _ _ _ h => nomatch h⟩

instance (what : List (String × Look)) (q : Parser α) : Stops s (failNoneOf what) q :=
  ⟨fun _ _ _ _ h => nomatch h⟩

instance (fault : SyntaxFault) (span : Span) : FailsAt P (fail fault span : Parser α) :=
  ⟨fun _ _ => ⟨_, rfl⟩⟩

instance : FailsAt P (failTooDeep : Parser α) := ⟨fun _ _ => ⟨_, rfl⟩⟩

instance (what : String) : FailsAt P (failExpected what : Parser α) := ⟨fun _ _ => ⟨_, rfl⟩⟩

instance (what : List (String × Look)) : FailsAt P (failNoneOf what : Parser α) :=
  ⟨fun _ _ => ⟨_, rfl⟩⟩

/-- What is read next may depend on the place. -/
instance {f g : Cursor → Parser α} [h : ∀ c : Cursor, Stops s (f c) (g (c.followedBy s))] :
    Stops s (get >>= f) (get >>= g) where
  kept c a d hc hp := (h c).kept c a d hc hp

instance {f g : Cursor → Parser α} [h : ∀ c : Cursor, StopsInside s (f c) (g (c.followedBy s))] :
    StopsInside s (get >>= f) (get >>= g) where
  kept c a d hc hp := (h c).kept c a d hc hp

instance {f : Cursor → Parser α} [h : ∀ c, FailsAt P (f c)] : FailsAt P (get >>= f) where
  error c hc := (h c).error c hc

/-- Whether a list ends here, as `look` sees it or since the tokens end. -/
def endOr (look : Look) : Parser Bool := do return (← atEnd) || (← peek look)

instance {look : Look} [h : Look.Near s look] : StopsInside s (endOr look) (endOr look) where
  kept c b d hc hp hd := by
    cases hp
    refine ⟨hc, .inl ?_⟩
    have hempty : (c.rest ++ s).isEmpty = c.rest.isEmpty := by
      cases hts : c.rest with
      | nil =>
          rw [hts] at hd
          exact absurd rfl hd
      | cons t ts => rfl
    show Except.ok ((c.rest ++ s).isEmpty || look (c.rest ++ s), _) = _
    rw [hempty, h.eq c.rest hd]

instance {look : Look} : Stays P (endOr look) where
  stays c b d hc hp := by
    cases hp
    exact hc

/-- Where a list may end at the end of the tokens, it may also end at what parts it from the rest if it
knows that, and nothing more of it can be read where a method begins. -/
theorem Stops.endOr [Token.Ending s] {look : Look} {f g : Bool → Parser α} [hnear : Look.Near s look]
    (hlook : Look.parting s = true → ∀ ts, Token.Blank ts → look (ts ++ s) = true)
    [hfg : ∀ b, Stops s (f b) (g b)] [hf : FailsAt Token.CutMethod (f false)]
    [hg : FailsAt Token.CutMethod (g false)] : Stops s (endOr look >>= f) (endOr look >>= g) where
  kept c b e hc h := by
    obtain ⟨done, d, hend, hdone⟩ := bind_eq_ok h
    cases hend
    by_cases hblank : Token.Blank c.rest
    · have hended : (c.rest.isEmpty || look c.rest) = true :=
        eq_true_of_ne_false fun hended => hf.not_ok hblank.cutMethod (by rwa [hended] at hdone)
      rw [hended] at hdone
      have hkept := (hfg true).kept c b e hc hdone
      show Kept s (g ((c.rest ++ s).isEmpty || look (c.rest ++ s)) (c.followedBy s)) b e
      cases hs : ((c.rest ++ s).isEmpty || look (c.rest ++ s)) with
      | true => exact hkept
      | false =>
          have hparting : Look.parting s = false :=
            Bool.eq_false_iff.2 fun hparting => by
              rw [hlook hparting c.rest hblank, Bool.or_true] at hs
              cases hs
          have hmethod := Token.Ending.startsMethod hparting
          exact ⟨hkept.closed, .inr ⟨hparting, hg.error _ (hblank.cutMethod_append hmethod)⟩⟩
    · have hinside : StopsInside s (Parser.endOr look) (Parser.endOr look) := inferInstance
      exact (hinside.kept c _ c hc rfl hblank).bind ((hfg _).kept c b e hc hdone)

theorem ahead_followedBy (c : Cursor) :
    ahead (c.followedBy s) =
      .ok (Token.sizeList c.rest + 1 + Token.sizeList s, c.followedBy s) := by
  show Except.ok (Token.sizeList (c.rest ++ s) + 1, c.followedBy s) = _
  rw [Token.sizeList_append, Nat.add_right_comm]

/-- A reader that takes its bound down by one stops if it does so with what it reads below. -/
theorem Stops.bounded {f g : Nat → Parser α} (hzero : f 0 = failTooDeep)
    (hsucc : ∀ n k, Stops s (f n) (g k) → Stops s (f (n + 1)) (g (k + 1))) (n k : Nat) :
    Stops s (f n) (g (n + k)) := by
  induction n with
  | zero =>
      rw [hzero]
      infer_instance
  | succ n ih =>
      rw [Nat.add_right_comm]
      exact hsucc n (n + k) ih

theorem StopsInside.bounded {f g : Nat → Parser α} (hzero : f 0 = failTooDeep)
    (hsucc : ∀ n k, StopsInside s (f n) (g k) → StopsInside s (f (n + 1)) (g (k + 1))) (n k : Nat) :
    StopsInside s (f n) (g (n + k)) := by
  induction n with
  | zero =>
      rw [hzero]
      infer_instance
  | succ n ih =>
      rw [Nat.add_right_comm]
      exact hsucc n (n + k) ih

/-- A list may be longer the more tokens are ahead. -/
instance {f g : Nat → Parser α} [h : ∀ n, Stops s (f n) (g (n + Token.sizeList s))] :
    Stops s (ahead >>= f) (ahead >>= g) where
  kept c a d hc hp := by
    rw [bind_apply, ahead_followedBy]
    exact (h _).kept c a d hc hp

instance {f g : Nat → Parser α} [h : ∀ n, StopsInside s (f n) (g (n + Token.sizeList s))] :
    StopsInside s (ahead >>= f) (ahead >>= g) where
  kept c a d hc hp := by
    rw [bind_apply, ahead_followedBy]
    exact (h _).kept c a d hc hp

instance : Stays P ahead where
  stays c n d hc h := by
    cases h
    exact hc

end

end Parser

end RowDerive
