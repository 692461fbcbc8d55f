import RowDerive.Proofs.Parser.Front

/-!
# Readers that run out of depth

The rules of the grammar are given up to a depth, and a list is read up to a length. A reader that reaches
its bound says so by a fault of its own and by nothing else. So a reader with a greater bound `Agrees`: it
does the same wherever the first has not run out. This is closed under the combinators.
-/

set_option synthInstance.maxSize 10000

namespace RowDerive

open RowDerive.Parser

namespace Parser

variable {α β : Type}

/-- The second reader does the same as the first wherever that does not run out of depth. -/
class Agrees (p q : Parser α) : Prop where
  eq_or_tooDeep : ∀ c, q c = p c ∨ ∃ span, p c = .error ⟨.tooDeep, span⟩

section

variable {p q : Parser α} {f g : α → Parser β}

/-- What is read is read at a greater depth too. -/
theorem Agrees.eq_ok (h : Agrees p q) {c d : Cursor} {a : α} (hp : p c = .ok (a, d)) :
    q c = .ok (a, d) := by
  rcases h.eq_or_tooDeep c with heq | ⟨span, hdeep⟩
  · rw [heq, hp]
  · rw [hp] at hdeep
    cases hdeep

theorem Agrees.bind (hpq : Agrees p q) (hfg : ∀ a, Agrees (f a) (g a)) :
    Agrees (p >>= f) (q >>= g) where
  eq_or_tooDeep c := by
    rw [bind_apply, bind_apply]
    rcases hpq.eq_or_tooDeep c with heq | ⟨span, hdeep⟩
    · rw [heq]
      cases p c with
      | ok r => exact (hfg r.1).eq_or_tooDeep r.2
      | error e => exact .inl rfl
    · rw [hdeep]
      exact .inr ⟨span, rfl⟩

theorem Agrees.ite {b : Prop} [Decidable b] {p' q' : Parser α} (h : Agrees p q) (h' : Agrees p' q') :
    Agrees (if b then p else p') (if b then q else q') := by
  split
  · exact h
  · exact h'

/-! ## Rules -/

instance (priority := high) (p : Parser α) : Agrees p p := ⟨fun _ => .inl rfl⟩

instance [hpq : Agrees p q] [hfg : ∀ a, Agrees (f a) (g a)] : Agrees (p >>= f) (q >>= g) :=
  hpq.bind hfg

instance {b : Prop} [Decidable b] {p' q' : Parser α} [h : Agrees p q] [h' : Agrees p' q'] :
    Agrees (if b then p else p') (if b then q else q') :=
  h.ite h'

/-- What is read next may depend on whether something was read. -/
instance (priority := low) bind_option_agrees {p q : Parser (Option α)} {f g : Option α → Parser β}
    [hpq : Agrees p q] [hsome : ∀ a, Agrees (f (some a)) (g (some a))] [hnone : Agrees (f none) (g none)] :
    Agrees (p >>= f) (q >>= g) := by
  refine hpq.bind ?_
  rintro (_ | a)
  · exact hnone
  · exact hsome a

instance [hpq : Agrees p q] : Agrees (Functor.discard p) (Functor.discard q) :=
  inferInstanceAs (Agrees (p >>= fun _ => pure ()) (q >>= fun _ => pure ()))

instance [hpq : Agrees p q] (g : α → β) : Agrees (g <$> p) (g <$> q) :=
  inferInstanceAs (Agrees (p >>= fun a => pure (g a)) (q >>= fun a => pure (g a)))

end

/-! ## Combinators -/

section

variable {p q : Parser α}

instance (q : Parser α) : Agrees failTooDeep q := ⟨fun _ => .inr ⟨_, rfl⟩⟩

instance [Agrees p q] (look : Look) : Agrees (optionally look p) (optionally look q) := by
  unfold optionally
  infer_instance

instance [h : Agrees p q] : Agrees (attempt p) (attempt q) where
  eq_or_tooDeep c := by
    rw [attempt, attempt]
    rcases h.eq_or_tooDeep c with heq | ⟨span, hdeep⟩
    · rw [heq]
      exact .inl rfl
    · rw [hdeep]
      exact .inr ⟨span, rfl⟩

instance [h : Agrees p q] (d : Delimiter) : Agrees (openGroup d p) (openGroup d q) where
  eq_or_tooDeep c := by
    simp only [openGroup, bind_apply, get_apply]
    generalize (if d = .invisible then c.rest else Token.reveal c.rest) = ts
    match ts with
    | .group e content opening closing :: rest =>
        by_cases hd : e = d
        · simp only [hd, if_true]
          rcases h.eq_or_tooDeep ⟨content, closing, opening, c.leftOver⟩ with heq | ⟨span, hdeep⟩
          · rw [heq]
            exact .inl rfl
          · rw [hdeep]
            exact .inr ⟨span, rfl⟩
        · exact .inl (by simp only [hd, if_false])
    | [] | .ident .. :: _ | .lifetime .. :: _ | .punct .. :: _ | .literal .. :: _ => exact .inl rfl

instance [Agrees p q] (d : Delimiter) : Agrees (inGroup d p) (inGroup d q) := by
  unfold inGroup
  infer_instance

instance [h : Agrees p q] (sep : String) (done : Parser Bool) (n : Nat) :
    Agrees (listUntil sep done p n) (listUntil sep done q n) := by
  induction n with
  | zero => exact inferInstanceAs (Agrees failTooDeep failTooDeep)
  | succ n ih =>
      unfold listUntil
      infer_instance

instance [h : Agrees p q] (look : Look) (n : Nat) : Agrees (manyWhile look p n) (manyWhile look q n) := by
  induction n with
  | zero => exact inferInstanceAs (Agrees failTooDeep failTooDeep)
  | succ n ih =>
      unfold manyWhile
      infer_instance

instance [Agrees p q] : Agrees (commaList p) (commaList q) := by
  unfold commaList
  infer_instance

instance [Agrees p q] : Agrees (angleList p) (angleList q) := by
  unfold angleList
  infer_instance

instance [Agrees p q] : Agrees (located p) (located q) := by
  unfold located
  infer_instance

instance [Agrees p q] : Agrees (asWritten p) (asWritten q) := by
  unfold asWritten
  infer_instance

end

end Parser

end RowDerive
