import RowDerive.Proofs.Follow.Method

/-!
# Readers that give nothing back

What a reader leaves is no more than what was ahead. So a list of which every item takes a token is read
within the number of tokens, and never runs out of its bound. This holds of all that is read outside of
groups, since a group is one token of what it stands in.
-/

-- An instance for a long reader holds the types of all its parts.
set_option synthInstance.maxSize 1000000

namespace RowDerive

open RowDerive.Parser RowDerive.Grammar

namespace Token

mutual

theorem sizeList_shown?_le {t u : Token} {us : List Token} (h : shown? t = some (u, us)) :
    u.size + sizeList us ≤ t.size := by
  match t with
  | group .invisible ts o c =>
      rw [shown?] at h
      have hts := sizeList_firstShown?_le h
      rw [size]
      omega
  | group .paren .. | group .bracket .. | group .brace .. | ident .. | lifetime .. | punct ..
  | literal .. =>
      cases h
      exact Nat.le_refl _

theorem sizeList_firstShown?_le {ts us : List Token} {u : Token} (h : firstShown? ts = some (u, us)) :
    u.size + sizeList us ≤ sizeList ts := by
  match ts with
  | [] => cases h
  | t :: ts =>
      rw [firstShown?] at h
      rw [sizeList]
      cases ht : shown? t with
      | none =>
          rw [ht] at h
          exact Nat.le_trans (sizeList_firstShown?_le h) (Nat.le_add_left _ _)
      | some x =>
          rw [ht] at h
          cases h
          have hx := sizeList_shown?_le ht
          rw [sizeList_append]
          omega

end

/-- Invisible groups that are opened hold no more than is counted of them. -/
theorem sizeList_reveal_le (ts : List Token) : sizeList (reveal ts) ≤ sizeList ts := by
  unfold reveal
  cases h : firstShown? ts with
  | none => exact Nat.zero_le _
  | some x =>
      have hx := sizeList_firstShown?_le h
      rwa [← sizeList] at hx

theorem sizeList_lt_of_reveal {ts us : List Token} {t : Token} (h : reveal ts = t :: us) :
    sizeList us < sizeList ts := by
  have hle := sizeList_reveal_le ts
  have hpos := t.size_pos
  rw [h, sizeList] at hle
  omega

theorem sizeList_drop_le (n : Nat) (ts : List Token) : sizeList (ts.drop n) ≤ sizeList ts := by
  have hsplit := congrArg sizeList (List.take_append_drop n ts)
  rw [sizeList_append] at hsplit
  omega

end Token

namespace Parser

variable {α β : Type}

/-- What the reader leaves is no more than what was ahead. -/
class Shrinks (p : Parser α) : Prop where
  le : ∀ c a d, p c = .ok (a, d) → Token.sizeList d.rest ≤ Token.sizeList c.rest

/-! ## Rules -/

section

variable {p q : Parser α} {f : α → Parser β}

theorem Shrinks.bind (hp : Shrinks p) (hf : ∀ a, Shrinks (f a)) : Shrinks (p >>= f) where
  le c b e h := by
    obtain ⟨a, d, hpa, hfa⟩ := bind_eq_ok h
    exact Nat.le_trans ((hf a).le d b e hfa) (hp.le c a d hpa)

instance [hp : Shrinks p] [hf : ∀ a, Shrinks (f a)] : Shrinks (p >>= f) := hp.bind hf

instance {b : Prop} [Decidable b] [hp : Shrinks p] [hq : Shrinks q] : Shrinks (if b then p else q) := by
  split
  · exact hp
  · exact hq

instance (a : α) : Shrinks (pure a : Parser α) where
  le c b d h := by
    cases h
    exact Nat.le_refl _

instance [Shrinks p] : Shrinks (Functor.discard p) :=
  inferInstanceAs (Shrinks (p >>= fun _ => pure ()))

instance {f : Cursor → Parser α} [hf : ∀ c, Shrinks (f c)] : Shrinks (get >>= f) where
  le c a d h := (hf c).le c a d h

instance {f : Bool → Parser β} (look : Look) [hf : ∀ b, Shrinks (f b)] : Shrinks (peek look >>= f) where
  le c a d h := (hf _).le c a d h

instance {f : Nat → Parser β} [hf : ∀ n, Shrinks (f n)] : Shrinks (ahead >>= f) where
  le c a d h := (hf _).le c a d h

instance (look : Look) : Shrinks (peek look) where
  le c b d h := by
    cases h
    exact Nat.le_refl _

instance : Shrinks atEnd where
  le c b d h := by
    cases h
    exact Nat.le_refl _

theorem shrinks_of_error (h : ∀ c, ∃ e, p c = .error e) : Shrinks p where
  le c a d hp := by
    obtain ⟨e, he⟩ := h c
    rw [he] at hp
    cases hp

instance (fault : SyntaxFault) (span : Span) : Shrinks (fail fault span : Parser α) :=
  shrinks_of_error fun _ => ⟨_, rfl⟩

instance : Shrinks (failTooDeep : Parser α) := shrinks_of_error fun _ => ⟨_, rfl⟩

instance (what : String) : Shrinks (failExpected what : Parser α) := shrinks_of_error fun _ => ⟨_, rfl⟩

instance (what : List (String × Look)) : Shrinks (failNoneOf what : Parser α) :=
  shrinks_of_error fun _ => ⟨_, rfl⟩

end

/-! ## Combinators -/

section

variable {p : Parser α}

instance (f : Token → Option α) : Shrinks (Parser.take? f) where
  le c x d h := by
    simp only [Parser.take?, bind_apply, get_apply] at h
    cases hts : Token.reveal c.rest with
    | nil =>
        rw [hts] at h
        cases h
        exact Nat.le_refl _
    | cons t us =>
        rw [hts] at h
        cases hft : f t with
        | none =>
            simp only [hft] at h
            cases h
            exact Nat.le_refl _
        | some a =>
            simp only [hft] at h
            cases h
            exact Nat.le_of_lt (Token.sizeList_lt_of_reveal hts)

/-- What follows a token that was looked for may depend on whether it was there. -/
instance (priority := low) bind_option_shrinks {p : Parser (Option α)} {f : Option α → Parser β}
    [hp : Shrinks p] [hsome : ∀ a, Shrinks (f (some a))] [hnone : Shrinks (f none)] :
    Shrinks (p >>= f) := by
  refine hp.bind ?_
  rintro (_ | a)
  · exact hnone
  · exact hsome a

instance (k : String) : Shrinks (keyword k) := by
  unfold keyword
  infer_instance

instance (k : String) : Shrinks (keyword? k) := by
  unfold keyword?
  infer_instance

instance : Shrinks word := by
  unfold word
  infer_instance

instance : Shrinks name := by
  unfold name
  infer_instance

instance : Shrinks lifetime := by
  unfold lifetime
  infer_instance

instance : Shrinks stringLiteral := by
  unfold stringLiteral
  infer_instance

instance (str : String) : Shrinks (op str) where
  le c ts d h := by
    rw [(op_eq_ok h).2]
    exact Nat.le_trans (Token.sizeList_drop_le _ _) (Token.sizeList_reveal_le _)

instance (str : String) : Shrinks (op? str) := by
  unfold op?
  infer_instance

instance : Shrinks literal := by
  unfold literal
  infer_instance

instance [Shrinks p] (look : Look) : Shrinks (optionally look p) := by
  unfold optionally
  infer_instance

/-- A group is taken as a whole, whatever is read of its content. -/
instance (d : Delimiter) (p : Parser α) : Shrinks (openGroup d p) where
  le c x e h := by
    obtain ⟨us, o, cl, rest, inner, hts, -, -, rfl⟩ := openGroup_eq_ok_iff.1 h
    have hahead : Token.sizeList (groupAhead d c.rest) ≤ Token.sizeList c.rest := by
      unfold groupAhead
      split
      · exact Nat.le_refl _
      · exact Token.sizeList_reveal_le _
    rw [hts, Token.sizeList] at hahead
    exact Nat.le_trans (Nat.le_add_left _ _) hahead

instance (left : Option (Located Delimiter)) : Shrinks (note left) where
  le c x d h := by
    cases h
    exact Nat.le_refl _

instance (d : Delimiter) (p : Parser α) : Shrinks (inGroup d p) := by
  unfold inGroup
  infer_instance

instance [Shrinks p] (look : Look) (n : Nat) : Shrinks (manyWhile look p n) := by
  induction n with
  | zero => exact inferInstanceAs (Shrinks failTooDeep)
  | succ n ih =>
      unfold manyWhile
      infer_instance

instance [Shrinks p] (sep : String) {done : Parser Bool} [Shrinks done] (n : Nat) :
    Shrinks (listUntil sep done p n) := by
  induction n with
  | zero => exact inferInstanceAs (Shrinks failTooDeep)
  | succ n ih =>
      unfold listUntil
      infer_instance

instance [Shrinks p] : Shrinks (angleList p) := by
  unfold angleList
  infer_instance

instance [Shrinks p] : Shrinks (located p) := by
  unfold located
  infer_instance

instance (c : Cursor) : Shrinks (takenSince c) := by
  unfold takenSince
  infer_instance

end

end Parser

/-! ## Types -/

/-- The rules that are used outside of groups give nothing back. -/
class Rules.Shrinks (ρ : Rules) : Prop where
  ty : ∀ plus, Parser.Shrinks (ρ.ty plus)
  arg : Parser.Shrinks ρ.arg
  param : Parser.Shrinks ρ.param
  block : ∀ inner, Parser.Shrinks (ρ.block inner)

attribute [instance] Rules.Shrinks.ty Rules.Shrinks.arg Rules.Shrinks.param Rules.Shrinks.block

section

variable {ρ : Rules} [ρ.Shrinks]

/-! ### Paths -/

instance : Shrinks (attributeTokens ρ) := by
  unfold attributeTokens attributes oneAttribute
  infer_instance

instance (x : String) : Shrinks (segmentWith x ρ) := by
  unfold segmentWith angleArgs
  infer_instance

instance (inExpr : Bool) : Shrinks (segment inExpr ρ) := by
  unfold Grammar.segment
  infer_instance

instance (inExpr : Bool) : Shrinks (nextSegment inExpr ρ) := by
  unfold nextSegment
  infer_instance

instance (inExpr : Bool) : Shrinks (segments inExpr ρ) := by
  unfold segments
  infer_instance

instance (inExpr : Bool) : Shrinks (path inExpr ρ) := by
  unfold path
  infer_instance

instance (inExpr : Bool) : Shrinks (anyPath inExpr ρ) := by
  unfold anyPath qualifiedPath
  infer_instance

/-! ### Bounds -/

instance : Shrinks (binder? ρ) := by
  unfold binder? binder
  infer_instance

instance (plus : Bool) : Shrinks (result ρ plus) := by
  unfold result
  infer_instance

instance : Shrinks captured := by
  unfold captured
  infer_instance

instance (n : Nat) : Shrinks (captureList n) := by
  induction n with
  | zero => exact inferInstanceAs (Shrinks failTooDeep)
  | succ n ih =>
      unfold captureList
      infer_instance

instance : Shrinks captures := by
  unfold captures
  infer_instance

instance (allowed : Bool) : Shrinks (constMark allowed) := by
  unfold constMark
  infer_instance

instance : Shrinks (traitPath ρ) := by
  unfold traitPath callArgs
  infer_instance

instance (consts : Bool) : Shrinks (traitBound ρ consts) := by
  have hend (marked : Bool) (relaxed : Option (Located (List Token))) (lifetimes : Option (List Token))
      (p : List Token) : Shrinks (match relaxed, lifetimes with
        | some sign, some _ => fail .relaxedBinder sign.span
        | some sign, none => pure (marked, sign.val ++ p)
        | none, lifetimes => pure (marked, lifetimes.getD [] ++ p)) := by
    cases relaxed <;> cases lifetimes <;> infer_instance
  unfold traitBound
  infer_instance

instance {p : Parser (List Token)} [Shrinks p] (isTrait : Bool) : Shrinks (boundOf isTrait p) := by
  unfold boundOf
  infer_instance

instance (uses consts : Bool) : Shrinks (bound ρ uses consts) := by
  unfold bound traitAsBound
  infer_instance

instance {p : Parser Bound} [Shrinks p] (consts plus : Bool) (n : Nat) :
    Shrinks (boundsPlus consts plus p n) := by
  induction n with
  | zero => exact inferInstanceAs (Shrinks failTooDeep)
  | succ n ih =>
      unfold boundsPlus
      infer_instance

instance (plus : Bool) (start : Nat) : Shrinks (objectBounds ρ plus start) := by
  unfold objectBounds
  infer_instance

instance (plus : Bool) (start : Nat) : Shrinks (anonymousBounds ρ plus start) := by
  unfold anonymousBounds
  infer_instance

instance {p : Parser (List Token)} {done : Parser Bool} [Shrinks p] [Shrinks done] (n : Nat) :
    Shrinks (plusList done p n) := by
  induction n with
  | zero => exact inferInstanceAs (Shrinks failTooDeep)
  | succ n ih =>
      unfold plusList
      infer_instance

instance {done : Parser Bool} [Shrinks done] : Shrinks (bounds ρ done) := by
  unfold bounds
  infer_instance

instance {done : Parser Bool} [Shrinks done] : Shrinks (lifetimeBounds done) := by
  unfold lifetimeBounds
  infer_instance

instance (n : Nat) : Shrinks (addedBounds ρ n) := by
  induction n with
  | zero => exact inferInstanceAs (Shrinks failTooDeep)
  | succ n ih =>
      unfold addedBounds
      infer_instance

instance (n : Nat) : Shrinks (addedBoundsStrict ρ n) := by
  induction n with
  | zero => exact inferInstanceAs (Shrinks failTooDeep)
  | succ n ih =>
      unfold addedBoundsStrict
      infer_instance

/-! ### Arguments and parameters -/

instance : Shrinks (constArg ρ) := by
  unfold constArg
  infer_instance

instance : Shrinks (arg ρ) := by
  unfold arg argBinding argBounds
  refine .bind inferInstance fun _ => ?_
  split
  · infer_instance
  refine .bind inferInstance fun _ => ?_
  split
  · infer_instance
  refine .bind inferInstance fun t => ?_
  cases bindable? t <;> infer_instance

instance (attrs : List (List Token)) : Shrinks (lifetimeParam attrs) := by
  unfold lifetimeParam paramBounds
  infer_instance

instance (attrs : List (List Token)) : Shrinks (typeParam ρ attrs) := by
  unfold typeParam paramBounds
  infer_instance

instance (attrs : List (List Token)) : Shrinks (constParam ρ attrs) := by
  unfold constParam
  infer_instance

instance : Shrinks (boundParam ρ) := by
  unfold boundParam
  infer_instance

/-! ### Types of all forms -/

instance : Shrinks (fnType ρ) := by
  unfold fnType abi?
  infer_instance

instance (plus : Bool) (content : InParens) : Shrinks (parenTypeFrom ρ plus content) := by
  cases content with
  | tuple types | object ts | relaxed ts =>
      unfold parenTypeFrom
      infer_instance
  | single t =>
      simp only [parenTypeFrom]
      cases asBound? t <;> infer_instance

instance : Shrinks anyGroup where
  le c x e h := by
    obtain ⟨rest, close, last, left⟩ := c
    simp only [anyGroup, bind_get] at h
    match rest with
    | .group d content o cl :: rest =>
        by_cases hd : d = .invisible
        · simp only [hd, if_true] at h
          cases h
        · simp only [hd, if_false] at h
          cases h
          exact Nat.le_add_left _ _
    | [] | .ident .. :: _ | .lifetime .. :: _ | .punct .. :: _ | .literal .. :: _ => cases h

instance (lifetimes : Option (List Token)) (plus : Bool) : Shrinks (pathType ρ lifetimes plus) := by
  unfold pathType macroArgs
  refine .bind inferInstance fun t => ?_
  cases t with
  | path rooted init last => cases lifetimes <;> infer_instance
  | group | paren | reference | slice | qualified | bound | other => infer_instance

instance (t : Ty) : Shrinks (pathOfSelf ρ t) := by
  unfold pathOfSelf
  infer_instance

theorem shrinks_withArgs? {t : Ty} {p : Parser Ty} (h : withArgs? ρ t = some p) : Shrinks p := by
  unfold withArgs? at h
  split at h <;> cases h <;> infer_instance

instance (args : Bool) : Shrinks (groupType ρ args) := by
  unfold groupType
  refine .bind inferInstance fun t => .bind inferInstance fun _ => ?_
  split
  · cases t <;> infer_instance
  · refine .bind inferInstance fun _ => ?_
    split
    · cases hp : withArgs? ρ t with
      | none => infer_instance
      | some p =>
          have hshrinks := shrinks_withArgs? hp
          infer_instance
    · infer_instance

instance (c : Cursor) (lifetimes : Option (List Token)) (plus : Bool) :
    Shrinks (typeFrom ρ c lifetimes plus) := by
  unfold typeFrom parenType builtin anyContent dynType bracketType pointerType referenceType implType
  infer_instance

instance (plus args : Bool) : Shrinks (type ρ plus args) := by
  unfold type
  infer_instance

instance (inner : Bool) : Shrinks (block ρ inner) := by
  unfold block
  infer_instance

end

namespace Grammar

/-- At any depth nothing is given back. -/
instance rules_shrink (n : Nat) : (rules n).Shrinks := by
  induction n with
  | zero =>
      exact ⟨fun _ => inferInstanceAs (Shrinks failTooDeep), inferInstanceAs (Shrinks failTooDeep),
        inferInstanceAs (Shrinks failTooDeep), fun _ => inferInstanceAs (Shrinks failTooDeep)⟩
  | succ n ih =>
      exact
        { ty := fun plus => inferInstanceAs (Shrinks (type (rules n) plus true))
          arg := inferInstanceAs (Shrinks (arg (rules n)))
          param := inferInstanceAs (Shrinks (boundParam (rules n)))
          block := fun inner => inferInstanceAs (Shrinks (block (rules n) inner)) }

instance (ts : List Token) : (rulesFor ts).Shrinks := rules_shrink _

end Grammar

end RowDerive
