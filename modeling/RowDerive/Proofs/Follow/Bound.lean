import RowDerive.Grammar.Generics
import RowDerive.Proofs.Follow.Combinator

/-!
# Bounds in front of other tokens

Given rules that stop in front of the tokens that may follow, paths and bounds do so too. Where a method
begins there is none.
-/

-- An instance for a long reader holds the types of all its parts.
set_option synthInstance.maxSize 1000000

namespace RowDerive

open RowDerive.Parser RowDerive.Grammar

/-- What the rules read stops in front of `s`. -/
class Rules.Stops (s : List Token) (ρ : Rules) : Prop where
  ty : ∀ plus, Parser.Stops s (ρ.ty plus) (ρ.ty plus)
  arg : Parser.StopsInside s ρ.arg ρ.arg
  param : Parser.StopsInside s ρ.param ρ.param
  block : ∀ inner, Parser.Stops s (ρ.block inner) (ρ.block inner)

/-- The rules read no type where a method begins. -/
class Rules.Refuses (ρ : Rules) : Prop where
  ty : ∀ plus, FailsAt Token.CutMethod (ρ.ty plus)

attribute [instance] Rules.Stops.ty Rules.Stops.arg Rules.Stops.param Rules.Stops.block
  Rules.Refuses.ty

variable {s : List Token} [Token.Ending s] {ρ : Rules} [hstops : ρ.Stops s] [hrefuses : ρ.Refuses]

/-! ## Paths -/

instance (inExpr : Bool) : Look.Firm s (angleAhead inExpr) := by
  unfold angleAhead
  infer_instance

instance : Stops s (angleArgs ρ) (angleArgs ρ) := by
  unfold angleArgs
  infer_instance

instance (x : String) : Stops s (segmentWith x ρ) (segmentWith x ρ) := by
  unfold segmentWith
  infer_instance

instance (inExpr : Bool) : Stops s (segment inExpr ρ) (segment inExpr ρ) := by
  unfold Grammar.segment
  infer_instance

omit [Token.Ending s] hstops hrefuses in
instance (inExpr : Bool) : FailsAt Token.Ended (segment inExpr ρ) := by
  unfold Grammar.segment
  infer_instance

instance : Look.Firm s segmentAhead := by
  unfold segmentAhead
  infer_instance

instance (inExpr : Bool) : Stops s (nextSegment inExpr ρ) (nextSegment inExpr ρ) := by
  unfold nextSegment
  infer_instance

instance (inExpr : Bool) : Stops s (segments inExpr ρ) (segments inExpr ρ) := by
  unfold segments
  infer_instance

instance (inExpr : Bool) : Stops s (path inExpr ρ) (path inExpr ρ) := by
  unfold path
  infer_instance

omit [Token.Ending s] hstops hrefuses in
instance (inExpr : Bool) : FailsAt Token.Ended (path inExpr ρ) := by
  unfold path
  infer_instance

instance (inExpr : Bool) : Stops s (qualifiedPath inExpr ρ) (qualifiedPath inExpr ρ) := by
  unfold qualifiedPath
  infer_instance

instance (inExpr : Bool) : Stops s (anyPath inExpr ρ) (anyPath inExpr ρ) := by
  unfold anyPath
  infer_instance

/-! ## Bounds -/

instance : Stops s (binder ρ) (binder ρ) := by
  unfold binder
  infer_instance

instance : Stops s (binder? ρ) (binder? ρ) := by
  unfold binder?
  infer_instance

omit hstops hrefuses in
instance {P : List Token → Prop} [Look.Unseen P (Look.keyword "for")] : Stays P (binder? ρ) := by
  unfold binder?
  infer_instance

instance (plus : Bool) : Stops s (result ρ plus) (result ρ plus) := by
  unfold result
  infer_instance

omit hstops hrefuses in
instance : Stops s captured captured := by
  unfold captured
  infer_instance

omit hstops hrefuses in
instance (n k : Nat) : Stops s (captureList n) (captureList (n + k)) := by
  refine .bounded rfl (fun n k ih => ?_) n k
  unfold captureList
  infer_instance

omit hstops hrefuses in
instance : Stops s captures captures := by
  unfold captures
  infer_instance

omit hstops hrefuses in
instance : FailsAt Token.Blank captures := by
  unfold captures
  infer_instance

/-! ### Traits -/

instance : Stops s (callArgs ρ) (callArgs ρ) := by
  unfold callArgs
  infer_instance

omit hstops hrefuses in
instance : Look.Firm s callAhead := by
  unfold callAhead
  infer_instance

omit [Token.Ending s] in
instance (allowed : Bool) : StopsInside s (constMark allowed) (constMark allowed) := by
  unfold constMark
  infer_instance

omit hstops hrefuses in
/-- After the `const` of a method stands no part of a bound. -/
theorem ended_of_constMark {allowed b : Bool} {c d : Cursor} (hc : Token.CutMethod c.rest)
    (h : constMark allowed c = .ok (b, d)) : Token.Ended d.rest := by
  have hbracket : Look.group .bracket c.rest = false := Look.Unseen.eq c.rest hc.ended
  simp only [constMark, bind_get, bind_peek, hbracket, Bool.false_eq_true, if_false] at h
  cases hconst : Look.keyword "const" c.rest with
  | false =>
      rw [hconst] at h
      cases h
      exact hc.ended
  | true =>
      simp only [hconst, if_true, bind_apply, discard_apply] at h
      cases hread : keyword "const" c with
      | error e =>
          rw [hread] at h
          cases h
      | ok r =>
          obtain ⟨a, us, hts, hr⟩ := keyword_eq_ok (t := r.1) (d := r.2) hread
          rw [hread] at h
          cases allowed with
          | false => cases h
          | true =>
              cases h
              rw [hr]
              exact hc.ended_of_const hts

instance : Stops s (traitPath ρ) (traitPath ρ) := by
  unfold traitPath
  infer_instance

omit [Token.Ending s] hstops hrefuses in
instance : FailsAt Token.Ended (traitPath ρ) := by
  unfold traitPath
  infer_instance

instance (consts : Bool) : Stops s (traitBound ρ consts) (traitBound ρ consts) := by
  have hend (marked : Bool) (relaxed : Option (Located (List Token))) (lifetimes : Option (List Token))
      (p : List Token) : Stops s
        (match relaxed, lifetimes with
          | some sign, some _ => fail .relaxedBinder sign.span
          | some sign, none => pure (marked, sign.val ++ p)
          | none, lifetimes => pure (marked, lifetimes.getD [] ++ p))
        (match relaxed, lifetimes with
          | some sign, some _ => fail .relaxedBinder sign.span
          | some sign, none => pure (marked, sign.val ++ p)
          | none, lifetimes => pure (marked, lifetimes.getD [] ++ p)) := by
    cases relaxed <;> cases lifetimes <;> infer_instance
  unfold traitBound
  infer_instance

instance {p q : Parser (List Token)} [Stops s p q] (isTrait : Bool) :
    Stops s (boundOf isTrait p) (boundOf isTrait q) := by
  unfold boundOf
  refine .bind inferInstance fun ts => ⟨fun c b d hc h => ?_⟩
  cases h
  exact ⟨hc, .inl rfl⟩

omit [Token.Ending s] hstops hrefuses in
instance (consts : Bool) : FailsAt Token.CutMethod (traitBound ρ consts) := by
  unfold traitBound
  have hbinder : Stays Token.CutMethod (binder? ρ) := inferInstance
  exact .bind hbinder.stays fun before => .bind (fun _ _ _ => ended_of_constMark) fun marked => inferInstance

instance {P : List Token → Prop} {p : Parser (List Token)} [FailsAt P p] (isTrait : Bool) :
    FailsAt P (boundOf isTrait p) := by
  unfold boundOf
  infer_instance

instance (consts : Bool) : Stops s (traitAsBound ρ consts) (traitAsBound ρ consts) := by
  unfold traitAsBound
  infer_instance

instance (consts : Bool) : FailsAt Token.CutMethod (traitAsBound ρ consts) := by
  unfold traitAsBound
  infer_instance

instance (uses consts : Bool) : Stops s (bound ρ uses consts) (bound ρ uses consts) := by
  unfold bound
  infer_instance

instance (uses consts : Bool) : FailsAt Token.CutMethod (bound ρ uses consts) := by
  unfold bound
  infer_instance

/-! ### Sums of bounds -/

instance (consts : Bool) : Look.Near s (boundAhead consts) := by
  unfold boundAhead
  infer_instance

instance (consts : Bool) : Look.Unseen Token.Blank (boundAhead consts) := by
  unfold boundAhead
  infer_instance

omit [Token.Ending s] in
/-- Of what parts the tokens from the rest only `as` is a word. -/
theorem tight_word (h : Look.keyword "as" s = false) : Look.Tight s Look.word where
  eq ts hts hs := by
    obtain ⟨t, us, hreveal, ht⟩ := Token.exists_of_parting hs
    rw [Look.keyword, Look.next, hreveal] at h
    rw [Look.word, Look.next, Token.reveal_append_of_nil hts, hreveal]
    cases t with
    | ident x a => exact absurd ht (Bool.eq_false_iff.1 h)
    | lifetime | punct | literal | group => rfl

theorem tight_boundAhead (h : Look.keyword "as" s = false) (consts : Bool) :
    Look.Tight s (boundAhead consts) := by
  have hword := tight_word h
  unfold boundAhead
  infer_instance

omit [Token.Ending s] in
/-- Tokens that end with the `+` ahead are left open. -/
theorem not_closed_plus {c d : Cursor} {ts : List Token} (has : Look.keyword "as" s = true)
    (h : op "+" c = .ok (ts, d)) (hd : Token.Blank d.rest) : ¬ Token.Closed s c.rest := by
  obtain ⟨hlook, hrest⟩ := op_eq_ok h
  obtain ⟨joint, a, us, hreveal⟩ := Token.exists_punct_of_op rfl hlook
  have hus : d.rest = us := by
    rw [hrest, hreveal]
    rfl
  rw [hus] at hd
  refine fun hclosed => hclosed has ?_
  rw [Token.OpenEnded, Token.openedList_of_reveal hreveal, Token.openedList_of_reveal_nil hd]
  rfl

/-- Behind a `+` another bound is looked for. In front of `as` the `+` is not the last of the tokens. -/
instance {α : Type} {f g : List Token → Bool → Parser α} (consts : Bool)
    [hfg : ∀ ts b, Stops s (f ts b) (g ts b)] [hg : ∀ ts, FailsAt Token.CutMethod (g ts true)] :
    Stops s (op "+" >>= fun ts => peek (boundAhead consts) >>= f ts)
      (op "+" >>= fun ts => peek (boundAhead consts) >>= g ts) where
  kept c b e hc h := by
    obtain ⟨ts, d, hplus, h⟩ := bind_eq_ok h
    have hop : Stops s (op "+") (op "+") := inferInstance
    have hkept := hop.kept c ts d hc hplus
    refine hkept.bind ?_
    cases has : Look.keyword "as" s with
    | false =>
        have htight := tight_boundAhead has consts
        have hpeek : Stops s (peek (boundAhead consts) >>= f ts) (peek (boundAhead consts) >>= g ts) :=
          inferInstance
        exact hpeek.kept d b e hkept.closed h
    | true =>
        have hpeek : StopsInside s (peek (boundAhead consts)) (peek (boundAhead consts)) := inferInstance
        have hblank : ¬ Token.Blank d.rest := fun hd => not_closed_plus has hplus hd hc
        exact (hpeek.kept d _ d hkept.closed rfl hblank).bind
          ((hfg ts _).kept d b e hkept.closed h)

instance {P : List Token → Prop} {p : Parser Bound} [FailsAt P p] (consts plus : Bool) (n : Nat) :
    FailsAt P (boundsPlus consts plus p n) := by
  cases n with
  | zero => exact inferInstanceAs (FailsAt P failTooDeep)
  | succ n =>
      unfold boundsPlus
      infer_instance

instance {p : Parser Bound} [Stops s p p] [FailsAt Token.CutMethod p] (consts plus : Bool) (n k : Nat) :
    Stops s (boundsPlus consts plus p n) (boundsPlus consts plus p (n + k)) := by
  refine .bounded rfl (fun n k ih => ?_) n k
  unfold boundsPlus
  infer_instance

instance (plus : Bool) (m n : Nat) : Stops s (objectBounds ρ plus m) (objectBounds ρ plus n) := by
  unfold objectBounds
  infer_instance

instance (plus : Bool) (m n : Nat) : Stops s (anonymousBounds ρ plus m) (anonymousBounds ρ plus n) := by
  unfold anonymousBounds
  infer_instance

instance (n k : Nat) : Stops s (addedBounds ρ n) (addedBounds ρ (n + k)) := by
  refine .bounded rfl (fun n k ih => ?_) n k
  unfold addedBounds
  infer_instance

instance (n k : Nat) : Stops s (addedBoundsStrict ρ n) (addedBoundsStrict ρ (n + k)) := by
  refine .bounded rfl (fun n k ih => ?_) n k
  unfold addedBoundsStrict
  infer_instance

/-! ### Bounds of a declaration -/

instance {p : Parser (List Token)} {done : Parser Bool} [StopsInside s done done]
    [Stays Token.Blank done] [Stops s p p] [FailsAt Token.Blank p] (n k : Nat) :
    StopsInside s (plusList done p n) (plusList done p (n + k)) := by
  refine .bounded rfl (fun n k ih => ?_) n k
  unfold plusList
  infer_instance

instance {done : Parser Bool} [StopsInside s done done] [Stays Token.Blank done] :
    StopsInside s (bounds ρ done) (bounds ρ done) := by
  unfold bounds
  infer_instance

instance {done : Parser Bool} [StopsInside s done done] [Stays Token.Blank done] :
    StopsInside s (lifetimeBounds done) (lifetimeBounds done) := by
  unfold lifetimeBounds
  infer_instance

end RowDerive
