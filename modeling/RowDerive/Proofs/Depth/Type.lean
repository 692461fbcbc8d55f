import RowDerive.Grammar.Generics
import RowDerive.Proofs.Depth.Reader

/-!
# Types at a greater depth

Attributes, paths, bounds, types and generics are read by deeper rules as they are by the rules at hand.
-/

-- An instance for a long reader holds the types of all its parts.
set_option synthInstance.maxSize 1000000

namespace RowDerive

open RowDerive.Parser RowDerive.Grammar

/-- Each of the second rules reads what the first reads. -/
class Rules.Agrees (ρ σ : Rules) : Prop where
  ty : ∀ plus, Parser.Agrees (ρ.ty plus) (σ.ty plus)
  castTy : Parser.Agrees ρ.castTy σ.castTy
  arg : Parser.Agrees ρ.arg σ.arg
  param : Parser.Agrees ρ.param σ.param
  pattern : Parser.Agrees ρ.pattern σ.pattern
  expr : ∀ records base, Parser.Agrees (ρ.expr records base) (σ.expr records base)
  operand : ∀ records base, Parser.Agrees (ρ.operand records base) (σ.operand records base)
  standalone : Parser.Agrees ρ.standalone σ.standalone
  block : ∀ inner, Parser.Agrees (ρ.block inner) (σ.block inner)
  item : Parser.Agrees ρ.item σ.item

attribute [instance] Rules.Agrees.ty Rules.Agrees.castTy Rules.Agrees.arg Rules.Agrees.param
  Rules.Agrees.pattern Rules.Agrees.expr Rules.Agrees.operand Rules.Agrees.standalone
  Rules.Agrees.block Rules.Agrees.item

variable {ρ σ : Rules} [ρ.Agrees σ]

/-! ## Things read -/

instance : Agrees ρ.whole σ.whole := by
  unfold Rules.whole
  infer_instance

instance : Agrees ρ.condition σ.condition := by
  unfold Rules.condition
  infer_instance

/-! ## Attributes -/

instance : Agrees (attributeValue ρ) (attributeValue σ) := by
  unfold attributeValue
  refine .bind inferInstance fun c => .bind inferInstance fun alone => .bind inferInstance fun ended => ?_
  cases alone <;> cases ended <;> infer_instance

instance : Agrees (attributeInput ρ) (attributeInput σ) := by
  unfold attributeInput
  infer_instance

instance : Agrees (attributeContent ρ) (attributeContent σ) := by
  unfold attributeContent
  infer_instance

instance : Agrees (oneAttribute ρ) (oneAttribute σ) := by
  unfold oneAttribute
  infer_instance

instance : Agrees (attributes ρ) (attributes σ) := by
  unfold attributes
  infer_instance

instance : Agrees (attributeTokens ρ) (attributeTokens σ) := by
  unfold attributeTokens
  infer_instance

instance : Agrees (innerAttribute ρ) (innerAttribute σ) := by
  unfold innerAttribute
  infer_instance

instance : Agrees (innerAttributes ρ) (innerAttributes σ) := by
  unfold innerAttributes
  infer_instance

/-! ## Paths -/

instance : Agrees (angleArgs ρ) (angleArgs σ) := by
  unfold angleArgs
  infer_instance

instance (x : String) : Agrees (segmentWith x ρ) (segmentWith x σ) := by
  unfold segmentWith
  infer_instance

instance (inExpr : Bool) : Agrees (segment inExpr ρ) (segment inExpr σ) := by
  unfold Grammar.segment
  infer_instance

instance (inExpr : Bool) : Agrees (nextSegment inExpr ρ) (nextSegment inExpr σ) := by
  unfold nextSegment
  infer_instance

instance (inExpr : Bool) : Agrees (segments inExpr ρ) (segments inExpr σ) := by
  unfold segments
  infer_instance

instance (inExpr : Bool) : Agrees (path inExpr ρ) (path inExpr σ) := by
  unfold path
  infer_instance

instance (inExpr : Bool) : Agrees (qualifiedPath inExpr ρ) (qualifiedPath inExpr σ) := by
  unfold qualifiedPath
  infer_instance

instance (inExpr : Bool) : Agrees (anyPath inExpr ρ) (anyPath inExpr σ) := by
  unfold anyPath
  infer_instance

/-! ## Bounds -/

instance : Agrees (binder ρ) (binder σ) := by
  unfold binder
  infer_instance

instance : Agrees (binder? ρ) (binder? σ) := by
  unfold binder?
  infer_instance

instance (plus : Bool) : Agrees (result ρ plus) (result σ plus) := by
  unfold result
  infer_instance

instance : Agrees (callArgs ρ) (callArgs σ) := by
  unfold callArgs
  infer_instance

instance : Agrees (traitPath ρ) (traitPath σ) := by
  unfold traitPath
  infer_instance

instance (consts : Bool) : Agrees (traitBound ρ consts) (traitBound σ consts) := by
  unfold traitBound
  infer_instance

instance {p q : Parser (List Token)} [Agrees p q] (isTrait : Bool) :
    Agrees (boundOf isTrait p) (boundOf isTrait q) := by
  unfold boundOf
  infer_instance

instance (consts : Bool) : Agrees (traitAsBound ρ consts) (traitAsBound σ consts) := by
  unfold traitAsBound
  infer_instance

instance (uses consts : Bool) : Agrees (bound ρ uses consts) (bound σ uses consts) := by
  unfold bound
  infer_instance

instance {p q : Parser Bound} [Agrees p q] (consts plus : Bool) (n : Nat) :
    Agrees (boundsPlus consts plus p n) (boundsPlus consts plus q n) := by
  induction n with
  | zero => exact inferInstanceAs (Agrees failTooDeep failTooDeep)
  | succ n ih =>
      unfold boundsPlus
      infer_instance

instance (plus : Bool) (start : Nat) :
    Agrees (objectBounds ρ plus start) (objectBounds σ plus start) := by
  unfold objectBounds
  infer_instance

instance (plus : Bool) (start : Nat) :
    Agrees (anonymousBounds ρ plus start) (anonymousBounds σ plus start) := by
  unfold anonymousBounds
  infer_instance

instance {p q : Parser (List Token)} [Agrees p q] (done : Parser Bool) (n : Nat) :
    Agrees (plusList done p n) (plusList done q n) := by
  induction n with
  | zero => exact inferInstanceAs (Agrees failTooDeep failTooDeep)
  | succ n ih =>
      unfold plusList
      infer_instance

instance (done : Parser Bool) : Agrees (bounds ρ done) (bounds σ done) := by
  unfold bounds
  infer_instance

instance (n : Nat) : Agrees (addedBounds ρ n) (addedBounds σ n) := by
  induction n with
  | zero => exact inferInstanceAs (Agrees failTooDeep failTooDeep)
  | succ n ih =>
      unfold addedBounds
      infer_instance

instance (n : Nat) : Agrees (addedBoundsStrict ρ n) (addedBoundsStrict σ n) := by
  induction n with
  | zero => exact inferInstanceAs (Agrees failTooDeep failTooDeep)
  | succ n ih =>
      unfold addedBoundsStrict
      infer_instance

/-! ## Arguments -/

instance : Agrees (constArg ρ) (constArg σ) := by
  unfold constArg
  infer_instance

instance : Agrees (argBinding ρ) (argBinding σ) := by
  unfold argBinding
  infer_instance

instance : Agrees (argBounds ρ) (argBounds σ) := by
  unfold argBounds
  infer_instance

instance : Agrees (arg ρ) (arg σ) := by
  unfold arg
  refine .bind inferInstance fun _ => .ite inferInstance (.bind inferInstance fun _ => ?_)
  refine .ite inferInstance (.bind inferInstance fun t => ?_)
  cases bindable? t <;> infer_instance

/-! ## Function types -/

instance (first : Bool) : Agrees (fnTypeParam ρ first) (fnTypeParam σ first) := by
  unfold fnTypeParam
  infer_instance

instance (first : Bool) (n : Nat) : Agrees (fnTypeParams ρ first n) (fnTypeParams σ first n) := by
  induction n generalizing first with
  | zero => exact inferInstanceAs (Agrees failTooDeep failTooDeep)
  | succ n ih =>
      unfold fnTypeParams
      infer_instance

instance : Agrees (fnType ρ) (fnType σ) := by
  unfold fnType
  infer_instance

/-! ## Types in parentheses -/

instance : Agrees (inParens ρ) (inParens σ) := by
  unfold inParens
  infer_instance

instance (plus : Bool) (content : InParens) :
    Agrees (parenTypeFrom ρ plus content) (parenTypeFrom σ plus content) := by
  cases content with
  | tuple types | object ts | relaxed ts =>
      unfold parenTypeFrom
      infer_instance
  | single t =>
      simp only [parenTypeFrom]
      cases asBound? t <;> infer_instance

instance (plus : Bool) : Agrees (parenType ρ plus) (parenType σ plus) := by
  unfold parenType
  infer_instance

/-! ## Other types -/

instance (lifetimes : Option (List Token)) (plus : Bool) :
    Agrees (pathType ρ lifetimes plus) (pathType σ lifetimes plus) := by
  unfold pathType
  refine .bind inferInstance fun t => ?_
  cases t with
  | path rooted init last => cases lifetimes <;> infer_instance
  | group | paren | reference | slice | qualified | bound | other => infer_instance

instance (t : Ty) : Agrees (pathOfSelf ρ t) (pathOfSelf σ t) := by
  unfold pathOfSelf
  infer_instance

/-- Arguments belong to the same paths, and are read alike. -/
theorem agrees_withArgs? (t : Ty) :
    (withArgs? ρ t = none ∧ withArgs? σ t = none) ∨
      ∃ p q, withArgs? ρ t = some p ∧ withArgs? σ t = some q ∧ Agrees p q := by
  unfold withArgs?
  split
  · exact .inr ⟨_, _, rfl, rfl, inferInstance⟩
  · exact .inr ⟨_, _, rfl, rfl, inferInstance⟩
  · exact .inl ⟨rfl, rfl⟩

instance (args : Bool) : Agrees (groupType ρ args) (groupType σ args) := by
  unfold groupType
  refine .bind inferInstance fun t => .bind inferInstance fun _ => .ite ?_ ?_
  · cases t <;> infer_instance
  · refine .bind inferInstance fun _ => .ite ?_ inferInstance
    rcases agrees_withArgs? (ρ := ρ) (σ := σ) t with ⟨hρ, hσ⟩ | ⟨p, q, hρ, hσ, hpq⟩
    · rw [hρ, hσ]
      infer_instance
    · rw [hρ, hσ]
      infer_instance

instance : Agrees (bracketType ρ) (bracketType σ) := by
  unfold bracketType
  infer_instance

instance : Agrees (pointerType ρ) (pointerType σ) := by
  unfold pointerType
  infer_instance

instance : Agrees (referenceType ρ) (referenceType σ) := by
  unfold referenceType
  infer_instance

instance (c : Cursor) (plus : Bool) : Agrees (dynType ρ c plus) (dynType σ c plus) := by
  unfold dynType
  infer_instance

instance (plus : Bool) : Agrees (implType ρ plus) (implType σ plus) := by
  unfold implType
  infer_instance

instance (c : Cursor) (lifetimes : Option (List Token)) (plus : Bool) :
    Agrees (typeFrom ρ c lifetimes plus) (typeFrom σ c lifetimes plus) := by
  unfold typeFrom
  infer_instance

instance (plus args : Bool) : Agrees (type ρ plus args) (type σ plus args) := by
  unfold type
  infer_instance

/-! ## Generics -/

instance {p q : Parser (List Token)} [Agrees p q] : Agrees (paramBounds p) (paramBounds q) := by
  unfold paramBounds
  infer_instance

instance (attrs : List (List Token)) : Agrees (typeParam ρ attrs) (typeParam σ attrs) := by
  unfold typeParam
  infer_instance

instance (attrs : List (List Token)) : Agrees (constParam ρ attrs) (constParam σ attrs) := by
  unfold constParam
  infer_instance

instance : Agrees (genericParam ρ) (genericParam σ) := by
  unfold genericParam
  infer_instance

instance : Agrees (boundParam ρ) (boundParam σ) := by
  unfold boundParam
  infer_instance

instance : Agrees (genericParams ρ) (genericParams σ) := by
  unfold genericParams
  infer_instance

instance : Agrees (predicate ρ) (predicate σ) := by
  unfold predicate
  infer_instance

instance (n : Nat) : Agrees (predicates ρ n) (predicates σ n) := by
  induction n with
  | zero => exact inferInstanceAs (Agrees failTooDeep failTooDeep)
  | succ n ih =>
      unfold predicates
      infer_instance

instance : Agrees (whereClause ρ) (whereClause σ) := by
  unfold whereClause
  infer_instance

end RowDerive
