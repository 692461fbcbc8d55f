import RowDerive.Grammar.Generics
import RowDerive.Proofs.Place.Reader

/-!
# Types and places

Attributes, paths, bounds, types and generics are read without a look at places.
-/

-- An instance for a long reader holds the types of all its parts.
set_option synthInstance.maxSize 1000000

namespace RowDerive

open RowDerive.Parser RowDerive.Grammar

open Placed (blur)

/-! ## Things read -/

instance : Placed PlainPath := ⟨id, fun _ => rfl⟩
instance : Placed Ty := ⟨id, fun _ => rfl⟩
instance : Placed Segment := ⟨id, fun _ => rfl⟩
instance : Placed TyArg := ⟨id, fun _ => rfl⟩
instance : Placed Path := ⟨id, fun _ => rfl⟩
instance : Placed InParens := ⟨id, fun _ => rfl⟩
instance : Placed GenericParam := ⟨id, fun _ => rfl⟩

instance : Placeless PlainPath := ⟨fun _ => rfl⟩
instance : Placeless Ty := ⟨fun _ => rfl⟩
instance : Placeless Segment := ⟨fun _ => rfl⟩
instance : Placeless TyArg := ⟨fun _ => rfl⟩
instance : Placeless Path := ⟨fun _ => rfl⟩
instance : Placeless InParens := ⟨fun _ => rfl⟩
instance : Placeless GenericParam := ⟨fun _ => rfl⟩

instance : Placed AttributeInput where
  blur
    | .none => .none
    | .args content _ => .args (content.map Token.erase) .nowhere
    | .value _ => .value .nowhere
  blur_blur i := by cases i <;> simp

instance (ts : List Token) (s s' : Span) :
    Alike (AttributeInput.args (ts.map Token.erase) s) (.args ts s') :=
  ⟨by simp [blur]⟩

instance (s s' : Span) : Alike (AttributeInput.value s) (.value s') := ⟨rfl⟩

instance : Placed Attribute where
  blur a := ⟨blur a.path, blur a.input, .nowhere, a.tokens⟩
  blur_blur a := by simp

instance {path path' : Located PlainPath} {input input' : AttributeInput} [hpath : Alike path path']
    [hinput : Alike input input'] (s s' : Span) (ts : List Token) :
    Alike (Attribute.mk path input s ts) ⟨path', input', s', ts⟩ :=
  ⟨congrArg₂ (Attribute.mk · · .nowhere ts) hpath.eq hinput.eq⟩

instance : Placed Bound where
  blur b := ⟨b.isTrait, b.tokens, 0⟩
  blur_blur _ := rfl

instance (isTrait : Bool) (ts : List Token) (m n : Nat) : Alike (Bound.mk isTrait ts m) ⟨isTrait, ts, n⟩ :=
  ⟨rfl⟩

instance : Placed ExprForm where
  blur
    | .range _ => .range .nowhere
    | form => form
  blur_blur form := by cases form <;> rfl

instance : Placed Expr where
  blur e := ⟨blur e.form, e.tokens⟩
  blur_blur e := by simp

instance : Placed PatternForm where
  blur
    | .openRange _ => .openRange .nowhere
    | form => form
  blur_blur form := by cases form <;> rfl

instance : Placed Pattern where
  blur p := ⟨blur p.form, p.tokens⟩
  blur_blur p := by simp

/-- The rules do not look at places. -/
class Rules.Blind (ρ : Rules) : Prop where
  ty : ∀ plus, Parser.Blind (ρ.ty plus)
  castTy : Parser.Blind ρ.castTy
  arg : Parser.Blind ρ.arg
  param : Parser.Blind ρ.param
  pattern : Parser.Blind ρ.pattern
  expr : ∀ records base, Parser.Blind (ρ.expr records base)
  operand : ∀ records base, Parser.Blind (ρ.operand records base)
  standalone : Parser.Blind ρ.standalone
  block : ∀ inner, Parser.Blind (ρ.block inner)
  item : Parser.Blind ρ.item

attribute [instance] Rules.Blind.ty Rules.Blind.castTy Rules.Blind.arg Rules.Blind.param
  Rules.Blind.pattern Rules.Blind.expr Rules.Blind.operand Rules.Blind.standalone Rules.Blind.block
  Rules.Blind.item

variable {ρ : Rules} [ρ.Blind]

instance : Blind ρ.whole := by
  unfold Rules.whole
  infer_instance

instance : Blind ρ.condition := by
  unfold Rules.condition
  infer_instance

namespace Grammar

/-! ## Plain paths -/

instance : Look.Blind pathWordAhead := by
  unfold pathWordAhead
  infer_instance

instance : Look.Blind pathAhead := by
  unfold pathAhead
  infer_instance

instance (n : Nat) : Blind (plainPathRest n) := by
  induction n with
  | zero =>
      unfold plainPathRest
      infer_instance
  | succ n ih =>
      unfold plainPathRest
      infer_instance

instance : Blind plainPath := by
  unfold plainPath
  infer_instance

/-! ## Tokens that are not taken apart -/

/-- What is between delimiters does not matter to places if it is used without them. -/
theorem blind_anyGroup_bind {α : Type} [Placed α] {f : Delimiter × List Token × Span → Parser α}
    (hf : ∀ x, Blind (f x))
    (hs : ∀ d ts s, Same (f (d, ts.map Token.erase, .nowhere)) (f (d, ts, s))) :
    Blind (anyGroup >>= f) where
  eq c := by
    have hfail : blur ((failExpected "delimiter" : Parser α) (blur c)) =
        blur ((failExpected "delimiter" : Parser α) c) := Blind.eq c
    simp only [bind_apply, anyGroup, get_apply, Cursor.rest_blur]
    cases c.rest with
    | nil => exact hfail
    | cons t rest =>
        cases t with
        | ident x s | lifetime x s | punct x j s | literal x s => exact hfail
        | group d content opening closing =>
            by_cases hd : d = .invisible
            · simp only [List.map_cons, Token.erase, hd, if_true]
              exact hfail
            · simp only [List.map_cons, Token.erase, hd, if_false, Token.eraseList_eq_map]
              have hcursor : blur (Cursor.mk (rest.map Token.erase) .nowhere .nowhere (blur c.leftOver)) =
                  blur (Cursor.mk rest c.close closing c.leftOver) := by simp [Cursor.blur_eq_iff]
              exact ((hs d content closing).eq _).trans ((hf (d, content, closing)).of_blur_eq hcursor)

instance : Look.Blind bangAhead := by
  unfold bangAhead
  infer_instance

instance : Blind macroArgs := by
  unfold macroArgs
  refine .andThen inferInstance fun bang => blind_anyGroup_bind (fun x => inferInstance) ?_
  intro d ts s
  simp only [List.map_map, Token.erase_comp_erase]
  infer_instance

instance (d : Delimiter) : Blind (anyContent d) := by
  have hclear : Blind (modify fun c => { c with rest := [] } : Parser Unit) :=
    ⟨fun c => congrArg Except.ok (Prod.ext rfl (Cursor.blur_eq_iff.2 ⟨rfl, Placed.blur_blur _⟩))⟩
  unfold anyContent
  infer_instance

/-! ## Attributes -/

instance : Blind (attributeValue ρ) := by
  unfold attributeValue
  refine .bind inferInstance (fun c => .andThen inferInstance fun alone => .andThen inferInstance ?_)
    fun c => .after fun alone => .after ?_
  · intro ended
    split <;> infer_instance
  · intro ended
    cases alone <;> cases ended <;> infer_instance

instance : Blind (attributeInput ρ) := by
  unfold attributeInput
  refine .andThen inferInstance fun b => ?_
  split
  · refine blind_anyGroup_bind (fun x => inferInstance) ?_
    intro d ts s
    simp only [List.map_map, Token.erase_comp_erase]
    infer_instance
  · infer_instance

instance : Blind attributePath := by
  unfold attributePath
  infer_instance

instance : Blind (attributeContent ρ) := by
  unfold attributeContent
  infer_instance

instance : Blind (oneAttribute ρ) := by
  unfold oneAttribute
  refine .bind inferInstance (fun ⟨(path, input, ts), span⟩ => inferInstance) ?_
  rintro ⟨⟨path, input, ts⟩, span⟩
  have hts : blur ts = ts := Placeless.blur_eq ts
  show Same (pure (Attribute.mk (blur path) (blur input) .nowhere (Token.op "#" ++ blur ts)))
    (pure (Attribute.mk path input span (Token.op "#" ++ ts)))
  rw [hts]
  infer_instance

instance : Blind (attributes ρ) := by
  unfold attributes
  infer_instance

theorem map_tokens_blur (as : List Attribute) :
    (blur as).map Attribute.tokens = as.map Attribute.tokens := by
  show (as.map blur).map Attribute.tokens = as.map Attribute.tokens
  rw [List.map_map]
  rfl

instance : Blind (attributeTokens ρ) := by
  unfold attributeTokens
  refine .bind inferInstance (fun as => inferInstance) fun as => ?_
  rw [map_tokens_blur]
  infer_instance

instance : Blind (innerAttribute ρ) := by
  unfold innerAttribute
  refine .andThen inferInstance fun sign => .andThen inferInstance fun bang => ?_
  refine .bind inferInstance (fun (path, input, ts) => inferInstance) ?_
  rintro ⟨path, input, ts⟩
  have hts : blur ts = ts := Placeless.blur_eq ts
  show Same (pure (sign ++ bang ++ blur ts)) (pure (sign ++ bang ++ ts))
  rw [hts]
  infer_instance

instance : Blind (innerAttributes ρ) := by
  unfold innerAttributes
  infer_instance

/-! ## Paths -/

instance (inExpr : Bool) : Look.Blind (angleAhead inExpr) := by
  unfold angleAhead
  infer_instance

instance : Blind (angleArgs ρ) := by
  unfold angleArgs
  infer_instance

instance (x : String) : Blind (segmentWith x ρ) := by
  unfold segmentWith
  infer_instance

instance (inExpr : Bool) : Blind (segment inExpr ρ) := by
  unfold segment
  infer_instance

instance : Look.Blind segmentAhead := by
  unfold segmentAhead
  infer_instance

instance (inExpr : Bool) : Blind (nextSegment inExpr ρ) := by
  unfold nextSegment
  infer_instance

instance (inExpr : Bool) : Blind (segments inExpr ρ) := by
  unfold segments
  infer_instance

instance (inExpr : Bool) : Blind (path inExpr ρ) := by
  unfold path
  infer_instance

instance (inExpr : Bool) : Blind (qualifiedPath inExpr ρ) := by
  unfold qualifiedPath
  infer_instance

instance (inExpr : Bool) : Blind (anyPath inExpr ρ) := by
  unfold anyPath
  infer_instance

/-! ## Bounds -/

instance : Blind (binder ρ) := by
  unfold binder
  infer_instance

instance : Blind (binder? ρ) := by
  unfold binder?
  infer_instance

instance (plus : Bool) : Blind (result ρ plus) := by
  unfold result
  infer_instance

instance : Blind captured := by
  unfold captured
  infer_instance

instance (n : Nat) : Blind (captureList n) := by
  induction n with
  | zero =>
      unfold captureList
      infer_instance
  | succ n ih =>
      unfold captureList
      infer_instance

instance : Blind captures := by
  unfold captures
  infer_instance

instance : Blind (callArgs ρ) := by
  unfold callArgs
  infer_instance

instance : Look.Blind callAhead := by
  unfold callAhead
  infer_instance

instance (allowed : Bool) : Blind (constMark allowed) := by
  unfold constMark
  infer_instance

instance : Blind (traitPath ρ) := by
  unfold traitPath
  infer_instance

instance (consts : Bool) : Blind (traitBound ρ consts) := by
  unfold traitBound
  refine .andThen inferInstance fun before => .andThen inferInstance fun marked => ?_
  refine .bind_located? inferInstance ?_ (fun sign span => ?_) fun sign span => ?_
  · infer_instance
  · dsimp only
    split
    all_goals
      refine .andThen inferInstance fun after => .andThen inferInstance fun p => ?_
      split <;> infer_instance
  · have hafter : ∀ p : Parser (Option (List Token)), Same (p >>= fun after => traitPath ρ >>= fun q =>
          match some (Located.mk sign .nowhere), before.or after with
          | some sign, some _ => fail .relaxedBinder sign.span
          | some sign, none => return (marked, sign.val ++ q)
          | none, lifetimes => return (marked, lifetimes.getD [] ++ q))
        (p >>= fun after => traitPath ρ >>= fun q =>
          match some (Located.mk sign span), before.or after with
          | some sign, some _ => fail .relaxedBinder sign.span
          | some sign, none => return (marked, sign.val ++ q)
          | none, lifetimes => return (marked, lifetimes.getD [] ++ q)) := by
      intro p
      refine .after fun after => .after fun q => ?_
      cases before.or after <;> infer_instance
    dsimp only [Option.isSome_some]
    split
    · exact hafter _
    · exact hafter _

instance (isTrait : Bool) {p : Parser (List Token)} [Blind p] : Blind (boundOf isTrait p) := by
  unfold boundOf
  infer_instance

instance (consts : Bool) : Blind (traitAsBound ρ consts) := by
  unfold traitAsBound
  infer_instance

instance (uses consts : Bool) : Blind (bound ρ uses consts) := by
  unfold bound
  infer_instance

instance (consts : Bool) : Look.Blind (boundAhead consts) := by
  unfold boundAhead
  infer_instance

instance {one : Parser Bound} [Blind one] (consts plus : Bool) (n : Nat) :
    Blind (boundsPlus consts plus one n) := by
  induction n with
  | zero =>
      unfold boundsPlus
      infer_instance
  | succ n ih =>
      unfold boundsPlus
      infer_instance

instance (plus : Bool) (start : Nat) : Blind (objectBounds ρ plus start) := by
  unfold objectBounds
  infer_instance

instance (plus : Bool) (m n : Nat) : Same (objectBounds ρ plus m) (objectBounds ρ plus n) := by
  unfold objectBounds
  infer_instance

instance (plus : Bool) (start : Nat) : Blind (anonymousBounds ρ plus start) := by
  unfold anonymousBounds
  infer_instance

instance (plus : Bool) (m n : Nat) : Same (anonymousBounds ρ plus m) (anonymousBounds ρ plus n) := by
  unfold anonymousBounds
  infer_instance

instance {done : Parser Bool} {one : Parser (List Token)} [Blind done] [Blind one] (n : Nat) :
    Blind (plusList done one n) := by
  induction n with
  | zero =>
      unfold plusList
      infer_instance
  | succ n ih =>
      unfold plusList
      infer_instance

instance {done : Parser Bool} [Blind done] : Blind (bounds ρ done) := by
  unfold bounds
  infer_instance

instance {done : Parser Bool} [Blind done] : Blind (lifetimeBounds done) := by
  unfold lifetimeBounds
  infer_instance

instance (n : Nat) : Blind (addedBounds ρ n) := by
  induction n with
  | zero =>
      unfold addedBounds
      infer_instance
  | succ n ih =>
      unfold addedBounds
      infer_instance

instance (n : Nat) : Blind (addedBoundsStrict ρ n) := by
  induction n with
  | zero =>
      unfold addedBoundsStrict
      infer_instance
  | succ n ih =>
      unfold addedBoundsStrict
      infer_instance

/-! ## Arguments -/

instance : Look.Blind constAhead := by
  unfold constAhead
  infer_instance

instance : Look.Blind angleEnd := by
  unfold angleEnd
  infer_instance

instance : Blind (constArg ρ) := by
  unfold constArg
  infer_instance

instance : Blind (argBinding ρ) := by
  unfold argBinding
  infer_instance

instance : Blind (argBounds ρ) := by
  unfold argBounds
  infer_instance

instance : Blind (arg ρ) := by
  unfold arg
  refine .andThen inferInstance fun _ => .ite inferInstance (.andThen inferInstance fun _ => ?_)
  refine .ite inferInstance (.andThen inferInstance fun t => ?_)
  split <;> infer_instance

/-! ## Function types -/

instance : Blind abi? := by
  unfold abi?
  infer_instance

instance : Look.Blind mutSelfAhead := by
  unfold mutSelfAhead
  infer_instance

instance (first : Bool) : Blind (fnTypeParam ρ first) := by
  unfold fnTypeParam
  infer_instance

instance : Blind fnTypeDots := by
  unfold fnTypeDots
  infer_instance

instance : Look.Blind fnTypeDotsAhead := by
  unfold fnTypeDotsAhead
  infer_instance

instance (first : Bool) (n : Nat) : Blind (fnTypeParams ρ first n) := by
  induction n generalizing first with
  | zero =>
      unfold fnTypeParams
      infer_instance
  | succ n ih =>
      unfold fnTypeParams
      infer_instance

instance : Blind (fnType ρ) := by
  unfold fnType
  infer_instance

/-! ## Types in parentheses -/

instance : Blind (inParens ρ) := by
  unfold inParens
  infer_instance

instance (plus : Bool) (content : InParens) : Blind (parenTypeFrom ρ plus content) := by
  cases content with
  | tuple types | object ts =>
      unfold parenTypeFrom
      infer_instance
  | relaxed ts =>
      unfold parenTypeFrom
      infer_instance
  | single t =>
      simp only [parenTypeFrom]
      split <;> infer_instance

instance (plus : Bool) : Blind (parenType ρ plus) := by
  unfold parenType
  infer_instance

/-! ## Other types -/

instance : Blind builtin := by
  unfold builtin
  infer_instance

instance : Look.Blind builtinAhead := by
  unfold builtinAhead
  infer_instance

instance (lifetimes : Option (List Token)) (plus : Bool) : Blind (pathType ρ lifetimes plus) := by
  unfold pathType
  refine .andThen inferInstance fun t => ?_
  split
  · cases lifetimes <;> infer_instance
  · infer_instance

instance (t : Ty) : Blind (pathOfSelf ρ t) := by
  unfold pathOfSelf
  infer_instance

theorem blind_of_withArgs? {t : Ty} {p : Parser Ty} (h : withArgs? ρ t = some p) : Blind p := by
  unfold withArgs? at h
  split at h
  · cases h
    infer_instance
  · cases h
    infer_instance
  · cases h

instance (args : Bool) : Blind (groupType ρ args) := by
  unfold groupType
  refine .andThen inferInstance fun t => .andThen inferInstance fun _ => .ite ?_ ?_
  · split <;> infer_instance
  · refine .andThen inferInstance fun _ => .ite ?_ inferInstance
    split
    · rename_i p hp
      have hblind := blind_of_withArgs? hp
      infer_instance
    · infer_instance

instance : Blind (bracketType ρ) := by
  unfold bracketType
  infer_instance

instance : Blind (pointerType ρ) := by
  unfold pointerType
  infer_instance

instance : Blind (referenceType ρ) := by
  unfold referenceType
  infer_instance

instance (c : Cursor) (plus : Bool) : Blind (dynType ρ c plus) := by
  unfold dynType
  infer_instance

instance (c : Cursor) (plus : Bool) : Same (dynType ρ (blur c) plus) (dynType ρ c plus) := by
  unfold dynType
  infer_instance

instance (plus : Bool) : Blind (implType ρ plus) := by
  unfold implType
  infer_instance

instance : Look.Blind fnAhead := by
  unfold fnAhead
  infer_instance

instance : Look.AllBlind forTargets := by
  unfold forTargets
  infer_instance

instance : Look.AllBlind typeStarts := by
  unfold typeStarts
  infer_instance

instance (c : Cursor) (lifetimes : Option (List Token)) (plus : Bool) :
    Blind (typeFrom ρ c lifetimes plus) := by
  unfold typeFrom
  infer_instance

instance (c : Cursor) (lifetimes : Option (List Token)) (plus : Bool) :
    Same (typeFrom ρ (blur c) lifetimes plus) (typeFrom ρ c lifetimes plus) := by
  unfold typeFrom
  infer_instance

instance (plus args : Bool) : Blind (type ρ plus args) := by
  unfold type
  infer_instance

/-! ## Generics -/

instance {bounds : Parser (List Token)} [Blind bounds] : Blind (paramBounds bounds) := by
  unfold paramBounds
  infer_instance

instance (attrs : List (List Token)) : Blind (lifetimeParam attrs) := by
  unfold lifetimeParam
  infer_instance

instance (attrs : List (List Token)) : Blind (typeParam ρ attrs) := by
  unfold typeParam
  infer_instance

instance (attrs : List (List Token)) : Blind (constParam ρ attrs) := by
  unfold constParam
  infer_instance

instance : Look.AllBlind paramStarts := by
  unfold paramStarts
  infer_instance

instance : Look.AllBlind boundParamStarts := by
  unfold boundParamStarts
  infer_instance

instance : Blind (genericParam ρ) := by
  unfold genericParam
  infer_instance

instance : Blind (boundParam ρ) := by
  unfold boundParam
  infer_instance

instance : Blind (genericParams ρ) := by
  unfold genericParams
  infer_instance

instance : Look.Blind paramsAhead := by
  unfold paramsAhead
  infer_instance

instance : Blind whereEnd := by
  unfold whereEnd
  infer_instance

instance : Blind whereLifetimeEnd := by
  unfold whereLifetimeEnd
  infer_instance

instance : Blind (predicate ρ) := by
  unfold predicate
  infer_instance

instance (n : Nat) : Blind (predicates ρ n) := by
  induction n with
  | zero =>
      unfold predicates
      infer_instance
  | succ n ih =>
      unfold predicates
      infer_instance

instance : Blind (whereClause ρ) := by
  unfold whereClause
  infer_instance

end Grammar

end RowDerive
