import RowDerive.Grammar.Member
import RowDerive.Proofs.Place.Expr

/-!
# Members and places

Signatures, fields and what stands between braces are read without a look at places.
-/

-- An instance for a long reader holds the types of all its parts.
set_option synthInstance.maxSize 1000000

namespace RowDerive

open RowDerive.Parser RowDerive.Grammar

open Placed (blur)

/-! ## Things read -/

instance : Placed FnParam := ⟨id, fun _ => rfl⟩
instance : Placed Signature := ⟨id, fun _ => rfl⟩
instance : Placed Method := ⟨id, fun _ => rfl⟩
instance : Placed Name := ⟨id, fun _ => rfl⟩
instance : Placed ConstantRead := ⟨id, fun _ => rfl⟩
instance : Placed AliasRead := ⟨id, fun _ => rfl⟩

instance : Placeless FnParam := ⟨fun _ => rfl⟩
instance : Placeless Signature := ⟨fun _ => rfl⟩
instance : Placeless Method := ⟨fun _ => rfl⟩
instance : Placeless Name := ⟨fun _ => rfl⟩
instance : Placeless ConstantRead := ⟨fun _ => rfl⟩
instance : Placeless AliasRead := ⟨fun _ => rfl⟩

instance : Placed ParamRead where
  blur
    | .receiver ts _ => .receiver ts .nowhere
    | .typed ts => .typed ts
    | .variadic ts => .variadic ts
  blur_blur p := by cases p <;> rfl

theorem ParamRead.blur_receiver (ts : List Token) (self : Span) :
    blur (ParamRead.receiver ts self) = .receiver ts .nowhere := rfl

instance (ts : List Token) (s s' : Span) : Alike (ParamRead.receiver ts s) (.receiver ts s') := ⟨rfl⟩

instance : Placed Field where
  blur f := ⟨blur f.attrs, f.vis, blur f.name, blur f.ty⟩
  blur_blur f := by simp

instance {as as' : List Attribute} {x x' : Located Name} {t t' : Located Ty} [has : Alike as as']
    [hx : Alike x x'] [ht : Alike t t'] (vis : List Token) :
    Alike (Field.mk as vis x t) ⟨as', vis, x', t'⟩ where
  eq := by
    show Field.mk (blur as) vis (blur x) (blur t) = ⟨blur as', vis, blur x', blur t'⟩
    rw [has.eq, hx.eq, ht.eq]

@[simp] theorem Field.tokens_blur (f : Field) : (blur f).tokens = f.tokens := by
  rw [Field.tokens, Field.tokens, List.flatMap_def, List.flatMap_def]
  show ((blur f.attrs).map Attribute.tokens).flatten ++ _ ++ _ ++ _ ++ _ = _
  rw [map_tokens_blur]
  rfl

instance : Placed Shape where
  blur
    | .named fields => .named (blur fields)
    | .positional _ => .positional .nowhere
    | .unit => .unit
    | .noRecord _ => .noRecord .nowhere
  blur_blur σ := by cases σ <;> simp

instance {fs fs' : List Field} [h : Alike fs fs'] : Alike (Shape.named fs) (.named fs') :=
  ⟨congrArg Shape.named h.eq⟩

instance (s s' : Span) : Alike (Shape.positional s) (.positional s') := ⟨rfl⟩

instance (s s' : Span) : Alike (Shape.noRecord s) (.noRecord s') := ⟨rfl⟩

instance : Placed RecordBody where
  blur b := ⟨b.predicates, blur b.shape, b.tokens⟩
  blur_blur b := by simp

instance (b : RecordBody) : Alike (blur b).shape b.shape := ⟨Placed.blur_blur b.shape⟩

instance {σ σ' : Shape} {ts ts' : List Token} [hσ : Alike σ σ'] [hts : Alike ts ts']
    (preds : Option (List Token)) : Alike (RecordBody.mk preds σ ts) ⟨preds, σ', ts'⟩ where
  eq := by
    obtain rfl : ts = ts' := by simpa only [Placeless.blur_eq] using hts.eq
    exact congrArg (RecordBody.mk preds · ts) hσ.eq

namespace Grammar

variable {ρ : Rules} [ρ.Blind]

/-! ## Methods -/

instance {p : Look} [Look.Blind p] : Look.Blind (inParensAhead p) where
  eq ts := by
    rw [inParensAhead, inParensAhead, Token.reveal_map_erase]
    cases Token.reveal ts with
    | nil => rfl
    | cons t ts =>
        cases t with
        | group d content opening closing =>
            cases d with
            | paren =>
                simp only [List.map_cons, Token.erase, Token.eraseList_eq_map]
                exact Look.Blind.eq content
            | bracket | brace | invisible => rfl
        | ident x s | lifetime x s | punct x j s | literal x s => rfl

instance : Look.Blind scopeWord := by
  unfold scopeWord
  infer_instance

instance : Blind visibilityScope := by
  unfold visibilityScope
  infer_instance

instance : Blind visibility where
  eq c := by
    have hwords : Blind (do
        if ← peek (Look.keyword "pub") then
          let pub ← keyword "pub"
          return pub :: (← visibilityScope)
        else return []) := inferInstance
    have hc := hwords.eq c
    obtain ⟨rest, close, last, left⟩ := c
    cases rest with
    | nil => exact hc
    | cons t rest =>
        cases t with
        | group d content opening closing =>
            cases d with
            | paren | bracket | brace => exact hc
            | invisible =>
                cases content with
                | cons t ts => exact hc
                | nil =>
                    refine congrArg Except.ok (Prod.ext rfl (Cursor.blur_eq_iff.2 ⟨?_, ?_⟩))
                    · simp
                    · simp
        | ident x s | lifetime x s | punct x j s | literal x s => exact hc

instance : Blind (receiver ρ) := by
  unfold receiver
  infer_instance

instance (attrs : List Token) : Blind (patternParam ρ attrs) := by
  unfold patternParam
  infer_instance

instance : Blind (param ρ) := by
  unfold param
  refine .andThen inferInstance fun attrs => .andThen inferInstance fun _ => .ite inferInstance ?_
  exact .bind_located? inferInstance inferInstance (fun a s => inferInstance) fun a s => inferInstance

instance (before : List FnParam) (n : Nat) : Blind (params ρ before n) := by
  induction n generalizing before with
  | zero =>
      unfold params
      infer_instance
  | succ n ih =>
      unfold params
      refine .andThen inferInstance fun _ => .ite inferInstance ?_
      refine .bind inferInstance (fun p => ?_) fun p => ?_
      · cases p <;> infer_instance
      · cases p with
        | receiver ts self =>
            rw [ParamRead.blur_receiver]
            infer_instance
        | typed ts | variadic ts => infer_instance

instance (s : String) : Blind (flag s) := by
  unfold flag
  infer_instance

instance (foreign : Bool) : Blind (signatureHead ρ foreign) := by
  unfold signatureHead
  infer_instance

instance (foreign : Bool) : Blind (signatureWith ρ foreign) := by
  unfold signatureWith
  refine .bind inferInstance ?_ ?_
  · rintro ⟨⟨⟨isSafe, sig⟩, left⟩, span⟩
    exact .bind_located inferInstance (fun preds s => inferInstance) fun preds s => inferInstance
  · rintro ⟨⟨⟨isSafe, sig⟩, left⟩, span⟩
    refine .after fun preds => ?_
    have hnote : Same (note (blur left)) (note left) := inferInstance
    refine hnote.bind (fun _ => inferInstance) (fun _ => inferInstance) fun _ => ?_
    exact inferInstanceAs (Same
      (pure (Located.mk (isSafe, sig.withPredicates preds.val) _))
      (pure (Located.mk (isSafe, sig.withPredicates preds.val) _)))

instance : Blind (signature ρ) := by
  unfold signature
  infer_instance

instance (foreign : Bool) : Blind (signatureAhead foreign) := by
  unfold signatureAhead
  infer_instance

instance : Blind (method ρ) := by
  unfold method
  infer_instance

instance : Blind (methodList ρ) := by
  unfold methodList
  infer_instance

instance : Blind (implementationHead ρ) := by
  unfold implementationHead
  infer_instance

instance : Blind (implementation ρ) := by
  unfold implementation
  infer_instance

/-! ## Fields -/

instance : Blind (locatedType ρ) := by
  unfold locatedType
  infer_instance

instance : Blind fieldIdent := by
  have hname : ∀ x, Blind (match Name.ofText? x with
      | some x => pure x
      | none => failExpected "identifier" : Parser Name) := fun x => by split <;> infer_instance
  unfold fieldIdent
  infer_instance

instance : Look.Blind namelessAhead := by
  unfold namelessAhead
  infer_instance

instance {inner : Parser (Listed Field)} [Blind inner] : Blind (namedField ρ inner) := by
  unfold namedField
  infer_instance

instance (depth : Nat) : Blind (namedFields ρ depth) := by
  induction depth with
  | zero =>
      unfold namedFields
      infer_instance
  | succ depth ih =>
      unfold namedFields
      infer_instance

instance : Blind (bracedFields ρ) := by
  unfold bracedFields
  infer_instance

instance : Blind (positionalField ρ) := by
  unfold positionalField
  infer_instance

instance : Blind (positionalFields ρ) := by
  unfold positionalFields
  infer_instance

instance : Blind (positionalBody ρ) := by
  unfold positionalBody
  infer_instance

instance (fields : Listed Field) : Alike (bracedTokens (blur fields)) (bracedTokens fields) where
  eq := by rw [bracedTokens, bracedTokens, tokens_blur Field.tokens_blur]

instance : Blind (recordBody ρ) := by
  unfold recordBody
  infer_instance

instance : Blind (variant ρ) := by
  unfold variant
  infer_instance

instance : Blind (variantsBody ρ) := by
  unfold variantsBody
  infer_instance

instance : Blind (unionBody ρ) := by
  unfold unionBody
  infer_instance

/-! ## Members -/

instance (c : Cursor) (attrs : List Token) (read : Written) : Blind (written c attrs read) := by
  cases read with
  | some ts => exact inferInstanceAs (Blind (pure (attrs ++ ts)))
  | none => exact inferInstanceAs (Blind (takenSince c))

instance (c : Cursor) (attrs : List Token) (read : Written) :
    Same (written (blur c) attrs read) (written c attrs read) := by
  cases read with
  | some ts => exact inferInstanceAs (Same (pure (attrs ++ ts)) (pure (attrs ++ ts)))
  | none => exact inferInstanceAs (Same (takenSince (blur c)) (takenSince c))

instance (foreign : Bool) : Blind (functionAhead foreign) := by
  unfold functionAhead
  infer_instance

instance {one : Parser (List Token)} [Blind one] : Blind (bracedItems ρ one) := by
  unfold bracedItems
  infer_instance

instance {done : Look} [Look.Blind done] : Blind (boundsUntil ρ done) := by
  unfold boundsUntil
  infer_instance

instance : Blind (value? ρ) := by
  unfold value?
  infer_instance

instance : Look.AllBlind callStarts := by
  unfold callStarts
  infer_instance

instance : Look.Blind macroAhead := by
  unfold macroAhead
  infer_instance

instance (named : Bool) : Blind (macroItem named) := by
  unfold macroItem
  refine .andThen inferInstance fun p => .andThen inferInstance fun bang => ?_
  refine .andThen inferInstance fun x => blind_anyGroup_bind (fun x => inferInstance) ?_
  intro d ts s
  simp only [List.map_map, Token.erase_comp_erase]
  infer_instance

instance : Look.AllBlind constantNames := by
  unfold constantNames
  infer_instance

instance : Blind (constant ρ) := by
  unfold constant
  infer_instance

instance (place : WherePlace) : Blind (namedType ρ place) := by
  unfold namedType
  infer_instance

instance : Blind (traitFunction ρ) := by
  unfold traitFunction
  infer_instance

instance : Look.AllBlind functionMarks := by
  unfold functionMarks
  infer_instance

instance : Blind (traitConstant ρ) := by
  unfold traitConstant
  infer_instance

instance : Blind (traitAlias ρ) := by
  unfold traitAlias
  infer_instance

instance : Blind (traitItem ρ) := by
  unfold traitItem
  infer_instance

instance : Blind (function ρ) := by
  unfold function
  infer_instance

instance : Blind (valuedConstant ρ) := by
  unfold valuedConstant
  infer_instance

instance : Blind (implAlias ρ) := by
  unfold implAlias
  refine .andThen inferInstance fun x => ?_
  split <;> infer_instance

instance : Blind (implItem ρ) := by
  unfold implItem
  infer_instance

instance : Blind (foreignFunction ρ) := by
  unfold foreignFunction
  infer_instance

instance : Look.Blind foreignStaticAhead := by
  unfold foreignStaticAhead
  infer_instance

instance : Blind (foreignStatic ρ) := by
  unfold foreignStatic
  infer_instance

instance : Blind (foreignAlias ρ) := by
  unfold foreignAlias
  infer_instance

instance : Blind (foreignItem ρ) := by
  unfold foreignItem
  infer_instance

end Grammar

end RowDerive
