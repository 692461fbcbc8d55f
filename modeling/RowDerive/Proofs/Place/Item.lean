import RowDerive.Grammar.Item
import RowDerive.Proofs.Place.Member

/-!
# Declarations and places

Declarations, statements and declared types are read without a look at places.
-/

-- An instance for a long reader holds the types of all its parts.
set_option synthInstance.maxSize 1000000

namespace RowDerive

open RowDerive.Parser RowDerive.Grammar

open Placed (blur)

instance : Placed CallAhead := ⟨id, fun _ => rfl⟩

instance : Placeless CallAhead := ⟨fun _ => rfl⟩

instance : Placed Item where
  blur i := ⟨blur i.attrs, i.vis, blur i.name, i.generics, blur i.shape⟩
  blur_blur i := by simp

instance {as as' : List Attribute} {x x' : Located String} {σ σ' : Shape} [has : Alike as as']
    [hx : Alike x x'] [hσ : Alike σ σ'] (vis : List Token) (g : Generics) :
    Alike (Item.mk as vis x g σ) ⟨as', vis, x', g, σ'⟩ where
  eq := by
    show Item.mk (blur as) vis (blur x) g (blur σ) = ⟨blur as', vis, blur x', g, blur σ'⟩
    rw [has.eq, hx.eq, hσ.eq]

namespace Grammar

variable {ρ : Rules} [ρ.Blind]

/-! ## Declarations -/

instance : Look.AllBlind importStarts := by
  unfold importStarts
  infer_instance

instance : Look.Blind importNameAhead := by
  unfold importNameAhead
  infer_instance

instance : Blind importName := by
  unfold importName
  infer_instance

instance (depth : Nat) (roots : Bool) : Blind (importTree depth roots) := by
  induction depth generalizing roots with
  | zero =>
      unfold importTree
      infer_instance
  | succ depth ih =>
      unfold importTree
      infer_instance

instance : Blind importItem := by
  unfold importItem
  infer_instance

instance : Blind importLibrary := by
  unfold importLibrary
  infer_instance

instance : Blind (foreignBlock ρ) := by
  unfold foreignBlock
  infer_instance

instance (start : Cursor) (vis : List Token) : Blind (foreignDeclaration ρ start vis) := by
  unfold foreignDeclaration
  refine .bind inferInstance (fun c => inferInstance) fun c => ?_
  simp only [Cursor.rest_blur, Look.Blind.eq]
  infer_instance

instance (start : Cursor) (vis : List Token) :
    Same (foreignDeclaration ρ (blur start) vis) (foreignDeclaration ρ start vis) := by
  unfold foreignDeclaration
  infer_instance

instance : Blind (moduleItem ρ) := by
  unfold moduleItem
  infer_instance

instance : Blind (static ρ) := by
  unfold static
  infer_instance

instance : Blind (aliasItem ρ) := by
  unfold aliasItem
  refine .andThen inferInstance fun x => ?_
  split <;> infer_instance

instance (k : String) : Blind (typeHead ρ k) := by
  unfold typeHead
  infer_instance

instance : Blind (typeItem ρ) := by
  unfold typeItem
  infer_instance

instance : Blind (traitBody ρ) := by
  unfold traitBody
  infer_instance

instance : Blind (traitAliasBody ρ) := by
  unfold traitAliasBody
  infer_instance

instance : Blind (plainTrait ρ) := by
  unfold plainTrait
  infer_instance

instance : Blind (markedTrait ρ) := by
  unfold markedTrait
  infer_instance

instance : Look.Blind constImplAhead := by
  unfold constImplAhead
  infer_instance

instance : Blind (implHead ρ) := by
  unfold implHead
  refine .bind_located? inferInstance inferInstance (fun a s => inferInstance) fun a s => ?_
  dsimp only [Option.elim_some]
  infer_instance

instance : Blind (implBlock ρ) := by
  unfold implBlock
  infer_instance

instance : Blind macroDeclaration := by
  unfold macroDeclaration
  infer_instance

instance : Look.Blind autoTraitAhead := by
  unfold autoTraitAhead
  infer_instance

instance : Look.AllBlind unsafeTargets := by
  unfold unsafeTargets
  infer_instance

instance (start : Cursor) (vis : List Token) : Blind (unsafeItem ρ start vis) := by
  unfold unsafeItem
  refine .bind inferInstance (fun c => inferInstance) fun c => ?_
  simp only [Cursor.rest_blur, Look.Blind.eq]
  infer_instance

instance (start : Cursor) (vis : List Token) :
    Same (unsafeItem ρ (blur start) vis) (unsafeItem ρ start vis) := by
  unfold unsafeItem
  infer_instance

instance : Look.Blind unionAhead := by
  unfold unionAhead
  infer_instance

instance : Look.Blind implAhead := by
  unfold implAhead
  infer_instance

instance (calls : Bool) : Look.AllBlind (itemStarts calls) := by
  unfold itemStarts
  infer_instance

instance (start : Cursor) (vis : List Token) : Blind (itemFrom ρ start vis) := by
  unfold itemFrom
  infer_instance

instance (start : Cursor) (vis : List Token) :
    Same (itemFrom ρ (blur start) vis) (itemFrom ρ start vis) := by
  unfold itemFrom
  infer_instance

instance (c : Cursor) (attrs : List Token) : Blind (itemAfter ρ c attrs) := by
  unfold itemAfter
  infer_instance

instance (c : Cursor) (attrs : List Token) :
    Same (itemAfter ρ (blur c) attrs) (itemAfter ρ c attrs) := by
  unfold itemAfter
  infer_instance

instance : Blind (anyItem ρ) := by
  unfold anyItem
  infer_instance

/-! ## Statements -/

instance : Blind callAhead? := by
  unfold callAhead?
  refine .andThen (.foresee ?_) fun found => inferInstance
  refine .andThen inferInstance fun _ => .bind inferInstance (fun c => inferInstance) fun c => ?_
  simp only [Cursor.rest_blur, Look.Blind.eq]
  infer_instance

instance (attrs : List Token) : Blind (callStatement attrs) := by
  unfold callStatement
  infer_instance

instance : Blind (initialValue ρ) := by
  unfold initialValue
  refine .andThen inferInstance fun eq => .bind inferInstance (fun e => inferInstance) fun e => ?_
  simp only [Expr.endsInBrace_blur, Expr.tokens_blur]
  infer_instance

instance (attrs : List Token) : Blind (letStatement ρ attrs) := by
  unfold letStatement
  infer_instance

instance : Look.Blind constExprAhead := by
  unfold constExprAhead
  infer_instance

instance : Look.Blind itemAhead := by
  unfold itemAhead
  infer_instance

instance (attrs : List Token) : Blind (exprStatement ρ attrs) := by
  unfold exprStatement
  refine .bind inferInstance (fun e => inferInstance) fun e => ?_
  simp only [Expr.needsSemicolon_blur, Expr.tokens_withAttrs_blur]
  infer_instance

instance : Blind (statement ρ) := by
  unfold statement
  infer_instance

instance (n : Nat) : Blind (statements ρ n) := by
  induction n with
  | zero =>
      unfold statements
      infer_instance
  | succ n ih =>
      unfold statements
      infer_instance

instance (inner : Bool) : Blind (block ρ inner) := by
  unfold block
  infer_instance

/-! ## Declared types -/

instance : Look.AllBlind kinds := by
  unfold kinds
  infer_instance

instance (kind : String) (span : Span) : Blind (shape ρ kind span) := by
  unfold shape
  infer_instance

instance (kind : String) (s s' : Span) : Same (shape ρ kind s) (shape ρ kind s') := by
  unfold shape
  infer_instance

instance : Blind (item ρ) := by
  unfold item
  infer_instance

/-! ## The knot -/

instance : noRules.Blind := by
  constructor <;> intros <;> exact inferInstanceAs (Blind failTooDeep)

instance (depth : Nat) : (rules depth).Blind := by
  induction depth with
  | zero => exact inferInstanceAs noRules.Blind
  | succ depth ih =>
      exact
        { ty := fun plus => inferInstanceAs (Blind (type (rules depth) plus true))
          castTy := inferInstanceAs (Blind (type (rules depth) false false))
          arg := inferInstanceAs (Blind (arg (rules depth)))
          param := inferInstanceAs (Blind (boundParam (rules depth)))
          pattern := inferInstanceAs (Blind (pattern (rules depth)))
          expr := fun records base => inferInstanceAs (Blind (expr (rules depth) records base))
          operand := fun records base => inferInstanceAs (Blind (operand (rules depth) records base))
          standalone := inferInstanceAs (Blind (standalone (rules depth)))
          block := fun inner => inferInstanceAs (Blind (block (rules depth) inner))
          item := inferInstanceAs (Blind (anyItem (rules depth))) }

instance (ts : List Token) : (rulesFor ts).Blind := inferInstanceAs (rules _).Blind

end Grammar

end RowDerive
