import RowDerive.Grammar.Depth
import RowDerive.Proofs.Depth.Expr

/-!
# Declarations at a greater depth

Signatures, members, declarations and statements are read by deeper rules as they are by the rules at
hand. So rules up to some depth agree with all deeper ones: `Grammar.rules_agree`.
-/

-- An instance for a long reader holds the types of all its parts.
set_option synthInstance.maxSize 1000000

namespace RowDerive

open RowDerive.Parser RowDerive.Grammar

variable {ρ σ : Rules} [ρ.Agrees σ]

/-! ## Methods -/

instance : Agrees (receiver ρ) (receiver σ) := by
  unfold receiver
  infer_instance

instance (attrs : List Token) : Agrees (patternParam ρ attrs) (patternParam σ attrs) := by
  unfold patternParam
  infer_instance

instance : Agrees (param ρ) (param σ) := by
  unfold param
  infer_instance

instance (before : List FnParam) (n : Nat) : Agrees (params ρ before n) (params σ before n) := by
  induction n generalizing before with
  | zero => exact inferInstanceAs (Agrees failTooDeep failTooDeep)
  | succ n ih =>
      unfold params
      refine .bind inferInstance fun _ => .ite inferInstance (.bind inferInstance fun p => ?_)
      cases p <;> infer_instance

instance (foreign : Bool) : Agrees (signatureHead ρ foreign) (signatureHead σ foreign) := by
  unfold signatureHead
  infer_instance

instance (foreign : Bool) : Agrees (signatureWith ρ foreign) (signatureWith σ foreign) := by
  unfold signatureWith
  infer_instance

instance : Agrees (signature ρ) (signature σ) := by
  unfold signature
  infer_instance

instance : Agrees (method ρ) (method σ) := by
  unfold method
  infer_instance

/-! ## Fields -/

instance : Agrees (locatedType ρ) (locatedType σ) := by
  unfold locatedType
  infer_instance

instance {p q : Parser (Listed Field)} [Agrees p q] : Agrees (namedField ρ p) (namedField σ q) := by
  unfold namedField
  infer_instance

instance (depth : Nat) : Agrees (namedFields ρ depth) (namedFields σ depth) := by
  induction depth with
  | zero => exact inferInstanceAs (Agrees failTooDeep failTooDeep)
  | succ depth ih =>
      unfold namedFields
      infer_instance

instance : Agrees (bracedFields ρ) (bracedFields σ) := by
  unfold bracedFields
  infer_instance

instance : Agrees (positionalField ρ) (positionalField σ) := by
  unfold positionalField
  infer_instance

instance : Agrees (positionalFields ρ) (positionalFields σ) := by
  unfold positionalFields
  infer_instance

instance : Agrees (positionalBody ρ) (positionalBody σ) := by
  unfold positionalBody
  infer_instance

instance : Agrees (recordBody ρ) (recordBody σ) := by
  unfold recordBody
  infer_instance

instance : Agrees (variant ρ) (variant σ) := by
  unfold variant
  infer_instance

instance : Agrees (variantsBody ρ) (variantsBody σ) := by
  unfold variantsBody
  infer_instance

instance : Agrees (unionBody ρ) (unionBody σ) := by
  unfold unionBody
  infer_instance

/-! ## Members -/

instance {p q : Parser (List Token)} [Agrees p q] : Agrees (bracedItems ρ p) (bracedItems σ q) := by
  unfold bracedItems
  infer_instance

instance (done : Look) : Agrees (boundsUntil ρ done) (boundsUntil σ done) := by
  unfold boundsUntil
  infer_instance

instance : Agrees (value? ρ) (value? σ) := by
  unfold value?
  infer_instance

instance : Agrees (constant ρ) (constant σ) := by
  unfold constant
  infer_instance

instance (place : WherePlace) : Agrees (namedType ρ place) (namedType σ place) := by
  unfold namedType
  infer_instance

instance : Agrees (traitFunction ρ) (traitFunction σ) := by
  unfold traitFunction
  infer_instance

instance : Agrees (traitConstant ρ) (traitConstant σ) := by
  unfold traitConstant
  infer_instance

instance : Agrees (traitAlias ρ) (traitAlias σ) := by
  unfold traitAlias
  infer_instance

instance : Agrees (traitItem ρ) (traitItem σ) := by
  unfold traitItem
  infer_instance

instance : Agrees (function ρ) (function σ) := by
  unfold function
  infer_instance

instance : Agrees (valuedConstant ρ) (valuedConstant σ) := by
  unfold valuedConstant
  infer_instance

instance : Agrees (implAlias ρ) (implAlias σ) := by
  unfold implAlias
  infer_instance

instance : Agrees (implItem ρ) (implItem σ) := by
  unfold implItem
  infer_instance

instance : Agrees (foreignFunction ρ) (foreignFunction σ) := by
  unfold foreignFunction
  infer_instance

instance : Agrees (foreignStatic ρ) (foreignStatic σ) := by
  unfold foreignStatic
  infer_instance

instance : Agrees (foreignAlias ρ) (foreignAlias σ) := by
  unfold foreignAlias
  infer_instance

instance : Agrees (foreignItem ρ) (foreignItem σ) := by
  unfold foreignItem
  infer_instance

/-! ## Declarations -/

instance : Agrees (foreignBlock ρ) (foreignBlock σ) := by
  unfold foreignBlock
  infer_instance

instance (start : Cursor) (vis : List Token) :
    Agrees (foreignDeclaration ρ start vis) (foreignDeclaration σ start vis) := by
  unfold foreignDeclaration
  infer_instance

instance : Agrees (moduleItem ρ) (moduleItem σ) := by
  unfold moduleItem
  infer_instance

instance : Agrees (static ρ) (static σ) := by
  unfold static
  infer_instance

instance : Agrees (aliasItem ρ) (aliasItem σ) := by
  unfold aliasItem
  infer_instance

instance (k : String) : Agrees (typeHead ρ k) (typeHead σ k) := by
  unfold typeHead
  infer_instance

instance : Agrees (typeItem ρ) (typeItem σ) := by
  unfold typeItem
  infer_instance

instance : Agrees (traitBody ρ) (traitBody σ) := by
  unfold traitBody
  infer_instance

instance : Agrees (traitAliasBody ρ) (traitAliasBody σ) := by
  unfold traitAliasBody
  infer_instance

instance : Agrees (plainTrait ρ) (plainTrait σ) := by
  unfold plainTrait
  infer_instance

instance : Agrees (markedTrait ρ) (markedTrait σ) := by
  unfold markedTrait
  infer_instance

instance : Agrees (implHead ρ) (implHead σ) := by
  unfold implHead
  infer_instance

instance : Agrees (implBlock ρ) (implBlock σ) := by
  unfold implBlock
  infer_instance

instance (start : Cursor) (vis : List Token) :
    Agrees (unsafeItem ρ start vis) (unsafeItem σ start vis) := by
  unfold unsafeItem
  infer_instance

instance (start : Cursor) (vis : List Token) : Agrees (itemFrom ρ start vis) (itemFrom σ start vis) := by
  unfold itemFrom
  infer_instance

instance (c : Cursor) (attrs : List Token) : Agrees (itemAfter ρ c attrs) (itemAfter σ c attrs) := by
  unfold itemAfter
  infer_instance

instance : Agrees (anyItem ρ) (anyItem σ) := by
  unfold anyItem
  infer_instance

/-! ## Statements -/

instance : Agrees (initialValue ρ) (initialValue σ) := by
  unfold initialValue
  infer_instance

instance (attrs : List Token) : Agrees (letStatement ρ attrs) (letStatement σ attrs) := by
  unfold letStatement
  infer_instance

instance (attrs : List Token) : Agrees (exprStatement ρ attrs) (exprStatement σ attrs) := by
  unfold exprStatement
  infer_instance

instance : Agrees (statement ρ) (statement σ) := by
  unfold statement
  infer_instance

instance (n : Nat) : Agrees (statements ρ n) (statements σ n) := by
  induction n with
  | zero => exact inferInstanceAs (Agrees failTooDeep failTooDeep)
  | succ n ih =>
      unfold statements
      infer_instance

instance (inner : Bool) : Agrees (block ρ inner) (block σ inner) := by
  unfold block
  infer_instance

/-! ## The knot -/

theorem Grammar.rules_agree {n m : Nat} (h : n ≤ m) : (rules n).Agrees (rules m) := by
  induction n generalizing m with
  | zero =>
      constructor <;> intros <;> exact inferInstanceAs (Agrees failTooDeep _)
  | succ n ih =>
      obtain ⟨m, rfl⟩ : ∃ k, m = k + 1 := ⟨m - 1, by omega⟩
      have hdeeper : (rules n).Agrees (rules m) := ih (by omega)
      exact
        { ty := fun plus => inferInstanceAs (Agrees (type (rules n) plus true) (type (rules m) plus true))
          castTy := inferInstanceAs (Agrees (type (rules n) false false) (type (rules m) false false))
          arg := inferInstanceAs (Agrees (arg (rules n)) (arg (rules m)))
          param := inferInstanceAs (Agrees (boundParam (rules n)) (boundParam (rules m)))
          pattern := inferInstanceAs (Agrees (pattern (rules n)) (pattern (rules m)))
          expr := fun records base =>
            inferInstanceAs (Agrees (expr (rules n) records base) (expr (rules m) records base))
          operand := fun records base =>
            inferInstanceAs (Agrees (operand (rules n) records base) (operand (rules m) records base))
          standalone := inferInstanceAs (Agrees (standalone (rules n)) (standalone (rules m)))
          block := fun inner =>
            inferInstanceAs (Agrees (block (rules n) inner) (block (rules m) inner))
          item := inferInstanceAs (Agrees (anyItem (rules n)) (anyItem (rules m))) }

/-- The rules for all that some tokens can hold agree with those for more tokens. -/
theorem Grammar.rulesFor_agree {ts us : List Token} (h : Token.sizeList ts ≤ Token.sizeList us) :
    (rulesFor ts).Agrees (rulesFor us) :=
  rules_agree (by omega)

end RowDerive
