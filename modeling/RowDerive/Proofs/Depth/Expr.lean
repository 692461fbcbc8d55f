import RowDerive.Grammar.Expr
import RowDerive.Proofs.Depth.Type

/-!
# Expressions at a greater depth

Patterns, operands and expressions are read by deeper rules as they are by the rules at hand.
-/

-- An instance for a long reader holds the types of all its parts.
set_option synthInstance.maxSize 1000000

namespace RowDerive

open RowDerive.Parser RowDerive.Grammar

variable {ρ σ : Rules} [ρ.Agrees σ]

/-! ## Patterns -/

instance (n : Nat) : Agrees (moreAlternatives ρ n) (moreAlternatives σ n) := by
  induction n with
  | zero => exact inferInstanceAs (Agrees failTooDeep failTooDeep)
  | succ n ih =>
      unfold moreAlternatives
      infer_instance

instance : Agrees (alternatives ρ) (alternatives σ) := by
  unfold alternatives
  infer_instance

instance {p q : Parser Pattern} [Agrees p q] (d : Delimiter) : Agrees (patterns d p) (patterns d q) := by
  unfold patterns
  infer_instance

instance : Agrees (rangeBound ρ) (rangeBound σ) := by
  unfold rangeBound
  infer_instance

instance (start : List Token) : Agrees (rangeFrom ρ start) (rangeFrom σ start) := by
  unfold rangeFrom
  infer_instance

instance : Agrees (rangeTo ρ) (rangeTo σ) := by
  unfold rangeTo
  infer_instance

instance : Agrees (valuePattern ρ) (valuePattern σ) := by
  unfold valuePattern
  infer_instance

instance : Agrees (fieldPattern ρ) (fieldPattern σ) := by
  unfold fieldPattern
  infer_instance

instance (n : Nat) : Agrees (fieldPatterns ρ n) (fieldPatterns σ n) := by
  induction n with
  | zero => exact inferInstanceAs (Agrees failTooDeep failTooDeep)
  | succ n ih =>
      unfold fieldPatterns
      infer_instance

instance : Agrees (pathPattern ρ) (pathPattern σ) := by
  unfold pathPattern
  infer_instance

instance : Agrees (namePattern ρ) (namePattern σ) := by
  unfold namePattern
  infer_instance

instance : Agrees (referencePattern ρ) (referencePattern σ) := by
  unfold referencePattern
  infer_instance

instance : Agrees (elementPattern ρ) (elementPattern σ) := by
  unfold elementPattern
  infer_instance

instance : Agrees (pattern ρ) (pattern σ) := by
  unfold pattern
  infer_instance

/-! ## Branches and loops -/

instance (n : Nat) : Agrees (ifExpr ρ n) (ifExpr σ n) := by
  induction n with
  | zero => exact inferInstanceAs (Agrees failTooDeep failTooDeep)
  | succ n ih =>
      unfold ifExpr
      infer_instance

instance : Agrees (arm ρ) (arm σ) := by
  unfold arm
  infer_instance

instance : Agrees (matchExpr ρ) (matchExpr σ) := by
  unfold matchExpr
  infer_instance

instance : Agrees (loopExpr ρ) (loopExpr σ) := by
  unfold loopExpr
  infer_instance

instance : Agrees (labelled ρ) (labelled σ) := by
  unfold labelled
  infer_instance

instance (k : String) (inner : Bool) : Agrees (keywordBlock ρ k inner) (keywordBlock σ k inner) := by
  unfold keywordBlock
  infer_instance

instance : Agrees (asyncBlock ρ) (asyncBlock σ) := by
  unfold asyncBlock
  infer_instance

/-! ## Operands -/

instance (d : Delimiter) : Agrees (exprs ρ d) (exprs σ d) := by
  unfold exprs
  infer_instance

instance : Agrees (arrayContent ρ) (arrayContent σ) := by
  unfold arrayContent
  infer_instance

instance : Agrees (array ρ) (array σ) := by
  unfold array
  infer_instance

instance : Agrees (fieldValue ρ) (fieldValue σ) := by
  unfold fieldValue
  infer_instance

instance (n : Nat) : Agrees (fieldValues ρ n) (fieldValues σ n) := by
  induction n with
  | zero => exact inferInstanceAs (Agrees failTooDeep failTooDeep)
  | succ n ih =>
      unfold fieldValues
      infer_instance

instance (records : Bool) (t : Ty) : Agrees (pathExprFrom ρ records t) (pathExprFrom σ records t) := by
  unfold pathExprFrom
  infer_instance

instance (records : Bool) : Agrees (groupExpr ρ records) (groupExpr σ records) := by
  unfold groupExpr
  refine .bind inferInstance fun ⟨⟨form, ts⟩, left⟩ => ?_
  cases form <;> infer_instance

instance : Agrees (closureParam ρ) (closureParam σ) := by
  unfold closureParam
  infer_instance

instance : Agrees (closureHead ρ) (closureHead σ) := by
  unfold closureHead
  infer_instance

instance (records : Bool) : Agrees (closure ρ records) (closure σ records) := by
  unfold Grammar.closure
  infer_instance

instance (k : String) : Agrees (jump ρ k) (jump σ k) := by
  unfold jump
  infer_instance

instance (records : Bool) : Agrees (breakExpr ρ records) (breakExpr σ records) := by
  unfold breakExpr
  infer_instance

instance (records : Bool) (start : List Token) :
    Agrees (range ρ records start) (range σ records start) := by
  unfold range
  infer_instance

instance (records : Bool) : Agrees (letExpr ρ records) (letExpr σ records) := by
  unfold letExpr
  infer_instance

instance (records : Bool) : Agrees (keywordOperand ρ records) (keywordOperand σ records) := by
  unfold keywordOperand
  infer_instance

instance (records : Bool) : Agrees (atom ρ records) (atom σ records) := by
  unfold atom
  infer_instance

/-! ## Expressions -/

instance : Agrees (access ρ) (access σ) := by
  unfold access
  refine .bind inferInstance fun _ => .ite inferInstance (.bind inferInstance fun m => ?_)
  cases m <;> infer_instance

instance : Agrees (pointed ρ) (pointed σ) := by
  unfold pointed
  infer_instance

instance (n : Nat) (e : Expr) : Agrees (trailers ρ n e) (trailers σ n e) := by
  induction n generalizing e with
  | zero => exact inferInstanceAs (Agrees failTooDeep failTooDeep)
  | succ n ih =>
      unfold trailers
      infer_instance

instance (e : Expr) : Agrees (trailed ρ e) (trailed σ e) := by
  unfold trailed
  infer_instance

instance : Agrees (exprAttributes ρ) (exprAttributes σ) := by
  unfold exprAttributes
  infer_instance

instance (c : Cursor) (attrs : List Token) (records : Bool) :
    Agrees (attributed ρ c attrs records) (attributed σ c attrs records) := by
  unfold attributed
  infer_instance

instance (records : Bool) (n : Nat) : Agrees (signed ρ records n) (signed σ records n) := by
  induction n with
  | zero => exact inferInstanceAs (Agrees failTooDeep failTooDeep)
  | succ n ih =>
      unfold signed
      infer_instance

instance : Agrees (castTail ρ) (castTail σ) := by
  unfold castTail
  infer_instance

instance (records : Bool) (base : Precedence) (n : Nat) (e : Expr) :
    Agrees (operations ρ records base n e) (operations σ records base n e) := by
  induction n generalizing e with
  | zero => exact inferInstanceAs (Agrees failTooDeep failTooDeep)
  | succ n ih =>
      unfold operations
      refine .ite inferInstance (.bind inferInstance ?_)
      rintro (_ | ⟨s, p⟩) <;> infer_instance

instance (records : Bool) (base : Precedence) (n : Nat) (e : Expr) :
    Agrees (tighter ρ records base n e) (tighter σ records base n e) := by
  induction n generalizing e with
  | zero => exact inferInstanceAs (Agrees failTooDeep failTooDeep)
  | succ n ih =>
      unfold tighter
      infer_instance

instance (records : Bool) (base : Precedence) : Agrees (expr ρ records base) (expr σ records base) := by
  unfold expr
  infer_instance

instance (records : Bool) (base : Precedence) :
    Agrees (operand ρ records base) (operand σ records base) := by
  unfold operand
  infer_instance

instance : Agrees (boundary ρ) (boundary σ) := by
  unfold boundary
  infer_instance

instance : Agrees (standalone ρ) (standalone σ) := by
  unfold standalone
  infer_instance

end RowDerive
