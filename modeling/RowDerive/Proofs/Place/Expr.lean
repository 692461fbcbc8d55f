import RowDerive.Grammar.Expr
import RowDerive.Proofs.Place.Type

/-!
# Expressions and places

Patterns, operands and expressions are read without a look at places. What an expression or a pattern is
keeps the place of the dots of a range, which nothing but a report uses.
-/

-- An instance for a long reader holds the types of all its parts.
set_option synthInstance.maxSize 1000000

namespace RowDerive

open RowDerive.Parser RowDerive.Grammar

open Placed (blur)

/-! ## Things read -/

instance : Placed Member := ⟨id, fun _ => rfl⟩
instance : Placed Precedence := ⟨id, fun _ => rfl⟩

instance : Placeless Member := ⟨fun _ => rfl⟩
instance : Placeless Precedence := ⟨fun _ => rfl⟩

instance (s s' : Span) : Alike (PatternForm.openRange s) (.openRange s') := ⟨rfl⟩

instance {form form' : PatternForm} [h : Alike form form'] (ts : List Token) :
    Alike (Pattern.mk form ts) ⟨form', ts⟩ :=
  ⟨congrArg (Pattern.mk · ts) h.eq⟩

instance (s s' : Span) : Alike (ExprForm.range s) (.range s') := ⟨rfl⟩

instance {form form' : ExprForm} [h : Alike form form'] (ts : List Token) :
    Alike (Expr.mk form ts) ⟨form', ts⟩ :=
  ⟨congrArg (Expr.mk · ts) h.eq⟩

namespace Expr

variable (e : Expr)

@[simp] theorem tokens_blur : (blur e).tokens = e.tokens := rfl

theorem form_blur_eq_path_iff {t : Ty} : (blur e).form = .path t ↔ e.form = .path t := by
  obtain ⟨form, ts⟩ := e
  cases form <;> simp [blur]

@[simp] theorem isRange_blur : (blur e).isRange = e.isRange := by
  obtain ⟨form, ts⟩ := e
  cases form <;> rfl

@[simp] theorem isComparison_blur : (blur e).isComparison = e.isComparison := by
  obtain ⟨form, ts⟩ := e
  cases form <;> rfl

@[simp] theorem isBlock_blur : (blur e).isBlock = e.isBlock := by
  obtain ⟨form, ts⟩ := e
  cases form <;> rfl

@[simp] theorem goesOn_blur : (blur e).goesOn = e.goesOn := by
  obtain ⟨form, ts⟩ := e
  cases form <;> rfl

@[simp] theorem needsSemicolon_blur : (blur e).needsSemicolon = e.needsSemicolon := by
  obtain ⟨form, ts⟩ := e
  cases form <;> rfl

@[simp] theorem joined_blur (compares : Bool) (ts : List Token) :
    (blur e).joined compares ts = e.joined compares ts := by
  obtain ⟨form, us⟩ := e
  cases form <;> rfl

@[simp] theorem inGroup_blur : (blur e).inGroup = e.inGroup := by
  obtain ⟨form, ts⟩ := e
  cases form <;> rfl

@[simp] theorem endsInBrace_blur : (blur e).endsInBrace = e.endsInBrace := by
  obtain ⟨form, ts⟩ := e
  cases form <;> rfl

@[simp] theorem tokens_withAttrs_blur (attrs : List Token) :
    ((blur e).withAttrs attrs).tokens = (e.withAttrs attrs).tokens := by
  obtain ⟨form, ts⟩ := e
  cases form <;> rfl

instance (attrs : List Token) : Alike ((blur e).withAttrs attrs) (e.withAttrs attrs) := by
  obtain ⟨form, ts⟩ := e
  cases form <;> exact ⟨rfl⟩

end Expr

theorem Pattern.tokens_withAttrs_blur (p : Pattern) (attrs : List Token) :
    ((blur p).withAttrs attrs).tokens = (p.withAttrs attrs).tokens := by
  obtain ⟨form, ts⟩ := p
  cases form <;> rfl

/-- The tokens of a list do not depend on places if those of its items do not. -/
theorem tokens_blur {α : Type} [Placed α] {f : α → List Token} (hf : ∀ a, f (blur a) = f a)
    (sep : List Token) (l : Listed α) : (blur l).tokens sep f = l.tokens sep f := by
  have hmap : (blur l).items.map f = l.items.map f := by
    show (l.items.map blur).map f = l.items.map f
    rw [List.map_map]
    exact List.map_congr_left fun a _ => hf a
  rw [Listed.tokens, Listed.tokens, hmap]
  rfl

namespace Grammar

variable {ρ : Rules} [ρ.Blind]

/-! ## Members -/

instance : Look.Blind integerAhead := by
  unfold integerAhead
  infer_instance

instance : Look.Blind decimalAhead := by
  unfold decimalAhead
  infer_instance

instance : Blind number := by
  have htake := blind_take? (f := fun | .literal x _ => some x | _ => none) fun t => by cases t <;> rfl
  unfold number
  infer_instance

instance : Blind member := by
  unfold member
  refine .andThen inferInstance fun _ => .ite inferInstance ?_
  refine .andThen inferInstance fun _ => .ite (.bind_located inferInstance ?_ ?_) inferInstance
  · rintro ⟨sign, x⟩ span
    dsimp only
    split <;> infer_instance
  · rintro ⟨sign, x⟩ span
    dsimp only
    split <;> infer_instance

/-! ## Patterns -/

instance : Look.Blind barAhead := by
  unfold barAhead
  infer_instance

instance (n : Nat) : Blind (moreAlternatives ρ n) := by
  induction n with
  | zero =>
      unfold moreAlternatives
      infer_instance
  | succ n ih =>
      unfold moreAlternatives
      infer_instance

instance : Blind (alternatives ρ) := by
  unfold alternatives
  infer_instance

instance {one : Parser Pattern} [Blind one] (d : Delimiter) : Blind (patterns d one) := by
  unfold patterns
  refine .bind inferInstance (fun ps => inferInstance) fun ps => ?_
  rw [tokens_blur fun _ => rfl]
  infer_instance

instance : Look.AllBlind rangeBoundStarts := by
  unfold rangeBoundStarts
  infer_instance

instance : Blind (rangeBound ρ) := by
  unfold rangeBound
  infer_instance

instance : Blind rangeDots := by
  unfold rangeDots
  infer_instance

instance (start : List Token) : Blind (rangeFrom ρ start) := by
  unfold rangeFrom
  exact .bind_located inferInstance (fun (isOpen, ts) span => inferInstance)
    fun (isOpen, ts) span => inferInstance

instance : Blind (rangeTo ρ) := by
  unfold rangeTo
  exact .bind_located inferInstance (fun (isOpen, ts) span => inferInstance)
    fun (isOpen, ts) span => inferInstance

instance : Blind (valuePattern ρ) := by
  unfold valuePattern
  infer_instance

instance : Blind (fieldPattern ρ) := by
  unfold fieldPattern
  infer_instance

instance (n : Nat) : Blind (fieldPatterns ρ n) := by
  induction n with
  | zero =>
      unfold fieldPatterns
      infer_instance
  | succ n ih =>
      unfold fieldPatterns
      infer_instance

instance : Blind (pathPattern ρ) := by
  unfold pathPattern
  infer_instance

instance : Blind (namePattern ρ) := by
  unfold namePattern
  infer_instance

instance : Blind (referencePattern ρ) := by
  unfold referencePattern
  infer_instance

instance : Blind (elementPattern ρ) := by
  unfold elementPattern
  refine .bind inferInstance (fun p => ?_) fun p => ?_
  · split <;> infer_instance
  · obtain ⟨form, ts⟩ := p
    cases form with
    | openRange dots => exact inferInstanceAs (Same (fail .openRange .nowhere) (fail .openRange dots))
    | rest | asWritten | other => infer_instance

instance : Look.Blind pathPatternAhead := by
  unfold pathPatternAhead
  infer_instance

instance : Look.AllBlind patternStarts := by
  unfold patternStarts
  infer_instance

instance : Blind (pattern ρ) := by
  unfold pattern
  infer_instance

/-! ## Branches and loops -/

instance (n : Nat) : Blind (ifExpr ρ n) := by
  induction n with
  | zero =>
      unfold ifExpr
      infer_instance
  | succ n ih =>
      unfold ifExpr
      infer_instance

instance : Blind (arm ρ) := by
  unfold arm
  refine .andThen inferInstance fun attrs => .bind inferInstance (fun p => ?_) fun p => inferInstance
  refine .andThen inferInstance fun guard => .andThen inferInstance fun arrow => ?_
  refine .bind inferInstance (fun e => inferInstance) fun e => ?_
  simp only [Expr.isBlock_blur]
  infer_instance

instance : Blind (matchExpr ρ) := by
  unfold matchExpr
  infer_instance

instance : Look.Blind loopAhead := by
  unfold loopAhead
  infer_instance

instance : Blind (loopExpr ρ) := by
  unfold loopExpr
  infer_instance

instance : Blind (labelled ρ) := by
  unfold labelled
  infer_instance

instance (k : String) (inner : Bool) : Blind (keywordBlock ρ k inner) := by
  unfold keywordBlock
  infer_instance

instance : Blind (asyncBlock ρ) := by
  unfold asyncBlock
  infer_instance

/-! ## Operands -/

instance (d : Delimiter) : Blind (exprs ρ d) := by
  unfold exprs
  infer_instance

instance : Blind (arrayContent ρ) := by
  unfold arrayContent
  infer_instance

instance : Blind (array ρ) := by
  unfold array
  infer_instance

instance : Blind (fieldValue ρ) := by
  unfold fieldValue
  infer_instance

instance (n : Nat) : Blind (fieldValues ρ n) := by
  induction n with
  | zero =>
      unfold fieldValues
      infer_instance
  | succ n ih =>
      unfold fieldValues
      infer_instance

instance (records : Bool) (t : Ty) : Blind (pathExprFrom ρ records t) := by
  unfold pathExprFrom
  infer_instance

instance (records : Bool) : Blind (groupExpr ρ records) := by
  unfold groupExpr
  refine .bind inferInstance (fun (e, left) => ?_) fun (e, left) => ?_
  · dsimp only
    split
    · refine .andThen inferInstance fun ss => .bind inferInstance (fun e' => inferInstance) fun e' => ?_
      simp only [Expr.form_blur_eq_path_iff, pure_bind]
      refine .after fun _ => ?_
      split <;> infer_instance
    · infer_instance
  · have hnote : ∀ e : Expr, Same (note (blur left) >>= fun _ => pure e)
        (note left >>= fun _ => pure e) := fun e => inferInstance
    obtain ⟨form, ts⟩ := e
    cases form with
    | path t => exact .after fun ss => .after fun e' => hnote _
    | range dots => exact hnote (Expr.mk (.range dots) ts).inGroup
    | block => exact hnote (Expr.mk .block ts).inGroup
    | call braced => exact hnote (Expr.mk (.call braced) ts).inGroup
    | operation compares asWritten => exact hnote (Expr.mk (.operation compares asWritten) ts).inGroup
    | grouped block => exact hnote (Expr.mk (.grouped block) ts).inGroup
    | asWritten => exact hnote (Expr.mk .asWritten ts).inGroup
    | other => exact hnote (Expr.mk .other ts).inGroup

instance : Blind (closureParam ρ) := by
  unfold closureParam
  refine .andThen inferInstance fun attrs => .bind inferInstance (fun p => inferInstance) fun p => ?_
  simp only [Pattern.tokens_withAttrs_blur]
  infer_instance

instance : Blind (closureHead ρ) := by
  unfold closureHead
  infer_instance

instance (records : Bool) : Blind (closure ρ records) := by
  unfold closure
  infer_instance

instance : Look.Blind closureAhead := by
  unfold closureAhead
  infer_instance

instance : Look.Blind valueAhead := by
  unfold valueAhead
  infer_instance

instance (k : String) : Blind (jump ρ k) := by
  unfold jump
  infer_instance

instance (records : Bool) : Blind (breakExpr ρ records) := by
  unfold breakExpr
  infer_instance

instance : Blind limits := by
  unfold limits
  infer_instance

instance (records : Bool) : Look.Blind (rangeStops records) := by
  unfold rangeStops
  infer_instance

instance (records : Bool) (start : List Token) : Blind (range ρ records start) := by
  unfold range
  infer_instance

instance (records : Bool) : Blind (letExpr ρ records) := by
  unfold letExpr
  infer_instance

instance : Look.Blind pathExprAhead := by
  unfold pathExprAhead
  infer_instance

instance : Look.Blind asyncBlockAhead := by
  unfold asyncBlockAhead
  infer_instance

instance (records : Bool) : Blind (keywordOperand ρ records) := by
  unfold keywordOperand
  infer_instance

instance (records : Bool) : Blind (atom ρ records) := by
  unfold atom
  infer_instance

/-! ## Expressions -/

instance : Blind fieldIndices := by
  unfold fieldIndices
  refine .bind_located inferInstance ?_ ?_
  · rintro ⟨sign, x⟩ span
    dsimp only
    split <;> infer_instance
  · rintro ⟨sign, x⟩ span
    dsimp only
    split <;> infer_instance

instance : Blind (access ρ) := by
  unfold access
  refine .andThen inferInstance fun _ => .ite inferInstance (.andThen inferInstance fun m => ?_)
  cases m <;> infer_instance

instance : Blind (pointed ρ) := by
  unfold pointed
  infer_instance

instance (n : Nat) (e : Expr) : Blind (trailers ρ n e) := by
  induction n generalizing e with
  | zero =>
      unfold trailers
      infer_instance
  | succ n ih =>
      unfold trailers
      infer_instance

instance (n : Nat) (e : Expr) : Same (trailers ρ n (blur e)) (trailers ρ n e) := by
  induction n generalizing e with
  | zero =>
      unfold trailers
      infer_instance
  | succ n ih =>
      unfold trailers
      simp only [Expr.isRange_blur, Expr.tokens_blur]
      infer_instance

instance (e : Expr) : Blind (trailed ρ e) := by
  unfold trailed
  infer_instance

instance (e : Expr) : Same (trailed ρ (blur e)) (trailed ρ e) := by
  unfold trailed
  infer_instance

instance : Blind (exprAttributes ρ) := by
  unfold exprAttributes
  refine .andThen inferInstance fun n => .bind inferInstance (fun as => inferInstance) fun as => ?_
  rw [List.flatMap_def, List.flatMap_def, map_tokens_blur]
  infer_instance

instance (c : Cursor) (attrs : List Token) (records : Bool) : Blind (attributed ρ c attrs records) := by
  unfold attributed
  rw [← bind_assoc]
  refine .bind inferInstance (fun e => ?_) fun e => ?_
  · split <;> infer_instance
  · obtain ⟨form, ts⟩ := e
    cases form with
    | range dots =>
        exact inferInstanceAs (Same
          (if attrs.isEmpty then pure (Expr.mk (.range .nowhere) ts)
            else fail .attributedRange .nowhere)
          (if attrs.isEmpty then pure (Expr.mk (.range dots) ts) else fail .attributedRange dots))
    | block | call braced | operation compares asWritten | path t | grouped block | asWritten | other =>
        infer_instance

instance (c : Cursor) (attrs : List Token) (records : Bool) :
    Same (attributed ρ (blur c) attrs records) (attributed ρ c attrs records) := by
  unfold attributed
  simp only [takenSince_blur]
  infer_instance

instance : Blind referenceSign := by
  unfold referenceSign
  infer_instance

instance (records : Bool) (n : Nat) : Blind (signed ρ records n) := by
  induction n with
  | zero =>
      unfold signed
      infer_instance
  | succ n ih =>
      unfold signed
      infer_instance

instance : Blind operatorAhead? := by
  unfold operatorAhead?
  refine .bind inferInstance (fun c => inferInstance) fun c => ?_
  simp only [Cursor.rest_blur, Look.Blind.eq]
  infer_instance

instance : Look.Blind assignAhead := by
  unfold assignAhead
  infer_instance

instance : Blind precedenceAhead := by
  unfold precedenceAhead
  refine .andThen inferInstance ?_
  rintro (_ | ⟨s, p⟩) <;> infer_instance

theorem castFollower?_map_erase (ts : List Token) :
    castFollower? (ts.map Token.erase) = castFollower? ts := by
  simp only [castFollower?, Look.Blind.eq]

instance : Blind (castTail ρ) := by
  unfold castTail
  refine .andThen inferInstance fun as => .andThen inferInstance fun t => ?_
  refine .bind inferInstance (fun c => ?_) fun c => ?_
  · split <;> infer_instance
  · rw [Cursor.rest_blur, castFollower?_map_erase]
    infer_instance

instance (records : Bool) (base : Precedence) (n : Nat) {e e' : Expr} [h : Alike e e'] :
    Same (operations ρ records base n e) (operations ρ records base n e') := by
  refine .of_alike (fun e => ?_) h
  cases n with
  | zero =>
      unfold operations
      infer_instance
  | succ n =>
      unfold operations
      simp only [Expr.isRange_blur, Expr.isComparison_blur, Expr.joined_blur, Expr.tokens_blur]
      split
      · infer_instance
      · refine .after ?_
        rintro (_ | ⟨s, p⟩) <;> infer_instance

instance (records : Bool) (base : Precedence) (n : Nat) (e : Expr) :
    Blind (operations ρ records base n e) := by
  induction n generalizing e with
  | zero =>
      unfold operations
      infer_instance
  | succ n ih =>
      unfold operations
      refine .ite inferInstance (.andThen inferInstance ?_)
      rintro (_ | ⟨s, p⟩) <;> infer_instance

instance (records : Bool) (base : Precedence) : Blind (expr ρ records base) := by
  unfold expr
  infer_instance

/-- Each of the two needs the other, for fewer operators. -/
theorem blind_tighter (records : Bool) (base : Precedence) (n : Nat) :
    (∀ e, Blind (tighter ρ records base n e)) ∧
      ∀ e, Same (tighter ρ records base n (blur e)) (tighter ρ records base n e) := by
  induction n with
  | zero =>
      unfold tighter
      exact ⟨inferInstance, inferInstance⟩
  | succ n ih =>
      obtain ⟨hblind, hsame⟩ := ih
      unfold tighter
      exact ⟨inferInstance, inferInstance⟩

instance (records : Bool) (base : Precedence) (n : Nat) (e : Expr) :
    Blind (tighter ρ records base n e) :=
  (blind_tighter records base n).1 e

instance (records : Bool) (base : Precedence) (n : Nat) (e : Expr) :
    Same (tighter ρ records base n (blur e)) (tighter ρ records base n e) :=
  (blind_tighter records base n).2 e

instance (records : Bool) (base : Precedence) : Blind (operand ρ records base) := by
  unfold operand
  infer_instance

instance : Blind (boundary ρ) := by
  unfold boundary
  refine .andThen inferInstance fun _ => .ite ?_ inferInstance
  refine .bind inferInstance (fun e => inferInstance) fun e => ?_
  rw [Expr.goesOn_blur]
  infer_instance

instance : Blind (standalone ρ) := by
  unfold standalone
  refine .andThen inferInstance fun attrs => .bind inferInstance (fun e => inferInstance) fun e => ?_
  rw [Expr.goesOn_blur]
  infer_instance

end Grammar

end RowDerive
