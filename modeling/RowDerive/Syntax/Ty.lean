import RowDerive.Parser.Basic

/-!
# Types

A type is a tree where the choice of a column's storage looks into it: groups, parentheses, paths,
references and slices. Paths with a qualified self and single bounds are told apart because more may be
added to them. Every other form is kept as its tokens, since it is only written out again. A type is
written in one way, however its operators were spaced in the source.
-/

namespace RowDerive

mutual

/-- A type as declared. -/
inductive Ty where
  /-- A type in an invisible group. -/
  | group (elem : Ty)
  /-- A type in parentheses. -/
  | paren (elem : Ty)
  /-- A path, from its root if `rooted`: the segments before the last, and the last. -/
  | path (rooted : Bool) (init : List Segment) (last : Segment)
  /-- A reference. -/
  | reference (lifetime : Option String) (mutable : Bool) (elem : Ty)
  | slice (elem : Ty)
  /-- A path with a qualified self: the tokens of `<T as Trait>`, the segments before the last, and the
  last. -/
  | qualified (self : List Token) (init : List Segment) (last : Segment)
  /-- One bound of an object without `dyn`, by its tokens; `enclosed` if parentheses are around it. -/
  | bound (enclosed : Bool) (tokens : List Token)
  /-- Any other type, by its tokens. -/
  | other (tokens : List Token)
deriving Repr

/-- A segment of a path. -/
inductive Segment where
  /-- A name without arguments. -/
  | bare (name : String)
  /-- A name with arguments in angle brackets, after `::` if `turbofish`. -/
  | generic (name : String) (turbofish : Bool) (args : List TyArg) (trailing : Bool)
deriving Repr

/-- An argument in angle brackets. -/
inductive TyArg where
  | type (t : Ty)
  | lifetime (name : String)
  /-- A constant, a binding or a bound, by its tokens. -/
  | other (tokens : List Token)
deriving Repr

end

mutual

def Ty.decEq (a b : Ty) : Decidable (a = b) :=
  match a, b with
  | .group x, .group y =>
    haveI := Ty.decEq x y
    decidable_of_iff (x = y) (by simp)
  | .paren x, .paren y =>
    haveI := Ty.decEq x y
    decidable_of_iff (x = y) (by simp)
  | .path r i l, .path s j m =>
    haveI := Segment.decEqList i j
    haveI := Segment.decEq l m
    decidable_of_iff (r = s ∧ i = j ∧ l = m) (by simp)
  | .reference l m x, .reference k n y =>
    haveI := Ty.decEq x y
    decidable_of_iff (l = k ∧ m = n ∧ x = y) (by simp)
  | .slice x, .slice y =>
    haveI := Ty.decEq x y
    decidable_of_iff (x = y) (by simp)
  | .qualified x i l, .qualified y j m =>
    haveI := Segment.decEqList i j
    haveI := Segment.decEq l m
    decidable_of_iff (x = y ∧ i = j ∧ l = m) (by simp)
  | .bound d x, .bound e y => decidable_of_iff (d = e ∧ x = y) (by simp)
  | .other x, .other y => decidable_of_iff (x = y) (by simp)
  | .group .., .paren .. | .group .., .path .. | .group .., .reference .. | .group .., .slice ..
  | .group .., .qualified .. | .group .., .bound .. | .group .., .other ..
  | .paren .., .group .. | .paren .., .path .. | .paren .., .reference .. | .paren .., .slice ..
  | .paren .., .qualified .. | .paren .., .bound .. | .paren .., .other .. | .path .., .group ..
  | .path .., .paren .. | .path .., .reference .. | .path .., .slice ..
  | .path .., .qualified .. | .path .., .bound .. | .path .., .other ..
  | .reference .., .group .. | .reference .., .paren .. | .reference .., .path ..
  | .reference .., .slice .. | .reference .., .qualified .. | .reference .., .bound ..
  | .reference .., .other .. | .slice .., .group .. | .slice .., .paren .. | .slice .., .path ..
  | .slice .., .reference .. | .slice .., .qualified .. | .slice .., .bound ..
  | .slice .., .other .. | .qualified .., .group .. | .qualified .., .paren ..
  | .qualified .., .path .. | .qualified .., .reference .. | .qualified .., .slice ..
  | .qualified .., .bound .. | .qualified .., .other .. | .bound .., .group ..
  | .bound .., .paren .. | .bound .., .path .. | .bound .., .reference .. | .bound .., .slice ..
  | .bound .., .qualified .. | .bound .., .other .. | .other .., .group ..
  | .other .., .paren .. | .other .., .path .. | .other .., .reference .. | .other .., .slice ..
  | .other .., .qualified .. | .other .., .bound .. =>
    isFalse (by intro h; cases h)
termination_by structural a

def Segment.decEq (a b : Segment) : Decidable (a = b) :=
  match a, b with
  | .bare x, .bare y => decidable_of_iff (x = y) (by simp)
  | .generic x s xs t, .generic y u ys v =>
    haveI := TyArg.decEqList xs ys
    decidable_of_iff (x = y ∧ s = u ∧ xs = ys ∧ t = v) (by simp)
  | .bare .., .generic .. | .generic .., .bare .. => isFalse (by intro h; cases h)
termination_by structural a

def Segment.decEqList (xs ys : List Segment) : Decidable (xs = ys) :=
  match xs, ys with
  | [], [] => isTrue rfl
  | x :: xs, y :: ys =>
    haveI := Segment.decEq x y
    haveI := Segment.decEqList xs ys
    decidable_of_iff (x = y ∧ xs = ys) (by simp)
  | [], _ :: _ | _ :: _, [] => isFalse (by intro h; cases h)
termination_by structural xs

def TyArg.decEq (a b : TyArg) : Decidable (a = b) :=
  match a, b with
  | .type x, .type y =>
    haveI := Ty.decEq x y
    decidable_of_iff (x = y) (by simp)
  | .lifetime x, .lifetime y => decidable_of_iff (x = y) (by simp)
  | .other x, .other y => decidable_of_iff (x = y) (by simp)
  | .type .., .lifetime .. | .type .., .other .. | .lifetime .., .type .. | .lifetime .., .other ..
  | .other .., .type .. | .other .., .lifetime .. => isFalse (by intro h; cases h)
termination_by structural a

def TyArg.decEqList (xs ys : List TyArg) : Decidable (xs = ys) :=
  match xs, ys with
  | [], [] => isTrue rfl
  | x :: xs, y :: ys =>
    haveI := TyArg.decEq x y
    haveI := TyArg.decEqList xs ys
    decidable_of_iff (x = y ∧ xs = ys) (by simp)
  | [], _ :: _ | _ :: _, [] => isFalse (by intro h; cases h)
termination_by structural xs

end

instance : DecidableEq Ty := Ty.decEq
instance : DecidableEq Segment := Segment.decEq
instance : DecidableEq TyArg := TyArg.decEq

/-- A path by itself. -/
structure Path where
  rooted : Bool
  init : List Segment
  last : Segment
deriving DecidableEq, Repr

namespace Segment

def name : Segment → String
  | bare x | generic x _ _ _ => x

def isBare : Segment → Bool
  | bare _ => true
  | generic .. => false

/-- Whether there is an argument. -/
def hasArgs : Segment → Bool
  | bare _ => false
  | generic _ _ args _ => !args.isEmpty

end Segment

namespace Ty

/-- The name of a path that is one segment without arguments and no root. -/
def bare? : Ty → Option String
  | path false [] (.bare x) => some x
  | _ => none

@[simp] theorem bare?_eq_some_iff (t : Ty) (x : String) :
    t.bare? = some x ↔ t = path false [] (.bare x) := by
  constructor
  · intro h
    unfold bare? at h
    split at h
    · simp_all
    · simp at h
  · rintro rfl
    rfl

/-- The type inside all outer groups and parentheses. -/
def core : Ty → Ty
  | group t => t.core
  | paren t => t.core
  | t => t

@[simp] theorem core_group (t : Ty) : (group t).core = t.core := rfl
@[simp] theorem core_paren (t : Ty) : (paren t).core = t.core := rfl

end Ty

namespace Parser.Listed

/-- Moves the items with `p` to the front, each part in its order. An item that was followed by a
separator still is, and one that now stands inside the list is too. -/
def bring {α : Type} (p : α → Bool) (l : Listed α) : Listed α :=
  let front := l.items.filter p
  let back := l.items.filter (!p ·)
  ⟨front ++ back, l.trailing || (l.items.getLast?.any p && !back.isEmpty)⟩

end Parser.Listed

/-! ## Types as tokens -/

mutual

/-- The tokens of a type. -/
def Ty.tokens : Ty → List Token
  | .group t => [Token.enclose .invisible t.tokens]
  | .paren t => [Token.parens t.tokens]
  | .path rooted init last =>
    (if rooted then Token.op "::" else []) ++ Segment.initTokens init ++ last.tokens
  | .reference lifetime mutable t =>
    Token.op "&" ++ (lifetime.map Token.tick).toList ++
      (if mutable then [Token.word "mut"] else []) ++ t.tokens
  | .slice t => [Token.enclose .bracket t.tokens]
  | .qualified self init last =>
    self ++ Token.op "::" ++ Segment.initTokens init ++ last.tokens
  | .bound enclosed ts => if enclosed then [Token.parens ts] else ts
  | .other ts => ts

/-- The tokens of a segment. Lifetimes come first among its arguments. -/
def Segment.tokens : Segment → List Token
  | .bare x => [Token.word x]
  | .generic x turbofish args trailing =>
    let listed : Parser.Listed (Bool × List Token) := ⟨TyArg.listTokens args, trailing⟩
    [Token.word x] ++ (if turbofish then Token.op "::" else []) ++ Token.op "<" ++
      (listed.bring Prod.fst).tokens (Token.op ",") Prod.snd ++ Token.op ">"

/-- The tokens of the segments before another one. -/
def Segment.initTokens : List Segment → List Token
  | [] => []
  | s :: ss => s.tokens ++ Token.op "::" ++ Segment.initTokens ss

/-- The tokens of an argument, with whether it is a lifetime. -/
def TyArg.tokens : TyArg → Bool × List Token
  | .type t => (false, t.tokens)
  | .lifetime x => (true, [Token.tick x])
  | .other ts => (false, ts)

/-- The tokens of each argument, with whether it is a lifetime. -/
def TyArg.listTokens : List TyArg → List (Bool × List Token)
  | [] => []
  | a :: as => a.tokens :: TyArg.listTokens as

end

namespace Path

def toTy (p : Path) : Ty := .path p.rooted p.init p.last

def tokens (p : Path) : List Token := p.toTy.tokens

/-- Whether no segment has arguments. -/
def isPlain (p : Path) : Bool := p.init.all Segment.isBare && p.last.isBare

/-- The path with more segments after it. -/
def append (p : Path) : List Segment → Path
  | [] => p
  | s :: ss => Path.append ⟨p.rooted, p.init ++ [p.last], s⟩ ss

end Path

namespace Ty

/-- A path with more segments after it; no other type can be continued. -/
def append : Ty → List Segment → Ty
  | t, [] => t
  | path rooted init last, s :: ss => append (path rooted (init ++ [last]) s) ss
  | qualified self init last, s :: ss => append (qualified self (init ++ [last]) s) ss
  | t, _ :: _ => t

/-- Whether the type is a path without a qualified self and without arguments. -/
def isPlainPath : Ty → Bool
  | path rooted init last => Path.isPlain ⟨rooted, init, last⟩
  | _ => false

/-- The text of a type as the tokens show it. -/
def text (t : Ty) : String := Token.listText t.tokens

/-- The tokens of a result after its arrow, if there is one. -/
def resultTokens : Option Ty → List Token
  | none => []
  | some t => Token.op "->" ++ t.tokens

end Ty

end RowDerive
