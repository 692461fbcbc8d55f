/-!
# Tokens

A source is a list of tokens, in which a delimited part is one token: its group. A group can be
invisible, as around a fragment that a macro has put in. Every token knows its place; a token that no
source holds is nowhere. Two tokens are the same up to place if they are equal once placed nowhere.
-/

namespace RowDerive

/-- A range of byte offsets into a source. -/
structure Span where
  start : Nat
  stop : Nat
deriving DecidableEq, Repr, Inhabited

/-- The place of what no source holds. -/
def Span.nowhere : Span := ⟨0, 0⟩

/-- From the start of the first to the stop of the second. -/
def Span.cover (a b : Span) : Span := ⟨a.start, b.stop⟩

/-- Something and its place. -/
structure Located (α : Type) where
  val : α
  span : Span
deriving DecidableEq, Repr

/-- What encloses a group. -/
inductive Delimiter where
  | paren
  | bracket
  | brace
  | invisible
deriving DecidableEq, Repr

/-- A token, or a delimited group of them. -/
inductive Token where
  /-- An identifier or keyword, with the mark of a raw one. -/
  | ident (name : String) (span : Span)
  /-- A lifetime, by its name without the mark. -/
  | lifetime (name : String) (span : Span)
  /-- One character of an operator; `joint` if the next character is part of an operator too. -/
  | punct (char : Char) (joint : Bool) (span : Span)
  /-- A literal as written. -/
  | literal (text : String) (span : Span)
  | group (delimiter : Delimiter) (content : List Token) (opening closing : Span)
deriving Repr, Inhabited

namespace Token

mutual

def decEq (a b : Token) : Decidable (a = b) :=
  match a, b with
  | .ident x s, .ident y t => decidable_of_iff (x = y ∧ s = t) (by simp)
  | .lifetime x s, .lifetime y t => decidable_of_iff (x = y ∧ s = t) (by simp)
  | .punct c i s, .punct d j t => decidable_of_iff (c = d ∧ i = j ∧ s = t) (by simp)
  | .literal x s, .literal y t => decidable_of_iff (x = y ∧ s = t) (by simp)
  | .group d xs o c, .group e ys p k =>
    haveI := decEqList xs ys
    decidable_of_iff (d = e ∧ xs = ys ∧ o = p ∧ c = k) (by simp)
  | .ident .., .lifetime .. | .ident .., .punct .. | .ident .., .literal .. | .ident .., .group ..
  | .lifetime .., .ident .. | .lifetime .., .punct .. | .lifetime .., .literal ..
  | .lifetime .., .group .. | .punct .., .ident .. | .punct .., .lifetime ..
  | .punct .., .literal .. | .punct .., .group .. | .literal .., .ident ..
  | .literal .., .lifetime .. | .literal .., .punct .. | .literal .., .group ..
  | .group .., .ident .. | .group .., .lifetime .. | .group .., .punct ..
  | .group .., .literal .. => isFalse (by intro h; cases h)

def decEqList (xs ys : List Token) : Decidable (xs = ys) :=
  match xs, ys with
  | [], [] => isTrue rfl
  | x :: xs, y :: ys =>
    haveI := decEq x y
    haveI := decEqList xs ys
    decidable_of_iff (x = y ∧ xs = ys) (by simp)
  | [], _ :: _ | _ :: _, [] => isFalse (by intro h; cases h)

end

instance : DecidableEq Token := decEq

/-- From the first character of the token to its last. -/
def span : Token → Span
  | ident _ s | lifetime _ s | punct _ _ s | literal _ s => s
  | group _ _ o c => o.cover c

/-- The place of the token as something that does not belong here: of a lifetime its mark alone. -/
def extent : Token → Span
  | ident _ s | punct _ _ s | literal _ s => s
  | lifetime _ s => ⟨s.start, s.start + 1⟩
  | group _ _ o c => o.cover c

/-- The place where a reader stops at this token: of a group its opening delimiter. -/
def front : Token → Span
  | ident _ s | punct _ _ s | literal _ s => s
  | lifetime _ s => ⟨s.start, s.start + 1⟩
  | group _ _ o _ => o

mutual

/-- The token, nowhere. -/
def erase : Token → Token
  | ident x _ => ident x .nowhere
  | lifetime x _ => lifetime x .nowhere
  | punct c j _ => punct c j .nowhere
  | literal x _ => literal x .nowhere
  | group d ts _ _ => group d (eraseList ts) .nowhere .nowhere

/-- The tokens, nowhere. -/
def eraseList : List Token → List Token
  | [] => []
  | t :: ts => t.erase :: eraseList ts

end

@[simp] theorem eraseList_eq_map (ts : List Token) : eraseList ts = ts.map erase := by
  induction ts with
  | nil => rfl
  | cons t ts ih => simp [eraseList, ih]

mutual

/-- The number of tokens, a group counting itself and its content. -/
def size : Token → Nat
  | ident .. | lifetime .. | punct .. | literal .. => 1
  | group _ ts _ _ => 1 + sizeList ts

/-- The number of tokens in a list. -/
def sizeList : List Token → Nat
  | [] => 0
  | t :: ts => t.size + sizeList ts

end

theorem size_pos (t : Token) : 0 < t.size := by
  cases t <;> rw [size] <;> omega

@[simp] theorem sizeList_append (xs ys : List Token) :
    sizeList (xs ++ ys) = sizeList xs + sizeList ys := by
  induction xs with
  | nil => simp [sizeList]
  | cons x xs ih => simp [sizeList, ih, Nat.add_assoc]

/-! ## Tokens of no source -/

/-- The identifier or keyword `s`. -/
def word (s : String) : Token := ident s .nowhere

/-- The lifetime of the name `s`. -/
def tick (s : String) : Token := lifetime s .nowhere

/-- A literal. -/
def lit (s : String) : Token := literal s .nowhere

/-- The characters of an operator: all but the last are joint. -/
def opChars : List Char → List Token
  | [] => []
  | [c] => [punct c false .nowhere]
  | c :: cs => punct c true .nowhere :: opChars cs

/-- The operator `s`. -/
def op (s : String) : List Token := opChars s.toList

/-- A group. -/
def enclose (d : Delimiter) (ts : List Token) : Token := group d ts .nowhere .nowhere

/-- `ts` between parentheses. -/
def parens (ts : List Token) : Token := enclose .paren ts

/-- The lists of `tss`, parted by `sep`. -/
def sepBy (sep : List Token) : List (List Token) → List Token
  | [] => []
  | [ts] => ts
  | ts :: tss => ts ++ sep ++ sepBy sep tss

end Token

end RowDerive
