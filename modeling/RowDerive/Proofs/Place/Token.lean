import RowDerive.Parser.Basic
import Mathlib.Data.List.Basic

/-!
# Tokens without their places

A look at the tokens ahead sees what they are and not where they stand. This is said of each by erasing
the places: a look is `Blind` if it sees the same in tokens that are nowhere.
-/

namespace RowDerive

open RowDerive.Parser

namespace Token

mutual

@[simp] theorem erase_erase (t : Token) : t.erase.erase = t.erase := by
  cases t with
  | group d ts o c => simp only [erase, eraseList_erase]
  | ident x s | lifetime x s | punct x j s | literal x s => rfl

theorem eraseList_erase (ts : List Token) : eraseList (eraseList ts) = eraseList ts := by
  cases ts with
  | nil => rfl
  | cons t ts => rw [eraseList, eraseList, erase_erase, eraseList_erase]

end

@[simp] theorem erase_comp_erase : erase ∘ erase = erase := funext erase_erase

mutual

@[simp] theorem size_erase (t : Token) : t.erase.size = t.size := by
  cases t with
  | group d ts o c => rw [erase, size, size, sizeList_eraseList]
  | ident x s | lifetime x s | punct x j s | literal x s => rfl

theorem sizeList_eraseList (ts : List Token) : sizeList (eraseList ts) = sizeList ts := by
  cases ts with
  | nil => rfl
  | cons t ts => rw [eraseList, sizeList, sizeList, size_erase, sizeList_eraseList]

end

@[simp] theorem sizeList_map_erase (ts : List Token) : sizeList (ts.map erase) = sizeList ts := by
  rw [← eraseList_eq_map, sizeList_eraseList]

/-! ## Invisible groups -/

mutual

theorem shown?_erase (t : Token) :
    shown? t.erase = (shown? t).map fun x => (x.1.erase, x.2.map erase) := by
  cases t with
  | group d ts o c =>
      cases d with
      | invisible => rw [erase, shown?, shown?, eraseList_eq_map, firstShown?_map_erase]
      | paren | bracket | brace => rfl
  | ident x s | lifetime x s | punct x j s | literal x s => rfl

theorem firstShown?_map_erase (ts : List Token) :
    firstShown? (ts.map erase) = (firstShown? ts).map fun x => (x.1.erase, x.2.map erase) := by
  cases ts with
  | nil => rfl
  | cons t ts =>
      rw [List.map_cons, firstShown?, firstShown?, shown?_erase]
      cases shown? t with
      | none => exact firstShown?_map_erase ts
      | some x => simp

end

@[simp] theorem reveal_map_erase (ts : List Token) :
    reveal (ts.map erase) = (reveal ts).map erase := by
  rw [reveal, reveal, firstShown?_map_erase]
  cases firstShown? ts with
  | none => rfl
  | some x => rfl

mutual

theorem leftOver?_erase (d : Delimiter) (t : Token) :
    (leftOver? d t.erase).map Located.val = (leftOver? d t).map Located.val := by
  cases t with
  | group e ts o c =>
      cases e with
      | invisible => rw [erase, leftOver?, leftOver?, eraseList_eq_map, firstLeftOver?_map_erase]
      | paren | bracket | brace => rfl
  | ident x s | lifetime x s | punct x j s | literal x s => rfl

theorem firstLeftOver?_map_erase (d : Delimiter) (ts : List Token) :
    (firstLeftOver? d (ts.map erase)).map Located.val = (firstLeftOver? d ts).map Located.val := by
  cases ts with
  | nil => rfl
  | cons t ts =>
      rw [List.map_cons, firstLeftOver?, firstLeftOver?, Option.map_or, Option.map_or,
        leftOver?_erase, firstLeftOver?_map_erase]

end

mutual

theorem firstOf_erase (n : Nat) (t : Token) : firstOf n t.erase = (firstOf n t).map erase := by
  cases t with
  | group d ts o c =>
      rw [erase, firstOf, firstOf, sizeList_eraseList, eraseList_eq_map, listFirst_map_erase]
      split
      · rfl
      · rw [List.map_singleton, erase, eraseList_eq_map]
  | ident x s | lifetime x s | punct x j s | literal x s => rfl

@[simp] theorem listFirst_map_erase (n : Nat) (ts : List Token) :
    listFirst n (ts.map erase) = (listFirst n ts).map erase := by
  cases ts with
  | nil => rfl
  | cons t ts =>
      rw [List.map_cons, listFirst, listFirst, firstOf_erase, size_erase, listFirst_map_erase]
      split
      · rfl
      · rw [List.map_append]

end

end Token

/-! ## Looks -/

namespace Parser.Look

/-- The look sees the same in tokens that are nowhere. -/
class Blind (p : Look) : Prop where
  eq : ∀ ts, p (ts.map Token.erase) = p ts

variable {p q : Look}

theorem blind_next {p : Token → Bool} (h : ∀ t, p t.erase = p t) : Blind (next p) where
  eq ts := by
    rw [next, next, Token.reveal_map_erase, List.head?_map]
    cases (Token.reveal ts).head? with
    | none => rfl
    | some t => exact h t

instance (k : String) : Blind (keyword k) := blind_next fun t => by cases t <;> rfl

instance : Blind name := blind_next fun t => by cases t <;> rfl

instance : Blind word := blind_next fun t => by cases t <;> rfl

instance : Blind lifetime := blind_next fun t => by cases t <;> rfl

instance (d : Delimiter) : Blind (group d) := blind_next fun t => by cases t <;> rfl

instance : Blind stringLiteral := blind_next fun t => by cases t <;> rfl

instance : Blind invisible where
  eq ts := by
    cases ts with
    | nil => rfl
    | cons t ts =>
        cases t with
        | group d us o c => cases d <;> rfl
        | ident x s | lifetime x s | punct x j s | literal x s => rfl

instance [Blind p] : Blind (second p) where
  eq ts := by
    rw [second, second, Token.reveal_map_erase]
    cases Token.reveal ts with
    | nil => rfl
    | cons t ts => exact Blind.eq ts

instance [Blind p] : Blind (third p) := inferInstanceAs (Blind (second (second p)))

theorem opChars_map_erase (cs : List Char) (ts : List Token) :
    opChars cs (ts.map Token.erase) = opChars cs ts := by
  induction cs generalizing ts with
  | nil => rfl
  | cons c cs ih =>
      cases ts with
      | nil => cases cs <;> rfl
      | cons t ts =>
          cases t with
          | punct d joint s =>
              cases cs with
              | nil => rfl
              | cons c' cs => exact congrArg (c == d && joint && ·) (ih ts)
          | ident x s | lifetime x s | literal x s | group d us o c => cases cs <;> rfl

instance (s : String) : Blind (op s) where
  eq ts := by rw [op, op, Token.reveal_map_erase, opChars_map_erase]

instance {α : Type} {f : α → Look} [∀ a, Blind (f a)] (as : List α) :
    Blind fun ts => as.any (f · ts) where
  eq ts := by simp only [Blind.eq]

instance (s : String) (others : List String) : Blind (opBut s others) where
  eq ts := by simp only [opBut, Blind.eq]

instance (ss : List String) : Blind (anyOp ss) where
  eq ts := by simp only [anyOp, Blind.eq]

instance (ks : List String) : Blind (anyKeyword ks) where
  eq ts := by simp only [anyKeyword, Blind.eq]

instance (p : String → Bool) : Blind (literalThat p) where
  eq ts := by
    rw [literalThat, literalThat, Token.reveal_map_erase]
    cases Token.reveal ts with
    | nil => rfl
    | cons t ts =>
        cases t with
        | punct c joint s =>
            by_cases hc : c = '-'
            · subst hc
              simp only [List.map_cons, Token.erase, Token.reveal_map_erase]
              cases Token.reveal ts with
              | nil => rfl
              | cons t ts => cases t <;> rfl
            · simp [Token.erase, hc]
        | ident x s | lifetime x s | literal x s | group d us o c => rfl

instance [Blind p] [Blind q] : Blind fun ts => p ts && q ts where
  eq ts := by rw [Blind.eq (p := p), Blind.eq (p := q)]

instance [Blind p] [Blind q] : Blind fun ts => p ts || q ts where
  eq ts := by rw [Blind.eq (p := p), Blind.eq (p := q)]

instance [Blind p] : Blind fun ts => !p ts where
  eq ts := by rw [Blind.eq (p := p)]

instance (b : Bool) : Blind fun _ => b := ⟨fun _ => rfl⟩

instance : Blind List.isEmpty where
  eq ts := by cases ts <;> rfl

instance : Blind literal :=
  inferInstanceAs (Blind fun ts => literalThat (fun _ => true) ts || anyKeyword ["true", "false"] ts)

instance : Blind colon := inferInstanceAs (Blind (opBut ":" ["::"]))

instance : Blind dot := inferInstanceAs (Blind (opBut "." [".."]))

/-- All of the things named are looked for by what they are. -/
class AllBlind (what : List (String × Look)) : Prop where
  blind : ∀ x ∈ what, Blind x.2

instance : AllBlind [] := ⟨fun _ h => absurd h List.not_mem_nil⟩

instance {s : String} {what : List (String × Look)} [Blind p] [AllBlind what] :
    AllBlind ((s, p) :: what) where
  blind := by
    intro x hx
    rcases List.mem_cons.1 hx with rfl | hx
    · infer_instance
    · exact AllBlind.blind x hx

instance {xs ys : List (String × Look)} [AllBlind xs] [AllBlind ys] : AllBlind (xs ++ ys) where
  blind := by
    intro x hx
    rcases List.mem_append.1 hx with hx | hx
    · exact AllBlind.blind x hx
    · exact AllBlind.blind x hx

instance {b : Prop} [Decidable b] {xs ys : List (String × Look)} [AllBlind xs] [AllBlind ys] :
    AllBlind (if b then xs else ys) := by
  split <;> infer_instance

/-- Which of the things named is ahead does not depend on places. -/
theorem AllBlind.filter_eq (what : List (String × Look)) [AllBlind what] (ts : List Token) :
    (what.filter fun x => !x.2 (ts.map Token.erase)) = what.filter fun x => !x.2 ts :=
  List.filter_congr fun x hx => by rw [(AllBlind.blind x hx).eq]

instance (what : List (String × Look)) [AllBlind what] : Blind fun ts => what.any (·.2 ts) where
  eq ts := by
    rw [Bool.eq_iff_iff, List.any_eq_true, List.any_eq_true]
    exact exists_congr fun x => and_congr_right fun hx => by rw [(AllBlind.blind x hx).eq]

end Parser.Look

end RowDerive
