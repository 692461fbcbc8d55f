import RowDerive.Grammar.Depth
import RowDerive.Proofs.Follow.Type

/-!
# Methods in front of other tokens

Generics, the predicates of a `where` and signatures stop in front of what may follow a method: the
semicolon after it, its body, or the next method where both are missing. There nothing more of the method
can be read.
-/

-- An instance for a long reader holds the types of all its parts.
set_option synthInstance.maxSize 1000000

namespace RowDerive

open RowDerive.Parser RowDerive.Grammar

/-- What may follow a method: of what ends a part, neither a comma nor `as`. -/
class Token.EndsMethod (s : List Token) : Prop extends Token.Ending s where
  comma : Look.op "," s = false
  as_word : Look.keyword "as" s = false

section

variable {s : List Token} [Token.Ending s] {ρ : Rules} [hstops : ρ.Stops s] [hrefuses : ρ.Refuses]

/-! ## Attributes -/

instance : Stops s (oneAttribute ρ) (oneAttribute ρ) := by
  unfold oneAttribute
  infer_instance

instance : FailsAt Token.Blank (oneAttribute ρ) := by
  unfold oneAttribute
  infer_instance

instance : StopsInside s (attributeTokens ρ) (attributeTokens ρ) := by
  unfold attributeTokens attributes
  infer_instance

instance {P : List Token → Prop} [Look.Unseen P (Look.op "#")] : Stays P (attributeTokens ρ) := by
  unfold attributeTokens attributes
  infer_instance

/-! ## Parameters -/

instance {p q : Parser (List Token)} [StopsInside s p q] :
    StopsInside s (paramBounds p) (paramBounds q) := by
  unfold paramBounds
  infer_instance

instance (attrs : List (List Token)) : StopsInside s (lifetimeParam attrs) (lifetimeParam attrs) := by
  have hdone : StopsInside s (endOr angleEnd) (endOr angleEnd) := inferInstance
  have hstays : Stays Token.Blank (endOr angleEnd) := inferInstance
  unfold lifetimeParam
  unfold endOr at hdone hstays
  infer_instance

instance (attrs : List (List Token)) : StopsInside s (typeParam ρ attrs) (typeParam ρ attrs) := by
  have hends : Look.Near s (Look.anyOp [",", ">", "="]) := by
    unfold Look.anyOp
    infer_instance
  unfold typeParam
  infer_instance

instance (attrs : List (List Token)) : StopsInside s (constParam ρ attrs) (constParam ρ attrs) := by
  unfold constParam
  infer_instance

instance (attrs : List (List Token)) : FailsAt Token.Blank (constParam ρ attrs) := by
  unfold constParam
  infer_instance

instance : StopsInside s (genericParam ρ) (genericParam ρ) := by
  unfold genericParam
  infer_instance

instance : StopsInside s (boundParam ρ) (boundParam ρ) := by
  unfold boundParam
  infer_instance

instance : Stops s (genericParams ρ) (genericParams ρ) := by
  unfold genericParams
  infer_instance

/-! ## Predicates -/

/-- What may follow the predicates of a `where`. -/
def whereStop : Look := fun ts =>
  Look.group .brace ts || Look.anyOp [",", ";", "="] ts || Look.colon ts

theorem whereEnd_eq : whereEnd = endOr whereStop := rfl

theorem whereLifetimeEnd_eq : whereLifetimeEnd = endOr fun ts => whereStop ts || Look.op ":" ts := by
  funext c
  show Except.ok (((c.rest.isEmpty || whereStop c.rest) || Look.op ":" c.rest), c) = _
  rw [Bool.or_assoc]
  rfl

instance : Look.Near s whereStop := by
  have hcolon : Look.Near s Look.colon := inferInstanceAs (Look.Near s (Look.opBut ":" ["::"]))
  unfold whereStop Look.anyOp
  infer_instance

end

/-! ### In front of what follows a method -/

section

variable {s : List Token} [hends : Token.EndsMethod s] {ρ : Rules} [hstops : ρ.Stops s]
  [hrefuses : ρ.Refuses]

omit hstops hrefuses in
instance : Look.Firm s (Look.op ",") where
  eq ts := by
    by_cases hts : Token.Blank ts
    · rw [Look.op, Token.reveal_append_of_nil hts]
      exact hends.comma.trans (Look.Unseen.eq ts hts).symm
    · exact Look.Near.eq ts hts

/-- What parts a method from the rest ends the predicates. -/
theorem whereStop_append (h : Look.parting s = true) {ts : List Token} (hts : Token.Blank ts) :
    whereStop (ts ++ s) = true := by
  obtain ⟨t, us, hs, ht⟩ := Token.exists_of_parting h
  have has := hends.as_word
  rw [Look.keyword, Look.next, hs] at has
  cases t with
  | punct c joint a =>
      rcases Bool.or_eq_true_iff.1 ht with hc | hc <;> obtain rfl := beq_iff_eq.1 hc <;>
        simp [whereStop, Look.anyOp, Look.op, Look.opChars, Token.reveal_append_of_nil hts, hs]
  | group d vs o c =>
      obtain rfl := beq_iff_eq.1 ht
      simp [whereStop, Look.group, Look.next, Token.reveal_append_of_nil hts, hs]
  | ident x a => exact absurd ht (Bool.eq_false_iff.1 has)
  | lifetime | literal => cases ht

/-- Bounds end with the predicates in front of what parts them from the rest; where a method begins there
is none. -/
theorem stops_plusList {l : Look} {p : Parser (List Token)} [Look.Near s l]
    (hlook : Look.parting s = true → ∀ ts, Token.Blank ts → l (ts ++ s) = true)
    [Stops s p p] [FailsAt Token.CutMethod p] (n k : Nat) :
    Stops s (plusList (endOr l) p n) (plusList (endOr l) p (n + k)) := by
  refine .bounded rfl (fun n k ih => ?_) n k
  unfold plusList
  exact Stops.endOr hlook

instance : Stops s (lifetimeBounds whereLifetimeEnd) (lifetimeBounds whereLifetimeEnd) := by
  have hlist (n k : Nat) := stops_plusList (s := s) (p := do return [Token.tick (← lifetime)])
    (l := fun ts => whereStop ts || Look.op ":" ts)
    (fun h ts hts => by rw [whereStop_append h hts, Bool.true_or]) n k
  rw [whereLifetimeEnd_eq]
  unfold lifetimeBounds
  infer_instance

instance : Stops s (bounds ρ whereEnd) (bounds ρ whereEnd) := by
  have hlist (n k : Nat) := stops_plusList (s := s) (p := do return (← bound ρ false true).tokens)
    (fun h ts hts => whereStop_append h hts) n k
  rw [whereEnd_eq]
  unfold bounds
  infer_instance

instance : Stops s (predicate ρ) (predicate ρ) := by
  unfold predicate
  infer_instance

instance : FailsAt Token.CutMethod (predicate ρ) := by
  unfold predicate
  infer_instance

instance (n k : Nat) : Stops s (predicates ρ n) (predicates ρ (n + k)) := by
  refine .bounded rfl (fun n k ih => ?_) n k
  unfold predicates
  rw [whereEnd_eq]
  exact Stops.endOr fun h ts hts => whereStop_append h hts

/-- What stands behind the `<` of a list of parameters. -/
def paramsBehind : Look := fun us =>
  Look.op ">" us || Look.op "#" us ||
    ((Look.lifetime us || Look.name us) &&
      ([">", ",", "="].any (fun str => Look.second (Look.op str) us) ||
        (Look.second (Look.op ":") us && !Look.second (Look.op "::") us))) ||
    Look.keyword "const" us

theorem paramsAhead_eq : paramsAhead = fun ts => Look.op "<" ts && Look.second paramsBehind ts := by
  funext ts
  cases hts : Token.reveal ts with
  | nil =>
      have hlt : Look.op "<" ts = false := Look.Unseen.eq (P := Token.Blank) ts hts
      simp only [paramsAhead, hlt, Bool.false_and]
  | cons t us => simp only [paramsAhead, paramsBehind, Look.third, Look.second_of_reveal hts]

theorem firm_paramsAhead (h : Look.parting s = true) : Look.Firm s paramsAhead := by
  have hsharp : Look.Firm s (Look.op "#") := Look.Tight.firm h
  have hconst : Look.Firm s (Look.keyword "const") := Look.Tight.firm h
  have hbehind : Look.Firm s paramsBehind := by
    unfold paramsBehind
    infer_instance
  rw [paramsAhead_eq]
  infer_instance

/-- A `<` in front of a method opens no parameters that can be read. -/
instance stops_whereBody : Stops s
    (do
      discard (keyword "where")
      if ← peek paramsAhead then failHere .whereParameters
      predicates ρ (← ahead))
    (do
      discard (keyword "where")
      if ← peek paramsAhead then failHere .whereParameters
      predicates ρ (← ahead)) := by
  have hfirm (h : Look.parting s = true) (ts : List Token) (_ : Token.Closed s ts) :
      paramsAhead (ts ++ s) = paramsAhead ts := (firm_paramsAhead h).eq ts
  refine .bind inferInstance fun _ => .peek hfirm inferInstance fun c r hmethod hne hok => ?_
  cases hc : paramsAhead c.rest with
  | true =>
      rw [hc] at hok
      cases hok
  | false =>
      rw [hc] at hne
      rw [eq_true_of_ne_false hne]
      exact ⟨_, rfl⟩

/-! ## Signatures -/

instance (k : String) : StopsInside s (flag k) (flag k) := by
  unfold flag
  infer_instance

instance {P : List Token → Prop} (k : String) [Look.Unseen P (Look.keyword k)] : Stays P (flag k) := by
  unfold flag
  infer_instance

instance {P : List Token → Prop} [∀ k, Look.Unseen P (Look.keyword k)] [FailsAt P (keyword "fn")]
    (foreign : Bool) : FailsAt P (signatureHead ρ foreign) := by
  unfold signatureHead
  infer_instance

instance (foreign : Bool) : Stops s (signatureHead ρ foreign) (signatureHead ρ foreign) := by
  unfold signatureHead
  infer_instance

instance (foreign : Bool) :
    Stops s (signatureWith ρ foreign) (signatureWith ρ foreign) := by
  unfold signatureWith
  refine .bind inferInstance fun head => ?_
  obtain ⟨⟨⟨isSafe, sig⟩, left⟩, span⟩ := head
  exact stops_located_optionally fun _ _ => rfl

instance {P : List Token → Prop} [∀ k, Look.Unseen P (Look.keyword k)] [FailsAt P (keyword "fn")]
    (foreign : Bool) : FailsAt P (signatureWith ρ foreign) := by
  unfold signatureWith
  infer_instance

instance : Stops s (signature ρ) (signature ρ) := by
  unfold signature
  infer_instance

instance {P : List Token → Prop} [∀ k, Look.Unseen P (Look.keyword k)] [FailsAt P (keyword "fn")] :
    FailsAt P (signature ρ) := by
  unfold signature
  infer_instance

/-! ## Visibility -/

instance (p : Look) : Look.Near s (inParensAhead p) where
  eq ts hts := by
    cases hreveal : Token.reveal ts with
    | nil => exact absurd hreveal hts
    | cons t us =>
        unfold inParensAhead
        rw [hreveal, Token.reveal_append_of_cons hreveal]
        cases t with
        | group d => cases d <;> rfl
        | ident | lifetime | punct | literal => rfl

instance (p : Look) : Look.Unseen Token.Ended (inParensAhead p) where
  eq ts hts := by
    unfold inParensAhead
    rw [Token.Ended, Look.only] at hts
    cases hreveal : Token.reveal ts with
    | nil => rfl
    | cons t us =>
        rw [hreveal] at hts
        cases t with
        | group d =>
            obtain rfl := beq_iff_eq.1 hts
            rfl
        | ident | lifetime | punct | literal => rfl

instance : Stops s visibilityScope visibilityScope := by
  unfold visibilityScope
  infer_instance

/-- A visibility that has a word. -/
def visibilityWord : Parser (List Token) := do
  if ← peek (Look.keyword "pub") then
    let pub ← keyword "pub"
    return pub :: (← visibilityScope)
  else return []

theorem visibility_of_invisible {c : Cursor} {o cl : Span} {ts : List Token}
    (h : c.rest = .group .invisible [] o cl :: ts) :
    visibility c = .ok ([], { c with rest := ts, last := cl }) := by
  simp only [visibility, bind_get, h]
  rfl

theorem visibility_of_not {c : Cursor}
    (h : ∀ o cl ts, c.rest ≠ .group .invisible [] o cl :: ts) : visibility c = visibilityWord c := by
  simp only [visibility, bind_get]
  rfl

instance : StopsInside s visibility visibility where
  kept c x e hc h he := by
    by_cases hgroup : ∃ o cl ts, c.rest = .group .invisible [] o cl :: ts
    · obtain ⟨o, cl, ts, hts⟩ := hgroup
      rw [visibility_of_invisible hts] at h
      cases h
      have hs : (c.followedBy s).rest = .group .invisible [] o cl :: (ts ++ s) := by
        rw [Cursor.rest_followedBy, hts, List.cons_append]
      exact ⟨hc.of_suffix [] (by rw [hts]; rfl), .inl (visibility_of_invisible hs)⟩
    · have hnot : ∀ o cl ts, c.rest ≠ .group .invisible [] o cl :: ts :=
        fun o cl ts hts => hgroup ⟨o, cl, ts, hts⟩
      rw [visibility_of_not hnot] at h
      have hword : StopsInside s visibilityWord visibilityWord := by
        unfold visibilityWord
        infer_instance
      cases hts : c.rest with
      | nil =>
          have hstays : Stays Token.Blank visibilityWord := by
            unfold visibilityWord
            infer_instance
          exact absurd (hstays.stays c x e (by rw [hts]; rfl) h) he
      | cons t ts =>
          rw [visibility_of_not fun o cl us hus => ?_]
          · exact hword.kept c x e hc h he
          · rw [Cursor.rest_followedBy, hts, List.cons_append] at hus
            obtain rfl := (List.cons.inj hus).1
            exact hnot o cl ts hts

theorem stays_visibility {P : List Token → Prop} [Look.Unseen P (Look.keyword "pub")]
    (hP : ∀ o cl ts, P (.group .invisible [] o cl :: ts) → P ts) : Stays P visibility where
  stays c x e hc h := by
    by_cases hgroup : ∃ o cl ts, c.rest = .group .invisible [] o cl :: ts
    · obtain ⟨o, cl, ts, hts⟩ := hgroup
      rw [visibility_of_invisible hts] at h
      cases h
      exact hP o cl ts (by rwa [hts] at hc)
    · rw [visibility_of_not fun o cl ts hts => hgroup ⟨o, cl, ts, hts⟩] at h
      have hword : Stays P visibilityWord := by
        unfold visibilityWord
        infer_instance
      exact hword.stays c x e hc h

instance : Stays Token.Blank visibility := stays_visibility fun _ _ _ h => h

instance : Stays Token.Separated visibility := stays_visibility fun _ _ _ h => h

/-! ## Methods -/

instance : Stops s (method ρ) (method ρ) := by
  unfold method
  infer_instance

/-- No method begins with a separator. -/
instance : FailsAt Token.Separated (method ρ) := by
  unfold method
  infer_instance

instance (inner : Bool) : Stops s (block ρ inner) (block ρ inner) := by
  unfold block
  infer_instance

end

instance : noRules.Refuses where
  ty _ := inferInstanceAs (FailsAt _ failTooDeep)

instance {s : List Token} : noRules.Stops s where
  ty _ := inferInstanceAs (Parser.Stops s failTooDeep failTooDeep)
  arg := ⟨fun _ _ _ _ h => nomatch h⟩
  param := ⟨fun _ _ _ _ h => nomatch h⟩
  block _ := inferInstanceAs (Parser.Stops s failTooDeep failTooDeep)

namespace Grammar

/-- At any depth nothing is read where a method begins. -/
instance rules_refuse (n : Nat) : (rules n).Refuses := by
  induction n with
  | zero => exact inferInstanceAs noRules.Refuses
  | succ n ih => exact ⟨fun plus => inferInstanceAs (FailsAt _ (type (rules n) plus true))⟩

/-- At any depth what is read stops in front of what follows. -/
instance rules_stop (s : List Token) [Token.Ending s] (n : Nat) : (rules n).Stops s := by
  induction n with
  | zero => exact inferInstanceAs (noRules.Stops s)
  | succ n ih =>
      exact
        { ty := fun plus =>
            inferInstanceAs (Parser.Stops s (type (rules n) plus true) (type (rules n) plus true))
          arg := inferInstanceAs (StopsInside s (arg (rules n)) (arg (rules n)))
          param := inferInstanceAs (StopsInside s (boundParam (rules n)) (boundParam (rules n)))
          block := fun inner =>
            inferInstanceAs (Parser.Stops s (block (rules n) inner) (block (rules n) inner)) }

instance (ts : List Token) : (rulesFor ts).Refuses := rules_refuse _

instance (s ts : List Token) [Token.Ending s] : (rulesFor ts).Stops s := rules_stop s _

end Grammar

end RowDerive
