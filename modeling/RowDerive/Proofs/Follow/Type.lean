import RowDerive.Proofs.Follow.Bound

/-!
# Types in front of other tokens

Given rules that stop in front of the tokens that may follow, types and their arguments do so too. A look
for a path or for what is the compiler's own may reach into a method that follows; nothing can be read
there then.
-/

-- An instance for a long reader holds the types of all its parts.
set_option synthInstance.maxSize 1000000

namespace RowDerive

open RowDerive.Parser RowDerive.Grammar

variable {s : List Token} [Token.Ending s] {ρ : Rules} [hstops : ρ.Stops s] [hrefuses : ρ.Refuses]

/-! ## Arguments -/

instance : Look.Near s constAhead := by
  unfold constAhead
  infer_instance

instance : Look.Unseen Token.Blank constAhead := by
  unfold constAhead
  infer_instance

instance : StopsInside s (constArg ρ) (constArg ρ) := by
  unfold constArg
  infer_instance

omit hrefuses in
instance : FailsAt Token.Blank (constArg ρ) := by
  unfold constArg
  infer_instance

instance : StopsInside s (argBinding ρ) (argBinding ρ) := by
  unfold argBinding
  infer_instance

instance : Look.Near s angleEnd := by
  unfold angleEnd Look.anyOp
  infer_instance

instance : StopsInside s (argBounds ρ) (argBounds ρ) := by
  unfold argBounds
  infer_instance

instance : StopsInside s (arg ρ) (arg ρ) := by
  unfold arg
  refine Stops.bind_inside inferInstance fun _ => .ite inferInstance ?_
  refine StopsInside.bind_inside inferInstance (fun _ => .ite inferInstance ?_) fun _ => inferInstance
  refine Stops.bind_inside inferInstance fun t => ?_
  cases bindable? t <;> infer_instance

/-! ## Function types -/

instance : StopsInside s abi? abi? := by
  unfold abi?
  infer_instance

instance {P : List Token → Prop} [Look.Unseen P (Look.keyword "extern")] : Stays P abi? := by
  unfold abi?
  infer_instance

instance : Stops s (fnType ρ) (fnType ρ) := by
  unfold fnType
  infer_instance

/-! ## Types in parentheses -/

instance (plus : Bool) (content : InParens) :
    Stops s (parenTypeFrom ρ plus content) (parenTypeFrom ρ plus content) := by
  cases content with
  | tuple types | object ts | relaxed ts =>
      unfold parenTypeFrom
      infer_instance
  | single t =>
      simp only [parenTypeFrom]
      cases asBound? t <;> infer_instance

instance (plus : Bool) : Stops s (parenType ρ plus) (parenType ρ plus) := by
  unfold parenType
  infer_instance

/-! ## Other types -/

omit [Token.Ending s] in
instance : Stops s anyGroup anyGroup where
  kept c x e hc h := by
    obtain ⟨rest, close, last, left⟩ := c
    simp only [anyGroup, bind_get] at h
    match rest with
    | .group d content o cl :: rest =>
        by_cases hd : d = .invisible
        · simp only [hd, if_true] at h
          cases h
        · simp only [hd, if_false] at h
          cases h
          refine ⟨hc.of_suffix _ rfl, .inl ?_⟩
          simp only [anyGroup, bind_get, Cursor.followedBy, List.cons_append, hd, if_false]
          rfl
    | [] | .ident .. :: _ | .lifetime .. :: _ | .punct .. :: _ | .literal .. :: _ => cases h

instance : Look.Firm s bangAhead := by
  unfold bangAhead
  infer_instance

instance : Stops s macroArgs macroArgs := by
  unfold macroArgs
  infer_instance

instance (lifetimes : Option (List Token)) (plus : Bool) :
    Stops s (pathType ρ lifetimes plus) (pathType ρ lifetimes plus) := by
  unfold pathType
  refine .bind inferInstance fun t => ?_
  cases t with
  | path rooted init last => cases lifetimes <;> infer_instance
  | group | paren | reference | slice | qualified | bound | other => infer_instance

instance : Stops s (bracketType ρ) (bracketType ρ) := by
  unfold bracketType
  infer_instance

instance : Stops s (pointerType ρ) (pointerType ρ) := by
  unfold pointerType
  infer_instance

instance : Stops s (referenceType ρ) (referenceType ρ) := by
  unfold referenceType
  infer_instance

instance (c : Cursor) (plus : Bool) :
    Stops s (dynType ρ c plus) (dynType ρ (c.followedBy s) plus) := by
  unfold dynType
  infer_instance

instance (plus : Bool) : Stops s (implType ρ plus) (implType ρ plus) := by
  unfold implType
  infer_instance

/-! ### Types in invisible groups -/

/-- A `::` is ahead, and behind it no token of a path. -/
def OpenPath (ts : List Token) : Prop :=
  Look.op "::" ts = true ∧ Look.third (Look.only Token.isEnding) ts = true

/-- Whether a path goes on with a word. -/
def pathOn : Look := fun ts => Look.op "::" ts && Look.third Look.word ts

omit hstops hrefuses in
/-- Where a path goes on with what follows, the tokens end with its `::`. -/
theorem exists_colons {ts : List Token} (hne : pathOn (ts ++ s) ≠ pathOn ts) :
    ∃ t joint b us, Token.reveal ts = t :: .punct ':' joint b :: us ∧ Token.Blank us ∧
      pathOn (ts ++ s) = true ∧ OpenPath (ts ++ s) := by
  have hop : Look.Firm s (Look.op "::") := inferInstance
  unfold pathOn at hne ⊢
  rw [hop.eq] at hne ⊢
  cases hcolons : Look.op "::" ts with
  | false =>
      rw [hcolons] at hne
      exact absurd rfl hne
  | true =>
      obtain ⟨t, joint, b, us, hts, hus⟩ := Look.third_of_colons (s := s) hcolons
      rw [hcolons, Bool.true_and, Bool.true_and, (hus _).1, (hus _).2] at hne
      have hblank : Token.Blank us :=
        Classical.byContradiction fun hblank => hne (Look.Near.eq us hblank)
      have hword : Look.word us = false := Look.Unseen.eq us hblank
      rw [hword] at hne
      rw [Bool.true_and, (hus _).2]
      refine ⟨t, joint, b, us, hts, hblank, eq_true_of_ne_false hne, by rw [hop.eq, hcolons], ?_⟩
      rw [(hus _).2]
      exact hblank.ended_append s

omit hstops hrefuses in
/-- In front of what parts them from the rest, closed tokens do not end with a `::` that goes on there. -/
theorem pathOn_append (hs : Look.parting s = true) {ts : List Token} (hts : Token.Closed s ts) :
    pathOn (ts ++ s) = pathOn ts := by
  refine Classical.byContradiction fun hne => ?_
  cases has : Look.keyword "as" s with
  | false =>
      have hword : Look.Tight s Look.word := tight_word has
      have hfirm : Look.Firm s Look.word := Look.Tight.firm hs
      have hpath : Look.Firm s pathOn := by
        unfold pathOn
        infer_instance
      exact hne (hpath.eq ts)
  | true =>
      obtain ⟨t, joint, b, us, hreveal, hblank, -⟩ := exists_colons hne
      refine hts.of_reveal hreveal has ?_
      rw [Token.OpenEnded, Token.openedList, Token.openedList_of_reveal_nil hblank]
      rfl

theorem OpenPath.exists_ended {ts : List Token} (h : OpenPath ts) :
    ∃ t u us, Token.reveal ts = t :: u :: us ∧ Token.Ended us ∧
      ∀ look : Look, Look.third look ts = look us := by
  obtain ⟨t, joint, b, us, hts, hus⟩ := Look.third_of_colons (s := []) h.1
  have hended : Look.third (Look.only Token.isEnding) ts = true := h.2
  rw [(hus _).1] at hended
  exact ⟨t, _, us, hts, hended, fun look => (hus look).1⟩

theorem ended_of_colons {c d : Cursor} {ts : List Token} (hc : OpenPath c.rest)
    (h : op "::" c = .ok (ts, d)) : Token.Ended d.rest := by
  obtain ⟨t, u, us, hreveal, hended, -⟩ := hc.exists_ended
  rw [(op_eq_ok h).2, hreveal]
  exact hended

omit [Token.Ending s] hstops hrefuses in
instance (inExpr : Bool) : FailsAt OpenPath (nextSegment inExpr ρ) := by
  unfold nextSegment
  refine .bind (Q := Token.Ended) (fun c _ d hc h => ?_) fun _ => inferInstance
  obtain ⟨ts, hread⟩ := discard_eq_ok h
  exact ended_of_colons hc hread

omit [Token.Ending s] hstops hrefuses in
instance (inExpr : Bool) : FailsAt OpenPath (segments inExpr ρ) where
  error c hc := by
    obtain ⟨-, -, us, -, hended, hus⟩ := hc.exists_ended
    have hparen : Look.group .paren us = false := Look.Unseen.eq us hended
    have hahead : segmentAhead c.rest = true := by
      rw [segmentAhead, hc.1, hus, hparen]
      rfl
    obtain ⟨e, he⟩ := FailsAt.error (p := nextSegment inExpr ρ) c hc
    refine ⟨e, ?_⟩
    show manyWhile segmentAhead (nextSegment inExpr ρ) (Token.sizeList c.rest + 1) c = _
    simp only [manyWhile, bind_peek, hahead, if_true]
    rw [bind_apply, he]

instance (t : Ty) : Stops s (pathOfSelf ρ t) (pathOfSelf ρ t) := by
  unfold pathOfSelf
  infer_instance

omit [Token.Ending s] hstops hrefuses in
instance (t : Ty) : FailsAt OpenPath (pathOfSelf ρ t) := by
  unfold pathOfSelf
  infer_instance

omit hrefuses in
theorem stops_withArgs? {t : Ty} {p : Parser Ty} (h : withArgs? ρ t = some p) : Stops s p p := by
  unfold withArgs? at h
  split at h <;> cases h <;> infer_instance

instance (args : Bool) : Stops s (groupType ρ args) (groupType ρ args) := by
  unfold groupType
  refine .bind inferInstance fun t => .peek ?_ (fun b => .ite ?_ (.bind ?_ fun _ => .ite ?_ inferInstance)) ?_
  · intro hs ts hts
    exact pathOn_append hs hts
  · cases t <;> infer_instance
  · infer_instance
  · cases hp : withArgs? ρ t with
    | none => infer_instance
    | some p =>
        have hstops := stops_withArgs? (s := s) hp
        infer_instance
  · intro c r hmethod hne hok
    obtain ⟨-, -, -, -, -, -, hlook, hopen⟩ := exists_colons hne
    rw [show (Look.op "::" (c.rest ++ s) && _) = true from hlook, if_pos rfl]
    cases t <;> exact FailsAt.error (c.followedBy s) hopen

instance (args : Bool) : FailsAt Token.CutMethod (groupType ρ args) := by
  unfold groupType
  infer_instance

/-! ### Types that are the compiler's own -/

instance : Stops s builtin builtin := by
  unfold builtin anyContent
  infer_instance

/-- A name is ahead that would stand for the compiler's own, and an attribute. -/
def OpenBuiltin (ts : List Token) : Prop :=
  builtinAhead ts = true ∧ Look.third Look.word ts = false

theorem openBuiltin_append (hmethod : Token.StartsMethod (Token.openedList s)) {ts : List Token}
    (hne : builtinAhead (ts ++ s) ≠ builtinAhead ts) :
    builtinAhead (ts ++ s) = true ∧ OpenBuiltin (ts ++ s) := by
  have hkeyword : Look.Firm s (Look.keyword "builtin") := inferInstance
  unfold builtinAhead at hne
  rw [hkeyword.eq] at hne
  cases hts : Token.reveal ts with
  | nil =>
      have hblank : Look.keyword "builtin" ts = false := Look.Unseen.eq ts (P := Token.Blank) hts
      rw [hblank] at hne
      exact absurd rfl hne
  | cons t us =>
      have hnear : Look.Near s (Look.op "#") := inferInstance
      rw [Look.second_of_reveal hts, Look.second_append hts] at hne
      have hblank : Token.Blank us :=
        Classical.byContradiction fun hblank => hne (by rw [hnear.eq us hblank])
      have hus : Look.op "#" us = false := Look.Unseen.eq us hblank
      rw [hus, Bool.and_false] at hne
      have hlook := eq_true_of_ne_false hne
      obtain ⟨joint, a, vs, hsharp⟩ :=
        Token.exists_punct_of_op rfl (Bool.and_eq_true_iff.1 hlook).2
      rw [Token.reveal_append_of_nil hblank] at hsharp
      rw [Token.openedList_of_reveal hsharp] at hmethod
      obtain ⟨ws, o, c, F, hF⟩ := hmethod.of_sharp
      obtain ⟨xs, hvs, -⟩ := Token.exists_reveal_of_opened hF
      have hahead : builtinAhead (ts ++ s) = true := by
        rw [builtinAhead, hkeyword.eq, Look.second_append hts, hlook]
      refine ⟨hahead, hahead, ?_⟩
      have hreveal : Token.reveal (us ++ s) = _ := (Token.reveal_append_of_nil hblank s).trans hsharp
      rw [Look.third, Look.second_append hts, Look.second_of_reveal hreveal, Look.word, Look.next, hvs]
      rfl

instance : FailsAt OpenBuiltin builtin := by
  unfold builtin
  refine failsAt_of_not_ok fun c x e hc h => ?_
  obtain ⟨_, d, hd, h⟩ := bind_eq_ok h
  obtain ⟨_, hd⟩ := discard_eq_ok hd
  obtain ⟨a, us, hts, rfl⟩ := keyword_eq_ok hd
  obtain ⟨_, d, hd, h⟩ := bind_eq_ok h
  obtain ⟨_, hd⟩ := discard_eq_ok hd
  have hrest := (op_eq_ok hd).2
  have hword : Look.word d.rest = false := by
    have hthird := hc.2
    rw [Look.third, Look.second_of_reveal hts] at hthird
    rw [hrest]
    cases hus : Token.reveal us with
    | nil => rfl
    | cons u ws => rwa [Look.second_of_reveal hus] at hthird
  obtain ⟨_, d', hname, -⟩ := bind_eq_ok h
  obtain ⟨_, hname⟩ := discard_eq_ok hname
  exact FailsAt.not_ok (P := fun ts => Look.word ts = false) inferInstance hword hname

instance {α : Type} {f g : Bool → Parser α} [hfg : ∀ b, Stops s (f b) (g b)]
    [hg : FailsAt OpenBuiltin (g true)] : Stops s (peek builtinAhead >>= f) (peek builtinAhead >>= g) := by
  refine .peek (fun hs ts _ => ?_) hfg fun c r hmethod hne hok => ?_
  · have hsharp : Look.Firm s (Look.op "#") := Look.Tight.firm hs
    have hfirm : Look.Firm s builtinAhead := by
      unfold builtinAhead
      infer_instance
    exact hfirm.eq ts
  · obtain ⟨hlook, hopen⟩ := openBuiltin_append hmethod hne
    rw [hlook]
    exact hg.error _ hopen

/-! ### Types of all forms -/

instance : Look.Near s fnAhead := inferInstanceAs (Look.Near s (Look.anyKeyword _))

instance : Look.Unseen Token.Blank fnAhead := inferInstanceAs (Look.Unseen _ (Look.anyKeyword _))

instance : Look.Near s pathAhead := by
  unfold pathAhead pathWordAhead
  infer_instance

instance : Look.Unseen Token.Ended pathAhead := by
  unfold pathAhead pathWordAhead
  infer_instance

instance : Look.Unseen Token.Ended builtinAhead := by
  unfold builtinAhead
  infer_instance

instance (c : Cursor) (lifetimes : Option (List Token)) (plus : Bool) :
    FailsAt Token.Blank (typeFrom ρ c lifetimes plus) := by
  unfold typeFrom
  infer_instance

instance (c : Cursor) (lifetimes : Option (List Token)) (plus : Bool) :
    Stops s (typeFrom ρ c lifetimes plus) (typeFrom ρ (c.followedBy s) lifetimes plus) := by
  unfold typeFrom
  infer_instance

/-! ### Function types in front of a method -/

/-- No `fn` is ahead that has parentheses right behind it. -/
def NoFnType (ts : List Token) : Prop :=
  ∀ a us, Token.reveal ts = .ident "fn" a :: us → Look.group .paren us = false

theorem noFnType_of_cut {ts F : List Token} (h : Token.StartsFn (Token.openedList ts ++ F)) :
    NoFnType ts := by
  intro a us hts
  rw [Token.openedList_of_reveal hts, List.cons_append] at h
  obtain ⟨x, b, vs, hus⟩ := h.of_fn
  rw [Look.group, Look.next]
  rcases Token.reveal_opened us with ⟨hnil, -⟩ | ⟨u, ws, hcons, hopened⟩
  · rw [hnil]
    rfl
  · rw [hopened, List.cons_append] at hus
    cases hus
    rw [hcons]
    rfl

theorem Token.CutMethod.noFnType {ts : List Token} (h : Token.CutMethod ts) : NoFnType ts := by
  obtain ⟨F, hF⟩ := h
  intro a us hts
  refine noFnType_of_cut (F := F) ?_ a us hts
  rw [Token.openedList_of_reveal hts, List.cons_append] at hF ⊢
  exact hF.startsFn (by decide)

theorem abi?_eq_ok {c d : Cursor} {x : Option (List Token)} (h : abi? c = .ok (x, d)) :
    d = c ∨ ∃ a us, Token.reveal c.rest = .ident "extern" a :: us ∧
      (d.rest = us ∨ ∃ y b, Token.reveal us = .literal y b :: d.rest) := by
  refine (optionally_eq_ok h).imp_right fun ⟨_, hread⟩ => ?_
  obtain ⟨_, e, hext, hread⟩ := bind_eq_ok hread
  obtain ⟨a, us, hts, rfl⟩ := keyword_eq_ok hext
  obtain ⟨_, e, hname, hread⟩ := bind_eq_ok hread
  cases hread
  refine ⟨a, us, hts, ?_⟩
  rcases optionally_eq_ok hname with rfl | ⟨_, hstring⟩
  · exact .inl rfl
  · exact .inr (stringLiteral_eq_ok hstring)

theorem noFnType_of_abi? {c d : Cursor} {x : Option (List Token)} (hc : Token.CutMethod c.rest)
    (h : abi? c = .ok (x, d)) : NoFnType d.rest := by
  rcases abi?_eq_ok h with rfl | ⟨a, us, hts, hrest⟩
  · exact hc.noFnType
  · obtain ⟨F, hF⟩ := hc
    rw [Token.openedList_of_reveal hts, List.cons_append] at hF
    have hfn := (hF.startsFn (by decide)).of_extern_word
    rcases hrest with rfl | ⟨y, b, hus⟩
    · intro b vs hus
      rcases hfn with hfn | ⟨_, _, ws, hws, -⟩
      · exact noFnType_of_cut hfn b vs hus
      · rw [Token.openedList_of_reveal hus] at hws
        cases hws
    · rw [Token.openedList_of_reveal hus, List.cons_append] at hfn
      rcases hfn with hfn | ⟨_, _, vs, hvs, hfn⟩
      · obtain ⟨k, e, vs, hvs, -⟩ := hfn.exists_head
        cases hvs
      · cases hvs
        exact noFnType_of_cut hfn

theorem cutMethod_of_unsafe_word {c d : Cursor} {x : List Token} (hc : Token.CutMethod c.rest)
    (h : keyword? "unsafe" c = .ok (x, d)) : Token.CutMethod d.rest := by
  rcases keyword?_eq_ok h with rfl | ⟨a, hts⟩
  · exact hc
  · obtain ⟨F, hF⟩ := hc
    rw [Token.openedList_of_reveal hts, List.cons_append] at hF
    exact ⟨F, .fn (hF.startsFn (by decide)).of_unsafe_word⟩

instance : FailsAt Token.CutMethod (fnType ρ) := by
  unfold fnType
  refine .bind (fun _ _ _ => cutMethod_of_unsafe_word) fun _ => ?_
  refine .bind (fun _ _ _ => noFnType_of_abi?) fun _ => ?_
  refine failsAt_of_not_ok fun c x e hc h => ?_
  obtain ⟨_, d, hd, h⟩ := bind_eq_ok h
  obtain ⟨a, us, hts, rfl⟩ := keyword_eq_ok hd
  obtain ⟨_, d, hd, h⟩ := bind_eq_ok h
  obtain ⟨vs, o, cl, ws, inner, hgroup, -⟩ := openGroup_eq_ok_iff.1 hd
  have hparen := hc a us hts
  rw [Look.group, Look.next, show Token.reveal us = _ from hgroup] at hparen
  cases hparen

instance (c : Cursor) (lifetimes : Option (List Token)) (plus : Bool) :
    FailsAt Token.CutMethod (typeFrom ρ c lifetimes plus) := by
  unfold typeFrom
  infer_instance

/-! ### Types -/

instance : Look.Near s Look.invisible where
  eq ts hts := by
    cases ts with
    | nil => exact absurd rfl hts
    | cons t ts =>
        cases t with
        | group d us o cl => cases d <;> rfl
        | ident | lifetime | punct | literal => rfl

omit [Token.Ending s] in
theorem near_forTargets : Look.Near s fun ts => forTargets.any (·.2 ts) := by
  unfold forTargets
  infer_instance

theorem unseen_forTargets : Look.Unseen Token.Blank fun ts => forTargets.any (·.2 ts) := by
  unfold forTargets
  infer_instance

instance (plus args : Bool) : FailsAt Token.CutMethod (type ρ plus args) := by
  unfold type
  infer_instance

instance (plus args : Bool) : Stops s (type ρ plus args) (type ρ plus args) := by
  have hnear := near_forTargets (s := s)
  have hunseen := unseen_forTargets
  unfold type
  infer_instance

end RowDerive
