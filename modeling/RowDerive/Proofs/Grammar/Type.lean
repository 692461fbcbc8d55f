import RowDerive.Grammar.Depth
import RowDerive.Proofs.Grammar.Tree

/-!
# Types read back

A type is written out as tokens and may be read again, in another place than where it stood. What is read
of a type that is a tree is the same type, whatever follows that does not go on with it:
`readsType_of_isTree`.
-/

namespace RowDerive.Grammar

open RowDerive.Parser

/-! ## Paths -/

/-- Whether the reader reads the segment back, whatever follows that is no argument. -/
def ReadsSegment (inExpr : Bool) (ρ : Rules) (s : Segment) : Prop :=
  ∀ ts, angleAhead inExpr ts = false →
    segment inExpr ρ (.front (s.tokens ++ ts)) = .ok (s, .front ts)

theorem segmentAhead_tokens (s : Segment) (ts : List Token) :
    segmentAhead (Token.op "::" ++ s.tokens ++ ts) = true := by
  obtain ⟨us, hus⟩ := s.exists_tokens
  rw [hus]
  rfl

theorem not_angleAhead_tokens (inExpr : Bool) (s : Segment) (ts : List Token) :
    angleAhead inExpr (Token.op "::" ++ s.tokens ++ ts) = false := by
  obtain ⟨us, hus⟩ := s.exists_tokens
  rw [hus]
  cases inExpr <;> rfl

theorem nextSegment_front {inExpr : Bool} {ρ : Rules} {s : Segment} (h : ReadsSegment inExpr ρ s)
    {ts : List Token} (hts : angleAhead inExpr ts = false) :
    nextSegment inExpr ρ (.front (Token.op "::" ++ s.tokens ++ ts)) = .ok (s, .front ts) := by
  rw [List.append_assoc]
  simp [nextSegment, op_front, h ts hts]

theorem path_front {inExpr : Bool} {ρ : Rules} {p : Path}
    (h : ∀ s ∈ p.init ++ [p.last], ReadsSegment inExpr ρ s) {vs : List Token}
    (hangle : angleAhead inExpr vs = false) (hvs : segmentAhead vs = false) :
    path inExpr ρ (.front (p.tokens ++ vs)) = .ok (p, .front vs) := by
  obtain ⟨s, ss, hp, hss⟩ := p.exists_append
  rw [← hss] at h
  -- the first segment is followed by another one, or by what follows the path
  have hafter : angleAhead inExpr (ss.flatMap (fun t => Token.op "::" ++ t.tokens) ++ vs) = false := by
    cases ss with
    | nil => exact hangle
    | cons t ss =>
        rw [List.flatMap_cons, List.append_assoc]
        exact not_angleAhead_tokens inExpr t _
  have hfirst := h s List.mem_cons_self _ hafter
  have hmore : segments inExpr ρ (.front (ss.flatMap (fun t => Token.op "::" ++ t.tokens) ++ vs)) =
      .ok (ss, .front vs) := by
    rw [segments, bind_apply, ahead_front]
    refine manyWhile_front hvs (fun t _ ts => segmentAhead_tokens t ts) ?_ ?_
    · intro t ht ts hts
      refine nextSegment_front (h t (List.mem_cons_of_mem s ht)) ?_
      rcases hts with rfl | ⟨u, -, us, rfl⟩
      · exact hangle
      · exact not_angleAhead_tokens inExpr u us
    · have hlength : ss.length ≤ Token.sizeList (ss.flatMap fun t => Token.op "::" ++ t.tokens) :=
        Token.length_le_sizeList_flatMap fun _ _ => List.cons_ne_nil _ _
      rw [Token.sizeList_append]
      omega
  rw [hp, Path.tokens_append]
  cases p.rooted with
  | true =>
      have htokens : Path.tokens ⟨true, [], s⟩ = Token.op "::" ++ s.tokens := rfl
      have hroot : (Token.op "::").isEmpty = false := rfl
      rw [htokens, List.append_assoc, List.append_assoc]
      simp [path, op?_front, hroot, hfirst, hmore]
  | false =>
      have hcolon : Look.op "::" (s.tokens ++
          (ss.flatMap (fun t => Token.op "::" ++ t.tokens) ++ vs)) = false := by
        obtain ⟨us, hus⟩ := s.exists_tokens
        rw [hus]
        rfl
      have htokens : Path.tokens ⟨false, [], s⟩ = s.tokens := rfl
      rw [htokens, List.append_assoc]
      simp [path, op?_of_not hcolon, hfirst, hmore]

/-! ## Segments -/

theorem segment_name {inExpr : Bool} {ρ : Rules} {x : String} (h : x ∉ Look.keywords ∨ x = "Self")
    (ts : List Token) :
    segment inExpr ρ (.front (Token.word x :: ts)) =
      if angleAhead inExpr ts then segmentWith x ρ (.front ts) else .ok (.bare x, .front ts) := by
  have hfirst : Look.anyKeyword ["super", "self", "crate", "try"] (Token.word x :: ts) = false := by
    rcases h with h | rfl
    · exact Look.not_anyKeyword_of_name h (by decide) ts
    · rfl
  rcases h with h | rfl
  · have hself : Look.keyword "Self" (Token.word x :: ts) = false :=
      Look.not_keyword_of_name h (by decide) ts
    cases hangle : angleAhead inExpr ts <;>
      simp [segment, hfirst, hself, name_front h, hangle]
  · cases hangle : angleAhead inExpr ts <;> simp [segment, hfirst, hangle]

theorem readsSegment_bare {inExpr : Bool} {ρ : Rules} {x : String} (h : isPathWord x = true) :
    ReadsSegment inExpr ρ (.bare x) := by
  intro ts hts
  change segment inExpr ρ (.front (Token.word x :: ts)) = _
  simp only [isPathWord, Bool.or_eq_true, Bool.not_eq_true', List.contains_eq_mem,
    decide_eq_false_iff_not, decide_eq_true_eq, List.mem_cons, List.not_mem_nil, or_false] at h
  rcases h with h | rfl | rfl | rfl | rfl
  · rw [segment_name (.inl h), hts, if_neg Bool.false_ne_true]
  · rfl
  · rfl
  · rw [segment_name (.inr rfl), hts, if_neg Bool.false_ne_true]
  · rfl


/-- Whether the reader reads the argument back before another one, or before the end of all. -/
def ReadsArg (ρ : Rules) (a : TyArg) : Prop :=
  ∀ ts, (∃ us, ts = Token.op "," ++ us) ∨ (∃ us, ts = Token.op ">" ++ us) →
    ρ.arg (.front (a.tokens.2 ++ ts)) = .ok (a, .front ts)

theorem angleList_front {ρ : Rules} {l : Listed TyArg} (hl : l.items = [] → l.trailing = false)
    (hread : ∀ a ∈ l.items, ReadsArg ρ a)
    (hstart : ∀ a ∈ l.items, ∀ ts, Look.op ">" (a.tokens.2 ++ ts) = false) (vs : List Token) :
    angleList ρ.arg (.front (l.tokens (Token.op ",") (·.tokens.2) ++ (Token.op ">" ++ vs))) =
      .ok (l, .front (Token.op ">" ++ vs)) := by
  rw [angleList, bind_apply, ahead_front]
  refine listUntil_front (by decide) rfl (fun _ => rfl) hl ?_ ?_ ?_
  · intro a ha ts
    rw [peek_front, hstart a ha]
  · intro a ha ts hts
    refine hread a ha ts ?_
    rcases hts with rfl | hts
    · exact .inr ⟨vs, rfl⟩
    · exact .inl hts
  · have hne : ∀ a ∈ l.items, a.tokens.2 ≠ [] := by
      intro a ha hnil
      have h := hstart a ha (Token.op ">")
      rw [hnil] at h
      cases h
    have hlength : l.items.length ≤ Token.sizeList (l.tokens (Token.op ",") (·.tokens.2)) :=
      Listed.length_le_sizeList hne
    rw [Token.sizeList_append]
    omega

theorem segmentWith_front {ρ : Rules} (x : String) (turbofish : Bool) {l : Listed TyArg}
    (hl : l.items = [] → l.trailing = false) (hread : ∀ a ∈ l.items, ReadsArg ρ a)
    (hstart : ∀ a ∈ l.items, ∀ ts, Look.op ">" (a.tokens.2 ++ ts) = false) (vs : List Token) :
    segmentWith x ρ (.front ((if turbofish then Token.op "::" else []) ++ (Token.op "<" ++
        (l.tokens (Token.op ",") (·.tokens.2) ++ (Token.op ">" ++ vs))))) =
      .ok (.generic x turbofish l.items l.trailing, .front vs) := by
  have hlist := angleList_front hl hread hstart vs
  cases turbofish with
  | true =>
      have hcolons : (Token.op "::").isEmpty = false := rfl
      simp [segmentWith, angleArgs, op?_front, op_front, hlist, hcolons]
  | false =>
      have hcolons : Look.op "::" (Token.op "<" ++ (l.tokens (Token.op ",") (·.tokens.2) ++
          (Token.op ">" ++ vs))) = false := rfl
      simp [segmentWith, angleArgs, op?_of_not hcolons, op_front, hlist]

theorem readsSegment_generic {inExpr : Bool} {ρ : Rules} {x : String} {turbofish trailing : Bool}
    {args : List TyArg} (h : (Segment.generic x turbofish args trailing).isTree = true)
    (hexpr : inExpr = true → turbofish = true) (hread : ∀ a ∈ args, ReadsArg ρ a) :
    ReadsSegment inExpr ρ (.generic x turbofish args trailing) := by
  intro ts _
  simp only [Segment.isTree, Bool.and_eq_true, Bool.or_eq_true, beq_iff_eq, Bool.not_eq_true',
    Bool.and_eq_false_imp, List.isEmpty_iff, List.contains_eq_mem, decide_eq_false_iff_not] at h
  obtain ⟨⟨⟨hx, htree⟩, hsorted⟩, htrailing⟩ := h
  have hstart : ∀ a ∈ args, ∀ us, Look.op ">" (a.tokens.2 ++ us) = false :=
    fun a ha us => TyArg.not_angle_tokens (TyArg.isTree_of_mem htree ha) us
  have hwith := segmentWith_front x turbofish (l := ⟨args, trailing⟩) htrailing hread hstart ts
  have htokens : (Segment.generic x turbofish args trailing).tokens ++ ts =
      Token.word x :: ((if turbofish then Token.op "::" else []) ++ (Token.op "<" ++
        ((⟨args, trailing⟩ : Listed TyArg).tokens (Token.op ",") (·.tokens.2) ++
          (Token.op ">" ++ ts)))) := by
    simp [Segment.tokens, TyArg.tokens_bring trailing hsorted]
  have hangle : angleAhead inExpr ((if turbofish then Token.op "::" else []) ++ (Token.op "<" ++
        ((⟨args, trailing⟩ : Listed TyArg).tokens (Token.op ",") (·.tokens.2) ++
          (Token.op ">" ++ ts)))) = true := by
    cases turbofish with
    | true => cases inExpr <;> rfl
    | false =>
        cases inExpr with
        | true => exact absurd (hexpr rfl) Bool.false_ne_true
        | false => rfl
  rw [htokens, segment_name hx, hangle, if_pos rfl, hwith]

/-- Whether the reader reads the type back, whatever follows that does not go on with it. -/
def ReadsType (ρ : Rules) (t : Ty) : Prop :=
  ∀ plus ts, Look.goesOn ts = false → ρ.ty plus (.front (t.tokens ++ ts)) = .ok (t, .front ts)

theorem arg_lifetime {ρ : Rules} {x : String} {ts : List Token}
    (hts : (∃ us, ts = Token.op "," ++ us) ∨ ∃ us, ts = Token.op ">" ++ us) :
    arg ρ (.front (Token.tick x :: ts)) = .ok (.lifetime x, .front ts) := by
  rcases hts with ⟨us, rfl⟩ | ⟨us, rfl⟩ <;> rfl

theorem arg_type {ρ : Rules} {t : Ty} (h : t.isTree = true) (hread : ReadsType ρ t)
    {ts : List Token} (hts : (∃ us, ts = Token.op "," ++ us) ∨ ∃ us, ts = Token.op ">" ++ us) :
    arg ρ (.front (t.tokens ++ ts)) = .ok (.type t, .front ts) := by
  have hstart := Ty.startsType_tokens h ts
  have hlifetime := Look.not_lifetime_of_startsType hstart
  have hconst : constAhead (t.tokens ++ ts) = false := by
    simp [constAhead, Look.not_literal_of_startsType hstart,
      Look.not_group_of_startsType hstart (d := .brace) (by decide)]
  have hty : ρ.ty true (.front (t.tokens ++ ts)) = .ok (t, .front ts) := by
    rcases hts with ⟨us, rfl⟩ | ⟨us, rfl⟩ <;> exact hread true _ rfl
  have heq : Look.op "=" ts = false := by rcases hts with ⟨us, rfl⟩ | ⟨us, rfl⟩ <;> rfl
  have hcolon : Look.op ":" ts = false := by rcases hts with ⟨us, rfl⟩ | ⟨us, rfl⟩ <;> rfl
  cases hbind : bindable? t with
  | none => simp [arg, hlifetime, hconst, hty, hbind]
  | some s => simp [arg, hlifetime, hconst, hty, hbind, heq, hcolon]

/-! ## Types -/

theorem type_group {ρ : Rules} {t : Ty} (hread : ReadsType ρ t) (plus : Bool) {ts : List Token}
    (hts : Look.goesOn ts = false) :
    type ρ plus true (.front ((Ty.group t).tokens ++ ts)) = .ok (.group t, .front ts) := by
  have hinner : ρ.ty true (.front t.tokens) = .ok (t, .front []) := by
    simpa using hread true [] rfl
  have hgroup := inGroup_front (d := .invisible) hinner ts
  have hinvisible : Look.invisible (Token.enclose .invisible t.tokens :: ts) = true := rfl
  have hcolons := Look.not_op_of_goesOn hts (s := "::") (by decide)
  have hless := Look.not_op_of_goesOn hts (s := "<") (by decide)
  simp [Ty.tokens, type, groupType, hinvisible, hgroup, hcolons, hless]

theorem type_paren {ρ : Rules} {t : Ty} (h : t.isTree = true) (hread : ReadsType ρ t)
    (plus : Bool) {ts : List Token} (hts : Look.goesOn ts = false) :
    type ρ plus true (.front ((Ty.paren t).tokens ++ ts)) = .ok (.paren t, .front ts) := by
  have hstart : Look.startsType t.tokens = true := by simpa using Ty.startsType_tokens h []
  have hinner : ρ.ty true (.front t.tokens) = .ok (t, .front []) := by
    simpa using hread true [] rfl
  have hcomma : Look.op "," [] = false := rfl
  have hcontent : inParens ρ (.front t.tokens) = .ok (.single t, .front []) := by
    simp [inParens, Look.not_isEmpty_of_startsType hstart, Look.not_lifetime_of_startsType hstart,
      Look.not_op_of_startsType hstart (s := "?") rfl (by decide), hinner, hcomma]
  have hgroup := openGroup_front (d := .paren) hcontent ts
  have hplus : addedBoundsStrict ρ (Token.sizeList ts + 1) (.front ts) = .ok ([], .front ts) := by
    simp [addedBoundsStrict, Look.not_op_of_goesOn hts (s := "+") (by decide)]
  have hfrom : parenTypeFrom ρ plus (.single t) (.front ts) = .ok (.paren t, .front ts) := by
    cases hbound : asBound? t with
    | none => simp [parenTypeFrom, hbound]
    | some us => cases plus <;> simp [parenTypeFrom, hbound, hplus]
  have hparen : parenType ρ plus (.front (Token.parens t.tokens :: ts)) =
      .ok (.paren t, .front ts) := by
    simp [parenType, Token.parens, hgroup, hfrom]
  exact hparen

theorem type_slice {ρ : Rules} {t : Ty} (hread : ReadsType ρ t) (plus : Bool) (ts : List Token) :
    type ρ plus true (.front ((Ty.slice t).tokens ++ ts)) = .ok (.slice t, .front ts) := by
  have hinner : ρ.ty true (.front t.tokens) = .ok (t, .front []) := by
    simpa using hread true [] rfl
  have hsemi : Look.op ";" [] = false := rfl
  have hbracket : bracketType ρ (.front (Token.enclose .bracket t.tokens :: ts)) =
      .ok (.slice t, .front ts) := by
    refine inGroup_front ?_ ts
    simp [hinner, hsemi]
  exact hbracket

theorem type_reference {ρ : Rules} {t : Ty} (h : t.isTree = true) (hread : ReadsType ρ t)
    (lifetime : Option String) (mutable plus : Bool) {ts : List Token} (hts : Look.goesOn ts = false) :
    type ρ plus true (.front ((Ty.reference lifetime mutable t).tokens ++ ts)) =
      .ok (.reference lifetime mutable t, .front ts) := by
  have hstart := Ty.startsType_tokens h ts
  have hmut : (Look.keyword "mut" (t.tokens ++ ts)) = false :=
    Look.not_keyword_of_startsType hstart (by decide)
  have hmark : keyword? "mut" (.front ((if mutable then [Token.word "mut"] else []) ++
      (t.tokens ++ ts))) =
        .ok (if mutable then [Token.word "mut"] else [], .front (t.tokens ++ ts)) := by
    cases mutable with
    | true => exact keyword?_front "mut" _
    | false => exact keyword?_of_not hmut
  have hlifetime : optionally Look.lifetime Parser.lifetime (.front ((lifetime.map Token.tick).toList ++
      ((if mutable then [Token.word "mut"] else []) ++ (t.tokens ++ ts)))) =
      .ok (lifetime, .front ((if mutable then [Token.word "mut"] else []) ++ (t.tokens ++ ts))) := by
    cases lifetime with
    | some x => rw [optionally_of_ahead rfl]; rfl
    | none =>
        refine optionally_of_not ?_ _
        cases mutable with
        | true => rfl
        | false => exact Look.not_lifetime_of_startsType hstart
  have hreference : referenceType ρ (.front (Token.op "&" ++ ((lifetime.map Token.tick).toList ++
      ((if mutable then [Token.word "mut"] else []) ++ (t.tokens ++ ts))))) =
      .ok (.reference lifetime mutable t, .front ts) := by
    simp only [referenceType, bind_apply, discard_apply, op_front (s := "&") (by decide), hlifetime,
      hmark, hread false ts hts]
    cases mutable <;> rfl
  rw [Ty.tokens]
  simp only [List.append_assoc]
  exact hreference

theorem pathWordAhead_word (x : String) (ts : List Token) :
    pathWordAhead (Token.word x :: ts) = isPathWord x := by
  have hname : Look.name (Token.word x :: ts) = !Look.keywords.contains x := rfl
  have hwords : Look.anyKeyword ["super", "self", "Self", "crate"] (Token.word x :: ts) =
      ["super", "self", "Self", "crate"].contains x := by
    simp [Look.anyKeyword, Bool.beq_eq_decide_eq]
  rw [pathWordAhead, isPathWord, hname, hwords]

/-- A path is either rooted, or begins with a word that no sign of a compiler's own follows. -/
theorem path_cases {p : Path} (hp : p.toTy.isTree = true) {ts : List Token}
    (hts : Look.op "#" ts = false) :
    (∃ us, p.tokens ++ ts = Token.op "::" ++ us) ∨
      ∃ x us, p.tokens ++ ts = Token.word x :: us ∧ isPathWord x = true ∧ Look.op "#" us = false := by
  obtain ⟨rooted, init, last⟩ := p
  cases rooted with
  | true =>
      exact .inl ⟨Segment.initTokens init ++ last.tokens ++ ts, by
        simp [Path.tokens, Path.toTy, Ty.tokens]⟩
  | false =>
      refine .inr ?_
      have hsegment : ∀ s : Segment, s.isTree = true → ∀ us, Look.op "#" us = false →
          ∃ x vs, s.tokens ++ us = Token.word x :: vs ∧ isPathWord x = true ∧
            Look.op "#" vs = false := by
        intro s hs us hus
        have hname := Segment.isPathWord_name hs
        cases s with
        | bare x => exact ⟨x, us, rfl, hname, hus⟩
        | generic x turbofish args trailing =>
            cases turbofish <;> exact ⟨x, _, rfl, hname, rfl⟩
      rw [Path.toTy, Ty.isTree, Bool.and_eq_true] at hp
      cases init with
      | nil => exact hsegment last hp.2 ts hts
      | cons s ss =>
          rw [Segment.listIsTree, Bool.and_eq_true] at hp
          obtain ⟨x, vs, hvs, hx, hhash⟩ := hsegment s hp.1.1
            (Token.op "::" ++ (Segment.initTokens ss ++ last.tokens ++ ts)) rfl
          refine ⟨x, vs, ?_, hx, hhash⟩
          rw [← hvs]
          simp [Path.tokens, Path.toTy, Ty.tokens, Segment.initTokens]

/-- What a path begins with is taken for nothing else. -/
theorem path_ahead {p : Path} (hp : p.toTy.isTree = true) {ts : List Token}
    (hts : Look.op "#" ts = false) :
    Look.invisible (p.tokens ++ ts) = false ∧ Look.group .paren (p.tokens ++ ts) = false ∧
      builtinAhead (p.tokens ++ ts) = false ∧ pathAhead (p.tokens ++ ts) = true := by
  rcases path_cases hp hts with ⟨us, hus⟩ | ⟨x, us, hus, hx, hhash⟩
  · rw [hus]
    exact ⟨rfl, rfl, rfl, rfl⟩
  · rw [hus]
    have hsecond : Look.second (Look.op "#") (Token.word x :: us) = false := hhash
    have hword := pathWordAhead_word x us
    exact ⟨rfl, rfl, by simp [builtinAhead, hsecond], by simp [pathAhead, hword, hx]⟩

theorem not_bangAhead {ts : List Token} (hts : Look.goesOn ts = false) : bangAhead ts = false := by
  simp [bangAhead, Look.opBut, Look.not_op_of_goesOn hts (s := "!") (by decide)]

/-- What follows a path is not taken for a part of it. -/
theorem anyPath_front {inExpr : Bool} {ρ : Rules} {p : Path} (hp : p.toTy.isTree = true)
    (hs : ∀ s ∈ p.init ++ [p.last], ReadsSegment inExpr ρ s) {ts : List Token}
    (hcolons : Look.op "::" ts = false) (hless : Look.op "<" ts = false) :
    anyPath inExpr ρ (.front (p.tokens ++ ts)) = .ok (p.toTy, .front ts) := by
  have hangle : angleAhead inExpr ts = false := by
    cases inExpr <;> simp [angleAhead, Look.opBut, hless, hcolons]
  have hsegment : segmentAhead ts = false := by
    simp [segmentAhead, hcolons]
  have hread := path_front hs hangle hsegment
  have hstart : Look.op "<" (p.tokens ++ ts) = false :=
    Look.not_op_of_startsType (Ty.startsType_tokens hp ts) rfl (by decide)
  simp [anyPath, hstart, hread]

/-- What begins with a path is read as that, and what may follow it. -/
theorem type_eq_pathType {ρ : Rules} {p : Path} (hp : p.toTy.isTree = true) (plus : Bool)
    {ts : List Token} (hts : Look.op "#" ts = false) :
    type ρ plus true (.front (p.tokens ++ ts)) = pathType ρ none plus (.front (p.tokens ++ ts)) := by
  have hstart : Look.startsType (p.tokens ++ ts) = true := Ty.startsType_tokens hp ts
  have hfor := Look.not_keyword_of_startsType hstart (k := "for") (by decide)
  have hfn : fnAhead (p.tokens ++ ts) = false :=
    Look.not_anyKeyword_of_startsType hstart (by decide)
  obtain ⟨hinvisible, hparen, hbuiltin, hpath⟩ := path_ahead hp hts
  simp [type, hinvisible, binder?, optionally_of_not hfor, typeFrom, hparen, hfn, hbuiltin, hpath]

theorem type_path {ρ : Rules} {p : Path} (hp : p.toTy.isTree = true)
    (hs : ∀ s ∈ p.init ++ [p.last], ReadsSegment false ρ s) (plus : Bool) {ts : List Token}
    (hts : Look.goesOn ts = false) :
    type ρ plus true (.front (p.tokens ++ ts)) = .ok (p.toTy, .front ts) := by
  have hplus : addedBounds ρ (Token.sizeList ts + 1) (.front ts) = .ok ([], .front ts) := by
    simp [addedBounds, Look.not_op_of_goesOn hts (s := "+") (by decide)]
  have hany := anyPath_front hp hs (Look.not_op_of_goesOn hts (s := "::") (by decide))
    (Look.not_op_of_goesOn hts (s := "<") (by decide))
  rw [type_eq_pathType hp plus (Look.not_op_of_goesOn hts (s := "#") (by decide))]
  cases plus <;> simp [pathType, hany, Path.toTy, not_bangAhead hts, hplus]

/-! ## Rules -/

theorem rules_ty (d : Nat) (plus : Bool) : (rules (d + 1)).ty plus = type (rules d) plus true := rfl

theorem rules_arg (d : Nat) : (rules (d + 1)).arg = arg (rules d) := rfl

mutual

/-- A type that is a tree is read back by rules that reach deeper than it has tokens. -/
theorem readsType_of_isTree (t : Ty) (h : t.isTree = true) (d : Nat)
    (hd : Token.sizeList t.tokens < d) : ReadsType (rules d) t := by
  intro plus ts hts
  obtain ⟨d, rfl⟩ := Nat.exists_eq_succ_of_ne_zero (Nat.ne_zero_of_lt hd)
  rw [rules_ty]
  -- what a type is made of has fewer tokens, and is left to rules that are one less deep
  match t with
  | .group u =>
      rw [Ty.tokens, Token.sizeList_group] at hd
      exact type_group (readsType_of_isTree u h d (Nat.lt_of_succ_lt_succ hd)) plus hts
  | .paren u =>
      rw [Ty.tokens, Token.parens, Token.sizeList_group] at hd
      exact type_paren (t := u) h (readsType_of_isTree u h d (Nat.lt_of_succ_lt_succ hd)) plus hts
  | .slice u =>
      rw [Ty.tokens, Token.sizeList_group] at hd
      exact type_slice (readsType_of_isTree u h d (Nat.lt_of_succ_lt_succ hd)) plus ts
  | .reference l m u =>
      have hsign : Token.sizeList (Token.op "&") = 1 := rfl
      simp only [Ty.tokens, Token.sizeList_append, hsign] at hd
      exact type_reference (t := u) h (readsType_of_isTree u h d (by omega)) l m plus hts
  | .path rooted init last =>
      have htree := h
      rw [Ty.isTree, Bool.and_eq_true] at htree
      have hsize : ∀ s ∈ init ++ [last], Token.sizeList s.tokens ≤ d := fun s hs =>
        Nat.le_trans (Path.size_segment_le (p := ⟨rooted, init, last⟩) hs) (Nat.le_of_lt_succ hd)
      refine type_path (p := ⟨rooted, init, last⟩) h (fun s hs => ?_) plus hts
      rcases List.mem_append.1 hs with hinit | hlast
      · exact readsSegment_of_mem init htree.1 d
          (fun s hs => hsize s (List.mem_append_left _ hs)) s hinit
      · obtain rfl := List.mem_singleton.1 hlast
        exact readsSegment_of_isTree s htree.2 d (hsize s (by simp))
  | .qualified .. | .bound .. | .other _ => cases h

theorem readsSegment_of_isTree (s : Segment) (h : s.isTree = true) (d : Nat)
    (hd : Token.sizeList s.tokens ≤ d) : ReadsSegment false (rules d) s := by
  match s with
  | .bare x => exact readsSegment_bare h
  | .generic x turbofish args trailing =>
      have htree := h
      simp only [Segment.isTree, Bool.and_eq_true, beq_iff_eq] at htree
      obtain ⟨⟨⟨-, hargs⟩, hsorted⟩, -⟩ := htree
      refine readsSegment_generic h (fun h => Bool.noConfusion h) (readsArg_of_mem args hargs d ?_)
      intro a ha
      have hsize := Segment.size_arg_lt x turbofish trailing hsorted ha
      omega

theorem readsSegment_of_mem (ss : List Segment) (h : Segment.listIsTree ss = true) (d : Nat)
    (hd : ∀ s ∈ ss, Token.sizeList s.tokens ≤ d) : ∀ s ∈ ss, ReadsSegment false (rules d) s := by
  match ss with
  | [] => exact fun s hs => absurd hs List.not_mem_nil
  | s :: ss =>
      rw [Segment.listIsTree, Bool.and_eq_true] at h
      have hs := readsSegment_of_isTree s h.1 d (hd s List.mem_cons_self)
      have hss := readsSegment_of_mem ss h.2 d fun t ht => hd t (List.mem_cons_of_mem s ht)
      exact List.forall_mem_cons.2 ⟨hs, hss⟩

theorem readsArg_of_isTree (a : TyArg) (h : a.isTree = true) (d : Nat)
    (hd : Token.sizeList a.tokens.2 + 1 < d) : ReadsArg (rules d) a := by
  obtain ⟨d, rfl⟩ := Nat.exists_eq_succ_of_ne_zero (Nat.ne_zero_of_lt hd)
  match a with
  | .type t =>
      intro ts hts
      rw [rules_arg]
      exact arg_type h (readsType_of_isTree t h d (Nat.lt_of_succ_lt_succ hd)) hts
  | .lifetime x => exact fun ts hts => arg_lifetime hts
  | .other us => cases h

theorem readsArg_of_mem (as : List TyArg) (h : TyArg.listIsTree as = true) (d : Nat)
    (hd : ∀ a ∈ as, Token.sizeList a.tokens.2 + 1 < d) : ∀ a ∈ as, ReadsArg (rules d) a := by
  match as with
  | [] => exact fun a ha => absurd ha List.not_mem_nil
  | a :: as =>
      rw [TyArg.listIsTree, Bool.and_eq_true] at h
      have ha := readsArg_of_isTree a h.1 d (hd a List.mem_cons_self)
      have has := readsArg_of_mem as h.2 d fun b hb => hd b (List.mem_cons_of_mem a hb)
      exact List.forall_mem_cons.2 ⟨ha, has⟩

end

end RowDerive.Grammar
