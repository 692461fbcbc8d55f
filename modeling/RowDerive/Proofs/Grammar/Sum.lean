import RowDerive.Proofs.Grammar.Type

/-!
# Sums of paths

Behind a path other paths may be added, each after a `+`, and a last `+` may be left open. The sum is read
up to a word that follows it. Where the `+` is left open the word is read as another path, and `as` is
none.
-/

namespace RowDerive

open RowDerive.Parser RowDerive.Grammar

/-- The paths, each after a `+`. -/
def Path.addedTokens (qs : List Path) : List Token := qs.flatMap fun q => Token.op "+" ++ q.tokens

/-- The sum of paths, perhaps with a `+` left open. -/
def Ty.sum (p : Path) (qs : List Path) (isOpen : Bool) : Ty :=
  .other (p.tokens ++ (Path.addedTokens qs ++ if isOpen then Token.op "+" else []))

namespace Grammar

variable {ρ : Rules} {q : Path} {ts us : List Token}

/-- The reader reads every segment of the path back. -/
def ReadsSegments (ρ : Rules) (q : Path) : Prop := ∀ s ∈ q.init ++ [q.last], ReadsSegment false ρ s

theorem readsSegments_of_isTree {d : Nat} (h : q.toTy.isTree = true) (hd : Token.sizeList q.tokens ≤ d) :
    ReadsSegments (rules d) q := by
  rw [Path.toTy, Ty.isTree, Bool.and_eq_true] at h
  have hsize : ∀ s ∈ q.init ++ [q.last], Token.sizeList s.tokens ≤ d := fun s hs =>
    Nat.le_trans (Path.size_segment_le hs) hd
  intro s hs
  rcases List.mem_append.1 hs with hinit | hlast
  · exact readsSegment_of_mem q.init h.1 d (fun s hs => hsize s (List.mem_append_left _ hs)) s hinit
  · obtain rfl := List.mem_singleton.1 hlast
    exact readsSegment_of_isTree _ h.2 d (hsize _ hs)

/-! ## One path -/

/-- A `+` or `as` is ahead. -/
def EndsPath (ts : List Token) : Prop := (∃ us, ts = Token.op "+" ++ us) ∨ ∃ us, ts = Token.word "as" :: us

theorem EndsPath.not_sharp (h : EndsPath ts) : Look.op "#" ts = false := by
  rcases h with ⟨us, rfl⟩ | ⟨us, rfl⟩ <;> rfl

theorem not_group_of_path (hq : q.toTy.isTree = true) (hts : Look.op "#" ts = false) {d : Delimiter} :
    Look.group d (q.tokens ++ ts) = false := by
  rcases path_cases hq hts with ⟨us, hus⟩ | ⟨x, us, hus, -, -⟩
  · rw [hus]
    rfl
  · rw [hus]
    rfl

theorem boundAhead_of_path (hq : q.toTy.isTree = true) (hts : Look.op "#" ts = false) :
    boundAhead false (q.tokens ++ ts) = true := by
  rcases path_cases hq hts with ⟨us, hus⟩ | ⟨x, us, hus, -, -⟩
  · rw [hus]
    rfl
  · rw [hus]
    rfl

/-- A path is read as a bound. -/
theorem bound_front (hq : q.toTy.isTree = true) (hs : ReadsSegments ρ q) (hts : EndsPath ts) :
    bound ρ false false (.front (q.tokens ++ ts)) = .ok (⟨true, q.tokens, 0⟩, .front ts) := by
  obtain ⟨hcolons, hless, hcall⟩ :
      Look.op "::" ts = false ∧ Look.op "<" ts = false ∧ callAhead ts = false := by
    rcases hts with ⟨us, rfl⟩ | ⟨us, rfl⟩ <;> exact ⟨rfl, rfl, rfl⟩
  have hgroup (d : Delimiter) : Look.group d (q.tokens ++ ts) = false := not_group_of_path hq hts.not_sharp
  have hstart : Look.startsType (q.tokens ++ ts) = true := Ty.startsType_tokens hq ts
  have hkeyword : ∀ k ∈ ["use", "for", "const"], Look.keyword k (q.tokens ++ ts) = false := fun k hk =>
    Look.not_keyword_of_startsType hstart (by revert k; decide)
  have hangle : angleAhead false ts = false := by simp [angleAhead, Look.opBut, hless, hcolons]
  have hsegment : segmentAhead ts = false := by simp [segmentAhead, hcolons]
  have hpath : traitPath ρ (.front (q.tokens ++ ts)) = .ok (q.tokens, .front ts) := by
    cases hargs : q.last.hasArgs <;> simp [traitPath, path_front hs hangle hsegment, hargs, hcall]
  have hrelaxed := Look.not_op_of_startsType hstart (s := "?") rfl (by decide)
  have htrait : traitBound ρ false (.front (q.tokens ++ ts)) = .ok ((false, q.tokens), .front ts) := by
    simp [traitBound, binder?, optionally_of_not (hkeyword "for" (by decide)), constMark,
      hgroup, hkeyword, optionally_of_not hrelaxed, hpath]
  simp [bound, boundOf, traitAsBound, Look.not_lifetime_of_startsType hstart, hkeyword,
    hgroup, htrait]
  rfl

/-- The word `as` is read as no bound. -/
theorem bound_as (ρ : Rules) (us : List Token) :
    ∃ e, bound ρ false false (.front (Token.word "as" :: us)) = .error e :=
  ⟨_, rfl⟩

/-! ## Paths added -/

theorem endsPath_append (qs : List Path) (hts : EndsPath ts) : EndsPath (Path.addedTokens qs ++ ts) := by
  cases qs with
  | nil => exact hts
  | cons q qs =>
      rw [Path.addedTokens, List.flatMap_cons, List.append_assoc, List.append_assoc]
      exact .inl ⟨_, rfl⟩

/-- The paths that are added are read one after the other, then what follows them. -/
theorem addedBounds_front {qs : List Path} (hqs : ∀ q ∈ qs, q.toTy.isTree = true ∧ ReadsSegments ρ q)
    (hts : EndsPath ts) (n : Nat) :
    addedBounds ρ (n + qs.length) (.front (Path.addedTokens qs ++ ts)) =
      (addedBounds ρ n >>= fun us => pure (Path.addedTokens qs ++ us)) (.front ts) := by
  induction qs with
  | nil =>
      rw [bind_apply]
      show addedBounds ρ n (.front ts) = _
      cases addedBounds ρ n (.front ts) <;> rfl
  | cons q qs ih =>
      obtain ⟨⟨hq, hs⟩, hqs⟩ := List.forall_mem_cons.1 hqs
      have hends := endsPath_append qs hts
      have hbound := bound_front hq hs hends
      have hahead := boundAhead_of_path hq hends.not_sharp
      have htokens : Path.addedTokens (q :: qs) ++ ts =
          Token.op "+" ++ (q.tokens ++ (Path.addedTokens qs ++ ts)) := by
        simp [Path.addedTokens]
      have hplus : Look.op "+" (Token.op "+" ++ (q.tokens ++ (Path.addedTokens qs ++ ts))) = true := rfl
      rw [htokens, List.length_cons, ← Nat.add_assoc, addedBounds]
      simp only [bind_apply, peek_front, hplus, if_true, op_front (s := "+") (by decide), hahead, hbound,
        ih hqs, pure_apply]
      cases addedBounds ρ n (.front ts) with
      | error e => rfl
      | ok r => simp [Path.addedTokens]

/-- The bound on the number of paths is enough for those that are there. -/
theorem addedBounds_ahead {qs : List Path} (hqs : ∀ q ∈ qs, q.toTy.isTree = true ∧ ReadsSegments ρ q)
    (hts : EndsPath ts) : ∃ n,
    addedBounds ρ (Token.sizeList (Path.addedTokens qs ++ ts) + 1) (.front (Path.addedTokens qs ++ ts)) =
      (addedBounds ρ (n + 1) >>= fun us => pure (Path.addedTokens qs ++ us)) (.front ts) := by
  have hlength : qs.length ≤ Token.sizeList (Path.addedTokens qs) :=
    Token.length_le_sizeList_flatMap fun _ _ => List.cons_ne_nil _ _
  obtain ⟨n, hn⟩ : ∃ n, Token.sizeList (Path.addedTokens qs ++ ts) + 1 = n + 1 + qs.length := by
    refine ⟨Token.sizeList (Path.addedTokens qs ++ ts) - qs.length, ?_⟩
    rw [Token.sizeList_append]
    omega
  exact ⟨n, by rw [hn, addedBounds_front hqs hts]⟩

/-! ## Sums -/

section

variable {p : Path} {qs : List Path} (hp : p.toTy.isTree = true) (hs : ReadsSegments ρ p)
  (hqs : ∀ q ∈ qs, q.toTy.isTree = true ∧ ReadsSegments ρ q)

include hp hs

/-- Behind the first path of a sum the others are read. -/
theorem type_sum (hts : EndsPath ts) :
    type ρ true true (.front (p.tokens ++ ts)) =
      (addedBounds ρ (Token.sizeList ts + 1) >>= fun us =>
        pure (if us.isEmpty then p.toTy else .other (p.tokens ++ us))) (.front ts) := by
  obtain ⟨hcolons, hless, hbang⟩ :
      Look.op "::" ts = false ∧ Look.op "<" ts = false ∧ bangAhead ts = false := by
    rcases hts with ⟨us, rfl⟩ | ⟨us, rfl⟩ <;> exact ⟨rfl, rfl, rfl⟩
  have hany := anyPath_front hp hs hcolons hless
  rw [type_eq_pathType hp true hts.not_sharp]
  simp only [pathType, bind_apply, hany, Path.toTy, peek_front, hbang, Bool.and_false,
    Bool.false_eq_true, if_false, if_true, ahead_front]
  cases addedBounds ρ (Token.sizeList ts + 1) (.front ts) with
  | error e => rfl
  | ok r =>
      obtain ⟨us, c⟩ := r
      cases us <;> rfl

include hqs

/-- In front of `as` a sum is read. -/
theorem type_sum_as (us : List Token) :
    type ρ true true (.front ((Ty.sum p qs false).tokens ++ Token.word "as" :: us)) =
      .ok (if qs.isEmpty then p.toTy else .sum p qs false, .front (Token.word "as" :: us)) := by
  have has : EndsPath (Token.word "as" :: us) := .inr ⟨us, rfl⟩
  obtain ⟨n, hn⟩ := addedBounds_ahead hqs has
  have htokens : (Ty.sum p qs false).tokens ++ Token.word "as" :: us =
      p.tokens ++ (Path.addedTokens qs ++ Token.word "as" :: us) := by
    simp [Ty.sum, Ty.tokens]
  have hnone : addedBounds ρ (n + 1) (.front (Token.word "as" :: us)) =
      .ok ([], .front (Token.word "as" :: us)) := rfl
  rw [htokens, type_sum hp hs (endsPath_append qs has), bind_apply, hn]
  simp only [bind_apply, hnone, pure_apply, List.append_nil]
  cases qs with
  | nil => rfl
  | cons q qs =>
      have hne : (Path.addedTokens (q :: qs)).isEmpty = false := rfl
      simp [hne, Ty.sum]

/-- With a `+` left open it is not. -/
theorem type_sum_open (us : List Token) :
    ∃ e, type ρ true true (.front ((Ty.sum p qs true).tokens ++ Token.word "as" :: us)) = .error e := by
  have hplus : EndsPath (Token.op "+" ++ Token.word "as" :: us) := .inl ⟨_, rfl⟩
  obtain ⟨n, hn⟩ := addedBounds_ahead hqs hplus
  have htokens : (Ty.sum p qs true).tokens ++ Token.word "as" :: us =
      p.tokens ++ (Path.addedTokens qs ++ (Token.op "+" ++ Token.word "as" :: us)) := by
    simp [Ty.sum, Ty.tokens]
  obtain ⟨e, he⟩ := bound_as ρ us
  have herror : addedBounds ρ (n + 1) (.front (Token.op "+" ++ Token.word "as" :: us)) = .error e := by
    have hahead : boundAhead false (Token.word "as" :: us) = true := rfl
    have hlook : Look.op "+" (Token.op "+" ++ Token.word "as" :: us) = true := rfl
    simp only [addedBounds, bind_apply, peek_front, hlook, if_true, op_front (s := "+") (by decide), hahead,
      he]
  refine ⟨e, ?_⟩
  rw [htokens, type_sum hp hs (endsPath_append qs hplus), bind_apply, hn]
  simp only [bind_apply, herror]

end

end Grammar

end RowDerive
