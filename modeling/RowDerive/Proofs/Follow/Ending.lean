import RowDerive.Grammar.Generics
import RowDerive.Proofs.Follow.Token

/-!
# Tokens that end a part

Behind a method stands the semicolon that parts it from the next one, the next one where that is missing,
or its body; behind the value of a setting stands a comma, and behind the type of an adapter `as`. Where
such tokens follow, no look takes them for a part of what is read, but for the few that look for a word:
one that a method may begin with, or `as` behind a sign that asks for one.
-/

namespace RowDerive

open RowDerive.Parser RowDerive.Grammar

/-! ## How a method begins -/

namespace Token

/-- Tokens that show begin as a signature does from its `unsafe` on. -/
inductive StartsFn : List Token → Prop
  | fn {x : String} {a b : Span} {ts : List Token} : StartsFn (ident "fn" a :: ident x b :: ts)
  | abi {a : Span} {ts : List Token} (h : StartsFn ts) : StartsFn (ident "extern" a :: ts)
  | namedAbi {x : String} {a b : Span} {ts : List Token} (h : StartsFn ts) :
    StartsFn (ident "extern" a :: literal x b :: ts)
  | unsafety {a : Span} {ts : List Token} (h : StartsFn ts) : StartsFn (ident "unsafe" a :: ts)

/-- The keywords that may follow the `const` of a method. -/
def afterConst : List String := ["async", "unsafe", "extern", "fn"]

/-- Tokens that show begin as a method does. -/
inductive StartsMethod : List Token → Prop
  | attr {joint : Bool} {a o c : Span} {us ts : List Token} :
    StartsMethod (punct '#' joint a :: group .bracket us o c :: ts)
  | pub {a : Span} {ts : List Token} : StartsMethod (ident "pub" a :: ts)
  | constness {k : String} {a b : Span} {ts : List Token} (h : k ∈ afterConst) :
    StartsMethod (ident "const" a :: ident k b :: ts)
  | asyncness {a : Span} {ts : List Token} : StartsMethod (ident "async" a :: ts)
  | fn {ts : List Token} (h : StartsFn ts) : StartsMethod ts

theorem StartsFn.append {ts : List Token} (h : StartsFn ts) (us : List Token) : StartsFn (ts ++ us) := by
  induction h with
  | fn => exact .fn
  | abi _ ih => exact .abi ih
  | namedAbi _ ih => exact .namedAbi ih
  | unsafety _ ih => exact .unsafety ih

theorem StartsMethod.append {ts : List Token} (h : StartsMethod ts) (us : List Token) :
    StartsMethod (ts ++ us) := by
  cases h with
  | attr => exact .attr
  | pub => exact .pub
  | constness h => exact .constness h
  | asyncness => exact .asyncness
  | fn h => exact .fn (h.append us)

/-- The keywords that a method may begin with. -/
def methodKeywords : List String := "pub" :: "const" :: afterConst

/-- The characters that part methods or settings, or that a method may begin with. -/
def endingChars : List Char := [';', ',', '#']

/-- The words that may follow a type, or that a method may begin with. -/
def endingWords : List String := "as" :: methodKeywords

/-- Whether the token may follow a part: a separator, `as`, a body, or the first of a method. -/
def isEnding : Token → Bool
  | punct c _ _ => endingChars.contains c
  | ident k _ => endingWords.contains k
  | group d _ _ _ => d == .brace
  | lifetime .. | literal .. => false

/-- Whether the token follows a part and begins no method. -/
def isParting : Token → Bool
  | punct c _ _ => c == ';' || c == ','
  | ident k _ => k == "as"
  | group d _ _ _ => d == .brace
  | lifetime .. | literal .. => false

theorem StartsFn.exists_head {ts : List Token} (h : StartsFn ts) :
    ∃ k a us, ts = ident k a :: us ∧ k ∈ ["unsafe", "extern", "fn"] := by
  cases h <;> exact ⟨_, _, _, rfl, by decide⟩

theorem StartsMethod.exists_head {ts : List Token} (h : StartsMethod ts) :
    ∃ t us, ts = t :: us ∧ t.isEnding = true := by
  cases h with
  | attr | pub | constness | asyncness => exact ⟨_, _, rfl, rfl⟩
  | fn h =>
      obtain ⟨k, a, us, rfl, hk⟩ := h.exists_head
      have hsubset : ["unsafe", "extern", "fn"] ⊆ endingWords := by decide
      exact ⟨_, us, rfl, List.contains_iff_mem.2 (hsubset hk)⟩

end Token

/-! ## What may follow -/

/-- A semicolon or a comma. -/
def Parser.Look.separator : Look := Look.anyOp [";", ","]

/-- A separator is ahead. -/
def Token.Separated (ts : List Token) : Prop := Look.separator ts = true

/-- Whether what is ahead follows a part and begins no method. -/
def Parser.Look.parting : Look := Look.next Token.isParting

/-- What may follow a part: what parts it from the rest, or a method. -/
class Token.Ending (s : List Token) : Prop where
  ends : Look.parting s = true ∨ Token.StartsMethod (Token.openedList s)

namespace Token

/-- Where a part is not parted from the rest there is a method. -/
theorem Ending.startsMethod {s : List Token} [Ending s] (h : Look.parting s = false) :
    StartsMethod (openedList s) :=
  Ending.ends.resolve_left (Bool.eq_false_iff.1 h)

theorem exists_punct_of_op {str : String} {c : Char} (hstr : str.toList = [c]) {ts : List Token}
    (h : Look.op str ts = true) : ∃ joint a us, reveal ts = punct c joint a :: us := by
  rw [Look.op, hstr] at h
  cases hts : reveal ts with
  | nil =>
      rw [hts] at h
      cases h
  | cons t us =>
      rw [hts] at h
      cases t with
      | punct d joint a =>
          obtain rfl : c = d := beq_iff_eq.1 h
          exact ⟨_, _, _, rfl⟩
      | ident | lifetime | literal | group => cases h

theorem separator_cases {s : List Token} (h : Look.separator s = true) :
    ∃ c joint a us, reveal s = punct c joint a :: us ∧ (c = ';' ∨ c = ',') := by
  obtain ⟨str, hmem, hop⟩ := List.any_eq_true.1 h
  rcases List.mem_cons.1 hmem with rfl | hmem
  · obtain ⟨joint, a, us, hs⟩ := exists_punct_of_op rfl hop
    exact ⟨_, _, _, _, hs, .inl rfl⟩
  · obtain rfl := List.mem_singleton.1 hmem
    obtain ⟨joint, a, us, hs⟩ := exists_punct_of_op rfl hop
    exact ⟨_, _, _, _, hs, .inr rfl⟩

theorem exists_of_parting {s : List Token} (h : Look.parting s = true) :
    ∃ t us, reveal s = t :: us ∧ t.isParting = true := by
  rw [Look.parting, Look.next] at h
  cases hs : reveal s with
  | nil =>
      rw [hs] at h
      cases h
  | cons t us =>
      rw [hs] at h
      exact ⟨t, us, rfl, h⟩

theorem isEnding_of_isParting {t : Token} (h : t.isParting = true) : t.isEnding = true := by
  cases t with
  | punct c joint a =>
      rcases Bool.or_eq_true_iff.1 h with hc | hc
      · obtain rfl := beq_iff_eq.1 hc
        rfl
      · obtain rfl := beq_iff_eq.1 hc
        rfl
  | ident k a =>
      obtain rfl := beq_iff_eq.1 h
      rfl
  | group d ts o c => exact h
  | lifetime | literal => cases h

/-- The first of the tokens that end a part. -/
theorem Ending.exists_head (s : List Token) [h : Ending s] :
    ∃ t us, reveal s = t :: us ∧ t.isEnding = true := by
  rcases h.ends with hparting | hmethod
  · obtain ⟨t, us, hs, ht⟩ := exists_of_parting hparting
    exact ⟨t, us, hs, isEnding_of_isParting ht⟩
  · obtain ⟨t, F, hF, ht⟩ := hmethod.exists_head
    obtain ⟨us, hs, -⟩ := exists_reveal_of_opened hF
    exact ⟨t, us, hs, ht⟩

/-- A method is parted from nothing by its own first token. -/
theorem not_parting_of_method {s : List Token} (h : StartsMethod (openedList s)) :
    Look.parting s = false := by
  rw [Bool.eq_false_iff]
  intro hparting
  obtain ⟨t, us, hs, ht⟩ := exists_of_parting hparting
  rw [openedList_of_reveal hs] at h
  generalize openedList us = F at h
  cases h with
  | attr | pub | asyncness | constness => cases ht
  | fn h =>
      obtain ⟨k, b, vs, hvs, hk⟩ := h.exists_head
      cases hvs
      obtain rfl := beq_iff_eq.1 ht
      exact absurd hk (by decide)

/-- What does not part tokens from the rest begins with no separator, and not with `as`. -/
theorem of_not_parting {s : List Token} (h : Look.parting s = false) :
    Look.op ";" s = false ∧ Look.op "," s = false ∧ Look.keyword "as" s = false := by
  rw [Look.parting, Look.next] at h
  rw [Look.op, Look.op, Look.keyword, Look.next]
  cases hs : reveal s with
  | nil => exact ⟨rfl, rfl, rfl⟩
  | cons t us =>
      rw [hs] at h
      cases t with
      | punct c joint a =>
          obtain ⟨hsemi, hcomma⟩ := Bool.or_eq_false_iff.1 h
          exact ⟨(BEq.comm ..).trans hsemi, (BEq.comm ..).trans hcomma, rfl⟩
      | ident x a => exact ⟨rfl, rfl, h⟩
      | lifetime | literal | group => exact ⟨rfl, rfl, rfl⟩

/-- The next token, if there is one, may follow a part. -/
def Ended (ts : List Token) : Prop := Look.only isEnding ts = true

/-- What shows begins as a method does, but may be cut short. -/
def CutMethod (ts : List Token) : Prop := ∃ F, StartsMethod (openedList ts ++ F)

theorem Blank.cutMethod {ts : List Token} (h : Blank ts) : CutMethod ts :=
  ⟨[ident "pub" .nowhere], by rw [openedList_of_reveal_nil h]; exact .pub⟩

theorem ended_of_opened {ts F vs : List Token} {t : Token} (h : openedList ts ++ F = t :: vs)
    (ht : t.isEnding = true) : Ended ts := by
  rw [Ended, Look.only]
  rcases reveal_opened ts with ⟨hnil, -⟩ | ⟨u, us, hcons, hopened⟩
  · rw [hnil]
    rfl
  · rw [hopened, List.cons_append] at h
    cases h
    rw [hcons]
    exact ht

theorem CutMethod.ended {ts : List Token} (h : CutMethod ts) : Ended ts := by
  obtain ⟨F, hF⟩ := h
  obtain ⟨t, us, hhead, ht⟩ := hF.exists_head
  exact ended_of_opened hhead ht

/-- After its `const` a method goes on with another keyword. -/
theorem StartsMethod.of_const {a : Span} {us : List Token} (h : StartsMethod (ident "const" a :: us)) :
    ∃ k b vs, us = ident k b :: vs ∧ k ∈ afterConst := by
  generalize hts : ident "const" a :: us = ts at h
  cases h with
  | attr => cases hts
  | pub | asyncness => simp at hts
  | constness hk =>
      cases hts
      exact ⟨_, _, _, rfl, hk⟩
  | fn h =>
      obtain ⟨k, b, vs, rfl, hk⟩ := h.exists_head
      cases hts
      exact absurd hk (by decide)

/-- What begins with `#` as a method does is an attribute. -/
theorem StartsMethod.of_sharp {joint : Bool} {a : Span} {us : List Token}
    (h : StartsMethod (punct '#' joint a :: us)) : ∃ vs o c ws, us = group .bracket vs o c :: ws := by
  generalize hts : punct '#' joint a :: us = ts at h
  cases h with
  | attr =>
      cases hts
      exact ⟨_, _, _, _, rfl⟩
  | pub | constness | asyncness => cases hts
  | fn h =>
      obtain ⟨k, b, vs, rfl, -⟩ := h.exists_head
      cases hts

theorem StartsMethod.startsFn {k : String} {a : Span} {us : List Token}
    (h : StartsMethod (ident k a :: us)) (hk : k ∈ ["unsafe", "extern", "fn"]) :
    StartsFn (ident k a :: us) := by
  generalize hts : ident k a :: us = ts at h
  cases h with
  | attr => cases hts
  | pub | constness | asyncness =>
      cases hts
      exact absurd hk (by decide)
  | fn h => exact h

theorem StartsFn.of_unsafe_word {a : Span} {us : List Token} (h : StartsFn (ident "unsafe" a :: us)) :
    StartsFn us := by
  generalize hts : ident "unsafe" a :: us = ts at h
  cases h with
  | fn | abi | namedAbi => simp at hts
  | unsafety h =>
      cases hts
      exact h

theorem StartsFn.of_extern_word {a : Span} {us : List Token} (h : StartsFn (ident "extern" a :: us)) :
    StartsFn us ∨ ∃ x b vs, us = literal x b :: vs ∧ StartsFn vs := by
  generalize hts : ident "extern" a :: us = ts at h
  cases h with
  | fn | unsafety => simp at hts
  | abi h =>
      cases hts
      exact .inl h
  | namedAbi h =>
      cases hts
      exact .inr ⟨_, _, _, rfl, h⟩

/-- After its `fn` a method goes on with its name. -/
theorem StartsFn.of_fn {a : Span} {us : List Token} (h : StartsFn (ident "fn" a :: us)) :
    ∃ x b vs, us = ident x b :: vs := by
  generalize hts : ident "fn" a :: us = ts at h
  cases h with
  | fn =>
      cases hts
      exact ⟨_, _, _, rfl⟩
  | abi | namedAbi | unsafety => simp at hts

theorem CutMethod.ended_of_const {ts us : List Token} {a : Span} (h : CutMethod ts)
    (hts : reveal ts = ident "const" a :: us) : Ended us := by
  obtain ⟨F, hF⟩ := h
  rw [openedList_of_reveal hts, List.cons_append] at hF
  obtain ⟨k, b, vs, hus, hk⟩ := hF.of_const
  have hsubset : afterConst ⊆ endingWords := by decide
  exact ended_of_opened hus (List.contains_iff_mem.2 (hsubset hk))

theorem Blank.cutMethod_append {ts s : List Token} (h : Blank ts) (hs : StartsMethod (openedList s)) :
    CutMethod (ts ++ s) :=
  ⟨[], by rwa [openedList_append, openedList_of_reveal_nil h, List.nil_append, List.append_nil]⟩

theorem Blank.ended_append {ts : List Token} (h : Blank ts) (s : List Token) [Ending s] :
    Ended (ts ++ s) := by
  obtain ⟨t, us, hs, ht⟩ := Ending.exists_head s
  rw [Ended, Look.only, reveal_append_of_nil h, hs]
  exact ht

/-! ## Tokens in front of `as` -/

/-- Whether the token is a sign behind which a word would be read on. -/
def isOpening : Token → Bool
  | punct c _ _ => c == '+' || c == ':'
  | ident .. | lifetime .. | literal .. | group .. => false

/-- The last of what shows is such a sign. -/
def OpenEnded (ts : List Token) : Prop := (openedList ts).getLast?.any isOpening = true

instance (ts : List Token) : Decidable (OpenEnded ts) := inferInstanceAs (Decidable (_ = true))

/-- If `as` follows, the tokens do not end with such a sign. -/
def Closed (s ts : List Token) : Prop := Look.keyword "as" s = true → ¬ OpenEnded ts

section

variable {s ts us vs : List Token}

theorem OpenEnded.of_suffix (h : openedList ts = us ++ openedList vs) (hvs : OpenEnded vs) :
    OpenEnded ts := by
  rw [OpenEnded] at hvs ⊢
  rw [h, List.getLast?_append]
  cases hlast : (openedList vs).getLast? with
  | none =>
      rw [hlast] at hvs
      cases hvs
  | some t => rwa [hlast] at hvs

theorem Closed.of_suffix (us : List Token) (h : openedList ts = us ++ openedList vs)
    (hts : Closed s ts) : Closed s vs :=
  fun hs hvs => hts hs (hvs.of_suffix h)

theorem Closed.of_reveal {t : Token} (h : reveal ts = t :: us) (hts : Closed s ts) : Closed s us :=
  hts.of_suffix [t] (openedList_of_reveal h)

/-- What shows of tokens shows of them once they are revealed. -/
theorem openedList_reveal (ts : List Token) : openedList (reveal ts) = openedList ts := by
  rcases reveal_opened ts with ⟨hnil, hopened⟩ | ⟨u, us, hcons, hopened⟩
  · rw [hnil, hopened]
    rfl
  · have hu : u.opened = [u] := by
      cases u with
      | group d vs o c =>
          cases d with
          | invisible => exact absurd rfl (ne_invisible_of_reveal hcons vs o c)
          | paren | bracket | brace => rfl
      | ident | lifetime | punct | literal => rfl
    rw [hcons, hopened, openedList, hu, List.singleton_append]

theorem Closed.drop_reveal (hts : Closed s ts) (n : Nat) : Closed s ((reveal ts).drop n) := by
  refine hts.of_suffix (openedList ((reveal ts).take n)) ?_
  rw [← openedList_append, List.take_append_drop, openedList_reveal]

/-- In front of no word the tokens may end with any sign. -/
theorem Closed.of_not (h : Look.keyword "as" s = false) : Closed s ts := by
  intro has
  rw [h] at has
  cases has

end

end Token

/-! ## Looks at what follows -/

namespace Parser.Look

/-- The look does not see what it looks for in what parts the tokens from the rest. -/
class Tight (s : List Token) (look : Look) : Prop where
  eq : ∀ ts, Token.Blank ts → parting s = true → look (ts ++ s) = false

variable {s : List Token} {p q : Look}

instance (priority := low) [h : Unseen Token.Ended p] : Unseen Token.CutMethod p :=
  ⟨fun ts hts => h.eq ts hts.ended⟩

instance (priority := low) [h : Unseen Token.CutMethod p] : Unseen Token.Blank p :=
  ⟨fun ts hts => h.eq ts hts.cutMethod⟩

/-- A look for what ends no part does not see what follows. -/
instance (priority := low) firm_of_near [Token.Ending s] [hnear : Near s p]
    [hunseen : Unseen Token.Ended p] : Firm s p where
  eq ts := by
    by_cases hts : Token.Blank ts
    · rw [hunseen.eq _ (hts.ended_append s), hunseen.eq _ hts.cutMethod.ended]
    · exact hnear.eq ts hts

instance (priority := low) [Token.Ending s] [h : Unseen Token.Ended p] : Tight s p where
  eq _ hts _ := h.eq _ (hts.ended_append s)

instance [hp : Tight s p] [hq : Tight s q] : Tight s fun ts => p ts || q ts where
  eq ts hts hs := by rw [hp.eq ts hts hs, hq.eq ts hts hs, Bool.or_false]

/-- A separator is no keyword. -/
instance (k : String) : Unseen Token.Separated (keyword k) where
  eq ts hts := by
    obtain ⟨c, joint, a, us, hreveal, -⟩ := Token.separator_cases hts
    rw [keyword, next, hreveal]
    rfl

instance : Unseen Token.Separated (op "#") where
  eq ts hts := by
    obtain ⟨c, joint, a, us, hreveal, rfl | rfl⟩ := Token.separator_cases hts <;>
      rw [op, hreveal] <;> rfl

/-- In front of what parts them from the rest nothing but this differs from the end of the tokens. -/
theorem Tight.firm [hnear : Near s p] [hblank : Unseen Token.Blank p] [htight : Tight s p]
    (h : parting s = true) : Firm s p where
  eq ts := by
    by_cases hts : Token.Blank ts
    · rw [htight.eq ts hts h, hblank.eq ts hts]
    · exact hnear.eq ts hts

theorem tight_next {p : Token → Bool} (h : ∀ t, t.isParting = true → p t = false) :
    Tight s (next p) where
  eq ts hts hs := by
    obtain ⟨t, us, hreveal, ht⟩ := Token.exists_of_parting hs
    rw [next, Token.reveal_append_of_nil hts, hreveal]
    exact h t ht

theorem tight_keyword {k : String} (h : k ≠ "as") : Tight s (keyword k) :=
  tight_next fun t ht => by
    cases t with
    | ident x a =>
        obtain rfl := beq_iff_eq.1 ht
        exact beq_eq_false_iff_ne.2 h.symm
    | lifetime | punct | literal | group => rfl

instance : Tight s (keyword "const") := tight_keyword (by decide)

instance : Tight s (op "#") where
  eq ts hts hs := by
    obtain ⟨t, us, hreveal, ht⟩ := Token.exists_of_parting hs
    rw [op, Token.reveal_append_of_nil hts, hreveal]
    cases t with
    | punct c joint a =>
        rcases Bool.or_eq_true_iff.1 ht with hc | hc
        · obtain rfl := beq_iff_eq.1 hc
          rfl
        · obtain rfl := beq_iff_eq.1 hc
          rfl
    | ident | lifetime | literal | group => rfl

/-! ### Tokens -/

theorem unseen_next {p : Token → Bool} (h : ∀ t, t.isEnding = true → p t = false) :
    Unseen Token.Ended (next p) :=
  ⟨fun _ hts => not_next_of_only hts h⟩

theorem unseen_keyword {k : String} (h : k ∉ Token.endingWords) : Unseen Token.Ended (keyword k) := by
  refine unseen_next fun t ht => ?_
  cases t with
  | ident x a =>
      refine beq_eq_false_iff_ne.2 ?_
      rintro rfl
      exact h (List.contains_iff_mem.1 ht)
  | lifetime | punct | literal | group => rfl

/-- A keyword that ends no part. -/
class InnerWord (k : String) : Prop where
  notMem : k ∉ Token.endingWords

instance {k : String} [h : InnerWord k] : Unseen Token.Ended (keyword k) := unseen_keyword h.notMem

instance : InnerWord "for" := ⟨by decide⟩
instance : InnerWord "Self" := ⟨by decide⟩
instance : InnerWord "self" := ⟨by decide⟩
instance : InnerWord "super" := ⟨by decide⟩
instance : InnerWord "crate" := ⟨by decide⟩
instance : InnerWord "try" := ⟨by decide⟩
instance : InnerWord "use" := ⟨by decide⟩
instance : InnerWord "mut" := ⟨by decide⟩
instance : InnerWord "where" := ⟨by decide⟩
instance : InnerWord "true" := ⟨by decide⟩
instance : InnerWord "false" := ⟨by decide⟩
instance : InnerWord "dyn" := ⟨by decide⟩
instance : InnerWord "impl" := ⟨by decide⟩
instance : InnerWord "builtin" := ⟨by decide⟩
instance : InnerWord "_" := ⟨by decide⟩

instance : Unseen Token.Ended (anyKeyword []) := ⟨fun _ _ => rfl⟩

instance {k : String} {ks : List String} [InnerWord k] [hks : Unseen Token.Ended (anyKeyword ks)] :
    Unseen Token.Ended (anyKeyword (k :: ks)) := by
  unfold anyKeyword at hks ⊢
  infer_instance

/-- Of all groups only one in braces may follow. -/
theorem unseen_group {d : Delimiter} (h : d ≠ .brace) : Unseen Token.Ended (group d) :=
  unseen_next fun t ht => by
    cases t with
    | group e =>
        obtain rfl := beq_iff_eq.1 ht
        exact beq_eq_false_iff_ne.2 h
    | ident | lifetime | punct | literal => rfl

instance : Unseen Token.Ended (group .paren) := unseen_group (by decide)
instance : Unseen Token.Ended (group .bracket) := unseen_group (by decide)

instance (d : Delimiter) : Unseen Token.Blank (group d) := inferInstanceAs (Unseen _ (next _))

instance : Unseen Token.Ended lifetime :=
  unseen_next fun t ht => by
    cases t with
    | lifetime => cases ht
    | ident | group | punct | literal => rfl

instance : Unseen Token.Ended stringLiteral :=
  unseen_next fun t ht => by
    cases t with
    | literal => cases ht
    | ident | group | punct | lifetime => rfl

instance : Unseen Token.Ended name :=
  unseen_next fun t ht => by
    cases t with
    | ident x a =>
        have hsubset : Token.endingWords ⊆ keywords := by decide
        have hx : keywords.contains x = true :=
          List.contains_iff_mem.2 (hsubset (List.contains_iff_mem.1 ht))
        show (!keywords.contains x) = false
        rw [hx]
        rfl
    | lifetime | group | punct | literal => rfl

/-! ### Operators -/

theorem opChars_nil (cs : List Char) : opChars cs [] = cs.isEmpty := by
  match cs with
  | [] | [_] | _ :: _ :: _ => rfl

theorem blank_op {str : String} {c : Char} {cs : List Char} (h : str.toList = c :: cs) :
    Unseen Token.Blank (op str) where
  eq ts hts := by rw [op, hts, h, opChars_nil]; rfl

/-- An operator of one character is that character, whatever follows it. -/
theorem near_op {str : String} {c : Char} (h : str.toList = [c]) : Near s (op str) where
  eq ts hts := by
    cases hcons : Token.reveal ts with
    | nil => exact absurd hcons hts
    | cons t us =>
        rw [op, op, Token.reveal_append_of_cons hcons, hcons, h]
        cases t <;> rfl

instance : Near s (op ",") := near_op rfl
instance : Near s (op ";") := near_op rfl
instance : Near s (op "#") := near_op rfl

instance : Unseen Token.Blank (op ",") := blank_op rfl
instance : Unseen Token.Blank (op "#") := blank_op rfl

/-- An operator that has no character which ends a part. -/
class Inner (str : String) : Prop where
  chars : ∃ c cs, str.toList = c :: cs ∧ ∀ d ∈ c :: cs, d ∉ Token.endingChars

theorem Inner.of_all {str : String} {c : Char} {cs : List Char} (h : str.toList = c :: cs)
    (hall : ((c :: cs).all fun d => !Token.endingChars.contains d) = true) : Inner str where
  chars := ⟨c, cs, h, fun d hd hmem => by
    have hne := List.all_eq_true.1 hall d hd
    rw [List.contains_iff_mem.2 hmem] at hne
    cases hne⟩

instance : Inner "::" := .of_all rfl rfl
instance : Inner ":" := .of_all rfl rfl
instance : Inner "<" := .of_all rfl rfl
instance : Inner "<=" := .of_all rfl rfl
instance : Inner ">" := .of_all rfl rfl
instance : Inner "+" := .of_all rfl rfl
instance : Inner "?" := .of_all rfl rfl
instance : Inner "->" := .of_all rfl rfl
instance : Inner "=" := .of_all rfl rfl
instance : Inner "&" := .of_all rfl rfl
instance : Inner "*" := .of_all rfl rfl
instance : Inner "!" := .of_all rfl rfl
instance : Inner "!=" := .of_all rfl rfl
instance : Inner "-" := .of_all rfl rfl

instance {str : String} [h : Inner str] : Unseen Token.Ended (op str) where
  eq ts hts := by
    obtain ⟨c, cs, hstr, hchars⟩ := h.chars
    exact not_op_of_only hts hstr fun _ _ =>
      Bool.eq_false_iff.2 fun hc => hchars c List.mem_cons_self (List.contains_iff_mem.1 hc)

instance (str : String) (others : List String) [h : Unseen Token.Ended (op str)] :
    Unseen Token.Ended (opBut str others) where
  eq ts hts := by rw [opBut, h.eq ts hts, Bool.false_and]

section

variable [Token.Ending s]

/-- No operator goes on in what follows. -/
theorem opChars_ending {c : Char} (hc : c ∉ Token.endingChars) (cs : List Char) :
    opChars (c :: cs) s = false := by
  obtain ⟨t, us, hs, ht⟩ := Token.Ending.exists_head s
  cases hts : s with
  | nil =>
      rw [hts] at hs
      cases hs
  | cons u us' =>
      cases u with
      | punct d joint a =>
          rw [hts] at hs
          cases hs
          have hne : (c == d) = false := by
            rw [beq_eq_false_iff_ne]
            rintro rfl
            exact hc (List.contains_iff_mem.1 ht)
          cases cs <;> simp [opChars, hne]
      | ident | lifetime | literal | group => cases cs <;> rfl

theorem opChars_append_ending {cs : List Char} (h : ∀ c ∈ cs, c ∉ Token.endingChars) (ts : List Token) :
    opChars cs (ts ++ s) = opChars cs ts := by
  induction cs generalizing ts with
  | nil => rfl
  | cons c cs ih =>
      have hcs := ih fun d hd => h d (List.mem_cons_of_mem c hd)
      cases ts with
      | nil => rw [List.nil_append, opChars_ending (h c List.mem_cons_self), opChars_nil]; rfl
      | cons t ts =>
          cases t with
          | punct d joint a =>
              cases cs with
              | nil => rfl
              | cons c' cs => exact congrArg (c == d && joint && ·) (hcs ts)
          | ident | lifetime | literal | group => cases cs <;> rfl

instance {str : String} [h : Inner str] : Near s (op str) where
  eq ts hts := by
    obtain ⟨c, cs, hstr, hchars⟩ := h.chars
    rw [op, op, hstr, Token.reveal_append_of_ne hts, opChars_append_ending hchars]

instance {str other : String} [Inner str] [Inner other] : Near s (opBut str [other]) where
  eq ts hts := by
    have hstr : Near s (op str) := inferInstance
    have hother : Near s (op other) := inferInstance
    simp only [opBut, hstr.eq ts hts, List.any_cons, hother.eq ts hts, List.any_nil]

omit [Token.Ending s] in
/-- What comes third after the two characters of `::` is what stands behind them. -/
theorem third_of_colons {ts : List Token} (h : op "::" ts = true) :
    ∃ t joint b us, Token.reveal ts = t :: .punct ':' joint b :: us ∧
      ∀ look : Look, third look ts = look us ∧ third look (ts ++ s) = look (us ++ s) := by
  rw [op, show "::".toList = [':', ':'] from rfl] at h
  match hts : Token.reveal ts with
  | .punct c joint a :: .punct d joint' b :: us =>
      rw [hts] at h
      obtain rfl : ':' = d := beq_iff_eq.1 (Bool.and_eq_true_iff.1 h).2
      refine ⟨_, _, _, us, rfl, fun look => ?_⟩
      rw [third, second_of_reveal hts, second_append hts]
      exact ⟨rfl, rfl⟩
  | [] | [.punct ..] | .punct .. :: .ident .. :: _ | .punct .. :: .lifetime .. :: _
  | .punct .. :: .literal .. :: _ | .punct .. :: .group .. :: _ | .ident .. :: _ | .lifetime .. :: _
  | .literal .. :: _ | .group .. :: _ => simp [hts, opChars] at h

theorem firm_colons {look : Look} (h : Firm s look) (f : Bool → Bool) :
    Firm s fun ts => op "::" ts && f (third look ts) where
  eq ts := by
    have hop : Firm s (op "::") := inferInstance
    rw [hop.eq]
    cases hcolons : op "::" ts with
    | false => rfl
    | true =>
        obtain ⟨-, -, -, us, -, hus⟩ := third_of_colons (s := s) hcolons
        rw [(hus look).1, (hus look).2, h.eq]

instance {look : Look} [h : Firm s look] : Firm s fun ts => op "::" ts && third look ts :=
  firm_colons h id

instance {look : Look} [h : Firm s look] : Firm s fun ts => op "::" ts && !third look ts :=
  firm_colons h not

end

/-! ### Literals -/

/-- A literal is one token, or two where a number has a sign. -/
theorem literalThat_eq (p : String → Bool) :
    literalThat p = fun ts =>
      next (fun | .literal x _ => p x | _ => false) ts ||
        (next (fun | .punct c _ _ => c == '-' | _ => false) ts &&
          second (next fun | .literal x _ => isNumber x && p x | _ => false) ts) := by
  funext ts
  rw [literalThat, next, next, second]
  cases Token.reveal ts with
  | nil => rfl
  | cons t us =>
      cases t with
      | punct c joint a =>
          by_cases hc : c = '-'
          · subst hc
            cases hus : Token.reveal us with
            | nil => simp [next, hus]
            | cons u _ => cases u <;> simp [next, hus]
          · simp [hc]
      | ident | lifetime | literal | group => simp

theorem unseen_literal (p : String → Bool) :
    Unseen Token.Ended (next fun | .literal x _ => p x | _ => false) :=
  unseen_next fun t ht => by
    cases t with
    | literal => cases ht
    | ident | lifetime | punct | group => rfl

theorem unseen_minus : Unseen Token.Ended (next fun | .punct c _ _ => c == '-' | _ => false) :=
  unseen_next fun t ht => by
    cases t with
    | punct c joint a =>
        refine beq_eq_false_iff_ne.2 ?_
        rintro rfl
        cases ht
    | ident | lifetime | literal | group => rfl

instance (p : String → Bool) : Unseen Token.Ended (literalThat p) := by
  have hliteral := unseen_literal p
  have hminus := unseen_minus
  rw [literalThat_eq]
  infer_instance

instance [Token.Ending s] (p : String → Bool) : Near s (literalThat p) := by
  have hnumber := unseen_literal fun x => isNumber x && p x
  rw [literalThat_eq]
  infer_instance

instance : Unseen Token.Ended literal :=
  inferInstanceAs (Unseen _ fun ts => literalThat (fun _ => true) ts || anyKeyword ["true", "false"] ts)

instance [Token.Ending s] : Near s literal :=
  inferInstanceAs (Near s fun ts => literalThat (fun _ => true) ts || anyKeyword ["true", "false"] ts)

end Parser.Look

end RowDerive
