import RowDerive.Proofs.Place.Token
import RowDerive.Proofs.Parser.Front
import RowDerive.Problem
import Mathlib.Data.List.Forall2

/-!
# Readers and places

The places of tokens matter to a reader for its reports alone, and for the places in what it returns.
To say so, everything that may hold places is `Placed`: it can be blurred, after which its places are
gone. A reader is `Blind` if from blurred tokens it reads the same up to places, fault or not. This is
closed under the combinators; of what is read next after something with places it has to be known that
it does not look at them, which is what `Same` says of two readers.
-/

set_option synthInstance.maxSize 10000

namespace RowDerive

open RowDerive.Parser

/-! ## Things with places -/

/-- Things that may hold places, and what is left of them without. The tokens in what a reader returns
are written out again and hold none. -/
class Placed (α : Type) where
  blur : α → α
  blur_blur : ∀ a, blur (blur a) = blur a

/-- Things that hold no places. -/
class Placeless (α : Type) [Placed α] : Prop where
  blur_eq : ∀ a : α, Placed.blur a = a

open Placed (blur)

attribute [simp] Placed.blur_blur

section

variable {α β ε : Type} [Placed α] [Placed β] [Placed ε]

instance : Placed Unit := ⟨id, fun _ => rfl⟩
instance : Placed Bool := ⟨id, fun _ => rfl⟩
instance : Placed Nat := ⟨id, fun _ => rfl⟩
instance : Placed String := ⟨id, fun _ => rfl⟩
instance : Placed Token := ⟨id, fun _ => rfl⟩
instance : Placed StringLiteral := ⟨id, fun _ => rfl⟩
instance : Placed Delimiter := ⟨id, fun _ => rfl⟩
instance : Placed Problem := ⟨id, fun _ => rfl⟩

instance : Placeless Unit := ⟨fun _ => rfl⟩
instance : Placeless Bool := ⟨fun _ => rfl⟩
instance : Placeless Nat := ⟨fun _ => rfl⟩
instance : Placeless String := ⟨fun _ => rfl⟩
instance : Placeless Token := ⟨fun _ => rfl⟩
instance : Placeless StringLiteral := ⟨fun _ => rfl⟩
instance : Placeless Problem := ⟨fun _ => rfl⟩

instance : Placed (α × β) where
  blur x := (blur x.1, blur x.2)
  blur_blur x := Prod.ext (Placed.blur_blur x.1) (Placed.blur_blur x.2)

instance : Placed (Option α) where
  blur := Option.map blur
  blur_blur o := by cases o <;> simp

instance : Placed (List α) where
  blur := List.map blur
  blur_blur as := by simp

instance : Placed (Listed α) where
  blur l := ⟨blur l.items, l.trailing⟩
  blur_blur l := by simp

instance : Placed (Located α) where
  blur a := ⟨blur a.val, .nowhere⟩
  blur_blur a := by simp

instance : Placed SyntaxError where
  blur e := ⟨e.fault, .nowhere⟩
  blur_blur _ := rfl

instance : Placed (Except ε α) where
  blur
    | .ok a => .ok (blur a)
    | .error e => .error (blur e)
  blur_blur x := by cases x <;> simp

instance : Placed Cursor where
  blur c := ⟨c.rest.map Token.erase, .nowhere, .nowhere, blur c.leftOver⟩
  blur_blur c := by simp

instance [Placeless α] [Placeless β] : Placeless (α × β) where
  blur_eq x := Prod.ext (Placeless.blur_eq x.1) (Placeless.blur_eq x.2)

instance [Placeless α] : Placeless (Option α) where
  blur_eq x := by
    cases x with
    | none => rfl
    | some a => exact congrArg some (Placeless.blur_eq a)

instance [Placeless α] : Placeless (List α) where
  blur_eq as := List.map_id'' Placeless.blur_eq as

instance [Placeless α] : Placeless (Listed α) where
  blur_eq l := congrArg (Listed.mk · l.trailing) (Placeless.blur_eq l.items)

theorem blur_pair_left [Placeless α] (x : α × β) : blur x = (x.1, blur x.2) :=
  congrArg (Prod.mk · (blur x.2)) (Placeless.blur_eq x.1)

theorem blur_pair_right [Placeless β] (x : α × β) : blur x = (blur x.1, x.2) :=
  congrArg (Prod.mk (blur x.1)) (Placeless.blur_eq x.2)

theorem blur_located [Placeless α] (x : Located α) : blur x = ⟨x.val, .nowhere⟩ :=
  congrArg (Located.mk · .nowhere) (Placeless.blur_eq x.val)

/-- Things that are the same up to places. -/
class Alike {α : Type} [Placed α] (a b : α) : Prop where
  eq : blur a = blur b

instance [DecidableEq α] (a b : α) : Decidable (Alike a b) :=
  decidable_of_iff (blur a = blur b) ⟨Alike.mk, fun h => h.eq⟩

instance (a : α) : Alike a a := ⟨rfl⟩

instance (a : α) : Alike (blur a) a := ⟨Placed.blur_blur a⟩

instance {a a' : α} {b b' : β} [ha : Alike a a'] [hb : Alike b b'] : Alike (a, b) (a', b') :=
  ⟨Prod.ext ha.eq hb.eq⟩

instance {a a' : α} [ha : Alike a a'] : Alike (some a) (some a') := ⟨congrArg some ha.eq⟩

instance {a a' : α} {as as' : List α} [ha : Alike a a'] [has : Alike as as'] :
    Alike (a :: as) (a' :: as') :=
  ⟨congrArg₂ List.cons ha.eq has.eq⟩

instance {as as' bs bs' : List α} [has : Alike as as'] [hbs : Alike bs bs'] :
    Alike (as ++ bs) (as' ++ bs') where
  eq := by
    have h : as.map blur ++ bs.map blur = as'.map blur ++ bs'.map blur :=
      congrArg₂ (· ++ ·) has.eq hbs.eq
    rwa [← List.map_append, ← List.map_append] at h

theorem alike_list_iff {as bs : List α} : Alike as bs ↔ List.Forall₂ (fun a b => Alike a b) as bs := by
  have hmap : as.map blur = bs.map blur ↔ List.Forall₂ (fun a b => blur a = blur b) as bs := by
    rw [← List.forall₂_eq_eq_eq, List.forall₂_map_left_iff, List.forall₂_map_right_iff]
  constructor
  · intro h
    exact (hmap.1 h.eq).imp fun _ _ hab => ⟨hab⟩
  · intro h
    exact ⟨hmap.2 (h.imp fun _ _ hab => hab.eq)⟩

instance (l : Listed α) : Alike (blur l).items l.items := ⟨Placed.blur_blur l.items⟩

instance {as as' : List α} [has : Alike as as'] (trailing : Bool) :
    Alike (Listed.mk as trailing) ⟨as', trailing⟩ :=
  ⟨congrArg (Listed.mk · trailing) has.eq⟩

instance {a a' : α} [ha : Alike a a'] (s s' : Span) : Alike (Located.mk a s) ⟨a', s'⟩ :=
  ⟨congrArg (Located.mk · .nowhere) ha.eq⟩

/-- Lists that are alike one by one are alike end to end. -/
theorem alike_flatten {xss yss : List (List α)}
    (h : List.Forall₂ (fun xs ys => Alike xs ys) xss yss) : Alike xss.flatten yss.flatten := by
  induction h with
  | nil => exact ⟨rfl⟩
  | cons hxy _ ih =>
      rw [List.flatten_cons, List.flatten_cons]
      infer_instance

/-- What a test keeps of lists that are alike is alike, if the test does not look at places. -/
theorem alike_filter {p : α → Bool} (hp : ∀ a, p (blur a) = p a) {as bs : List α}
    (h : Alike as bs) : Alike (as.filter p) (bs.filter p) where
  eq := by
    have hkeep : ∀ as : List α, (as.filter p).map blur = (as.map blur).filter p := by
      intro as
      rw [List.filter_map]
      exact congrArg (List.map blur) (List.filter_congr fun a _ => (hp a).symm)
    have hmap : as.map blur = bs.map blur := h.eq
    show (as.filter p).map blur = (bs.filter p).map blur
    rw [hkeep, hkeep, hmap]

theorem alike_getD {x y : Option α} {a b : α} (h : Alike x y)
    (hab : Alike a b) : Alike (x.getD a) (y.getD b) where
  eq := by
    cases x <;> cases y
    · exact hab.eq
    · exact nomatch h.eq
    · exact nomatch h.eq
    · exact Option.some.inj h.eq

theorem Located.val_eq_of_alike [Placeless α] {x y : Located α} (h : Alike x y) : x.val = y.val := by
  have hblur := h.eq
  rw [blur_located, blur_located] at hblur
  exact (Located.mk.inj hblur).1

instance (fault : SyntaxFault) (s s' : Span) : Alike (SyntaxError.mk fault s) ⟨fault, s'⟩ := ⟨rfl⟩

end

namespace Cursor

@[simp] theorem rest_blur (c : Cursor) : (blur c).rest = c.rest.map Token.erase := rfl

@[simp] theorem leftOver_blur (c : Cursor) : (blur c).leftOver = blur c.leftOver := rfl

theorem blur_eq_iff {c d : Cursor} :
    blur c = blur d ↔
      c.rest.map Token.erase = d.rest.map Token.erase ∧ blur c.leftOver = blur d.leftOver := by
  show Cursor.mk _ _ _ _ = Cursor.mk _ _ _ _ ↔ _
  simp

end Cursor

theorem blur_leftOver_eq_iff {x y : Option (Located Delimiter)} :
    blur x = blur y ↔ x.map Located.val = y.map Located.val := by
  cases x <;> cases y <;> simp [blur]

theorem blur_firstLeftOver? (d : Delimiter) {ts us : List Token}
    (h : ts.map Token.erase = us.map Token.erase) :
    blur (Token.firstLeftOver? d ts) = blur (Token.firstLeftOver? d us) := by
  rw [blur_leftOver_eq_iff, ← Token.firstLeftOver?_map_erase d ts, h,
    Token.firstLeftOver?_map_erase d us]

/-! ## Blind readers -/

/-- Two readers do the same up to places. -/
class Parser.Same {ε α : Type} [Placed ε] [Placed α] (p q : StateT Cursor (Except ε) α) : Prop where
  eq : ∀ c, blur (p c) = blur (q c)

/-- Places matter to what is read for nothing but the places in it. -/
class Parser.Blind {ε α : Type} [Placed ε] [Placed α] (p : StateT Cursor (Except ε) α) : Prop where
  eq : ∀ c, blur (p (blur c)) = blur (p c)

namespace Parser

variable {ε α β : Type} [Placed ε] [Placed α] [Placed β]

section

variable {p q : StateT Cursor (Except ε) α} {f g : α → StateT Cursor (Except ε) β}

theorem Blind.of_blur_eq (hp : Blind p) {c d : Cursor} (h : blur c = blur d) :
    blur (p c) = blur (p d) := by
  rw [← hp.eq c, h, hp.eq d]

theorem blur_ok (a : α) (c : Cursor) :
    blur (.ok (a, c) : Except ε (α × Cursor)) = .ok (blur a, blur c) := rfl

theorem blur_eq_iff {x y : Except ε α} :
    blur x = blur y ↔
      (∃ a b, x = .ok a ∧ y = .ok b ∧ blur a = blur b) ∨
        ∃ e f, x = .error e ∧ y = .error f ∧ blur e = blur f := by
  cases x <;> cases y <;> simp [blur]

/-- What is read after something is the same up to places if what comes before is, and if its places are
not looked at. -/
theorem blur_bind {x y : Except ε (α × Cursor)} (hxy : blur x = blur y) (hf : ∀ a, Blind (f a))
    (hs : ∀ a, Same (f (blur a)) (f a)) :
    blur (x.bind fun r => f r.1 r.2) = blur (y.bind fun r => f r.1 r.2) := by
  have hblur : ∀ a d, blur (f a d) = blur (f (blur a) (blur d)) := by
    intro a d
    rw [(hs a).eq (blur d), (hf a).eq d]
  rcases blur_eq_iff.1 hxy with ⟨⟨a, d⟩, ⟨b, d'⟩, rfl, rfl, h⟩ | ⟨e, e', rfl, rfl, h⟩
  · obtain ⟨hab, hd⟩ := Prod.mk.inj h
    show blur (f a d) = blur (f b d')
    rw [hblur a d, hblur b d', hab, hd]
  · exact congrArg Except.error h

theorem Blind.bind (hp : Blind p) (hf : ∀ a, Blind (f a)) (hs : ∀ a, Same (f (blur a)) (f a)) :
    Blind (p >>= f) where
  eq c := blur_bind (hp.eq c) hf hs

theorem Same.bind (hpq : Same p q) (hg : ∀ a, Blind (g a)) (hgs : ∀ a, Same (g (blur a)) (g a))
    (hfg : ∀ a, Same (f a) (g a)) : Same (p >>= f) (q >>= g) where
  eq c := by
    have hleft : blur ((p c).bind fun r => f r.1 r.2) = blur ((p c).bind fun r => g r.1 r.2) := by
      cases p c with
      | ok r => exact (hfg r.1).eq r.2
      | error e => rfl
    exact hleft.trans (blur_bind (hpq.eq c) hg hgs)

/-! ### Rules -/

instance (p : StateT Cursor (Except ε) α) : Same p p := ⟨fun _ => rfl⟩

instance (a : α) : Blind (pure a : StateT Cursor (Except ε) α) where
  eq c := congrArg (fun d => (.ok (blur a, d) : Except ε (α × Cursor))) (Placed.blur_blur c)

instance {a b : α} [h : Alike a b] : Same (pure a : StateT Cursor (Except ε) α) (pure b) where
  eq c := congrArg (fun a => (.ok (a, blur c) : Except ε (α × Cursor))) h.eq

instance bind_placeless [Placeless α] [hp : Blind p] [hf : ∀ a, Blind (f a)] : Blind (p >>= f) :=
  hp.bind hf fun a => by
    rw [Placeless.blur_eq]
    infer_instance

/-- What holds no places can be looked at. -/
theorem Blind.andThen [Placeless α] (hp : Blind p) (hf : ∀ a, Blind (f a)) : Blind (p >>= f) :=
  bind_placeless

instance (priority := low) bind_placed [hp : Blind p] [hf : ∀ a, Blind (f a)]
    [hs : ∀ a, Same (f (blur a)) (f a)] : Blind (p >>= f) :=
  hp.bind hf hs

/-- What has a part that is looked at up to places alone is the same for parts that are alike. -/
theorem Same.of_alike (h : ∀ a, Same (f (blur a)) (f a)) {a b : α} (hab : Alike a b) :
    Same (f a) (f b) where
  eq c := by rw [← (h a).eq, hab.eq, (h b).eq]

omit [Placed α] in
theorem Same.after (h : ∀ a, Same (f a) (g a)) : Same (p >>= f) (p >>= g) where
  eq c := by
    show blur ((p c).bind fun r => f r.1 r.2) = blur ((p c).bind fun r => g r.1 r.2)
    cases p c with
    | ok r => exact (h r.1).eq r.2
    | error e => rfl

instance bind_congr [h : ∀ a, Same (f a) (g a)] : Same (p >>= f) (p >>= g) := .after h

instance (priority := low) bind_congr_left [Placeless α] [hpq : Same p q] [hg : ∀ a, Blind (g a)]
    [hfg : ∀ a, Same (f a) (g a)] : Same (p >>= f) (q >>= g) := by
  refine hpq.bind hg (fun a => ?_) hfg
  rw [Placeless.blur_eq]
  infer_instance

instance (priority := low) bind_congr_placed [hpq : Same p q] [hg : ∀ a, Blind (g a)]
    [hgs : ∀ a, Same (g (blur a)) (g a)] [hfg : ∀ a, Same (f a) (g a)] : Same (p >>= f) (q >>= g) :=
  hpq.bind hg hgs hfg

theorem Blind.ite {b : Prop} [Decidable b] (hp : Blind p) (hq : Blind q) :
    Blind (if b then p else q) := by
  split
  · exact hp
  · exact hq

instance {b : Prop} [Decidable b] [hp : Blind p] [hq : Blind q] : Blind (if b then p else q) :=
  .ite hp hq

instance {b : Prop} [Decidable b] {p' q' : StateT Cursor (Except ε) α} [hp : Same p p']
    [hq : Same q q'] : Same (if b then p else q) (if b then p' else q') := by
  split
  · exact hp
  · exact hq

end

/-! Of what is read the parts are looked at, so what is read next is known from each form it may have. -/

instance bind_option_placeless [Placeless α] {p : StateT Cursor (Except ε) (Option α)}
    {f : Option α → StateT Cursor (Except ε) β} [hp : Blind p] [hsome : ∀ a, Blind (f (some a))]
    [hnone : Blind (f none)] : Blind (p >>= f) := by
  refine hp.andThen ?_
  rintro (_ | a)
  · exact hnone
  · exact hsome a

instance bind_pair_left {γ : Type} [Placed γ] [Placeless α] {p : StateT Cursor (Except ε) (α × β)}
    {f : α × β → StateT Cursor (Except ε) γ} [hp : Blind p] [hf : ∀ a b, Blind (f (a, b))]
    [hs : ∀ a b, Same (f (a, blur b)) (f (a, b))] : Blind (p >>= f) := by
  refine hp.bind (fun x => hf x.1 x.2) fun x => ?_
  rw [blur_pair_left]
  exact hs x.1 x.2

instance bind_pair_right {γ : Type} [Placed γ] [Placeless β] {p : StateT Cursor (Except ε) (α × β)}
    {f : α × β → StateT Cursor (Except ε) γ} [hp : Blind p] [hf : ∀ a b, Blind (f (a, b))]
    [hs : ∀ a b, Same (f (blur a, b)) (f (a, b))] : Blind (p >>= f) := by
  refine hp.bind (fun x => hf x.1 x.2) fun x => ?_
  rw [blur_pair_right]
  exact hs x.1 x.2

instance bind_congr_option {p : StateT Cursor (Except ε) (Option α)}
    {f g : Option α → StateT Cursor (Except ε) β} [hsome : ∀ a, Same (f (some a)) (g (some a))]
    [hnone : Same (f none) (g none)] : Same (p >>= f) (p >>= g) := by
  refine .after ?_
  rintro (_ | a)
  · exact hnone
  · exact hsome a

instance (priority := low) bind_congr_pair_placed {γ : Type} [Placed γ] [Placeless α]
    {p q : StateT Cursor (Except ε) (α × β)} {f g : α × β → StateT Cursor (Except ε) γ}
    [hpq : Same p q] [hg : ∀ a b, Blind (g (a, b))] [hgs : ∀ a b, Same (g (a, blur b)) (g (a, b))]
    [hfg : ∀ a b, Same (f (a, b)) (g (a, b))] : Same (p >>= f) (q >>= g) := by
  refine hpq.bind (fun x => hg x.1 x.2) (fun x => ?_) fun x => hfg x.1 x.2
  rw [blur_pair_left]
  exact hgs x.1 x.2

theorem Blind.bind_located [Placeless α] {p : StateT Cursor (Except ε) (Located α)}
    {f : Located α → StateT Cursor (Except ε) β} (hp : Blind p) (hf : ∀ a s, Blind (f ⟨a, s⟩))
    (hs : ∀ a s, Same (f ⟨a, .nowhere⟩) (f ⟨a, s⟩)) : Blind (p >>= f) := by
  refine hp.bind (fun x => hf x.val x.span) fun x => ?_
  rw [blur_located]
  exact hs x.val x.span

instance bind_located [Placeless α] {p : StateT Cursor (Except ε) (Located α)}
    {f : Located α → StateT Cursor (Except ε) β} [hp : Blind p] [hf : ∀ a s, Blind (f ⟨a, s⟩)]
    [hs : ∀ a s, Same (f ⟨a, .nowhere⟩) (f ⟨a, s⟩)] : Blind (p >>= f) :=
  hp.bind_located hf hs

theorem Blind.bind_located? [Placeless α] {p : StateT Cursor (Except ε) (Option (Located α))}
    {f : Option (Located α) → StateT Cursor (Except ε) β} (hp : Blind p) (hnone : Blind (f none))
    (hsome : ∀ a s, Blind (f (some ⟨a, s⟩)))
    (hs : ∀ a s, Same (f (some ⟨a, .nowhere⟩)) (f (some ⟨a, s⟩))) : Blind (p >>= f) := by
  refine hp.bind ?_ ?_
  · rintro (_ | x)
    · exact hnone
    · exact hsome x.val x.span
  · rintro (_ | x)
    · exact inferInstanceAs (Same (f none) (f none))
    · have hx : blur (some x) = some ⟨x.val, .nowhere⟩ := congrArg some (blur_located x)
      rw [hx]
      exact hs x.val x.span

instance {p : StateT Cursor (Except ε) α} [Blind p] : Blind (Functor.discard p) :=
  inferInstanceAs (Blind (p >>= fun _ => pure ()))

instance [Placeless α] {p : StateT Cursor (Except ε) α} [Blind p] (g : α → β) : Blind (g <$> p) :=
  inferInstanceAs (Blind (p >>= fun a => pure (g a)))

/-! ## Primitive readers -/

section

instance (e : ε) : Blind (throw e : StateT Cursor (Except ε) α) := ⟨fun _ => rfl⟩

instance {e e' : ε} [h : Alike e e'] : Same (throw e : StateT Cursor (Except ε) α) (throw e') :=
  ⟨fun _ => congrArg Except.error h.eq⟩

instance : Blind (get : StateT Cursor (Except ε) Cursor) where
  eq c := by
    show blur (.ok (blur c, blur c) : Except ε (Cursor × Cursor)) = blur (.ok (c, c))
    rw [blur_ok, blur_ok, Placed.blur_blur]

instance (c : Cursor) : Blind (set c : StateT Cursor (Except ε) PUnit) := ⟨fun _ => rfl⟩

instance (c : Cursor) : Same (set (blur c) : StateT Cursor (Except ε) PUnit) (set c) where
  eq _ := congrArg (fun d => (.ok ((), d) : Except ε (Unit × Cursor))) (Placed.blur_blur c)

end

section

variable {p : Parser α} {look : Look}

instance (fault : SyntaxFault) (span : Span) : Blind (fail fault span : Parser α) :=
  inferInstanceAs (Blind (throw (⟨fault, span⟩ : SyntaxError) : Parser α))

instance (fault : SyntaxFault) (s s' : Span) : Same (fail fault s : Parser α) (fail fault s') :=
  inferInstanceAs (Same (throw (SyntaxError.mk fault s)) (throw (SyntaxError.mk fault s')))

instance (fault : SyntaxFault) : Blind (failHere fault : Parser α) := by
  unfold failHere
  infer_instance

instance : Blind (failTooDeep : Parser α) := inferInstanceAs (Blind (failHere .tooDeep))

instance (what : String) : Blind (failExpected what : Parser α) where
  eq c := by
    show blur (fail (if (blur c).rest.isEmpty then .ended what else .expected what) (here (blur c))
        (blur c) : Except SyntaxError (α × Cursor)) =
      blur (fail (if c.rest.isEmpty then .ended what else .expected what) (here c) c)
    rw [Cursor.rest_blur, List.isEmpty_map]
    rfl

instance (what : List (String × Look)) [Look.AllBlind what] : Blind (failNoneOf what : Parser α) where
  eq c := by
    have hfail : ∀ d : Cursor, blur (failNoneOf what d : Except SyntaxError (α × Cursor)) =
        .error ⟨.noneOf d.rest.isEmpty ((what.filter fun x => !x.2 d.rest).map Prod.fst), .nowhere⟩ :=
      fun _ => rfl
    rw [hfail, hfail, Cursor.rest_blur, List.isEmpty_map, Look.AllBlind.filter_eq]

instance : Blind atEnd where
  eq c := by
    show blur (.ok ((blur c).rest.isEmpty, blur c) : Except SyntaxError (Bool × Cursor)) =
      blur (.ok (c.rest.isEmpty, c))
    rw [blur_ok, blur_ok, Placed.blur_blur, Cursor.rest_blur, List.isEmpty_map]

instance [h : Look.Blind look] : Blind (peek look) where
  eq c := by
    show blur (.ok (look (blur c).rest, blur c) : Except SyntaxError (Bool × Cursor)) =
      blur (.ok (look c.rest, c))
    rw [blur_ok, blur_ok, Placed.blur_blur, Cursor.rest_blur, h.eq]

/-- What is read depends on a look. -/
instance [Look.Blind look] {q : Parser α} [Blind p] [Blind q] :
    Blind (peek look >>= fun b => if b = true then p else q) :=
  bind_placeless

instance {f : α → Parser Bool} [∀ a, Blind (f a)] [Placeless α] (as : List α) :
    Blind (as.findM? f) := by
  induction as with
  | nil => exact inferInstanceAs (Blind (pure none))
  | cons a as ih =>
      unfold List.findM?
      refine .andThen inferInstance fun b => ?_
      cases b <;> infer_instance

instance : Blind ahead where
  eq c := by
    show blur (.ok (Token.sizeList (blur c).rest + 1, blur c) : Except SyntaxError (Nat × Cursor)) =
      blur (.ok (Token.sizeList c.rest + 1, c))
    rw [blur_ok, blur_ok, Placed.blur_blur, Cursor.rest_blur, Token.sizeList_map_erase]

theorem blind_take? [Placeless α] {f : Token → Option α} (h : ∀ t, f t.erase = f t) :
    Blind (take? f) where
  eq c := by
    simp only [take?, bind_apply, get_apply, Cursor.rest_blur, Token.reveal_map_erase]
    cases Token.reveal c.rest with
    | nil => simp [blur_ok]
    | cons t ts =>
        simp only [List.map_cons, h]
        cases f t with
        | none => simp [blur_ok]
        | some a => simp [blur_ok, Cursor.blur_eq_iff]

instance [Look.Blind look] [Blind p] : Blind (optionally look p) := by
  unfold optionally
  infer_instance

instance [hp : Blind p] : Blind (attempt p) where
  eq c := by
    rcases blur_eq_iff.1 (hp.eq c) with ⟨⟨a, d⟩, ⟨b, d'⟩, hr, hr', h⟩ | ⟨e, e', he, he', h⟩
    · obtain ⟨hab, hd⟩ := Prod.mk.inj h
      simp only [attempt, hr, hr', blur_ok, hd]
      exact congrArg (fun a => (.ok (some a, blur d') : Except SyntaxError (Option α × Cursor))) hab
    · have hfault : e.fault = e'.fault := (SyntaxError.mk.inj h).1
      simp only [attempt, he, he', hfault]
      split
      · exact congrArg Except.error h
      · simp [blur_ok]

theorem Blind.foresee (hp : Blind p) : Blind (Parser.foresee p) where
  eq c := by
    have hattempt : Blind (attempt p) := inferInstance
    rcases blur_eq_iff.1 (hattempt.eq c) with ⟨⟨a, d⟩, ⟨b, d'⟩, hr, hr', h⟩ | ⟨e, e', he, he', h⟩
    · obtain ⟨hab, -⟩ := Prod.mk.inj h
      simp only [Parser.foresee, hr, hr', blur_ok, Placed.blur_blur, hab]
    · simp only [Parser.foresee, he, he']
      exact congrArg Except.error h

instance [hp : Blind p] : Blind (foresee p) := hp.foresee

/-! ### Tokens -/

instance (s : String) : Blind (op s) where
  eq c := by
    simp only [op, bind_apply, get_apply, Cursor.rest_blur, Token.reveal_map_erase,
      Look.opChars_map_erase]
    split
    · simp [blur_ok, Cursor.blur_eq_iff]
    · rfl

instance (s : String) : Blind (op? s) := by
  unfold op?
  infer_instance

instance (k : String) : Blind (keyword k) := by
  have htake := blind_take? (f := fun t => if Look.keyword k [t] then some (Token.word k) else none)
    fun t => by rw [show Look.keyword k [t.erase] = Look.keyword k [t] from Look.Blind.eq [t]]
  unfold keyword
  infer_instance

instance (k : String) : Blind (keyword? k) := by
  unfold keyword?
  infer_instance

instance : Blind word := by
  have htake := blind_take? (f := fun | .ident x _ => some x | _ => none)
    fun t => by cases t <;> rfl
  unfold word
  infer_instance

instance : Blind Parser.name := by
  unfold Parser.name
  infer_instance

instance : Blind lifetime := by
  have htake := blind_take? (f := fun | .lifetime x _ => some x | _ => none)
    fun t => by cases t <;> rfl
  unfold lifetime
  infer_instance

instance : Blind lifetime? := by
  unfold lifetime?
  infer_instance

instance : Blind literal := by
  have htake := blind_take? (f := fun t => some t.erase) fun t => by rw [Token.erase_erase]
  unfold literal
  infer_instance

instance : Blind stringLiteral := by
  have htake := blind_take? (f := fun | .literal x _ => StringLiteral.ofToken? x | _ => none)
    fun t => by cases t <;> rfl
  unfold stringLiteral
  infer_instance

/-! ### Groups -/

instance [hp : Blind p] (d : Delimiter) : Blind (openGroup d p) where
  eq c := by
    have hts : (if d = .invisible then (blur c).rest else Token.reveal (blur c).rest) =
        (if d = .invisible then c.rest else Token.reveal c.rest).map Token.erase := by
      split
      · rfl
      · exact Token.reveal_map_erase c.rest
    simp only [openGroup, bind_apply, get_apply, hts]
    generalize (if d = .invisible then c.rest else Token.reveal c.rest) = ts
    have hfail : blur (failExpected (delimiterName d) (blur c) :
          Except SyntaxError ((α × Option (Located Delimiter)) × Cursor)) =
        blur (failExpected (delimiterName d) c) := Blind.eq c
    cases ts with
    | nil => exact hfail
    | cons t rest =>
        cases t with
        | ident x s | lifetime x s | punct x j s | literal x s => exact hfail
        | group e content opening closing =>
            by_cases hd : e = d
            · have hinner : blur (p ⟨content.map Token.erase, .nowhere, .nowhere, blur c.leftOver⟩) =
                  blur (p ⟨content, closing, opening, c.leftOver⟩) :=
                hp.of_blur_eq (by simp [Cursor.blur_eq_iff])
              simp only [List.map_cons, Token.erase, hd, if_true, Token.eraseList_eq_map,
                Cursor.leftOver_blur]
              rcases blur_eq_iff.1 hinner with ⟨⟨a, x⟩, ⟨b, y⟩, hx, hy, h⟩ | ⟨e, e', he, he', h⟩
              · obtain ⟨hab, hxy⟩ := Prod.mk.inj h
                obtain ⟨hrest, hleft⟩ := Cursor.blur_eq_iff.1 hxy
                simp only [hx, hy]
                exact congrArg Except.ok (Prod.ext (Prod.ext hab (blur_firstLeftOver? d hrest))
                  (Cursor.blur_eq_iff.2 ⟨by simp, hleft⟩))
              · simp only [he, he']
                exact congrArg Except.error h
            · simp only [List.map_cons, Token.erase, hd, if_false]
              exact hfail

theorem blur_note (left : Option (Located Delimiter)) (c : Cursor) :
    blur (note left c) =
      .ok ((), ⟨c.rest.map Token.erase, .nowhere, .nowhere, (blur c.leftOver).or (blur left)⟩) := by
  have hor : blur (c.leftOver.or left) = (blur c.leftOver).or (blur left) := Option.map_or
  rw [← hor]
  rfl

instance (left : Option (Located Delimiter)) : Blind (note left) where
  eq c := by
    rw [blur_note, blur_note]
    simp

instance (left : Option (Located Delimiter)) : Same (note (blur left)) (note left) where
  eq c := by
    rw [blur_note, blur_note]
    simp

instance [Blind p] (d : Delimiter) : Blind (inGroup d p) := by
  unfold inGroup
  infer_instance

/-! ### Lists -/

instance [hp : Blind p] {done : Parser Bool} [hdone : Blind done] (sep : String) (n : Nat) :
    Blind (listUntil sep done p n) := by
  induction n with
  | zero =>
      unfold listUntil
      infer_instance
  | succ n ih =>
      unfold listUntil
      have hlast : ∀ a : α, Blind (do
          let l ← listUntil sep done p n
          return ⟨a :: l.items, l.items.isEmpty || l.trailing⟩ : Parser (Listed α)) := by
        intro a
        refine ih.bind inferInstance fun l => ?_
        have hempty : (blur l).items.isEmpty = l.items.isEmpty := List.isEmpty_map
        rw [hempty]
        exact inferInstanceAs (Same
          (pure (Listed.mk (a :: blur l.items) (l.items.isEmpty || l.trailing)))
          (pure (Listed.mk (a :: l.items) (l.items.isEmpty || l.trailing))))
      infer_instance

instance [Look.Blind look] [Blind p] (n : Nat) : Blind (manyWhile look p n) := by
  induction n with
  | zero =>
      unfold manyWhile
      infer_instance
  | succ n ih =>
      unfold manyWhile
      infer_instance

instance [Blind p] : Blind (commaList p) := by
  unfold commaList
  infer_instance

instance [Blind p] : Blind (angleList p) := by
  unfold angleList
  infer_instance

/-! ### Places -/

instance [hp : Blind p] : Blind (located p) where
  eq c := by
    simp only [located, bind_apply, get_apply, pure_apply]
    rcases blur_eq_iff.1 (hp.eq c) with ⟨⟨a, d⟩, ⟨b, d'⟩, hr, hr', h⟩ | ⟨e, e', he, he', h⟩
    · obtain ⟨hab, hd⟩ := Prod.mk.inj h
      simp only [hr, hr', blur_ok, hd]
      exact congrArg (fun a => (.ok (⟨a, .nowhere⟩, blur d') : Except SyntaxError (Located α × Cursor))) hab
    · simp only [he, he']
      exact congrArg Except.error h

@[simp] theorem takenSince_blur (c : Cursor) : takenSince (blur c) = takenSince c := by
  funext d
  simp [takenSince]

instance (c : Cursor) : Same (takenSince (blur c)) (takenSince c) := by
  rw [takenSince_blur]
  infer_instance

instance (c : Cursor) : Blind (takenSince c) where
  eq d := by
    simp [takenSince, blur_ok]

instance [Blind p] : Blind (asWritten p) := by
  unfold asWritten
  infer_instance

end

end Parser

end RowDerive
