import RowDerive.Record.Basic
import RowDerive.Proofs.Depth.Reader
import RowDerive.Proofs.Place.Item

/-!
# Settings, methods and places

What the attributes of a declaration hold is the same up to places if the attributes are. This is so for
the settings of a column and for the declared methods, and for what is reported of them.
-/

-- An instance for a long reader holds the types of all its parts.
set_option synthInstance.maxSize 1000000

namespace RowDerive

open RowDerive.Parser RowDerive.Grammar

open Placed (blur)

/-! ## All tokens -/

namespace Cursor

theorem remainder?_congr {c d : Cursor} (h : blur c = blur d) :
    c.remainder?.map Located.val = d.remainder?.map Located.val := by
  obtain ⟨hrest, hleft⟩ := Cursor.blur_eq_iff.1 h
  rw [blur_leftOver_eq_iff] at hleft
  rw [remainder?, remainder?, Option.map_or, Option.map_or, hleft,
    ← Token.firstLeftOver?_map_erase .invisible c.rest, hrest, Token.firstLeftOver?_map_erase]

theorem blur_ofTokens {ts us : List Token} (h : ts.map Token.erase = us.map Token.erase)
    (close close' : Span) : blur (ofTokens ts close) = blur (ofTokens us close') :=
  Cursor.blur_eq_iff.2 ⟨h, rfl⟩

/-- What is made of all tokens is the same up to places if nothing but places matters to what is made of
a token that is left over. -/
theorem alike_of_remainder? {ε α : Type} [Placed ε] [Placed α] {c d : Cursor} {a b : α}
    {f : Located Delimiter → ε} (h : blur c = blur d) (hab : Alike a b)
    (hf : ∀ x y, x.val = y.val → Alike (f x) (f y)) :
    Alike (match c.remainder? with
        | none => .ok a
        | some left => .error (f left) : Except ε α)
      (match d.remainder? with
        | none => .ok b
        | some left => .error (f left)) where
  eq := by
    have hleft := remainder?_congr h
    revert hleft
    cases c.remainder? with
    | none =>
        cases d.remainder? with
        | none => exact fun _ => congrArg Except.ok hab.eq
        | some y => exact fun hleft => nomatch hleft
    | some x =>
        cases d.remainder? with
        | none => exact fun hleft => nomatch hleft
        | some y => exact fun hleft => congrArg Except.error (hf x y (Option.some.inj hleft)).eq

end Cursor

theorem Parser.alike_runAll {α : Type} [Placed α] {p : Parser α} [hp : Parser.Blind p]
    {ts us : List Token} (h : ts.map Token.erase = us.map Token.erase) (close close' : Span) :
    Alike (runAll p ts close) (runAll p us close') where
  eq := by
    have hrun := hp.of_blur_eq (Cursor.blur_ofTokens h close close')
    rcases blur_eq_iff.1 hrun with ⟨⟨a, c⟩, ⟨b, d⟩, hr, hr', hrd⟩ | ⟨e, e', he, he', h⟩
    · obtain ⟨hab, hcd⟩ := Prod.mk.inj hrd
      have hend := Cursor.alike_of_remainder? (f := fun left => SyntaxError.mk (.leftOver left.val) left.span)
        hcd ⟨hab⟩ fun x y hxy => ⟨by rw [hxy]; rfl⟩
      rw [runAll, runAll, hr, hr']
      dsimp only
      exact hend.eq
    · rw [runAll, runAll, he, he']
      exact congrArg Except.error h

/-- What is read of tokens to the last of them, a deeper reader reads of them wherever they stand. -/
theorem Parser.Agrees.read_elsewhere {α : Type} [Placed α] {p q : Parser α} (hpq : Agrees p q)
    [hq : Parser.Blind q] {ts : List Token} {a : α} {d : Cursor}
    (h : p (.ofTokens ts .nowhere) = .ok (a, d)) (hrest : d.rest = []) (hleft : d.leftOver = none)
    (close last : Span) :
    ∃ b e, q ⟨ts, close, last, none⟩ = .ok (b, e) ∧ Alike a b ∧ e.rest = [] ∧ e.leftOver = none := by
  have hblur : blur (Cursor.ofTokens ts .nowhere) = blur (⟨ts, close, last, none⟩ : Cursor) := rfl
  have hplaces := hq.of_blur_eq hblur
  rw [hpq.eq_ok h] at hplaces
  rcases blur_eq_iff.1 hplaces with ⟨r, ⟨b, e⟩, hr, hread, hblur⟩ | ⟨e, e', he, -⟩
  · cases hr
    obtain ⟨hab, hde⟩ := Prod.mk.inj hblur
    obtain ⟨hrests, hlefts⟩ := Cursor.blur_eq_iff.1 hde
    rw [hrest] at hrests
    rw [hleft] at hlefts
    exact ⟨b, e, hread, ⟨hab⟩, List.map_eq_nil_iff.1 hrests.symm, Option.map_eq_none_iff.1 hlefts.symm⟩
  · cases he

/-! ## Arguments -/

namespace Attribute

variable {a b : Attribute}

theorem path_of_alike (h : Alike a b) : a.path.val = b.path.val :=
  Located.val_eq_of_alike ⟨(Attribute.mk.inj h.eq).1⟩

/-- What the arguments of attributes that are alike are, if both have some. -/
theorem args_of_alike (h : Alike a b) :
    (∃ ts us close close', a.args = .ok (ts, close) ∧ b.args = .ok (us, close') ∧
        ts.map Token.erase = us.map Token.erase) ∨
      ∃ e e', a.args = .error e ∧ b.args = .error e' ∧ e.fault = e'.fault := by
  have hpath := path_of_alike h
  obtain ⟨path, input, span, tokens⟩ := a
  obtain ⟨path', input', span', tokens'⟩ := b
  have hinput : blur input = blur input' := (Attribute.mk.inj h.eq).2.1
  cases input <;> cases input' <;> try cases hinput
  · exact .inr ⟨_, _, rfl, rfl, by rw [hpath]⟩
  · exact .inl ⟨_, _, _, _, rfl, rfl, (AttributeInput.args.inj hinput).1⟩
  · exact .inr ⟨_, _, rfl, rfl, by rw [hpath]⟩

end Attribute

/-- Reports of faults of syntax are alike if the faults are. -/
theorem Report.alike_ofSyntax {e e' : SyntaxError} (h : e.fault = e'.fault) :
    Alike (Report.ofSyntax e) (Report.ofSyntax e') where
  eq := by
    rw [ofSyntax, ofSyntax, h]
    rfl

theorem Grammar.rulesFor_congr {ts us : List Token} (h : ts.map Token.erase = us.map Token.erase) :
    rulesFor ts = rulesFor us := by
  rw [rulesFor, rulesFor, ← Token.sizeList_map_erase ts, h, Token.sizeList_map_erase]

/-! ## Methods -/

/-- Attributes that are alike declare the same methods. -/
theorem Method.alike_listOfAttribute {a b : Attribute} (h : Alike a b) :
    Alike (listOfAttribute a) (listOfAttribute b) where
  eq := by
    rcases Attribute.args_of_alike h with ⟨ts, us, close, close', ha, hb, h⟩ | ⟨e, e', ha, hb, h⟩
    · have hrun := Parser.alike_runAll (p := methodList (rulesFor ts)) h close close'
      rw [listOfAttribute, listOfAttribute, ha, hb]
      dsimp only
      rw [← rulesFor_congr h]
      rcases blur_eq_iff.1 hrun.eq with ⟨ms, ms', hms, hms', h⟩ | ⟨e, e', he, he', h⟩
      · rw [hms, hms']
        exact congrArg Except.ok h
      · rw [he, he']
        exact congrArg (fun r => Except.error [r]) (Report.alike_ofSyntax (SyntaxError.mk.inj h).1).eq
    · rw [listOfAttribute, listOfAttribute, ha, hb]
      exact congrArg (fun r => Except.error [r]) (Report.alike_ofSyntax h).eq

/-! ## Settings -/

instance : Placed Setting where
  blur s := ⟨blur s.name, s.adapter⟩
  blur_blur s := by simp

namespace Setting

theorem isSome_name_blur (s : Setting) : (blur s).name.isSome = s.name.isSome := Option.isSome_map

theorem adapter_blur (s : Setting) : (blur s).adapter = s.adapter := rfl

instance (s : Setting) : Alike (blur s).name s.name := ⟨Placed.blur_blur s.name⟩

instance {x x' : Option (Located StringLiteral)} [h : Alike x x'] (adapter : Option Ty) :
    Alike (Setting.mk x adapter) ⟨x', adapter⟩ :=
  ⟨congrArg (Setting.mk · adapter) h.eq⟩

instance {α : Type} [Placed α] {p : Parser α} [hp : Parser.Blind p] : Parser.Blind (read p) where
  eq c := by
    rcases blur_eq_iff.1 (hp.eq c) with ⟨r, r', hr, hr', h⟩ | ⟨e, e', he, he', h⟩
    · rw [read, read, hr, hr']
      exact congrArg Except.ok h
    · rw [read, read, he, he']
      exact congrArg Except.error (Report.alike_ofSyntax (SyntaxError.mk.inj h).1).eq

instance (n : Nat) : Parser.Blind (keyRest n) := by
  induction n with
  | zero =>
      unfold keyRest
      infer_instance
  | succ n ih =>
      unfold keyRest
      infer_instance

instance : Parser.Blind key := by
  unfold key
  infer_instance

instance {α : Type} [Placed α] {p : Parser α} [Parser.Blind p] : Parser.Blind (value p) := by
  unfold value
  infer_instance

variable {ρ : Rules} [ρ.Blind]

instance (s : Setting) : Parser.Blind (entry ρ s) := by
  unfold entry
  infer_instance

instance (s : Setting) : Parser.Same (entry ρ (blur s)) (entry ρ s) := by
  unfold entry
  simp only [isSome_name_blur, adapter_blur]
  infer_instance

/-- That an entry is read without a look at places needs that the rest is the same for settings that are
alike, and the other way round. -/
theorem blind_entries (n : Nat) :
    (∀ s, Parser.Blind (entries ρ s n)) ∧
      ∀ s, Parser.Same (entries ρ (blur s) n) (entries ρ s n) := by
  induction n with
  | zero =>
      unfold entries
      exact ⟨inferInstance, inferInstance⟩
  | succ n ih =>
      obtain ⟨hblind, hsame⟩ := ih
      unfold entries
      exact ⟨inferInstance, inferInstance⟩

theorem alike_ofTokens {ts us : List Token} (h : ts.map Token.erase = us.map Token.erase)
    (close close' : Span) : Alike (ofTokens ts close) (ofTokens us close') where
  eq := by
    have hblind := (blind_entries (ρ := rulesFor ts) (Token.sizeList ts + 1)).1 none
    have hsize : Token.sizeList us = Token.sizeList ts := by
      rw [← Token.sizeList_map_erase us, ← h, Token.sizeList_map_erase]
    rw [ofTokens, ofTokens, ← rulesFor_congr h, hsize]
    rcases blur_eq_iff.1 (hblind.of_blur_eq (Cursor.blur_ofTokens h close close')) with
      ⟨⟨s, c⟩, ⟨s', d⟩, hr, hr', hrd⟩ | ⟨e, e', he, he', h⟩
    · obtain ⟨hs, hcd⟩ := Prod.mk.inj hrd
      rw [hr, hr']
      exact (Cursor.alike_of_remainder? (f := fun left => Report.ofSyntax ⟨.leftOver left.val, left.span⟩)
        hcd ⟨hs⟩ fun x y hxy => Report.alike_ofSyntax (congrArg SyntaxFault.leftOver hxy)).eq
    · rw [he, he']
      exact congrArg Except.error h

/-- Attributes that are alike hold the same settings. -/
theorem alike_ofAttribute {a b : Attribute} (h : Alike a b) :
    Alike (ofAttribute a) (ofAttribute b) where
  eq := by
    rcases Attribute.args_of_alike h with ⟨ts, us, close, close', ha, hb, h⟩ | ⟨e, e', ha, hb, h⟩
    · rw [ofAttribute, ofAttribute, ha, hb]
      exact (alike_ofTokens h close close').eq
    · rw [ofAttribute, ofAttribute, ha, hb]
      exact congrArg Except.error (Report.alike_ofSyntax h).eq

end Setting

/-- Attributes that are alike hold the same settings of a column together. -/
theorem Column.alike_readSettings {as bs : List Attribute} {found found' : Option Setting}
    (h : Alike as bs) (hfound : Alike found found') :
    Alike (readSettings found as) (readSettings found' bs) where
  eq := by
    rw [alike_list_iff] at h
    induction h generalizing found found' with
    | nil => exact congrArg (Prod.mk []) hfound.eq
    | cons hab _ ih =>
        cases found with
        | some s =>
            cases found' with
            | none => exact nomatch hfound.eq
            | some s' =>
                rw [readSettings, readSettings]
                exact congrArg (fun x => (Located.mk Problem.duplicateColumn .nowhere :: x.1, x.2)) (ih hfound)
        | none =>
            cases found' with
            | some s' => exact nomatch hfound.eq
            | none =>
                rw [readSettings, readSettings]
                rcases blur_eq_iff.1 (Setting.alike_ofAttribute hab).eq with
                  ⟨s, s', hs, hs', hss⟩ | ⟨r, r', hr, hr', hrr⟩
                · rw [hs, hs']
                  exact ih ⟨congrArg some hss⟩
                · rw [hr, hr']
                  exact congrArg₂ (fun (r : Report) (x : List Report × Option Setting) =>
                    (r :: x.1, x.2)) hrr (ih hfound)

end RowDerive
