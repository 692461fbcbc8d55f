import RowDerive.Extension.Rows
import RowDerive.Proofs.Body.Assembly
import Mathlib.Data.List.Find

/-!
# Properties without a way into a row

A property that has neither an adapter nor a storage has no statement, whatever the properties around it
are. The first such property is what assembling fails at, and it does not fail otherwise. Of a property
that has an adapter the storage is not looked at, so that it may as well be taken away.
-/

namespace RowDerive

namespace Property

theorem isStorable_iff {p : Property} : p.isStorable = true ↔ p.adapter.isSome ∨ p.storage.isSome := by
  simp [isStorable, isSupported]

theorem isStorable_eq_false_iff {p : Property} :
    p.isStorable = false ↔ p.adapter = none ∧ p.storage = none := by
  simp [isStorable, isSupported]

end Property

namespace Body

variable {ps qs : List Property} {adapters : List Ty} {fault : InternalFault}

/-! ## The first property without a statement -/

theorem isNone_statement? {p : Property} (hp : p ∈ ps) :
    (statement? (adaptersOf ps) p).isNone = !p.isStorable := by
  cases hs : p.isStorable with
  | true =>
      obtain ⟨s, hs⟩ := exists_statement? hp hs
      rw [hs]
      rfl
  | false =>
      obtain ⟨hadapter, hstorage⟩ := Property.isStorable_eq_false_iff.1 hs
      simp [statement?, hadapter, hstorage]

theorem assemble_eq_error_iff :
    assemble adapters ps = .error fault ↔
      ∃ p, ps.find? (fun p => (statement? adapters p).isNone) = some p ∧
        fault = .unstorable p.name.text := by
  induction ps with
  | nil => simp [assemble]
  | cons p ps ih =>
      cases hs : statement? adapters p with
      | none => simp [assemble, hs, eq_comm]
      | some s =>
          have htail : assemble adapters (p :: ps) = .error fault ↔
              assemble adapters ps = .error fault := by
            rw [assemble, hs]
            cases assemble adapters ps <;> simp
          rw [htail, ih, List.find?_cons_of_neg (by simp [hs])]

/-- A body is not assembled if some property has no way into the row; the first one is the fault. -/
theorem ofProperties_eq_error_iff :
    ofProperties ps = .error fault ↔
      ∃ p, ps.find? (fun p => !p.isStorable) = some p ∧ fault = .unstorable p.name.text := by
  have hfind : ps.find? (fun p => (statement? (adaptersOf ps) p).isNone) =
      ps.find? fun p => !p.isStorable := List.find?_congr fun p hp => isNone_statement? hp
  rw [← hfind, ← assemble_eq_error_iff, ofProperties]
  cases assemble (adaptersOf ps) ps <;> simp

/-! ## Storages that are not looked at -/

/-- The properties with the storage of some that have an adapter taken away. -/
abbrev Relieved (ps qs : List Property) : Prop :=
  List.Forall₂ (fun p q => q = p ∨ p.adapter.isSome ∧ q = p.withoutStorage) ps qs

theorem Relieved.filterMap_adapter (h : Relieved ps qs) :
    qs.filterMap Property.adapter = ps.filterMap Property.adapter := by
  induction h with
  | nil => rfl
  | @cons p q _ _ hpq _ ih =>
      have hadapter : q.adapter = p.adapter := by
        rcases hpq with rfl | ⟨-, rfl⟩ <;> rfl
      rw [List.filterMap_cons, List.filterMap_cons, hadapter, ih]

theorem Relieved.assemble_eq (h : Relieved ps qs) : assemble adapters qs = assemble adapters ps := by
  induction h with
  | nil => rfl
  | @cons p q _ _ hpq _ ih =>
      have hstatement : statement? adapters q = statement? adapters p := by
        rcases hpq with rfl | ⟨hadapter, rfl⟩
        · rfl
        · obtain ⟨t, ht⟩ := Option.isSome_iff_exists.1 hadapter
          rw [statement?_of_adapter ht, statement?_of_adapter (p := p.withoutStorage) ht]
          rfl
      have hname : q.name = p.name := by
        rcases hpq with rfl | ⟨-, rfl⟩ <;> rfl
      rw [assemble, assemble, hstatement, hname, ih]

theorem Relieved.ofProperties_eq (h : Relieved ps qs) : ofProperties qs = ofProperties ps := by
  rw [ofProperties, ofProperties, adaptersOf, adaptersOf, h.filterMap_adapter, h.assemble_eq]

end Body

/-! ## The fault of a method -/

namespace InternalFault

/-- The text of the fault that a property has no way into the row. -/
def unstorableText (x : String) : String :=
  "internal error: property `" ++ x ++ "` reached code generation without a way to store it"

/-- Every internal fault is marked before its own text. -/
theorem unstorableText_eq (x : String) : unstorableText x =
    "internal error: " ++ ("property `" ++ x ++ "` reached code generation without a way to store it") := by
  have hfront : "internal error: property `" = "internal error: " ++ "property `" := by decide
  unfold unstorableText
  rw [hfront, String.append_assoc, String.append_assoc, String.append_assoc]

theorem message_unstorable (x : String) : message (.unstorable x) = unstorableText x := by
  rw [unstorableText_eq]
  rfl

theorem unstorableText_inj {x y : String} (h : unstorableText x = unstorableText y) : x = y := by
  unfold unstorableText at h
  rwa [String.append_left_inj, String.append_right_inj] at h

/-- That a method cannot be read is another fault. -/
theorem message_unreadable_ne (fault : SyntaxFault) (x : String) :
    message (.unreadable fault) ≠ unstorableText x := by
  intro h
  have htext : message (.unreadable fault) =
      "internal error: " ++ ("generated method doesn't parse: " ++ fault.message) := rfl
  rw [htext, unstorableText_eq, String.append_right_inj] at h
  have hhead := congrArg (·.toList.head?) h
  simp at hhead

end InternalFault

namespace Method

open InternalFault (unstorableText)

/-- The method is not made, for the reason that the property `x` has no way into the row. -/
def FailsAt (m : Method) (ps : List Property) (x : String) : Prop :=
  ∃ fault, m.implement ps = .error fault ∧ fault.message = unstorableText x

theorem failsAt_iff_find? {m : Method} {ps : List Property} {x : String} :
    m.FailsAt ps x ↔ ∃ p, ps.find? (fun p => !p.isStorable) = some p ∧ p.name.text = x := by
  cases hbody : Body.ofProperties ps with
  | error fault =>
      have himplement : m.implement ps = .error fault := by simp only [implement, hbody]
      obtain ⟨p, hp, rfl⟩ := Body.ofProperties_eq_error_iff.1 hbody
      constructor
      · rintro ⟨fault, hfault, htext⟩
        obtain rfl := Except.error.inj (himplement.symm.trans hfault)
        rw [InternalFault.message_unstorable] at htext
        exact ⟨p, hp, InternalFault.unstorableText_inj htext⟩
      · rintro ⟨q, hq, rfl⟩
        obtain rfl := Option.some.inj (hp.symm.trans hq)
        exact ⟨_, himplement, InternalFault.message_unstorable _⟩
  | ok b =>
      constructor
      · rintro ⟨fault, hfault, htext⟩
        simp only [implement, hbody] at hfault
        split at hfault
        · obtain rfl := Except.error.inj hfault
          exact absurd htext (InternalFault.message_unreadable_ne _ x)
        · cases hfault
      · rintro ⟨p, hp, -⟩
        have herror := Body.ofProperties_eq_error_iff.2 ⟨p, hp, rfl⟩
        rw [hbody] at herror
        cases herror

/-- A method fails for want of a way into the row if and only if some property has neither an adapter nor a
storage, and the first of them is the one that it names; that holds of all properties, be it that they are
those of a record or that storages were taken away from them. Where only properties that have an adapter
lose their storage, the result is the same. -/
theorem failsAt_first (m : Method) (ps : List Property) :
    ((∃ x, m.FailsAt ps x) ↔ ∃ p ∈ ps, p.adapter = none ∧ p.storage = none) ∧
      (∀ x, m.FailsAt ps x ↔
        ∃ front p back, ps = front ++ p :: back ∧
          (∀ q ∈ front, q.adapter.isSome ∨ q.storage.isSome) ∧
          p.adapter = none ∧ p.storage = none ∧ p.name.text = x) ∧
      ∀ qs, Body.Relieved ps qs → m.implement qs = m.implement ps := by
  have hnot : ∀ p : Property, (!p.isStorable) = true ↔ p.adapter = none ∧ p.storage = none := fun p => by
    rw [Bool.not_eq_true', Property.isStorable_eq_false_iff]
  have hstorable : ∀ p : Property, (!!p.isStorable) = true ↔ p.adapter.isSome ∨ p.storage.isSome := fun p => by
    rw [Bool.not_not, Property.isStorable_iff]
  refine ⟨?_, fun x => ?_, fun qs hqs => ?_⟩
  · calc (∃ x, m.FailsAt ps x)
      _ ↔ ∃ p, ps.find? (fun p => !p.isStorable) = some p := by simp [failsAt_iff_find?]
      _ ↔ ∃ p ∈ ps, (!p.isStorable) = true := by rw [← Option.isSome_iff_exists, List.find?_isSome]
      _ ↔ ∃ p ∈ ps, p.adapter = none ∧ p.storage = none := by simp only [hnot]
  · rw [failsAt_iff_find?]
    constructor
    · rintro ⟨p, hp, hname⟩
      obtain ⟨hlacks, front, back, hps, hfront⟩ := List.find?_eq_some_iff_append.1 hp
      obtain ⟨hadapter, hstorage⟩ := (hnot p).1 hlacks
      exact ⟨front, p, back, hps, fun q hq => (hstorable q).1 (hfront q hq), hadapter, hstorage, hname⟩
    · rintro ⟨front, p, back, hps, hfront, hadapter, hstorage, hname⟩
      refine ⟨p, List.find?_eq_some_iff_append.2 ⟨(hnot p).2 ⟨hadapter, hstorage⟩, front, back, hps, ?_⟩,
        hname⟩
      exact fun q hq => (hstorable q).2 (hfront q hq)
  · simp only [implement, Body.Relieved.ofProperties_eq hqs]

end Method

namespace Sample

/-- A photo that an adapter writes although it could be stored. -/
def photo : Property where
  name := ⟨"photo", by decide⟩
  key := ⟨.ofText "photo", .nowhere⟩
  ty := ⟨.path false [] (.generic "Vec" false [.type (.path false [] (.bare "u8"))] false), .nowhere⟩
  optional := none
  adapter := some (.path false [] (.bare "HexAdapter"))
  storage := some (.owned .bytes)

/-- A height that is stored as it is. -/
def height : Property where
  name := ⟨"height", by decide⟩
  key := ⟨.ofText "height", .nowhere⟩
  ty := ⟨.path false [] (.bare "i32"), .nowhere⟩
  optional := none
  adapter := none
  storage := some (.owned .i32)

/-- Without storages the photo is still written, and the height is what the method fails at. -/
theorem failsAt_first_height :
    (Method.default.implement [photo, height]).toOption.isSome ∧
      Method.default.implement [photo.withoutStorage, height] = Method.default.implement [photo, height] ∧
      Method.default.FailsAt [photo.withoutStorage, height.withoutStorage] "height" := by
  have hphoto : Body.Relieved [photo, height] [photo.withoutStorage, height] :=
    .cons (.inr ⟨rfl, rfl⟩) (.cons (.inl rfl) .nil)
  refine ⟨by decide +kernel, (Method.failsAt_first .default [photo, height]).2.2 _ hphoto, ?_⟩
  refine ((Method.failsAt_first .default _).2.1 "height").2
    ⟨[photo.withoutStorage], height.withoutStorage, [], rfl, ?_, rfl, rfl, rfl⟩
  exact List.forall_mem_singleton.2 (.inl rfl)

end Sample

end RowDerive
