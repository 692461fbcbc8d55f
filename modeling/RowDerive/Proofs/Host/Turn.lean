import RowDerive.Host
import Mathlib.Data.List.Basic

/-!
# Turns of the host

In a run every extension has one turn, and what it is offered depends on all turns before it. A `Turn`
pairs an extension with its offer, so that what an extension takes, makes and reports can be spoken of
without the state of the host. The state after a run is a function of its turns: `foldl_offer`.
-/

namespace RowDerive

/-- A report as it is read: its message, and its place. -/
def Report.line (x : Report) : String × Span := (x.val.message, x.span)

namespace Host

/-- The report of a method that nobody took, as it is read. -/
def unimplementedLine (m : Located Method) : String × Span :=
  (s!"no extension implements abstract method `{m.val.name}`", m.span)

theorem line_unimplemented (m : Located Method) : (unimplemented m).line = unimplementedLine m :=
  rfl

theorem map_line_unimplemented (ms : List (Located Method)) :
    (ms.map unimplemented).map Report.line = ms.map unimplementedLine :=
  List.map_map.trans (List.map_congr_left fun m _ => line_unimplemented m)

/-- An extension with what it is offered. -/
structure Turn where
  extension : Extension
  offer : Offer

namespace Turn

variable (t : Turn)

/-- Whether the extension applies to what it is offered. -/
def applies : Bool := t.extension.applies t.offer

/-- The methods taken away in the turn. -/
def taken : List Method := if t.applies then t.extension.takes t.offer else []

/-- What is made in the turn: one method or none. -/
def made : List (List Token) :=
  if t.applies then
    match t.extension.make t.offer with
    | .ok ts => [ts]
    | .error _ => []
  else []

/-- What is reported in the turn. -/
def reports : List Report :=
  if t.applies then
    match t.extension.make t.offer with
    | .ok _ => []
    | .error f => f.toReports
  else []

end Turn

/-- The state before the first turn. -/
def initial (r : Record) : Progress := ⟨r.methods, [], []⟩

/-- The turns of a run that has come as far as `p`. -/
def turnsFrom (r : Record) : Progress → List Extension → List Turn
  | _, [] => []
  | p, e :: es => ⟨e, ⟨r, p.remaining⟩⟩ :: turnsFrom r (offer r e p) es

/-- The turns of a run. -/
def turns (r : Record) (es : List Extension) : List Turn := turnsFrom r (initial r) es

variable {r : Record}

/-! ## Taking methods away -/

@[simp] theorem leave_nil (ms : List (Located Method)) : leave [] ms = ms := by
  simp [leave]

/-- Methods may be taken away at once or one after the other. -/
theorem leave_leave (xs ys : List Method) (ms : List (Located Method)) :
    leave ys (leave xs ms) = leave (xs ++ ys) ms := by
  simp only [leave, List.filter_filter]
  refine List.filter_congr fun m _ => ?_
  simp [not_or, Bool.and_comm]

/-! ## States -/

/-- One turn takes, makes and reports, in each case nothing if the extension does not apply. -/
theorem offer_eq (e : Extension) (p : Progress) :
    offer r e p =
      let t : Turn := ⟨e, ⟨r, p.remaining⟩⟩
      ⟨leave t.taken p.remaining, p.made ++ t.made, p.reports ++ t.reports⟩ := by
  unfold offer
  by_cases ha : e.applies ⟨r, p.remaining⟩
  · cases hm : e.make ⟨r, p.remaining⟩ with
    | ok ts => simp [Turn.applies, Turn.taken, Turn.made, Turn.reports, ha, hm]
    | error f => simp [Turn.applies, Turn.taken, Turn.made, Turn.reports, ha, hm]
  · simp [Turn.applies, Turn.taken, Turn.made, Turn.reports, ha]

/-- The state after a run, by its turns. -/
theorem foldl_offer (es : List Extension) (p : Progress) :
    es.foldl (fun p e => offer r e p) p =
      ⟨leave ((turnsFrom r p es).flatMap Turn.taken) p.remaining,
        p.made ++ (turnsFrom r p es).flatMap Turn.made,
        p.reports ++ (turnsFrom r p es).flatMap Turn.reports⟩ := by
  induction es generalizing p with
  | nil => simp [turnsFrom]
  | cons e es ih =>
      rw [List.foldl_cons, ih, turnsFrom, offer_eq]
      simp only [List.flatMap_cons, leave_leave, List.append_assoc]

theorem offerAll_eq (es : List Extension) :
    offerAll r es =
      ⟨leave ((turns r es).flatMap Turn.taken) r.methods, (turns r es).flatMap Turn.made,
        (turns r es).flatMap Turn.reports⟩ :=
  foldl_offer es (initial r)

/-- What a run gives, by its turns. -/
theorem run_eq (r : Record) (es : List Extension) :
    run r es =
      .ifClean
        ((turns r es).flatMap Turn.reports ++
          (leave ((turns r es).flatMap Turn.taken) r.methods).map unimplemented)
        (implBlock r ((turns r es).flatMap Turn.made)) := by
  rw [run, offerAll_eq]

/-! ## Turns of longer runs -/

@[simp] theorem map_extension_turnsFrom (p : Progress) (es : List Extension) :
    (turnsFrom r p es).map Turn.extension = es := by
  induction es generalizing p with
  | nil => rfl
  | cons e es ih => rw [turnsFrom, List.map_cons, ih]

/-- Every extension has its turn, in order. -/
theorem map_extension_turns (r : Record) (es : List Extension) :
    (turns r es).map Turn.extension = es :=
  map_extension_turnsFrom _ _

theorem turnsFrom_append (p : Progress) (xs ys : List Extension) :
    turnsFrom r p (xs ++ ys) =
      turnsFrom r p xs ++ turnsFrom r (xs.foldl (fun p e => offer r e p) p) ys := by
  induction xs generalizing p with
  | nil => rfl
  | cons x xs ih => rw [List.cons_append, turnsFrom, ih, turnsFrom, List.foldl_cons, List.cons_append]

/-- A turn is offered what is left after the turns before it, whatever comes after. -/
theorem turns_split {es : List Extension} {before after : List Turn} {t : Turn}
    (h : turns r es = before ++ t :: after) :
    before = turns r (before.map Turn.extension) ∧
      t.offer = ⟨r, (offerAll r (before.map Turn.extension)).remaining⟩ := by
  have hes : es = before.map Turn.extension ++ t.extension :: after.map Turn.extension := by
    rw [← map_extension_turns r es, h, List.map_append, List.map_cons]
  rw [turns, hes, turnsFrom_append, turnsFrom] at h
  have hlen : (turnsFrom r (initial r) (before.map Turn.extension)).length = before.length := by
    rw [← List.length_map Turn.extension, map_extension_turnsFrom, List.length_map]
  obtain ⟨hbefore, hrest⟩ := List.append_inj h hlen
  exact ⟨hbefore.symm, congrArg Turn.offer (List.cons.inj hrest).1.symm⟩

end Host

end RowDerive
