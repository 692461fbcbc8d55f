import RowDerive.Extension.Script
import RowDerive.Proofs.Host.Turn

/-!
# The order of extensions

What an extension does depends on the methods that are left to it, so the order of extensions matters in
general. It does not matter for two neighbours that are *independent*: neither answers otherwise once the
methods that the other consumes are gone. `run_swap` compares a run with the one in which two such
neighbours have changed places. All other extensions have the same turns in both, so the runs differ in
nothing but the order in which the two contribute.
-/

namespace RowDerive.Host

/-- The turn that `e` has after the extensions `xs`. -/
def turnAfter (r : Record) (xs : List Extension) (e : Extension) : Turn :=
  ⟨e, ⟨r, (offerAll r xs).remaining⟩⟩

/-- The extension answers alike to both offers. -/
structure AnswersAlike (e : Extension) (o o' : Offer) : Prop where
  applies : e.applies o = e.applies o'
  takes : e.takes o = e.takes o'
  make : e.make o = e.make o'

/-- Whatever methods are left, neither extension answers otherwise once those that the other consumes
are gone. -/
structure Independent (r : Record) (a b : Extension) : Prop where
  left : ∀ ms, AnswersAlike a ⟨r, leave (Turn.taken ⟨b, ⟨r, ms⟩⟩) ms⟩ ⟨r, ms⟩
  right : ∀ ms, AnswersAlike b ⟨r, leave (Turn.taken ⟨a, ⟨r, ms⟩⟩) ms⟩ ⟨r, ms⟩

theorem Independent.symm {r : Record} {a b : Extension} (h : Independent r a b) :
    Independent r b a :=
  ⟨h.right, h.left⟩

namespace AnswersAlike

variable {e : Extension} {o o' : Offer}

theorem taken_eq (h : AnswersAlike e o o') : Turn.taken ⟨e, o⟩ = Turn.taken ⟨e, o'⟩ := by
  rw [Turn.taken, Turn.taken, Turn.applies, Turn.applies, h.applies, h.takes]

theorem made_eq (h : AnswersAlike e o o') : Turn.made ⟨e, o⟩ = Turn.made ⟨e, o'⟩ := by
  rw [Turn.made, Turn.made, Turn.applies, Turn.applies, h.applies, h.make]

theorem reports_eq (h : AnswersAlike e o o') : Turn.reports ⟨e, o⟩ = Turn.reports ⟨e, o'⟩ := by
  rw [Turn.reports, Turn.reports, Turn.applies, Turn.applies, h.applies, h.make]

end AnswersAlike

variable {r : Record} {a b : Extension}

/-! ## Two turns -/

/-- In which order methods are taken away does not matter to what is left. -/
theorem leave_append_left_comm (ws xs ys zs : List Method) (ms : List (Located Method)) :
    leave (ws ++ (xs ++ (ys ++ zs))) ms = leave (ws ++ (ys ++ (xs ++ zs))) ms := by
  unfold leave
  refine List.filter_congr fun m _ => ?_
  simp only [List.mem_append, or_left_comm (a := m.val ∈ xs)]

theorem remaining_concat (xs : List Extension) (e : Extension) :
    (offerAll r (xs ++ [e])).remaining =
      leave (turnAfter r xs e).taken (offerAll r xs).remaining := by
  have hconcat : offerAll r (xs ++ [e]) = offer r e (offerAll r xs) := by simp [offerAll]
  rw [hconcat, offer_eq]
  rfl

/-- After the other one an extension answers as it would have answered before it. -/
theorem Independent.answersAlike (h : Independent r a b) (xs : List Extension) :
    AnswersAlike b (turnAfter r (xs ++ [a]) b).offer (turnAfter r xs b).offer := by
  have hoffer : (turnAfter r (xs ++ [a]) b).offer =
      ⟨r, leave (turnAfter r xs a).taken (offerAll r xs).remaining⟩ :=
    congrArg (Offer.mk r) (remaining_concat xs a)
  rw [hoffer]
  exact h.right _

/-- What is left after both turns does not depend on which is first. -/
theorem Independent.remaining_eq (h : Independent r a b) (xs : List Extension) :
    (offerAll r (xs ++ [b] ++ [a])).remaining = (offerAll r (xs ++ [a] ++ [b])).remaining := by
  have hb : (turnAfter r (xs ++ [a]) b).taken = (turnAfter r xs b).taken :=
    (h.answersAlike xs).taken_eq
  have ha : (turnAfter r (xs ++ [b]) a).taken = (turnAfter r xs a).taken :=
    (h.symm.answersAlike xs).taken_eq
  rw [remaining_concat, remaining_concat, remaining_concat, remaining_concat, ha, hb, leave_leave,
    leave_leave]
  simpa using leave_append_left_comm [] (turnAfter r xs b).taken (turnAfter r xs a).taken [] _

/-! ## Whole runs -/

/-- Later turns depend on nothing but what is left. -/
theorem turnsFrom_congr {p q : Progress} (h : p.remaining = q.remaining) (es : List Extension) :
    turnsFrom r p es = turnsFrom r q es := by
  induction es generalizing p q with
  | nil => rfl
  | cons e es ih =>
      have hnext : (offer r e p).remaining = (offer r e q).remaining := by
        rw [offer_eq, offer_eq, h]
      rw [turnsFrom, turnsFrom, h, ih hnext]

/-- The turns of a run, with those of two neighbours singled out. -/
theorem turns_pair (r : Record) (xs ys : List Extension) (a b : Extension) :
    turns r (xs ++ a :: b :: ys) =
      turns r xs ++ turnAfter r xs a :: turnAfter r (xs ++ [a]) b ::
        turnsFrom r (offerAll r (xs ++ [a] ++ [b])) ys := by
  have hstart : xs.foldl (fun p e => offer r e p) (initial r) = offerAll r xs := rfl
  have hone : offer r a (offerAll r xs) = offerAll r (xs ++ [a]) := by simp [offerAll]
  have htwo : offer r b (offerAll r (xs ++ [a])) = offerAll r (xs ++ [a] ++ [b]) := by
    simp [offerAll]
  rw [turns, turnsFrom_append, turnsFrom, turnsFrom, hstart, hone, htwo]
  rfl

/-- What the reports of a run are if two neighbours report `ps` and `qs`, the others what their turns
are, and the methods `left` are left over. -/
def reportsWith (before later : List Turn) (ps qs : List Report) (left : List (Located Method)) :
    List Report :=
  before.flatMap Turn.reports ++ ps ++ qs ++ later.flatMap Turn.reports ++ left.map unimplemented

/-- The block of a run if two neighbours make `xs` and `ys`, and the others what their turns are. -/
def blockWith (r : Record) (before later : List Turn) (xs ys : List (List Token)) : List Token :=
  implBlock r (before.flatMap Turn.made ++ xs ++ ys ++ later.flatMap Turn.made)

theorem reportsWith_eq_nil_iff {before later : List Turn} {ps qs : List Report}
    {left : List (Located Method)} :
    reportsWith before later ps qs left = [] ↔ reportsWith before later qs ps left = [] := by
  simp only [reportsWith, List.append_eq_nil_iff]
  constructor
  · rintro ⟨⟨⟨⟨h, hps⟩, hqs⟩, hlater⟩, hleft⟩
    exact ⟨⟨⟨⟨h, hqs⟩, hps⟩, hlater⟩, hleft⟩
  · rintro ⟨⟨⟨⟨h, hqs⟩, hps⟩, hlater⟩, hleft⟩
    exact ⟨⟨⟨⟨h, hps⟩, hqs⟩, hlater⟩, hleft⟩

/-- What a run gives in which two neighbours are independent and that has the turns `later` after
them. -/
theorem Independent.run_eq (h : Independent r a b) {xs ys : List Extension} {later : List Turn}
    (hturns : turns r (xs ++ a :: b :: ys) =
      turns r xs ++ turnAfter r xs a :: turnAfter r (xs ++ [a]) b :: later) :
    run r (xs ++ a :: b :: ys) =
      .ifClean
        (reportsWith (turns r xs) later (turnAfter r xs a).reports (turnAfter r xs b).reports
          (leave ((turns r xs).flatMap Turn.taken ++ ((turnAfter r xs a).taken ++
            ((turnAfter r xs b).taken ++ later.flatMap Turn.taken))) r.methods))
        (blockWith r (turns r xs) later (turnAfter r xs a).made (turnAfter r xs b).made) := by
  have hb := h.answersAlike xs
  have htaken : (turnAfter r (xs ++ [a]) b).taken = (turnAfter r xs b).taken := hb.taken_eq
  have hmade : (turnAfter r (xs ++ [a]) b).made = (turnAfter r xs b).made := hb.made_eq
  have hreports : (turnAfter r (xs ++ [a]) b).reports = (turnAfter r xs b).reports :=
    hb.reports_eq
  rw [Host.run_eq, hturns]
  simp only [List.flatMap_append, List.flatMap_cons, htaken, hmade, hreports, reportsWith, blockWith,
    List.append_assoc]

/-- Two neighbours that are independent may change places. All other extensions have the same turns as
before, so each is offered the same methods. Something is made in one order exactly if it is in the
other, and then the two blocks differ in the order in which the two methods stand in them. If nothing is
made, the same methods are reported as left, in the same order, behind what the extensions report, in
which the reports of the two have changed places. -/
theorem run_swap (xs ys : List Extension) (h : Independent r a b) :
    ∃ (later : List Turn) (left : List (Located Method)),
      turns r (xs ++ a :: b :: ys) =
          turns r xs ++ turnAfter r xs a :: turnAfter r (xs ++ [a]) b :: later ∧
        turns r (xs ++ b :: a :: ys) =
          turns r xs ++ turnAfter r xs b :: turnAfter r (xs ++ [b]) a :: later ∧
        ((∃ ts, run r (xs ++ a :: b :: ys) = .ok ts) ↔
          ∃ ts, run r (xs ++ b :: a :: ys) = .ok ts) ∧
        (∀ ts, run r (xs ++ a :: b :: ys) = .ok ts →
          ts = blockWith r (turns r xs) later (turnAfter r xs a).made (turnAfter r xs b).made ∧
            run r (xs ++ b :: a :: ys) =
              .ok (blockWith r (turns r xs) later (turnAfter r xs b).made (turnAfter r xs a).made)) ∧
        ∀ rs, run r (xs ++ a :: b :: ys) = .error rs →
          rs = reportsWith (turns r xs) later (turnAfter r xs a).reports (turnAfter r xs b).reports
              left ∧
            run r (xs ++ b :: a :: ys) =
              .error (reportsWith (turns r xs) later (turnAfter r xs b).reports
                (turnAfter r xs a).reports left) := by
  have hlater : turnsFrom r (offerAll r (xs ++ [b] ++ [a])) ys =
      turnsFrom r (offerAll r (xs ++ [a] ++ [b])) ys := turnsFrom_congr (h.remaining_eq xs) ys
  have habTurns := turns_pair r xs ys a b
  have hbaTurns := turns_pair r xs ys b a
  rw [hlater] at hbaTurns
  have hab := h.run_eq habTurns
  have hba := h.symm.run_eq hbaTurns
  rw [leave_append_left_comm] at hba
  let left := leave ((turns r xs).flatMap Turn.taken ++ ((turnAfter r xs a).taken ++
    ((turnAfter r xs b).taken ++
      (turnsFrom r (offerAll r (xs ++ [a] ++ [b])) ys).flatMap Turn.taken))) r.methods
  refine ⟨_, left, habTurns, hbaTurns, ?_, ?_, ?_⟩
  · rw [hab, hba]
    simp only [Checked.ifClean_eq_ok_iff, exists_and_left, exists_eq', and_true]
    exact reportsWith_eq_nil_iff
  · intro ts hts
    rw [hab, Checked.ifClean_eq_ok_iff] at hts
    obtain ⟨hnil, rfl⟩ := hts
    rw [hba, Checked.ifClean_eq_ok_iff]
    exact ⟨rfl, reportsWith_eq_nil_iff.1 hnil, rfl⟩
  · intro rs hrs
    rw [hab, Checked.ifClean_eq_error_iff] at hrs
    obtain ⟨hne, rfl⟩ := hrs
    rw [hba, Checked.ifClean_eq_error_iff]
    exact ⟨rfl, fun hc => hne (reportsWith_eq_nil_iff.2 hc), rfl⟩

/-! ## Extensions for methods of a name -/

/-- An extension that applies if a method of the name `x` is left, and takes all of that name. -/
def implementer (x : String) (out : Outcome) : Extension :=
  Script.extension ⟨.offered x, [.named x], out⟩

variable {x y : String} {p q : Outcome}

theorem name_of_mem_taken {o : Offer} {m : Method} (h : m ∈ Turn.taken ⟨implementer x p, o⟩) :
    m.name = x := by
  unfold Turn.taken at h
  split at h
  · simp only [implementer, Script.extension, List.flatMap_singleton, Choice.chosen, List.mem_filter,
      beq_iff_eq] at h
    exact h.2
  · cases h

/-- Nothing but the methods of its name is looked at. -/
theorem answersAlike_implementer {ms ns : List (Located Method)}
    (h : ms.filter (·.val.name == x) = ns.filter (·.val.name == x)) :
    AnswersAlike (implementer x p) ⟨r, ms⟩ ⟨r, ns⟩ where
  applies := by
    have hany : ∀ ls : List (Located Method),
        ls.any (·.val.name == x) = (ls.filter (·.val.name == x)).any (·.val.name == x) := by
      intro ls
      rw [List.any_filter]
      simp only [Bool.and_self]
    show ms.any (·.val.name == x) = ns.any (·.val.name == x)
    rw [hany ms, hany ns, h]
  takes := by
    have htaken : ∀ ls : List (Located Method),
        (implementer x p).takes ⟨r, ls⟩ = (ls.filter (·.val.name == x)).map Located.val := by
      intro ls
      show [Choice.named x].flatMap (·.chosen ⟨r, ls⟩) = _
      rw [List.flatMap_singleton, Choice.chosen, List.filter_map]
      rfl
    rw [htaken ms, htaken ns, h]
  make := rfl

/-- Extensions for methods of two names are independent. -/
theorem independent_implementers (r : Record) (hxy : x ≠ y) (p q : Outcome) :
    Independent r (implementer x p) (implementer y q) := by
  have hkept : ∀ {x y : String} {q : Outcome}, x ≠ y → ∀ ms : List (Located Method),
      (leave (Turn.taken ⟨implementer y q, ⟨r, ms⟩⟩) ms).filter (·.val.name == x) =
        ms.filter (·.val.name == x) := by
    intro x y q hxy ms
    rw [leave, List.filter_filter]
    refine List.filter_congr fun m _ => ?_
    by_cases hm : m.val.name = x
    · have hnot : m.val ∉ Turn.taken ⟨implementer y q, ⟨r, ms⟩⟩ :=
        fun hc => hxy (hm.symm.trans (name_of_mem_taken hc))
      simp [hnot]
    · simp [hm]
  exact ⟨fun ms => answersAlike_implementer (hkept hxy ms),
    fun ms => answersAlike_implementer (hkept hxy.symm ms)⟩

/-- The default method under another name. -/
def renamed (x : String) : Located Method :=
  ⟨{ Method.default with sig := { Method.default.sig with name := x } }, .nowhere⟩

/-- A record with two methods. -/
def twoMethods : Record := ⟨⟨"S", .nowhere⟩, ⟨none, none⟩, [renamed "f", renamed "g"], []⟩

/-- Two extensions, one for each method of a record, implement the record in either order. -/
theorem run_swap_implementers :
    let a := implementer "f" (.method [Token.word "f"])
    let b := implementer "g" (.method [Token.word "g"])
    Independent twoMethods a b ∧
      run twoMethods [a, b] = .ok (implBlock twoMethods [[Token.word "f"], [Token.word "g"]]) ∧
      run twoMethods [b, a] = .ok (implBlock twoMethods [[Token.word "g"], [Token.word "f"]]) := by
  intro a b
  have hindependent : Independent twoMethods a b :=
    independent_implementers twoMethods (by decide) _ _
  have hrun : run twoMethods [a, b] =
      .ok (implBlock twoMethods [[Token.word "f"], [Token.word "g"]]) := by rfl
  obtain ⟨later, -, hab, -, -, hok, -⟩ := run_swap [] [] hindependent
  obtain ⟨-, hba⟩ := hok _ hrun
  have hlater : later = [] := by
    have hlength := congrArg List.length hab
    rw [← List.length_map Turn.extension, map_extension_turns] at hlength
    simpa [turns, turnsFrom] using hlength
  rw [hlater] at hba
  exact ⟨hindependent, hrun, hba⟩

end RowDerive.Host
