import RowDerive.Extension.Basic

/-!
# Scripted extensions

An extension given as data: when it applies, which methods it takes, and what comes of it.
-/

namespace RowDerive

/-- When a scripted extension applies. -/
inductive Condition where
  | always
  | never
  /-- If a method of that name is left. -/
  | offered (name : String)
deriving DecidableEq, Repr

/-- Which methods a scripted extension takes. -/
inductive Choice where
  /-- Every method of that name. -/
  | named (name : String)
  /-- The method of that number, if there is one. -/
  | nth (i : Nat)
deriving DecidableEq, Repr

/-- What comes of a scripted extension. -/
inductive Outcome where
  | method (tokens : List Token)
  /-- Problems, each at the name of the record. -/
  | problems (texts : List String)
  | internal (text : String)
deriving DecidableEq, Repr

/-- An extension given as data. -/
structure Script where
  condition : Condition
  choices : List Choice
  outcome : Outcome
deriving DecidableEq, Repr

namespace Condition

def holds (o : Offer) : Condition → Bool
  | always => true
  | never => false
  | offered x => o.methods.any (·.val.name == x)

end Condition

namespace Choice

/-- The methods chosen. -/
def chosen (o : Offer) : Choice → List Method
  | named x => (o.methods.map Located.val).filter (·.name == x)
  | nth i => (o.methods[i]?.map Located.val).toList

end Choice

namespace Outcome

/-- A problem at the name of a record. -/
def report (r : Record) (text : String) : Report := ⟨.stated text, r.name.span⟩

/-- What the outcome is for a record. Problems of which there are none are a fault of the script. -/
def result (r : Record) : Outcome → Except Failure (List Token)
  | method ts => .ok ts
  | problems [] => .error (.internal (.stated ""))
  | problems (text :: texts) =>
    .error (@Failure.reports (report r text :: texts.map (report r)) (List.cons_ne_nil _ _))
  | internal text => .error (.internal (.stated text))

end Outcome

namespace Script

/-- The extension that does what the script says. -/
def extension (s : Script) : Extension where
  applies o := s.condition.holds o
  takes o := s.choices.flatMap (·.chosen o)
  make o := s.outcome.result o.record

end Script

end RowDerive
