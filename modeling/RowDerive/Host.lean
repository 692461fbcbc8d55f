import RowDerive.Extension.Basic

/-!
# The host

The host offers a record to one extension after the other and takes away the methods that each
implements. What is left is reported. If there is anything to report, nothing is made.
-/

namespace RowDerive.Host

/-- How far the host has come. -/
structure Progress where
  /-- The methods that no extension took so far. -/
  remaining : List (Located Method)
  /-- The methods made so far. -/
  made : List (List Token)
  reports : List Report

/-- The methods that are not taken. -/
def leave (taken : List Method) (ms : List (Located Method)) : List (Located Method) :=
  ms.filter fun m => m.val ∉ taken

/-- Offers the record to one extension. What it takes is taken even if it makes nothing. -/
def offer (r : Record) (e : Extension) (p : Progress) : Progress :=
  let o : Offer := ⟨r, p.remaining⟩
  if e.applies o then
    let remaining := leave (e.takes o) p.remaining
    match e.make o with
    | .ok ts => ⟨remaining, p.made ++ [ts], p.reports⟩
    | .error f => ⟨remaining, p.made, p.reports ++ f.toReports⟩
  else p

/-- The report of a method that nobody took. -/
def unimplemented (m : Located Method) : Report := ⟨.unimplemented m.val.name, m.span⟩

/-- The `impl` block of the record with the methods made; nothing if there are none. -/
def implBlock (r : Record) (made : List (List Token)) : List Token :=
  if made.isEmpty then []
  else
    [Token.word "impl"] ++ r.generics.parameters ++ [Token.word r.name.val] ++ r.generics.arguments ++
      r.generics.whereTokens ++ [Token.enclose .brace made.flatten]

/-- Where the host stands after the extensions. -/
def offerAll (r : Record) (es : List Extension) : Progress :=
  es.foldl (fun p e => offer r e p) ⟨r.methods, [], []⟩

/-- What the extensions make of a record. -/
def run (r : Record) (es : List Extension) : Checked (List Token) :=
  let p := offerAll r es
  .ifClean (p.reports ++ p.remaining.map unimplemented) (implBlock r p.made)

end RowDerive.Host
