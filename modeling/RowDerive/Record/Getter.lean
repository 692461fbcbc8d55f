import RowDerive.Record.Basic

/-!
# Getters

A getter of a type is a plain method that takes a receiver alone and returns the type, by whatever path.
A list of methods has one getter of a type, or it has none to speak of.
-/

namespace RowDerive

namespace Signature

/-- Whether the method has no qualifier and its parameters are named one by one. -/
def isPlain (sig : Signature) : Bool :=
  !sig.isConst && !sig.isAsync && !sig.isUnsafe && sig.abi.isNone && sig.variadic.isNone

/-- Whether a receiver is the only parameter. -/
def takesReceiverOnly (sig : Signature) : Bool :=
  match sig.params.items with
  | [p] => p.isReceiver
  | _ => false

/-- Whether the result is a path that ends in the bare name `x`. -/
def returns (x : String) (sig : Signature) : Bool :=
  match sig.result with
  | some (.path _ _ s) => s.name == x && s.isBare
  | _ => false

/-- Whether the signature is that of a getter of the type `x`. -/
def isGetter (x : String) (sig : Signature) : Bool :=
  sig.isPlain && sig.generics.items.all GenericParam.isLifetime && sig.takesReceiverOnly &&
    sig.returns x

end Signature

namespace Method

/-- Whether the method is a getter of the type `x`. -/
def isGetter (x : String) (m : Method) : Bool := m.sig.isGetter x

/-- The getter of the type `x`, if there is exactly one. -/
def soleGetter? (x : String) (ms : List (Located Method)) : Option (Located Method) :=
  match ms.filter (·.val.isGetter x) with
  | [m] => some m
  | _ => none

end Method

end RowDerive
