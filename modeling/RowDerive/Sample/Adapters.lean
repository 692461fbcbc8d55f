import RowDerive.Body.Run
import RowDerive.Sample.Instant

/-!
# Sample adapters

Four adapters, known by their names. Their state is the number of columns written, of which only one of
them takes notice.
-/

namespace RowDerive.Sample

/-- The adapters of the samples count in 32 bits and know instants besides what can be stored. -/
abbrev Adapter := RowDerive.Adapter Int32 Instant

/-- What the sample records hold. -/
abbrev FieldValue := RowDerive.FieldValue Instant

/-- An adapter that writes one value under the name of the column. -/
def writing (f : FieldValue → Option Value) : Adapter where
  start := 0
  write n row k x := (f x).map fun v => (n, row.put k v)

/-- A byte as two hexadecimal digits. -/
def hexByte (b : UInt8) : String :=
  String.ofList [Nat.digitChar (b.toNat / 16), Nat.digitChar (b.toNat % 16)]

/-- Bytes in hexadecimal. -/
def hexText (bs : List UInt8) : String := String.join (bs.map hexByte)

/-- Stores bytes as hexadecimal text. -/
def hex : Adapter := writing fun
  | .plain (.owned .bytes) bs => some (.text (hexText bs))
  | .optional (.owned .bytes) (some bs) => some (.text (hexText bs))
  | .optional (.owned .bytes) none => some .null
  | _ => none

/-- Stores the number of bytes, which is zero if there are none to count. -/
def count : Adapter := writing fun
  | .optional (.owned .bytes) bs => some (.long (Int64.ofNat ((bs.map List.length).getD 0)))
  | _ => none

/-- Stores an instant as milliseconds. -/
def epochMillis : Adapter := writing fun
  | .foreign t => some (.long t.toMillis)
  | _ => none

/-- Stores text under the name of the column, and before it, under a name of its own, the number of
columns that it has written. -/
def split : Adapter where
  start := 0
  write
    | n, row, k, .plain (.owned .string) s =>
      some (n + 1, (row.put (k ++ "_n") (.int (n + 1))).put k (.text s))
    | _, _, _, _ => none

/-- The name of the adapter that counts bytes. -/
def countName : String := "CountingAdapter"

/-- The adapter of a name. -/
def adapter? : String → Option Adapter
  | "HexAdapter" => some hex
  | "CountingAdapter" => some count
  | "EpochMillis" => some epochMillis
  | "SplitAdapter" => some split
  | _ => none

end RowDerive.Sample
