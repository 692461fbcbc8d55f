import RowDerive.Value.Column

/-!
# Rows

A row is a table from column names to values that keeps the order in which its columns first came in.
Writing to a column that is present keeps its place. The view of a row is `toList`; every operation is
described by what it does to it.
-/

namespace RowDerive

/-- The entries of a row, in order. -/
abbrev Entries := List (String × Value)

namespace Entries

def keys (es : Entries) : List String := es.map Prod.fst

@[simp] theorem keys_nil : keys [] = [] := rfl
@[simp] theorem keys_cons (e : String × Value) (es : Entries) : keys (e :: es) = e.1 :: keys es := rfl
@[simp] theorem keys_append (xs ys : Entries) : keys (xs ++ ys) = keys xs ++ keys ys := by
  simp [keys]

/-- Writes `v` under `k`: in place if `k` is present, else at the end. -/
def put (k : String) (v : Value) : Entries → Entries
  | [] => [(k, v)]
  | (k', v') :: es => if k' = k then (k', v) :: es else (k', v') :: put k v es

/-- Takes `k` out, the others keep their order. -/
def erase (k : String) : Entries → Entries
  | [] => []
  | (k', v') :: es => if k' = k then es else (k', v') :: erase k es

def get? (k : String) : Entries → Option Value
  | [] => none
  | (k', v') :: es => if k' = k then some v' else get? k es

theorem keys_put (k : String) (v : Value) (es : Entries) :
    keys (put k v es) = if k ∈ keys es then keys es else keys es ++ [k] := by
  induction es with
  | nil => simp [put]
  | cons e es ih =>
    obtain ⟨k', v'⟩ := e
    by_cases h : k' = k
    · simp [put, h]
    · have h' : k ≠ k' := fun e => h e.symm
      by_cases hk : k ∈ keys es <;> simp [put, h, h', ih, hk]

theorem keys_erase (k : String) (es : Entries) : keys (erase k es) = (keys es).erase k := by
  induction es with
  | nil => rfl
  | cons e es ih =>
    obtain ⟨k', v'⟩ := e
    by_cases h : k' = k <;> simp [erase, h, ih]

theorem nodup_put {k : String} {v : Value} {es : Entries} (h : (keys es).Nodup) :
    (keys (put k v es)).Nodup := by
  rw [keys_put]
  split
  · exact h
  · rename_i hk
    refine List.nodup_append.2 ⟨h, by simp, fun a ha b hb e => hk ?_⟩
    simp only [List.mem_singleton] at hb
    exact hb ▸ e ▸ ha

theorem nodup_erase {k : String} {es : Entries} (h : (keys es).Nodup) :
    (keys (erase k es)).Nodup := by
  rw [keys_erase]
  exact h.erase k

end Entries

/-- An ordered table from column names to values. -/
@[ext]
structure Row where
  /-- The entries in order. -/
  toList : Entries
  /-- No column occurs twice. -/
  nodup_keys : toList.keys.Nodup

namespace Row

instance : DecidableEq Row := fun a b =>
  decidable_of_iff (a.toList = b.toList) Row.ext_iff.symm

def empty : Row := ⟨[], List.nodup_nil⟩

instance : Inhabited Row := ⟨empty⟩

@[simp] theorem toList_empty : empty.toList = [] := rfl

def put (r : Row) (k : String) (v : Value) : Row :=
  ⟨Entries.put k v r.toList, Entries.nodup_put r.nodup_keys⟩

@[simp] theorem toList_put (r : Row) (k : String) (v : Value) :
    (r.put k v).toList = Entries.put k v r.toList := rfl

def putNull (r : Row) (k : String) : Row := r.put k .null

/-- Puts every pair of `es`, in order. -/
def putEntries (r : Row) (es : Entries) : Row := es.foldl (fun r e => r.put e.1 e.2) r

@[simp] theorem putEntries_nil (r : Row) : r.putEntries [] = r := rfl

@[simp] theorem putEntries_cons (r : Row) (e : String × Value) (es : Entries) :
    r.putEntries (e :: es) = (r.put e.1 e.2).putEntries es := rfl

/-- Puts every entry of `s` into `r`. -/
def merge (r s : Row) : Row := r.putEntries s.toList

/-- The row of a list of pairs: the first occurrence of a column fixes its place, the last its
value. -/
def ofList (es : Entries) : Row := empty.putEntries es

def get? (r : Row) (k : String) : Option Value := Entries.get? k r.toList

def contains (r : Row) (k : String) : Bool := (r.get? k).isSome

def erase (r : Row) (k : String) : Row :=
  ⟨Entries.erase k r.toList, Entries.nodup_erase r.nodup_keys⟩

@[simp] theorem toList_erase (r : Row) (k : String) :
    (r.erase k).toList = Entries.erase k r.toList := rfl

def size (r : Row) : Nat := r.toList.length

def isEmpty (r : Row) : Bool := r.toList.isEmpty

def keys (r : Row) : List String := r.toList.keys

/-- Comparison of rows: as many columns, and under each column of the first the same value in the
second. The order does not count. -/
def same (r s : Row) : Bool :=
  r.size == s.size && r.toList.all fun e => (s.get? e.1).any (e.2.same ·)

/-- Why a column cannot be read at a type. -/
inductive ReadError where
  | missing (key : String)
  | mismatch (key : String) (cause : Mismatch)
deriving DecidableEq, Repr

/-- Reads the column `k` at a type. -/
def read (r : Row) (τ : ColumnType) (k : String) : Except ReadError τ.Carrier :=
  match r.get? k with
  | none => .error (.missing k)
  | some v => (τ.decode v).mapError (.mismatch k)

end Row

end RowDerive
