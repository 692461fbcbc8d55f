import RowDerive.Sample.Adapters
import RowDerive.Derive

/-!
# Sample records

Records with every kind of column: stored and adapted, optional, renamed, borrowed, and with names that
generated code uses too. A sample is its declaration; its row is what the derived method makes of the
values of its fields.
-/

namespace RowDerive.Sample

/-- The declaration of a record with named fields. -/
def declare (head : String) (fields : List String) : String :=
  "struct " ++ head ++ " \x7b " ++ ", ".intercalate fields ++ " \x7d"

def user : String :=
  declare "User"
    ["#[column(adapter = HexAdapter)] photo: Vec<u8>", "name: String", "age: Option<i32>"]

def everything : String :=
  declare "Everything"
    ["flag: bool", "byte: i8", "short: i16", "int: i32", "long: i64", "float: f32", "double: f64",
     "text: String", "blob: Vec<u8>", "maybe_flag: Option<bool>", "maybe_text: Option<String>",
     "maybe_blob: Option<Vec<u8>>"]

def note : String :=
  "#[content_values(\n/// Row for the `notes` table\npub(crate) fn row(&self) -> ContentValues;)] " ++
    declare "Note<'a>"
      ["#[column(name = \"_id\")] id: i64", "title: &'a str", "body: Option<&'a str>",
       "attachment: &'a [u8]", "r#type: i16"]

def attachments : String :=
  declare "Attachments"
    ["#[column(adapter = CountingAdapter)] first: Option<Vec<u8>>",
     "#[column(adapter = HexAdapter)] second: Option<Vec<u8>>",
     "#[column(adapter = CountingAdapter)] third: Option<Vec<u8>>"]

def empty : String := "struct Empty;"

def shadowing : String :=
  declare "Shadowing" ["values: i32", "value: Option<i32>", "adapter_0: String"]

def tagged : String :=
  "#[content_values(fn borrowed_row<'a>(&'a self) -> ContentValues)] " ++
    declare "Tagged" ["tag: String"]

def person : String :=
  "pub " ++
    declare "Person"
      ["#[column(name = \"_id\")] pub id: i64", "pub name: String", "pub nickname: Option<String>",
       "pub age: Option<i32>", "pub avatar: Vec<u8>",
       "#[column(adapter = EpochMillis)] pub created_at: SystemTime",
       "#[column(adapter = EpochMillis)] pub updated_at: SystemTime"]

def tag : String :=
  "#[content_values(\n/// Values for an insert into the `tags` table\n" ++
    "pub fn insert_values(&self) -> ContentValues;)] pub " ++
    declare "Tag<'a>" ["pub label: &'a str", "pub weight: f64"]

def maybe : String :=
  declare "Maybe<'a>"
    ["a: Option<bool>", "b: Option<i8>", "c: Option<i16>", "d: Option<i32>", "e: Option<i64>",
     "f: Option<f32>", "g: Option<f64>", "h: Option<String>", "i: Option<Vec<u8>>",
     "j: Option<&'a str>", "k: Option<&'a [u8]>"]

def overlap : String :=
  declare "Overlap"
    ["#[column(adapter = SplitAdapter)] first: String",
     "#[column(name = \"first_n\")] renamed: Option<i64>", "second_n: bool",
     "#[column(name = \"second\", adapter = SplitAdapter)] other: String",
     "#[column(name = \"two words $\\\"x\\\"\")] odd: String"]

/-- All samples. -/
def all : List String :=
  [user, everything, note, attachments, empty, shadowing, tagged, person, tag, maybe, overlap]

/-- The sample record of a name. -/
def record? (x : String) : Option Record :=
  (all.filterMap Record.ofText?).find? (·.name.val == x)

/-- The row of a record whose fields hold what `field` says. -/
def row? (field : Name → Option FieldValue) (r : Record) : Option Row :=
  r.body?.bind (Body.run ⟨field, adapter?⟩)

/-- How many adapters that count bytes the row of a record takes. -/
def countersMade (r : Record) : Nat :=
  match r.body? with
  | none => 0
  | some b => b.adapters.countP fun t => t.bare? == some countName

end RowDerive.Sample
