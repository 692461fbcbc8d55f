import RowDerive.Host
import RowDerive.Extension.Rows
import RowDerive.Token.Lexer

/-!
# Deriving rows

From the declaration of a record to the method that turns it into a row.
-/

namespace RowDerive

/-- The extensions that every record is offered to, in this order. -/
def extensions : List Extension := [.rows]

/-- What is made for the declaration of a record, or all that is wrong with it. -/
def derive (i : Item) : Checked (List Token) :=
  match Record.ofItem i with
  | .error rs => .error rs
  | .ok r => Host.run r extensions

/-- The declaration that a text is. -/
def Item.ofText? (source : String) : Option Item :=
  (Token.lex? source).bind fun ts => (Item.ofTokens (Token.unmarkList ts)).toOption

/-- The record that a text declares. -/
def Record.ofText? (source : String) : Option Record :=
  (Item.ofText? source).bind fun i => (Record.ofItem i).toOption

end RowDerive
