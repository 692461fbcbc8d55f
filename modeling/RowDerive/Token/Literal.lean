import RowDerive.Text.Identifier

/-!
# Literals

How far a literal at the front of a text reaches, and what a string literal stands for. The reach is
given by the text after it. Inside quotes an escape is checked where it begins and then passed over
character by character, since it holds no quote.
-/

namespace RowDerive.Literal

/-- The value of a hexadecimal digit of either case. -/
def hexValue? (c : Char) : Option Nat :=
  if '0' ≤ c && c ≤ '9' then some (c.toNat - '0'.toNat)
  else if 'a' ≤ c && c ≤ 'f' then some (c.toNat - 'a'.toNat + 10)
  else if 'A' ≤ c && c ≤ 'F' then some (c.toNat - 'A'.toNat + 10)
  else none

def isHex (c : Char) : Bool := (hexValue? c).isSome

/-- Drops an identifier from the front, if there is one. -/
def afterIdent? : List Char → Option (List Char)
  | c :: cs => if Text.isIdentStart c then some (cs.dropWhile Text.isIdentContinue) else none
  | [] => none

/-- Drops the suffix of a literal. -/
def afterSuffix (cs : List Char) : List Char := (afterIdent? cs).getD cs

/-- Reads the digits of `\u\x7b...\x7d` up to the brace: at most six, underscores after the first
aside. -/
def unicodeDigits (value count : Nat) : List Char → Option (Nat × List Char)
  | [] => none
  | c :: cs =>
    if c == '\x7d' then if 0 < count then some (value, cs) else none
    else if c == '_' then if 0 < count then unicodeDigits value count cs else none
    else
      match hexValue? c with
      | some d => if count == 6 then none else unicodeDigits (16 * value + d) (count + 1) cs
      | none => none

/-- The character of an escape by code point, given what follows the `u`. -/
def unicodeEscape? : List Char → Option Char
  | '\x7b' :: cs =>
    match unicodeDigits 0 0 cs with
    | some (n, _) => if n.isValidChar then some (Char.ofNat n) else none
    | none => none
  | _ => none

/-- The kinds of quoted literal that escapes are checked for. -/
inductive Quoted where
  | string
  | bytes
  | cString
deriving DecidableEq, Repr

/-- Whether `\xab` is an escape of the kind. -/
def Quoted.allowsHex (κ : Quoted) (a b : Char) : Bool :=
  match κ with
  | string => '0' ≤ a && a ≤ '7' && isHex b
  | bytes => isHex a && isHex b
  | cString => isHex a && isHex b && !(a == '0' && b == '0')

/-- Whether `\u...` is an escape of the kind. -/
def Quoted.allowsUnicode (κ : Quoted) (cs : List Char) : Bool :=
  match κ with
  | string => (unicodeEscape? cs).isSome
  | bytes => false
  | cString => (unicodeEscape? cs).any (· != '\x00')

/-- Whether `\c` is an escape of the kind, of one character. -/
def Quoted.allowsLetter (κ : Quoted) (c : Char) : Bool :=
  "nrt\\'\"".toList.contains c || (c == '0' && κ != cString)

/-- Whether `c` may stand for itself. -/
def Quoted.allowsPlain (κ : Quoted) (c : Char) : Bool :=
  match κ with
  | string => true
  | bytes => c.toNat < 128
  | cString => c != '\x00'

/-- What follows a quoted literal, given what follows its opening quote. -/
def afterQuoted (κ : Quoted) : List Char → Option (List Char)
  | [] => none
  | '"' :: cs => some (afterSuffix cs)
  | '\r' :: cs => if cs.head? == some '\n' then afterQuoted κ cs else none
  | '\\' :: c :: cs =>
    if c == 'x' then
      match cs with
      | a :: b :: _ => if κ.allowsHex a b then afterQuoted κ cs else none
      | _ => none
    else if c == 'u' then if κ.allowsUnicode cs then afterQuoted κ cs else none
    else if c == '\r' then if cs.head? == some '\n' then afterQuoted κ cs else none
    else if c == '\n' || κ.allowsLetter c then afterQuoted κ cs
    else none
  | c :: cs => if c != '\\' && κ.allowsPlain c then afterQuoted κ cs else none

/-- What follows a raw literal that closes with `"` and `pounds`. -/
def afterRaw (κ : Quoted) (pounds : List Char) : List Char → Option (List Char)
  | [] => none
  | c :: cs =>
    if c == '"' && pounds.isPrefixOf cs then some (afterSuffix (cs.drop pounds.length))
    else if c == '\r' then if cs.head? == some '\n' then afterRaw κ pounds cs else none
    else if κ.allowsPlain c then afterRaw κ pounds cs
    else none

/-- What follows a raw literal, given what follows its `r`. -/
def afterRawOpening (κ : Quoted) (cs : List Char) : Option (List Char) :=
  let pounds := cs.takeWhile (· == '#')
  match cs.drop pounds.length with
  | '"' :: rest => if pounds.length ≤ 255 then afterRaw κ pounds rest else none
  | _ => none

/-- What follows the character of a character literal. -/
def afterCharacter : List Char → Option (List Char)
  | '\\' :: 'x' :: a :: b :: cs => if '0' ≤ a && a ≤ '7' && isHex b then some cs else none
  | '\\' :: 'u' :: cs =>
    if (unicodeEscape? cs).isSome then (unicodeDigits 0 0 (cs.drop 1)).map Prod.snd else none
  | '\\' :: c :: cs => if "nrt\\0'\"".toList.contains c then some cs else none
  | '\\' :: [] => none
  | _ :: cs => some cs
  | [] => none

/-- What follows the byte of a byte literal. -/
def afterByte : List Char → Option (List Char)
  | '\\' :: 'x' :: a :: b :: cs => if isHex a && isHex b then some cs else none
  | '\\' :: c :: cs => if "nrt\\0'\"".toList.contains c then some cs else none
  | '\\' :: [] => none
  | c :: cs => if c.toNat < 128 then some cs else none
  | [] => none

/-- What follows a closing `'` and the suffix. -/
def afterTick : Option (List Char) → Option (List Char)
  | some ('\'' :: cs) => some (afterSuffix cs)
  | _ => none

/-! ## Numbers -/

/-- A number must not run into an identifier. -/
def wordBreak (cs : List Char) : Option (List Char) :=
  if cs.head?.any Text.isIdentContinue then none else some cs

/-- Drops a suffix that opens an identifier, then asks for the end of the word. -/
def numberEnd (cs : List Char) : Option (List Char) := wordBreak (afterSuffix cs)

/-- What follows the exponent, if it has a digit. An underscore counts as none. -/
def afterExponent (signed valued : Bool) : List Char → Option (List Char)
  | [] => if valued then some [] else none
  | c :: cs =>
    if c == '+' || c == '-' then
      if valued then some (c :: cs)
      else if signed then none
      else afterExponent true valued cs
    else if c.isDigit then afterExponent signed true cs
    else if c == '_' then afterExponent signed valued cs
    else if valued then some (c :: cs)
    else none

/-- What follows the digits of a number with a point or an exponent. -/
def afterFloatDigits (pointed : Bool) : List Char → Option (List Char)
  | [] => if pointed then some [] else none
  | c :: cs =>
    if c.isDigit || c == '_' then afterFloatDigits pointed cs
    else if c == '.' then
      if pointed then some (c :: cs)
      else if cs.head?.any fun d => d == '.' || Text.isIdentStart d then none
      else afterFloatDigits true cs
    else if c == 'e' || c == 'E' then
      match afterExponent false false cs with
      | some rest => some rest
      | none => if pointed then some (c :: cs) else none
    else if pointed then some (c :: cs)
    else none

/-- What follows a number with a point or an exponent. -/
def afterFloat : List Char → Option (List Char)
  | c :: cs => if c.isDigit then (afterFloatDigits false cs).bind numberEnd else none
  | [] => none

/-- What follows the digits of a whole number in a base; `bare` until a digit is seen. -/
def afterDigits (base : Nat) (bare : Bool) : List Char → Option (List Char)
  | [] => if bare then none else some []
  | c :: cs =>
    if c == '_' then if bare && base == 10 then none else afterDigits base bare cs
    else
      match hexValue? c with
      | some d =>
        if d < base then afterDigits base false cs
        else if c.isDigit || bare then none
        else some (c :: cs)
      | none => if bare then none else some (c :: cs)

/-- What follows a whole number. -/
def afterInteger (cs : List Char) : Option (List Char) :=
  let digits :=
    match cs with
    | '0' :: 'x' :: rest => afterDigits 16 true rest
    | '0' :: 'o' :: rest => afterDigits 8 true rest
    | '0' :: 'b' :: rest => afterDigits 2 true rest
    | _ => afterDigits 10 true cs
  digits.bind numberEnd

/-- What follows a quoted literal of any kind. -/
def afterQuote : List Char → Option (List Char)
  | '"' :: cs => afterQuoted .string cs
  | 'r' :: cs => afterRawOpening .string cs
  | 'b' :: '"' :: cs => afterQuoted .bytes cs
  | 'b' :: 'r' :: cs => afterRawOpening .bytes cs
  | 'b' :: '\'' :: cs => afterTick (afterByte cs)
  | 'c' :: '"' :: cs => afterQuoted .cString cs
  | 'c' :: 'r' :: cs => afterRawOpening .cString cs
  | '\'' :: cs => afterTick (afterCharacter cs)
  | _ => none

/-- What follows the literal at the front, if there is one. -/
def after (cs : List Char) : Option (List Char) :=
  (afterQuote cs).or ((afterFloat cs).or (afterInteger cs))

/-! ## What a number stands for -/

/-- Whether what follows an `e` in a number makes it an exponent: a digit or a sign, underscores aside.
-/
def isExponent : List Char → Bool
  | [] => false
  | c :: cs => if c == '_' then isExponent cs else c.isDigit || c == '+' || c == '-'

/-- The value of the digits in a base and what follows them; `bare` until a digit is seen. A point or an
exponent makes a number that is not whole. -/
def integerDigits (base value : Nat) (bare : Bool) : List Char → Option (Nat × List Char)
  | [] => if bare then none else some (value, [])
  | c :: cs =>
    if c == '_' then integerDigits base value bare cs
    else if base == 10 && (c == '.' || ((c == 'e' || c == 'E') && isExponent cs)) then none
    else if c.isDigit || (10 < base && isHex c) then
      let d := (hexValue? c).getD 0
      if d < base then integerDigits base (base * value + d) false cs else none
    else if bare then none
    else some (value, c :: cs)

/-- What a whole number stands for, and whether it has a suffix. -/
def integer? (literal : String) : Option (Nat × Bool) :=
  let digits :=
    match literal.toList with
    | '0' :: 'x' :: cs => integerDigits 16 0 true cs
    | '0' :: 'o' :: cs => integerDigits 8 0 true cs
    | '0' :: 'b' :: cs => integerDigits 2 0 true cs
    | c :: cs => if c.isDigit then integerDigits 10 0 true (c :: cs) else none
    | [] => none
  digits.map fun (n, rest) => (n, !rest.isEmpty)

/-! ## What a string literal stands for -/

/-- Where the reading of a string literal stands. -/
inductive Reading where
  | plain
  /-- After a backslash. -/
  | escape
  /-- After the first digit of an escape by two digits, or before it. -/
  | hex (value : Nat) (left : Nat)
  /-- Inside the braces of an escape by code point. -/
  | unicode (value : Nat)
  /-- After a backslash at the end of a line: blanks are passed over. -/
  | blank

/-- The text of a quoted literal up to its closing quote, by one pass over what follows the opening
one. -/
def decode : Reading → List Char → List Char
  | _, [] => []
  | .plain, c :: cs =>
    if c == '"' then []
    else if c == '\\' then decode .escape cs
    else if c == '\r' then decode .plain cs
    else c :: decode .plain cs
  | .escape, c :: cs =>
    match c with
    | 'x' => decode (.hex 0 2) cs
    | 'u' => decode (.unicode 0) cs
    | 'n' => '\n' :: decode .plain cs
    | 'r' => '\r' :: decode .plain cs
    | 't' => '\t' :: decode .plain cs
    | '0' => '\x00' :: decode .plain cs
    | '\n' => decode .blank cs
    | '\r' => decode .blank cs
    | c => c :: decode .plain cs
  | .hex value left, c :: cs =>
    let value' := 16 * value + (hexValue? c).getD 0
    if left ≤ 1 then Char.ofNat value' :: decode .plain cs else decode (.hex value' (left - 1)) cs
  | .unicode value, c :: cs =>
    if c == '\x7d' then Char.ofNat value :: decode .plain cs
    else decode (.unicode (((hexValue? c).map (16 * value + ·)).getD value)) cs
  | .blank, c :: cs =>
    if c == ' ' || c == '\t' || c == '\n' || c == '\r' then decode .blank cs
    else if c == '"' then []
    else if c == '\\' then decode .escape cs
    else c :: decode .plain cs

/-- The text of a raw literal up to `"` and `pounds`. -/
def decodeRaw (pounds : List Char) : List Char → List Char
  | [] => []
  | c :: cs => if c == '"' && pounds.isPrefixOf cs then [] else c :: decodeRaw pounds cs

/-- What a string literal stands for; other literals stand for no string. -/
def string? (literal : String) : Option String :=
  match literal.toList with
  | '"' :: cs => some (String.ofList (decode .plain cs))
  | 'r' :: cs =>
    let pounds := cs.takeWhile (· == '#')
    match cs.drop pounds.length with
    | '"' :: rest => some (String.ofList (decodeRaw pounds rest))
    | _ => none
  | _ => none

/-- Whether a suffix stands behind the string literal. It is a token then, but no expression. -/
def isSuffixed (literal : String) : Bool :=
  literal.toList.getLast?.any fun c => c != '"' && c != '#'

end RowDerive.Literal
