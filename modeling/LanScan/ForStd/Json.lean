import LanScan.ForStd.Utf16

/-!
# JSON texts

The grammar of JSON texts as relations between a text and what it denotes, and a parser
that decides it.  Lists of elements and of members are instances of one relation,
`Bracketed`, and one parser, `bracketed`, over what a single item is.

The number of a text is kept as it is written.  A string is the list of its UTF-16 code units,
because an escape stands for one unit, and a surrogate need not have a partner.
-/

universe u

/-- JSON values.  Numbers are kept as they are written. -/
inductive Json where
  | null
  | bool (b : Bool)
  | number (text : List Char)
  | string (units : List UInt16)
  | array (elements : List Json)
  | object (members : List (List UInt16 × Json))

namespace Json

variable {α : Type u}

/-! ## Characters -/

/-- The whitespace of the grammar. -/
def isSpace (c : Char) : Bool := c == ' ' || c == '\t' || c == '\n' || c == '\r'

/-- The characters a number is written with. -/
def isNumberChar (c : Char) : Bool :=
  c.isDigit || c == '-' || c == '+' || c == '.' || c == 'e' || c == 'E'

/-- The character behind a backslash, other than `u`. -/
def unescape : Char → Option Char
  | '"' => some '"'
  | '\\' => some '\\'
  | '/' => some '/'
  | 'b' => some '\x08'
  | 'f' => some '\x0c'
  | 'n' => some '\n'
  | 'r' => some '\r'
  | 't' => some '\t'
  | _ => none

/-- The value of a hexadecimal digit in either case. -/
def hexDigit (c : Char) : Option Nat :=
  if c.isDigit then some (c.toNat - '0'.toNat)
  else if 'a' ≤ c ∧ c ≤ 'f' then some (c.toNat - 'a'.toNat + 10)
  else if 'A' ≤ c ∧ c ≤ 'F' then some (c.toNat - 'A'.toNat + 10)
  else none

/-- Four hexadecimal digits. -/
def hex4 (ds : List Char) : Option Nat :=
  match ds with
  | [a, b, c, d] =>
    match hexDigit a, hexDigit b, hexDigit c, hexDigit d with
    | some a, some b, some c, some d => some (((a * 16 + b) * 16 + c) * 16 + d)
    | _, _, _, _ => none
  | _ => none

/-! ## Numbers -/

/-- Nothing, or an exponent. -/
def isExponent : List Char → Bool
  | [] => true
  | e :: cs =>
    let digits := match cs with
      | '+' :: ds | '-' :: ds => ds
      | ds => ds
    (e == 'e' || e == 'E') && !digits.isEmpty && digits.all Char.isDigit

/-- Nothing or a fraction, and then an exponent. -/
def isFraction : List Char → Bool
  | '.' :: cs =>
    !(cs.takeWhile Char.isDigit).isEmpty && isExponent (cs.dropWhile Char.isDigit)
  | cs => isExponent cs

/-- An optional minus sign, an integer without leading zeros, a fraction and an exponent. -/
def isNumber (cs : List Char) : Bool :=
  let cs := match cs with
    | '-' :: cs => cs
    | cs => cs
  let int := cs.takeWhile Char.isDigit
  !int.isEmpty && (int == ['0'] || int.head? != some '0') &&
    isFraction (cs.dropWhile Char.isDigit)

/-! ## The grammar -/

/-- Whitespace only. -/
def Space (cs : List Char) : Prop := ∀ c ∈ cs, isSpace c = true

/-- A character or an escape, and the code units that it stands for. -/
inductive Letter : List Char → List UInt16 → Prop
  | plain {c : Char} (hquote : c ≠ '"') (hescape : c ≠ '\\') (hcontrol : 0x20 ≤ c.toNat) :
      Letter [c] c.utf16
  | escape {e c : Char} (he : unescape e = some c) : Letter ['\\', e] c.utf16
  | unicode {ds : List Char} {n : Nat} (hn : hex4 ds = some n) :
      Letter ('\\' :: 'u' :: ds) [UInt16.ofNat n]

/-- What stands between the quotes of a string. -/
inductive Letters : List Char → List UInt16 → Prop
  | nil : Letters [] []
  | cons {l cs : List Char} {u us : List UInt16} (hl : Letter l u) (hrest : Letters cs us) :
      Letters (l ++ cs) (u ++ us)

/-- One item or more, separated by commas. -/
inductive Items (Item : List Char → α → Prop) : List Char → List α → Prop
  | one {l cs r : List Char} {a : α} (hl : Space l) (ha : Item cs a) (hr : Space r) :
      Items Item (l ++ (cs ++ r)) [a]
  | more {l cs r rest : List Char} {a : α} {as : List α} (hl : Space l) (ha : Item cs a)
      (hr : Space r) (hrest : Items Item rest as) :
      Items Item (l ++ (cs ++ (r ++ ',' :: rest))) (a :: as)

/-- What follows an opening bracket, up to the closing one. -/
inductive Bracketed (Item : List Char → α → Prop) (close : Char) : List Char → List α → Prop
  | empty {l : List Char} (hl : Space l) : Bracketed Item close (l ++ [close]) []
  | items {cs : List Char} {as : List α} (hcs : Items Item cs as) :
      Bracketed Item close (cs ++ [close]) as

/-- A key, a colon and an item. -/
inductive Member (Item : List Char → α → Prop) : List Char → List UInt16 × α → Prop
  | mk {k l r cs : List Char} {key : List UInt16} {a : α} (hk : Letters k key) (hl : Space l)
      (hr : Space r) (ha : Item cs a) :
      Member Item ('"' :: (k ++ '"' :: (l ++ ':' :: (r ++ cs)))) (key, a)

/-- A value, without whitespace around it. -/
inductive Value : List Char → Json → Prop
  | null : Value ['n', 'u', 'l', 'l'] .null
  | true : Value ['t', 'r', 'u', 'e'] (.bool true)
  | false : Value ['f', 'a', 'l', 's', 'e'] (.bool false)
  | number {cs : List Char} (hnumber : isNumber cs = .true) (hchars : cs.all isNumberChar = .true) :
      Value cs (.number cs)
  | string {cs : List Char} {us : List UInt16} (hs : Letters cs us) :
      Value ('"' :: (cs ++ ['"'])) (.string us)
  | array {cs : List Char} {vs : List Json} (hvs : Bracketed Value ']' cs vs) :
      Value ('[' :: cs) (.array vs)
  | object {cs : List Char} {ms : List (List UInt16 × Json)}
      (hms : Bracketed (Member Value) '}' cs ms) : Value ('{' :: cs) (.object ms)

/-- `cs` is a JSON text for `v`. -/
def Text (cs : List Char) (v : Json) : Prop :=
  ∃ l m r, cs = l ++ (m ++ r) ∧ Space l ∧ Value m v ∧ Space r

/-! ## The parser -/

/-- Skip whitespace. -/
def skip (cs : List Char) : List Char := cs.dropWhile isSpace

/-- What follows `\u`. -/
def unicode (cs : List Char) : Option (List UInt16 × List Char) :=
  (hex4 (cs.take 4)).map fun n => ([UInt16.ofNat n], cs.drop 4)

/-- A character or an escape. -/
def letter : List Char → Option (List UInt16 × List Char)
  | [] => none
  | c :: cs =>
    if c = '\\' then
      match cs with
      | [] => none
      | e :: rest =>
        if e = 'u' then unicode rest else (unescape e).map fun c => (c.utf16, rest)
    else if c = '"' ∨ c.toNat < 0x20 then none
    else some (c.utf16, cs)

/-- The rest of a string and its closing quote. -/
def letters : Nat → List Char → Option (List UInt16 × List Char)
  | 0, _ => none
  | n + 1, cs =>
    match cs with
    | '"' :: rest => some ([], rest)
    | cs =>
      (letter cs).bind fun (u, rest) =>
        (letters n rest).map fun (us, rest) => (u ++ us, rest)

/-- Items up to the closing bracket. -/
def items (item : List Char → Option (α × List Char)) (close : Char) :
    Nat → List Char → Option (List α × List Char)
  | 0, _ => none
  | n + 1, cs =>
    (item (skip cs)).bind fun (a, rest) =>
      match skip rest with
      | [] => none
      | c :: rest =>
        if c = ',' then (items item close n rest).map fun (as, rest) => (a :: as, rest)
        else if c = close then some ([a], rest)
        else none

/-- What follows an opening bracket. -/
def bracketed (item : List Char → Option (α × List Char)) (close : Char) (n : Nat)
    (cs : List Char) : Option (List α × List Char) :=
  match skip cs with
  | [] => none
  | c :: rest => if c = close then some ([], rest) else items item close n cs

/-- A key, a colon and an item. -/
def member (item : List Char → Option (α × List Char)) (n : Nat) (cs : List Char) :
    Option ((List UInt16 × α) × List Char) :=
  match cs with
  | '"' :: cs =>
    (letters n cs).bind fun (key, rest) =>
      match skip rest with
      | ':' :: rest => (item (skip rest)).map fun (a, rest) => ((key, a), rest)
      | _ => none
  | _ => none

/-- The longest run of number characters. -/
def numeral (cs : List Char) : Option (Json × List Char) :=
  let text := cs.takeWhile isNumberChar
  if isNumber text then some (.number text, cs.dropWhile isNumberChar) else none

/-- The value at the front of `cs`, and what follows it. -/
def value : Nat → List Char → Option (Json × List Char)
  | 0, _ => none
  | n + 1, cs =>
    match cs with
    | 'n' :: 'u' :: 'l' :: 'l' :: rest => some (.null, rest)
    | 't' :: 'r' :: 'u' :: 'e' :: rest => some (.bool true, rest)
    | 'f' :: 'a' :: 'l' :: 's' :: 'e' :: rest => some (.bool false, rest)
    | '"' :: cs => (letters n cs).map fun (us, rest) => (.string us, rest)
    | '[' :: cs => (bracketed (value n) ']' n cs).map fun (vs, rest) => (.array vs, rest)
    | '{' :: cs =>
      (bracketed (member (value n) n) '}' n cs).map fun (ms, rest) => (.object ms, rest)
    | cs => numeral cs

/-- The value of a JSON text. -/
def parse (cs : List Char) : Option Json :=
  match value (cs.length + 1) (skip cs) with
  | some (v, rest) => if (skip rest).isEmpty then some v else none
  | none => none

/-- The value of a key; a key that is written twice has the last one. -/
def lookup (key : List UInt16) (members : List (List UInt16 × Json)) : Option Json :=
  (members.reverse.find? (·.1 == key)).map Prod.snd

end Json
