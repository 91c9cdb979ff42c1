/-
The tokens of JSON texts. The lexer is a machine that takes one character at a
time: `step` says what a character completes and where the machine goes, so that
reading is recursion on the text.

The content of a string is collected as UTF-16 units or code points; surrogates
have to come in pairs, or the string stands for no text.
-/

namespace Docbase.Json

/-- A number as it is written. -/
structure NumberText where
  negative : Bool
  whole : List Char
  fraction : List Char
  /-- The sign and the digits of the exponent. -/
  exponent : Option (Bool × List Char)
  deriving DecidableEq

inductive Token where
  | leftBrace
  | rightBrace
  | leftBracket
  | rightBracket
  | colon
  | comma
  | null
  | bool (b : Bool)
  | number (n : NumberText)
  /-- A string; nothing where a surrogate stands alone. -/
  | string (s : Option String)
  deriving DecidableEq

/-- How much of a number has been read. -/
inductive NumberPlace where
  | minus
  | zero
  | whole
  | point
  | fraction
  | mark
  | sign
  | exponent

/-- Where the lexer stands. -/
inductive Place where
  | between
  /-- Inside a word, with the characters that have to follow. -/
  | word (due : List Char) (token : Token)
  /-- Inside a string, with its units so far, the last one first. -/
  | text (units : List Nat)
  | escape (units : List Nat)
  /-- Inside a four-digit code, with the number of digits due and the value so far. -/
  | code (units : List Nat) (due value : Nat)
  | number (place : NumberPlace) (n : NumberText)

def isSpace (c : Char) : Bool := c = ' ' || c = '\n' || c = '\t' || c = '\r'

def hexValue? (c : Char) : Option Nat :=
  if c.isDigit then some (c.toNat - '0'.toNat)
  else if 'a' ≤ c && c ≤ 'f' then some (c.toNat - 'a'.toNat + 10)
  else if 'A' ≤ c && c ≤ 'F' then some (c.toNat - 'A'.toNat + 10)
  else none

/-- The unit that a one-letter escape stands for. -/
def escaped? : Char → Option Nat
  | '"' => some 0x22
  | '\\' => some 0x5C
  | '/' => some 0x2F
  | 'b' => some 0x08
  | 'f' => some 0x0C
  | 'n' => some 0x0A
  | 'r' => some 0x0D
  | 't' => some 0x09
  | _ => none

def isHighSurrogate (u : Nat) : Bool := 0xD800 ≤ u && u < 0xDC00

def isLowSurrogate (u : Nat) : Bool := 0xDC00 ≤ u && u < 0xE000

/-- The characters of a list of units; surrogates that are not paired have none. -/
def charsOfUnits? : List Nat → Option (List Char)
  | [] => some []
  | high :: low :: rest =>
    if isHighSurrogate high then
      if isLowSurrogate low then
        (charsOfUnits? rest).map
          (Char.ofNat (0x10000 + (high - 0xD800) * 0x400 + (low - 0xDC00)) :: ·)
      else none
    else if isLowSurrogate high then none
    else (charsOfUnits? (low :: rest)).map (Char.ofNat high :: ·)
  | [u] => if isHighSurrogate u || isLowSurrogate u then none else some [Char.ofNat u]

def Token.ofUnits (units : List Nat) : Token := .string ((charsOfUnits? units).map String.ofList)

/-- What a character between tokens completes, and where it leads. -/
def start? (c : Char) : Option (List Token × Place) :=
  if isSpace c then some ([], .between)
  else if c.isDigit then
    some ([], .number (if c = '0' then .zero else .whole) ⟨false, [c], [], none⟩)
  else
    match c with
    | '\x7b' => some ([.leftBrace], .between)
    | '\x7d' => some ([.rightBrace], .between)
    | '[' => some ([.leftBracket], .between)
    | ']' => some ([.rightBracket], .between)
    | ':' => some ([.colon], .between)
    | ',' => some ([.comma], .between)
    | '"' => some ([], .text [])
    | '-' => some ([], .number .minus ⟨true, [], [], none⟩)
    | 'n' => some ([], .word ['u', 'l', 'l'] .null)
    | 't' => some ([], .word ['r', 'u', 'e'] (.bool true))
    | 'f' => some ([], .word ['a', 'l', 's', 'e'] (.bool false))
    | _ => none

/-- Whether a number may end where it stands. -/
def NumberPlace.isFinal : NumberPlace → Bool
  | .zero | .whole | .fraction | .exponent => true
  | .minus | .point | .mark | .sign => false

def NumberText.pushExponent (n : NumberText) (c : Char) : NumberText :=
  { n with exponent := n.exponent.map fun (negative, digits) => (negative, digits ++ [c]) }

/-- The continuation of a number by a character, if there is one. -/
def continue? (place : NumberPlace) (n : NumberText) (c : Char) : Option (NumberPlace × NumberText) :=
  match place with
  | .minus =>
    if c.isDigit then some (if c = '0' then .zero else .whole, { n with whole := [c] }) else none
  | .zero =>
    if c = '.' then some (.point, n)
    else if c = 'e' || c = 'E' then some (.mark, { n with exponent := some (false, []) })
    else none
  | .whole =>
    if c.isDigit then some (.whole, { n with whole := n.whole ++ [c] })
    else if c = '.' then some (.point, n)
    else if c = 'e' || c = 'E' then some (.mark, { n with exponent := some (false, []) })
    else none
  | .point => if c.isDigit then some (.fraction, { n with fraction := [c] }) else none
  | .fraction =>
    if c.isDigit then some (.fraction, { n with fraction := n.fraction ++ [c] })
    else if c = 'e' || c = 'E' then some (.mark, { n with exponent := some (false, []) })
    else none
  | .mark =>
    if c.isDigit then some (.exponent, n.pushExponent c)
    else if c = '+' then some (.sign, n)
    else if c = '-' then some (.sign, { n with exponent := some (true, []) })
    else none
  | .sign => if c.isDigit then some (.exponent, n.pushExponent c) else none
  | .exponent => if c.isDigit then some (.exponent, n.pushExponent c) else none

/-- A digit after a leading zero continues nothing and starts nothing. -/
def endsNumber (place : NumberPlace) (c : Char) : Bool :=
  place.isFinal && !c.isDigit

/-- What one character completes, and where it leads. -/
def step? : Place → Char → Option (List Token × Place)
  | .between, c => start? c
  | .word [] _, _ => none
  | .word [d] token, c => if c = d then some ([token], .between) else none
  | .word (d :: due) token, c => if c = d then some ([], .word due token) else none
  | .text units, c =>
    if c = '"' then some ([Token.ofUnits units.reverse], .between)
    else if c = '\\' then some ([], .escape units)
    else if c.toNat < 0x20 then none
    else some ([], .text (c.toNat :: units))
  | .escape units, c =>
    if c = 'u' then some ([], .code units 4 0)
    else (escaped? c).map fun u => ([], .text (u :: units))
  | .code units due value, c =>
    match hexValue? c with
    | none => none
    | some digit =>
      let value := value * 16 + digit
      if due ≤ 1 then some ([], .text (value :: units)) else some ([], .code units (due - 1) value)
  | .number place n, c =>
    match continue? place n c with
    | some (place, n) => some ([], .number place n)
    | none =>
      if endsNumber place c then (start? c).map fun (tokens, next) => (.number n :: tokens, next)
      else none

/-- What the end of the text completes. -/
def finish? : Place → Option (List Token)
  | .between => some []
  | .number place n => if place.isFinal then some [.number n] else none
  | _ => none

def tokensFrom? : Place → List Char → Option (List Token)
  | place, [] => finish? place
  | place, c :: rest =>
    match step? place c with
    | none => none
    | some (tokens, next) => (tokensFrom? next rest).map (tokens ++ ·)

/-- The tokens of a text. -/
def tokens? (cs : List Char) : Option (List Token) := tokensFrom? .between cs

end Docbase.Json
