/-
JSON texts of objects whose values are strings, as they are written without white space. Reading undoes writing: a
character comes back out of a string whether it stands there itself or by an escape (`tokensFrom?_escape`), so a
string comes back (`tokensFrom?_quoted`), and member by member the object does (`read?_compact`).

A text carries an object if it gives the same values under the same keys; the order of the keys may be another, and
of repeated keys only the last has to be there (`Carries`).
-/
import Docbase.Json.Basic
import Docbase.Json.Syntax
import Docbase.Proofs.Fields
import Docbase.Text.Bytes

namespace Docbase.Json

/-! ## Writing -/

/-- How a character stands in a string: quotes, backslashes and control characters by an escape. -/
def escape (c : Char) : List Char :=
  match c with
  | '"' => ['\\', '"']
  | '\\' => ['\\', '\\']
  | '\x08' => ['\\', 'b']
  | '\x0c' => ['\\', 'f']
  | '\n' => ['\\', 'n']
  | '\r' => ['\\', 'r']
  | '\t' => ['\\', 't']
  | c => if c.toNat < 0x20 then '\\' :: 'u' :: Text.hexDigits 4 c.toNat else [c]

def quoted (s : String) : List Char := '"' :: (s.toList.flatMap escape ++ ['"'])

def memberText (m : String × String) : List Char := quoted m.1 ++ ':' :: quoted m.2

/-- What follows a member: the other members and the end of the object. -/
def textBehind : Fields String → List Char
  | [] => ['\x7d']
  | m :: rest => ',' :: (memberText m ++ textBehind rest)

/-- The text of an object. -/
def compact (members : Fields String) : String :=
  match members with
  | [] => String.ofList ['\x7b', '\x7d']
  | m :: rest => String.ofList ('\x7b' :: (memberText m ++ textBehind rest))

/-- An object whose values are strings. -/
def ofStrings (members : Fields String) : Json := Json.object (members.map fun m => (m.1, Json.string m.2))

def Tree.ofStrings (members : Fields String) : Tree := .object (members.map fun m => (some m.1, .string (some m.2)))

/-- Whether a text, read as JSON, is an object with the values of another under its keys. -/
def Carries (text : String) (members : Fields String) : Prop :=
  ∃ carried, Tree.read? text = some (.ofStrings carried) ∧ (Fields.ofPairs carried).Perm (Fields.ofPairs members)

/-! ## Strings -/

theorem hexValue?_hexDigit (n : Nat) : hexValue? (Text.hexDigit n) = some (n % 16) := by
  have hdigits : ∀ d < 16, hexValue? (Nat.digitChar d) = some d := by decide
  exact hdigits (n % 16) (Nat.mod_lt n (by decide))

theorem tokensFrom?_digit (units : List Nat) (due value n : Nat) (rest : List Char) :
    tokensFrom? (.code units (due + 2) value) (Text.hexDigit n :: rest) =
      tokensFrom? (.code units (due + 1) (value * 16 + n % 16)) rest := by
  simp [tokensFrom?, step?, hexValue?_hexDigit]

theorem tokensFrom?_lastDigit (units : List Nat) (value n : Nat) (rest : List Char) :
    tokensFrom? (.code units 1 value) (Text.hexDigit n :: rest) =
      tokensFrom? (.text ((value * 16 + n % 16) :: units)) rest := by
  simp [tokensFrom?, step?, hexValue?_hexDigit]

/-- A code of four digits gives the number that they write. -/
theorem tokensFrom?_code {n : Nat} (hn : n < 0x10000) (units : List Nat) (rest : List Char) :
    tokensFrom? (.code units 4 0) (Text.hexDigits 4 n ++ rest) = tokensFrom? (.text (n :: units)) rest := by
  have hvalue : (((0 * 16 + n / 16 / 16 / 16 % 16) * 16 + n / 16 / 16 % 16) * 16 + n / 16 % 16) * 16 + n % 16 = n := by
    omega
  simp only [Text.hexDigits, List.nil_append, List.cons_append]
  rw [tokensFrom?_digit, tokensFrom?_digit, tokensFrom?_digit, tokensFrom?_lastDigit, hvalue]

/-- A character comes out of a string as its code point. -/
theorem tokensFrom?_escape (c : Char) (units : List Nat) (rest : List Char) :
    tokensFrom? (.text units) (escape c ++ rest) = tokensFrom? (.text (c.toNat :: units)) rest := by
  unfold escape
  split
  case h_8 hquote hbackslash _ _ _ _ _ =>
    split
    · next hcontrol =>
      rw [List.cons_append, List.cons_append, ← tokensFrom?_code (hcontrol.trans (by decide)) units rest]
      simp [tokensFrom?, step?]
    · next hcontrol => simp [tokensFrom?, step?, hcontrol, if_neg hquote, if_neg hbackslash]
  all_goals simp [tokensFrom?, step?, escaped?]

theorem tokensFrom?_escapes (cs : List Char) (units : List Nat) (rest : List Char) :
    tokensFrom? (.text units) (cs.flatMap escape ++ rest) =
      tokensFrom? (.text ((cs.map Char.toNat).reverse ++ units)) rest := by
  induction cs generalizing units with
  | nil => rfl
  | cons c cs ih =>
    rw [List.flatMap_cons, List.append_assoc, tokensFrom?_escape, ih, List.map_cons, List.reverse_cons,
      List.append_assoc, List.singleton_append]

/-- No character is a surrogate. -/
theorem not_isSurrogate (c : Char) : isHighSurrogate c.toNat = false ∧ isLowSurrogate c.toNat = false := by
  have hvalid : c.toNat < 0xD800 ∨ 0xDFFF < c.toNat ∧ c.toNat < 0x110000 := c.valid
  simp only [isHighSurrogate, isLowSurrogate, Bool.and_eq_false_iff, decide_eq_false_iff_not]
  omega

theorem charsOfUnits?_toNat (cs : List Char) : charsOfUnits? (cs.map Char.toNat) = some cs := by
  induction cs with
  | nil => rfl
  | cons c cs ih =>
    obtain ⟨hhigh, hlow⟩ := not_isSurrogate c
    cases cs with
    | nil => simp [charsOfUnits?, hhigh, hlow]
    | cons next cs =>
      rw [List.map_cons] at ih
      simp [charsOfUnits?, hhigh, hlow, ih]

theorem tokensFrom?_quoted (s : String) (rest : List Char) : tokensFrom? .between (quoted s ++ rest) =
    (tokensFrom? .between rest).map (.string (some s) :: ·) := by
  have hstring : Token.ofUnits (s.toList.map Char.toNat) = .string (some s) := by
    rw [Token.ofUnits, charsOfUnits?_toNat, Option.map_some, String.ofList_toList]
  calc tokensFrom? .between (quoted s ++ rest)
    _ = tokensFrom? (.text []) (s.toList.flatMap escape ++ '"' :: rest) := by
      simp [quoted, tokensFrom?, step?, start?, isSpace]
    _ = tokensFrom? (.text (s.toList.map Char.toNat).reverse) ('"' :: rest) := by
      rw [tokensFrom?_escapes, List.append_nil]
    _ = _ := by simp [tokensFrom?, step?, hstring]

/-! ## Members -/

/-- A character that is a token by itself. -/
theorem tokensFrom?_mark {c : Char} {t : Token} (h : start? c = some ([t], .between)) (rest : List Char) :
    tokensFrom? .between (c :: rest) = (tokensFrom? .between rest).map (t :: ·) := by
  rw [tokensFrom?, step?, h]
  rfl

def memberTokens (m : String × String) : List Token := [.string (some m.1), .colon, .string (some m.2)]

def tokensBehind : Fields String → List Token
  | [] => [.rightBrace]
  | m :: rest => .comma :: (memberTokens m ++ tokensBehind rest)

theorem tokensFrom?_memberText (m : String × String) (rest : List Char) :
    tokensFrom? .between (memberText m ++ rest) = (tokensFrom? .between rest).map (memberTokens m ++ ·) := by
  rw [memberText, List.append_assoc, List.cons_append, tokensFrom?_quoted, tokensFrom?_mark rfl, tokensFrom?_quoted,
    Option.map_map, Option.map_map]
  rfl

theorem tokensFrom?_textBehind (members : Fields String) :
    tokensFrom? .between (textBehind members) = some (tokensBehind members) := by
  induction members with
  | nil => rfl
  | cons m rest ih =>
    rw [textBehind, tokensFrom?_mark rfl, tokensFrom?_memberText, ih]
    rfl

/-- Members behind others that have been read already. -/
theorem treeFrom?_tokensBehind (members : Fields String) (m : String × String)
    (done : List (Option String × Tree)) :
    treeFrom? (.separator (.string (some m.2)) [.members done (some m.1)]) (tokensBehind members) =
      some (.object (done ++ (m :: members).map fun m => (some m.1, .string (some m.2)))) := by
  induction members generalizing m done with
  | nil => rfl
  | cons next members ih => simp [tokensBehind, memberTokens, treeFrom?, treeStep?, valueStep?, ih]

theorem read?_compact (members : Fields String) : Tree.read? (compact members) = some (.ofStrings members) := by
  cases members with
  | nil => rfl
  | cons m rest =>
    rw [Tree.read?, compact, String.toList_ofList, tokens?, tokensFrom?_mark rfl,
      tokensFrom?_memberText, tokensFrom?_textBehind]
    exact treeFrom?_tokensBehind rest m []

theorem carries_compact (members : Fields String) : Carries (compact members) members :=
  ⟨members, read?_compact members, .refl _⟩

end Docbase.Json
