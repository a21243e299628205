import HandleCalculus.Text.Hidden

/-!
# Quoted text

A text between double quotes, in which quotes, backslashes and the usual controls are written with
a backslash and every other hidden character by its number, `\u{7f}`. A single quote stands for
itself. Also the small numeric forms that other texts need.
-/

set_option autoImplicit false

namespace HandleCalculus.Text

/-- The hexadecimal digit of a number below 16, in lower case. -/
def hexDigit (n : Nat) : Char := if n < 10 then Char.ofNat (48 + n) else Char.ofNat (87 + n)

/-- The lowest `width` hexadecimal digits of a number, in front of `rest`. -/
def hexFixed : Nat → Nat → List Char → List Char
  | 0, _, rest => rest
  | width + 1, n, rest => hexFixed width (n / 16) (hexDigit (n % 16) :: rest)

/-- The number of hexadecimal digits of a number, one for zero. -/
def hexWidth (n : Nat) : Nat := Nat.log2 n / 4 + 1

/-- A number in hexadecimal, without leading zeros. -/
def hex (n : Nat) : String := String.ofList (hexFixed (hexWidth n) n [])

/-- A number in hexadecimal with exactly `width` digits. -/
def hexPadded (width n : Nat) : String := String.ofList (hexFixed width n [])

/-- The number that a hexadecimal digit stands for, in either case. -/
def ofHexDigit? (c : Char) : Option Nat :=
  if '0' ≤ c && c ≤ '9' then some (c.toNat - 48)
  else if 'a' ≤ c && c ≤ 'f' then some (c.toNat - 87)
  else if 'A' ≤ c && c ≤ 'F' then some (c.toNat - 55)
  else none

/-- The number that hexadecimal digits stand for, `acc` standing for those before. -/
def ofHex? (acc : Nat) : List Char → Option Nat
  | [] => some acc
  | c :: cs =>
    match ofHexDigit? c with
    | some d => ofHex? (16 * acc + d) cs
    | none => none

/-- One character of a quoted text. -/
def quoteChar (c : Char) : List Char :=
  match c with
  | '\x00' => ['\\', '0']
  | '\t' => ['\\', 't']
  | '\r' => ['\\', 'r']
  | '\n' => ['\\', 'n']
  | '"' => ['\\', '"']
  | '\\' => ['\\', '\\']
  | c =>
    if 0x20 ≤ c.toNat && c.toNat < 0x7f then [c]
    else if isHidden c then
      ['\\', 'u', '\x7b'] ++ hexFixed (hexWidth c.toNat) c.toNat ['\x7d']
    else [c]

/-- The text between quotes. -/
def quoted (s : String) : String :=
  String.ofList ('"' :: (s.toList.flatMap quoteChar ++ ['"']))

/-- A list in square brackets. -/
def bracketed (items : List String) : String := "[" ++ ", ".intercalate items ++ "]"

end HandleCalculus.Text
