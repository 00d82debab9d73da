import MetricPoints.Text.Shown

/-
  Quoted texts: a text between double quotes on one line. A quote and a backslash are written after
  a backslash, line ends, tabs and NUL by their letters, and any other character that is not
  shown as it is by its code.
-/

namespace MetricPoints.Text

/-- The code of a character between braces, in lower case hexadecimal digits. -/
def codeText (c : Char) : List Char :=
  ['\\', 'u', '\x7b'] ++ Nat.toDigits 16 c.toNat ++ ['\x7d']

/-- How one character is written between quotes. -/
def escape : Char → List Char
  | '\x00' => ['\\', '0']
  | '\t' => ['\\', 't']
  | '\r' => ['\\', 'r']
  | '\n' => ['\\', 'n']
  | '"' => ['\\', '"']
  | '\\' => ['\\', '\\']
  | c => if isShown c then [c] else codeText c

/-- The text between quotes. -/
def quoted (text : String) : String :=
  String.ofList ('"' :: text.toList.flatMap escape ++ ['"'])

end MetricPoints.Text
