import TransferLedger.Text.Hidden
/-!
# Quoted texts

How a message shows a character or a text of its input: between quotes, with a backslash before
the quote and the backslash, short names for the commonest controls, and the number of every
other hidden character.

* `escape`: one character inside quotes of a given kind;
* `quoteChar`: a character between single quotes;
* `quote`: a text between double quotes.
-/

namespace TransferLedger.Text

/-- The number of a character, as a backslash, `u` and hexadecimal digits in braces. -/
def byNumber (c : Char) : List Char :=
  ['\\', 'u', '\x7b'] ++ Nat.toDigits 16 c.toNat ++ ['\x7d']

/-- A character as it stands inside quotes of the kind `q`. -/
def escape (q c : Char) : List Char :=
  match c with
  | '\x00' => ['\\', '0']
  | '\t' => ['\\', 't']
  | '\r' => ['\\', 'r']
  | '\n' => ['\\', 'n']
  | '\\' => ['\\', '\\']
  | c => if c = q then ['\\', c] else if isHidden c then byNumber c else [c]

/-- A character between single quotes. -/
def quoteChar (c : Char) : String :=
  String.ofList (['\''] ++ escape '\'' c ++ ['\''])

/-- A text between double quotes. -/
def quote (s : List Char) : String :=
  String.ofList (['"'] ++ s.flatMap (escape '"') ++ ['"'])

end TransferLedger.Text
