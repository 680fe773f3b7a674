import HeaderMiner.Text.Printable
/-!
# Quoted text

A text as it is shown inside a message: between double quotes, with the quote, the backslash and
the usual control characters escaped by a letter, every other character that does not show itself
spelled by its number in braces, and the rest as it is.  A single character is shown between single
quotes by the same rules, with the roles of the two quotes exchanged.
-/

namespace HeaderMiner.Text

/-- lower-case hexadecimal digits of a number, without leading zeros -/
def hexDigits (n : Nat) : List Char := Nat.toDigits 16 n

/-- a character inside quotes, where `quote` is the quote that ends the text -/
def escapeChar (quote c : Char) : List Char :=
  if c = '\x00' then ['\\', '0']
  else if c = '\t' then ['\\', 't']
  else if c = '\n' then ['\\', 'n']
  else if c = '\r' then ['\\', 'r']
  else if c = '\\' then ['\\', '\\']
  else if c = quote then ['\\', c]
  else if isPlain c then [c]
  else '\\' :: 'u' :: '\x7b' :: hexDigits c.toNat ++ ['\x7d']

def quoted (s : String) : String :=
  String.ofList ('"' :: s.toList.flatMap (escapeChar '"') ++ ['"'])

def quotedChar (c : Char) : String :=
  String.ofList ('\'' :: escapeChar '\'' c ++ ['\''])

end HeaderMiner.Text
