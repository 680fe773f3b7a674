import HeaderMiner.Text.Pieces
import HeaderMiner.Utf8
/-!
# Percent signs

A part of a URL spells the characters that it cannot hold by their bytes, each as two hexadecimal
digits behind a percent sign.  Which characters those are depends on the part.
-/

namespace HeaderMiner.Url

/-- the ASCII characters that each part spells by their bytes, besides control characters -/
inductive Part where
  | opaquePath
  | fragment
  | query
  /-- the query of a scheme that the web knows -/
  | webQuery
  | path
  | userinfo
deriving DecidableEq

def Part.spelled : Part → String
  | .opaquePath => ""
  | .fragment => " \"<>\x60"
  | .query => " \"#<>"
  | .webQuery => " \"#<>'"
  | .path => " \"#<>?\x60\x7b\x7d"
  | .userinfo => " \"#<>?\x60\x7b\x7d/:;=@[\\]^|"

/-- a byte behind a percent sign -/
def percent (b : UInt8) : List Char :=
  ['%', hexDigit (b.toNat / 16), hexDigit (b.toNat % 16)]
where
  hexDigit (d : Nat) : Char := if d < 10 then Char.ofNat (48 + d) else Char.ofNat (55 + d)

def Part.encodeChar (p : Part) (c : Char) : List Char :=
  if 0x20 ≤ c.toNat ∧ c.toNat < 0x7f ∧ !p.spelled.contains c then [c]
  else (String.utf8EncodeChar c).flatMap percent

def Part.encode (p : Part) (cs : List Char) : String := String.ofList (cs.flatMap p.encodeChar)

/-- the bytes of a text, where two digits behind a percent sign are one -/
def percentBytes : List Char → List UInt8
  | [] => []
  | '%' :: a :: b :: r =>
    match Text.hexValue? a, Text.hexValue? b with
    | some x, some y => UInt8.ofNat (x * 16 + y) :: percentBytes r
    | _, _ => 37 :: percentBytes (a :: b :: r)
  | c :: r => String.utf8EncodeChar c ++ percentBytes r

end HeaderMiner.Url
