import HeaderMiner.Text.Composed
import HeaderMiner.Text.Mark
import HeaderMiner.Url.Domain.Direction
import HeaderMiner.Url.Domain.Joiner
import HeaderMiner.Url.Domain.Mapping
import HeaderMiner.Url.Domain.Punycode
import HeaderMiner.Utf8
/-!
# Domains

A domain is text in labels with points between them.  It is brought into one form, characters by
what they stand for and then composed, and each label that has other characters than those of ASCII
is spelled in ASCII.  A label that comes spelled is taken back and has to be in that form already.
-/

namespace HeaderMiner.Url.Domain

/-- the characters of ASCII that no host has -/
def isForbidden (n : Nat) : Bool :=
  n ≤ 0x20 || n == 0x7f || (n < 0x80 && "%#/:<>?@[\\]^|".contains (Char.ofNat n))

/-- the start of a label that is spelled -/
def mark : List Nat := [0x78, 0x6e, 0x2d, 0x2d]

def isSpelled (label : List Nat) : Bool := mark.isPrefixOf label

/-- whether a label may stand as it is -/
def isSound (label : List Nat) : Bool :=
  !label.any isForbidden && !(label.head?.any Text.isMark) && joinersStand [] label

/-- whether a label that has been taken back is in the one form, and had to be spelled -/
def isCanonical (label : List Nat) : Bool :=
  label.any (0x80 ≤ ·) && label.all (useOf · = .kept) && Text.composed label == label
    && !isSpelled label

/-- a label as it is read and as it is written -/
def label? (label : List Nat) : Option (List Nat × List Nat) := do
  if isSpelled label then
    let own ← Punycode.decode? (label.drop mark.length)
    if isCanonical own && isSound own then some (own, label) else none
  else if isSound label then
    some (label, if label.all (· < 0x80) then label else mark ++ Punycode.encode label)
  else none

/-- the domain of a host in ASCII, if it is one -/
def toAscii? (host : List UInt8) : Option (List Char) := do
  let text ← Utf8.decode? host
  let mapped ← mapped? (text.toList.map Char.toNat)
  let ls ← (Text.splitAt 0x2e (Text.composed mapped)).mapM label?
  if keepsDirections (ls.map Prod.fst) then
    some ((List.intercalate [0x2e] (ls.map Prod.snd)).map Char.ofNat)
  else none

end HeaderMiner.Url.Domain
