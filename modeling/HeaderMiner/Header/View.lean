import HeaderMiner.Header
/-!
# Header fields by name

The twelve fields of a header with their names, integers as numbers and byte strings as
hexadecimal text, and the same as an indented JSON text.
-/

namespace HeaderMiner.Header

inductive Shown where
  | number (n : Nat)
  | hex (s : String)
deriving DecidableEq

/-- the fields in the order of the written form -/
def view (h : Header) : List (String × Shown) :=
  [("nonce", .number h.nonce.toNat),
   ("time", .number h.time.seconds),
   ("padding", .hex (Hex.encode h.padding.toList)),
   ("prevBlock", .hex (Hex.encode h.prevBlock.toList)),
   ("treeRoot", .hex (Hex.encode h.treeRoot.toList)),
   ("maskHash", .hex (Hex.encode h.maskHash.toList)),
   ("extraNonce", .hex (Hex.encode h.extraNonce.toList)),
   ("reservedRoot", .hex (Hex.encode h.reservedRoot.toList)),
   ("witnessRoot", .hex (Hex.encode h.witnessRoot.toList)),
   ("merkleRoot", .hex (Hex.encode h.merkleRoot.toList)),
   ("version", .number h.version.toNat),
   ("bits", .number h.bits.toNat)]

/-- a field value in JSON; hexadecimal text needs no escapes -/
def Shown.text : Shown → String
  | number n => toString n
  | hex s => "\"" ++ s ++ "\""

/-- the fields as a JSON object, one a line, indented by two spaces -/
def toJsonText (h : Header) : String :=
  let lines := h.view.map fun f => "  \"" ++ f.1 ++ "\": " ++ f.2.text
  "\x7b\n" ++ String.intercalate ",\n" lines ++ "\n\x7d"

/-- the header named and quoted, as it is shown inside other messages -/
def display (h : Header) : String := "Header(\"" ++ h.toHex ++ "\")"

end HeaderMiner.Header
