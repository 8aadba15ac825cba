import BlockEdit.Checksum.Sha256

/-!
# Checksums of text

The checksum of a text is `sha256:` and the 64 hexadecimal digits of the hash of its bytes.
`Checksum.short` gives the first digits for a person to read.
-/

namespace BlockEdit.Checksum

/-- What a checksum begins with. -/
def scheme : String := "sha256:"

/-- Eight hexadecimal digits of a word. -/
def wordDigits (w : UInt32) : List Char :=
  [28, 24, 20, 16, 12, 8, 4, 0].map fun k => Nat.digitChar ((w.toNat >>> k) % 16)

/-- The checksum of a text. -/
def ofText (text : String) : String :=
  scheme ++ String.ofList ((Sha256.digest text.toUTF8.toList).flatMap wordDigits)

/-- The digits of a checksum; a text that is none is taken as it is. -/
def digits (checksum : String) : List Char :=
  let cs := checksum.toList
  if scheme.toList.isPrefixOf cs then cs.drop scheme.length else cs

/-- The first `n` characters of the digits of a checksum. -/
def short (checksum : String) (n : Nat) : String := String.ofList ((digits checksum).take n)

end BlockEdit.Checksum
