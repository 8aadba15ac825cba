/-!
# Reading bytes as text

Bytes that are not text can still be shown: every longest piece that could not be continued to a
character is replaced by one U+FFFD. `ofBytesLossy` reads any bytes in that way; on the UTF-8 form
of a text it gives the text back.
-/

namespace BlockEdit.Text

/-- The byte has the form of a byte inside a character. -/
def isContinuation (b : UInt8) : Bool := 0x80 ≤ b && b ≤ 0xbf

/-- `b` may stand behind the first byte `lead` of a character. -/
def mayFollow (lead b : UInt8) : Bool :=
  if lead == 0xe0 then 0xa0 ≤ b && b ≤ 0xbf
  else if lead == 0xed then 0x80 ≤ b && b ≤ 0x9f
  else if lead == 0xf0 then 0x90 ≤ b && b ≤ 0xbf
  else if lead == 0xf4 then 0x80 ≤ b && b ≤ 0x8f
  else isContinuation b

/-- The number of bytes of a character that begins with `lead`, or 0 if none does. -/
def sequenceSize (lead : UInt8) : Nat :=
  if lead < 0x80 then 1
  else if 0xc2 ≤ lead && lead ≤ 0xdf then 2
  else if 0xe0 ≤ lead && lead ≤ 0xef then 3
  else if 0xf0 ≤ lead && lead ≤ 0xf4 then 4
  else 0

/-- The bytes of a character behind its first one, as far as they are there. -/
def tailOf (lead : UInt8) (bytes : List UInt8) : List UInt8 :=
  match bytes with
  | b :: rest =>
    if mayFollow lead b then
      b :: (rest.take (sequenceSize lead - 2)).takeWhile isContinuation
    else []
  | [] => []

/-- The code point that a whole sequence of bytes spells. -/
def assemble (lead : UInt8) (tail : List UInt8) : Nat :=
  let head :=
    match tail.length with
    | 0 => lead.toNat
    | 1 => lead.toNat % 0x20
    | 2 => lead.toNat % 0x10
    | _ => lead.toNat % 0x08
  tail.foldl (fun n b => n * 0x40 + b.toNat % 0x40) head

/-- The character that begins with `lead`, or its replacement, and how many of the bytes that
follow belong to it. -/
def readChar (lead : UInt8) (bytes : List UInt8) : Char × Nat :=
  match sequenceSize lead with
  | 0 => (Char.ofNat 0xfffd, 0)
  | 1 => (Char.ofNat lead.toNat, 0)
  | size =>
    let tail := tailOf lead bytes
    if tail.length + 1 = size then (Char.ofNat (assemble lead tail), tail.length)
    else (Char.ofNat 0xfffd, tail.length)

/-- The characters that a list of bytes spells, with replacements. -/
def charsLossy : List UInt8 → List Char
  | [] => []
  | b :: bytes =>
    let (c, used) := readChar b bytes
    c :: charsLossy (bytes.drop used)
termination_by bytes => bytes.length
decreasing_by rw [List.length_drop, List.length_cons]; omega

/-- Any bytes read as text, with U+FFFD in the place of what is not text. -/
def ofBytesLossy (bytes : ByteArray) : String := String.ofList (charsLossy bytes.toList)

end BlockEdit.Text
