import BlockEdit.Document.Block
import Mathlib.Tactic.Common

/-!
# Nested elements

The blocks of a markup element are those of the grammar

* block ::= `<name` content `</name>`
* content ::= text | text block content

where a text is anything without `<`, so that the attributes of an element count as the first text
of its content. `Content` is the syntax of this grammar, and `Content.closedBlock` writes a block of
it.

`locate_block` says that the block is found in any surroundings, and is found to be open once its
last token is taken away. The name of the element must not be empty or begin with `/`; a longer name
that begins with it, or one that holds `<`, does no harm.
-/

namespace BlockEdit.Block

/-- A text in which no token of an element begins. -/
structure PlainText where
  chars : List Char
  no_angle : '<' ∉ chars

/-- A text, or a text, a block with the content `inner`, and more content. -/
inductive Content where
  | text (t : PlainText)
  | block (t : PlainText) (inner rest : Content)

/-- The tokens of an element as literals. -/
def elementDelimiters (name : List Char) : Delimiters where
  opening := '<' :: name
  closing := '<' :: '/' :: (name ++ ['>'])
  opening_ne_nil := by simp
  closing_ne_nil := by simp

namespace Content

/-- Content as it is written. -/
def chars (name : List Char) : Content → List Char
  | text t => t.chars
  | block t inner rest =>
    t.chars ++ ((elementDelimiters name).opening ++
      (inner.chars name ++ ((elementDelimiters name).closing ++ rest.chars name)))

/-- How deep blocks nest in the content. -/
def height : Content → Nat
  | text _ => 0
  | block _ inner rest => max (inner.height + 1) rest.height

/-- A block with the content, but for its last token. -/
def openBlock (name : String) (c : Content) : String :=
  "<" ++ name ++ String.ofList (c.chars name.toList)

/-- A block with the content. -/
def closedBlock (name : String) (c : Content) : String :=
  c.openBlock name ++ ("</" ++ name ++ ">")

end Content

theorem delimiters_element (name : String) :
    (TokenPair.element name).delimiters = .ok (elementDelimiters name.toList) := by
  simp [TokenPair.delimiters, TokenPair.element, elementDelimiters]

/-! ### Reading content -/

section Content

variable {name : List Char} {pos depth deepest : Nat} {rest : List Char}

/-- No token of an element begins at a character other than `<`. -/
theorem after?_element_cons (name : List Char) {c : Char} (cs : List Char) (hc : c ≠ '<') :
    Text.after? (elementDelimiters name).opening (c :: cs) = none ∧
      Text.after? (elementDelimiters name).closing (c :: cs) = none := by
  simp [elementDelimiters, Text.after?, hc.symm]

/-- The close token of an element does not begin with its open token. -/
theorem after?_opening_closing (hname : name ≠ []) (hslash : name.head? ≠ some '/')
    (rest : List Char) :
    Text.after? (elementDelimiters name).opening ((elementDelimiters name).closing ++ rest) =
      none := by
  cases name with
  | nil => exact absurd rfl hname
  | cons c cs =>
    have hc : c ≠ '/' := by simpa using hslash
    simp [elementDelimiters, Text.after?, hc]

theorem seek_plainText (t : PlainText) :
    seek (elementDelimiters name) pos depth deepest (t.chars ++ rest) =
      seek (elementDelimiters name) (pos + Text.byteSize t.chars) depth deepest rest := by
  obtain ⟨cs, hcs⟩ := t
  induction cs generalizing pos with
  | nil => simp
  | cons c cs ih =>
    obtain ⟨hc, hcs⟩ : '<' ≠ c ∧ '<' ∉ cs := by simpa using hcs
    obtain ⟨hopening, hclosing⟩ := after?_element_cons name (cs ++ rest) hc.symm
    rw [List.cons_append, seek_cons hopening hclosing, ih hcs, Text.byteSize_cons, Nat.add_assoc]

/-- Inside a block, content is read up to its end and leaves as many blocks open as there were. -/
theorem seek_content (hname : name ≠ []) (hslash : name.head? ≠ some '/') (c : Content)
    (hdeepest : depth + 1 ≤ deepest) :
    seek (elementDelimiters name) pos (depth + 1) deepest (c.chars name ++ rest) =
      seek (elementDelimiters name) (pos + Text.byteSize (c.chars name)) (depth + 1)
        (max deepest (depth + 1 + c.height)) rest := by
  induction c generalizing pos depth deepest rest with
  | text t =>
    rw [Content.chars, seek_plainText, Content.height, Nat.add_zero, Nat.max_eq_left hdeepest]
  | block t inner next ihinner ihnext =>
    have hno := after?_opening_closing hname hslash (next.chars name ++ rest)
    simp only [Content.chars, List.append_assoc, Text.byteSize_append]
    rw [seek_plainText, seek_opening (Text.after?_append _ _), ihinner (by omega),
      seek_closing hno (Text.after?_append _ _), ihnext (by omega)]
    congr 1
    · omega
    · simp only [Content.height]; omega

end Content

/-! ### Blocks in a document -/

section Documents

variable {name : String}

/-- The characters of a document that holds an open block. -/
theorem toList_openBlock (c : Content) :
    (c.openBlock name).toList =
      (elementDelimiters name.toList).opening ++ c.chars name.toList := by
  simp [Content.openBlock, elementDelimiters]

theorem toList_closedBlock (c : Content) :
    (c.closedBlock name).toList =
      (c.openBlock name).toList ++ (elementDelimiters name.toList).closing := by
  simp [Content.closedBlock, elementDelimiters]

/-- The scan of a document begins behind what stands in front of the start. -/
theorem locateEnd_append {tokens : TokenPair} {d : Delimiters} (hd : tokens.delimiters = .ok d)
    (before document : String) :
    locateEnd (before ++ document) before.utf8ByteSize tokens =
      (seek d before.utf8ByteSize 0 0 document.toList).mapError
        (.unbalanced before.utf8ByteSize) := by
  have hcut : Text.cutAt? before.utf8ByteSize (before ++ document).toList =
      some (before.toList, document.toList) :=
    Text.cutAt?_eq_some_iff.2 ⟨by simp, by simp⟩
  simp only [locateEnd, hd, hcut]

/-- A nested block is found with exactly its own end, whatever stands in front of it and behind it,
and it is found to be open when its last token is missing at the end of a document. -/
theorem locate_block (hname : name ≠ "") (hslash : name.toList.head? ≠ some '/') (c : Content)
    (before behind : String) :
    locate (before ++ c.closedBlock name ++ behind) before.utf8ByteSize (.element name) =
        .ok ⟨before.utf8ByteSize, before.utf8ByteSize + (c.closedBlock name).utf8ByteSize⟩ ∧
      locate (before ++ c.openBlock name) before.utf8ByteSize (.element name) =
        .error (.unbalanced before.utf8ByteSize
          (.unclosedAtEnd 1 (before ++ c.openBlock name).utf8ByteSize)) := by
  have hne : name.toList ≠ [] := by simpa using hname
  have hcontent : ∀ rest, seek (elementDelimiters name.toList) before.utf8ByteSize 0 0
      ((c.openBlock name).toList ++ rest) =
        seek (elementDelimiters name.toList)
          (before.utf8ByteSize + Text.byteSize (c.openBlock name).toList) 1
          (max 1 (1 + c.height)) rest := fun rest => by
    rw [toList_openBlock, List.append_assoc, seek_opening (Text.after?_append _ _),
      seek_content hne hslash c (Nat.le_max_right 0 1), Text.byteSize_append, ← Nat.add_assoc]
    rfl
  constructor
  · have hno := after?_opening_closing hne hslash behind.toList
    rw [locate, String.append_assoc, locateEnd_append (delimiters_element name),
      String.toList_append, toList_closedBlock,
      List.append_assoc, hcontent, seek_last_closing hno (Text.after?_append _ _), Nat.add_assoc,
      ← Text.byteSize_append, ← toList_closedBlock, Text.byteSize_toList]
    rfl
  · have hopen := hcontent []
    rw [List.append_nil, seek_nil_succ] at hopen
    rw [locate, locateEnd_append (delimiters_element name), hopen, Text.byteSize_toList,
      String.utf8ByteSize_append]
    rfl

/-- A block in a block, behind an open token and in front of a stray close token. -/
theorem locate_block_in_block :
    let c : Content := .block ⟨[' ', 'x', '>'], by decide⟩ (.text ⟨['>', 'ü'], by decide⟩)
      (.text ⟨['y'], by decide⟩)
    "b" ≠ "" ∧ "b".toList.head? ≠ some '/' ∧ c.closedBlock "b" = "<b x><b>ü</b>y</b>" ∧
      locate ("</b><b" ++ c.closedBlock "b" ++ "</b>") 6 (.element "b") = .ok ⟨6, 25⟩ := by
  intro c
  have hname : "b" ≠ "" := by decide
  have hslash : "b".toList.head? ≠ some '/' := by decide
  have hblock : c.closedBlock "b" = "<b x><b>ü</b>y</b>" := by decide
  have h := (locate_block hname hslash c "</b><b" "</b>").1
  rw [show (c.closedBlock "b").utf8ByteSize = 19 by rw [hblock]; decide,
    show "</b><b".utf8ByteSize = 6 by decide] at h
  exact ⟨hname, hslash, hblock, h⟩

end Documents

end BlockEdit.Block
