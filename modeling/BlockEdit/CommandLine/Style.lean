/-!
# Styled text

On a terminal with colours a text is shown in a style, which codes in front of it turn on and a code
behind it turns off. Where the text itself turns styles off, its own style is turned on again. A
plain style has no codes, and without colours no style has any.
-/

namespace BlockEdit.CommandLine

/-- How a text is shown. -/
inductive Style where
  | plain
  | bold
  | dimmed
  | red
  | green
  | yellow
  | cyan
  | boldRed
  | boldGreen
  | boldYellow
  | boldBlue
  deriving DecidableEq, Repr

/-- The number of a style that is not plain. -/
def Style.code? : Style → Option String
  | plain => none
  | bold => some "1"
  | dimmed => some "2"
  | red => some "31"
  | green => some "32"
  | yellow => some "33"
  | cyan => some "36"
  | boldRed => some "1;31"
  | boldGreen => some "1;32"
  | boldYellow => some "1;33"
  | boldBlue => some "1;34"

/-- What turns a style with a number on. -/
def turnOn (code : String) : List Char := '\x1b' :: '[' :: code.toList ++ ['m']

/-- What turns all styles off. -/
def turnOff : List Char := ['\x1b', '[', '0', 'm']

/-- A text in which `start` stands behind everything that turns styles off. -/
def resume (start : List Char) : List Char → List Char
  | '\x1b' :: '[' :: '0' :: 'm' :: cs => turnOff ++ start ++ resume start cs
  | c :: cs => c :: resume start cs
  | [] => []

/-- A text as it is shown in a style, with or without colours. -/
def Style.paint (style : Style) (colours : Bool) (text : String) : String :=
  match style.code?, colours with
  | some code, true =>
    String.ofList (turnOn code ++ resume (turnOn code) text.toList ++ turnOff)
  | _, _ => text

/-- A text with blanks in front of it, up to a width. -/
def alignRight (width : Nat) (text : String) : String :=
  String.ofList (List.replicate (width - text.length) ' ') ++ text

end BlockEdit.CommandLine
