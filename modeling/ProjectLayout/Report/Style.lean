/-!
# Styled text

* `Style` — how a text can be shown.
* `paint`, `Style.apply` — a text between the escape sequences that switch a style on and off.

A sequence inside the text that switches everything off is followed by the style again.
-/

namespace ProjectLayout.Report

/-- How a text is shown. -/
inductive Style where
  | bold
  | dimmed
  | red
  | yellow
  | green
  | cyan
  | boldRed
  | boldYellow
  deriving DecidableEq, Repr

/-- The numbers of a style in its escape sequence. -/
def Style.code : Style → String
  | bold => "1"
  | dimmed => "2"
  | red => "31"
  | yellow => "33"
  | green => "32"
  | cyan => "36"
  | boldRed => "1;31"
  | boldYellow => "1;33"

/-- The sequence that switches a style on. -/
def Style.on (style : Style) : List Char := '\x1b' :: '[' :: style.code.toList ++ ['m']

/-- The sequence that switches every style off. -/
def reset : List Char := ['\x1b', '[', '0', 'm']

/-- The text with `again` behind each `reset`. -/
def restyle (again : List Char) : List Char → List Char
  | '\x1b' :: '[' :: '0' :: 'm' :: rest => reset ++ again ++ restyle again rest
  | c :: rest => c :: restyle again rest
  | [] => []

/-- A text in a style. -/
def paint (style : Style) (text : List Char) : List Char :=
  style.on ++ restyle style.on text ++ reset

/-- A text in a style, as a text. -/
def Style.apply (style : Style) (text : String) : String := String.ofList (paint style text.toList)

end ProjectLayout.Report
