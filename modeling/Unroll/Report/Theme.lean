/-! The looks of a report: colours and the characters that frames and marks are drawn with. -/

namespace Unroll.Report

/-- What a piece of text is, which decides its colour. -/
inductive Style where
  | error
  | warning
  | help
  | link
  | lineNumber
  | highlight

/-- The parameters of the terminal escape that begins a style. -/
def Style.escape : Style → String
  | error => "31"
  | warning => "33"
  | help => "36"
  | link => "36;1;4"
  | lineNumber => "2"
  | highlight => "35;1"

structure Theme where
  colored : Bool
  /-- In front of the message. -/
  sign : String
  horizontal : String
  vertical : String
  /-- In place of `vertical` beside lines that are not source. -/
  verticalGap : String
  arrowUp : String
  arrowRight : String
  cornerTop : String
  cornerBottom : String
  /-- Where the frame of a range that began further up bends into its last line. -/
  tee : String
  /-- Below the middle of a range, above its label. -/
  underTee : String
  underline : String

namespace Theme

/-- Box drawing characters with colours. -/
def colorful : Theme where
  colored := true
  sign := "×"
  horizontal := "─"
  vertical := "│"
  verticalGap := "·"
  arrowUp := "▲"
  arrowRight := "▶"
  cornerTop := "╭"
  cornerBottom := "╰"
  tee := "├"
  underTee := "┬"
  underline := "─"

/-- Plain text, in ASCII. -/
def plain : Theme where
  colored := false
  sign := "x"
  horizontal := "-"
  vertical := "|"
  verticalGap := ":"
  arrowUp := "^"
  arrowRight := ">"
  cornerTop := ","
  cornerBottom := "`"
  tee := "|"
  underTee := "|"
  underline := "^"

def paint (t : Theme) (style : Style) (text : String) : String :=
  if t.colored then "\x1b[" ++ style.escape ++ "m" ++ text ++ "\x1b[0m" else text

end Theme

end Unroll.Report
