import Unroll.Report.Source
import Unroll.Report.Theme
import Unroll.ResolveError

/-!
How a compilation ends, and the report of the error if it ends with one: the error's message above
the source lines with the place marked.
-/

namespace Unroll.Report

def repeated (n : Nat) (s : String) : String := String.join (List.replicate n s)

def spaces (n : Nat) : String := repeated n " "

/-- `s` behind as many blanks as make it `width` characters long. -/
def padLeft (width : Nat) (s : String) : String := spaces (width - s.length) ++ s

/-! ## Where a range lies relative to a line -/

section

variable (e : Extent) (l : Line)

def stopOf : Nat := e.offset + e.length

/-- The end of the range, which is taken to hold at least one byte. -/
def solidStop : Nat := e.offset + max e.length 1

def holds : Bool := l.start ≤ e.offset && stopOf e ≤ l.stop

def startsIn : Bool := l.start ≤ e.offset && e.offset < l.stop

def endsIn : Bool := l.start < solidStop e && solidStop e ≤ l.stop

def runsThrough : Bool := e.offset < l.start && l.stop < solidStop e

def touches : Bool := startsIn e l || runsThrough e l || endsIn e l

/-- The range goes on into the line above or below. -/
def isPartial : Bool := touches e l && !(startsIn e l && endsIn e l)

/-- The line holds the end of the range, which may be right behind its last byte. -/
def reachesEnd : Bool := l.start ≤ stopOf e && stopOf e ≤ l.stop

end

/-! ## Pieces of the report -/

section

variable (t : Theme) (e : Extent) (label : String)

def highlight (s : String) : String := t.paint .highlight s

/-- What stands in front of source lines to join the parts of a range over several lines. -/
def gutter (l : Line) : String :=
  if !isPartial e l then spaces 4
  else if l.start ≤ e.offset then
    highlight t t.cornerTop ++ highlight t t.horizontal ++ highlight t t.arrowRight ++ " "
  else if reachesEnd e l then
    highlight t t.tee ++ highlight t t.horizontal ++ highlight t t.arrowRight ++ " "
  else highlight t t.vertical ++ "   "

/-- The mark under a range within one line, and the label under the middle of the mark. -/
def underlined (l : Line) (margin : String) : String :=
  let start := l.startColumn e.offset
  let stop := if e.length == 0 then start + 1 else max (l.stopColumn (stopOf e)) (start + 1)
  let middle := (start + stop) / 2
  let tee := if e.length == 0 then t.arrowUp else t.underTee
  let mark := spaces start ++ repeated (middle - start) t.underline ++ tee ++
    repeated (stop - middle - 1) t.underline
  let pointer := t.cornerBottom ++ repeated 2 t.horizontal ++ " " ++ highlight t label
  margin ++ highlight t mark ++ "\n" ++ margin ++ spaces middle ++ highlight t pointer ++ "\n"

/-- The label under the last line of a range over several lines. -/
def closing (margin : String) : String :=
  margin ++ highlight t t.cornerBottom ++ highlight t (repeated 3 t.horizontal) ++
    highlight t t.horizontal ++ " " ++ highlight t label ++ "\n"

/-- One source line and what is written under it. -/
def renderLine (numberWidth : Nat) (hasGutter : Bool) (l : Line) : String :=
  let number := t.paint .lineNumber (padLeft numberWidth (toString l.number))
  let margin := spaces (numberWidth + 2) ++ t.verticalGap ++ " "
  let source := " " ++ number ++ " " ++ t.vertical ++ " " ++
    (if hasGutter then gutter t e l else "") ++ l.expanded ++ "\n"
  let under :=
    if !touches e l then ""
    else if holds e l then
      underlined t e label l (margin ++ if hasGutter then spaces 4 else "")
    else if reachesEnd e l && !(l.start ≤ e.offset) then closing t label margin
    else ""
  source ++ under

/-- The lines of a window in a frame, under a header with the place of the range. -/
def renderWindow (file source : String) (w : Window) : String :=
  let lines := w.lines source
  let numberWidth := (toString ((lines.getLast?.map (·.number)).getD 0)).length
  let hasGutter := lines.any fun l => !holds e l && isPartial e l
  let (line, column) := position source e.offset
  let place := file ++ ":" ++ toString line ++ ":" ++ toString column
  spaces (numberWidth + 2) ++ t.cornerTop ++ t.horizontal ++ "[" ++ t.paint .link place ++ "]\n" ++
    String.join (lines.map (renderLine t e label numberWidth hasGutter)) ++
    spaces (numberWidth + 2) ++ t.cornerBottom ++ repeated 4 t.horizontal ++ "\n"

/-- What is shown in place of the source when it does not reach to the range. -/
def outOfBounds : String :=
  "  [" ++ t.paint .error "Failed to read contents for label" ++ " `" ++ t.paint .link label ++
    "` (offset: " ++ t.paint .link (toString e.offset) ++ ", length: " ++
    t.paint .link (toString e.length) ++ "): " ++ t.paint .warning "OutOfBounds" ++ "]\n"

end

/-- The report of an error in a file with the given source. There is none for an empty range that
begins behind the end of the source. -/
def render? (t : Theme) (err : ResolveError) (source : String) : Option String :=
  let e := err.extent
  if e.length == 0 && e.offset == source.utf8ByteSize + 1 then none else
  let header := t.paint .error err.code ++ "\n\n  " ++ t.paint .error t.sign ++ " " ++
    err.message ++ "\n"
  let body := match window? source e with
    | some w => renderWindow t e err.label err.file source w
    | none => outOfBounds t e err.label
  let footer := match err.help? with
    | some help => t.paint .help "  help: " ++ help ++ "\n"
    | none => ""
  some (header ++ body ++ footer)

/-! ## Outcomes -/

/-- The ways a compilation that should give an `α` can end. -/
inductive Outcome (α : Type) where
  | success (result : α)
  /-- The report was shown, and the exit status tells of the error. -/
  | reported (status : UInt8) (report : String)
  /-- The error points past the source, so no report can be drawn. -/
  | unreportable (err : ResolveError)

/-- Ends a compilation. A result passes through; an error is reported and gives exit status 1. -/
def conclude {α : Type} (result : Except ResolveError α) (source : String) : Outcome α :=
  match result with
  | .ok a => .success a
  | .error err =>
    match render? .colorful err source with
    | some report => .reported 1 report
    | none => .unreportable err

end Unroll.Report
