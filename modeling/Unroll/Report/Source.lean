import Unroll.Span
import Unroll.Text

/-!
The part of a source file that a diagnostic shows: the lines that hold the marked range, with one
line of context on either side. Offsets count bytes.
-/

namespace Unroll.Report

/-- A line break, from its first byte up to the start of the next line. -/
structure LineBreak where
  start : Nat
  stop : Nat
deriving DecidableEq

/-- The line breaks of a text that begins at byte `i`. A carriage return ends a line by itself or
together with the line feed after it. -/
def lineBreaksFrom : Nat → List Char → List LineBreak
  | _, [] => []
  | i, '\r' :: '\n' :: cs => ⟨i, i + 2⟩ :: lineBreaksFrom (i + 2) cs
  | i, c :: cs =>
    if c == '\r' || c == '\n' then ⟨i, i + 1⟩ :: lineBreaksFrom (i + 1) cs
    else lineBreaksFrom (i + c.utf8Size) cs

def lineBreaks (source : String) : List LineBreak := lineBreaksFrom 0 source.toList

/-! ## Position of an offset -/

/-- The line and the byte in it, both from one, where an offset stands: inside a line break, behind
the line's last character. -/
def position (source : String) (offset : Nat) : Nat × Nat :=
  let breaks := lineBreaks source
  let before := breaks.takeWhile (·.stop ≤ offset)
  let lineStart := (before.getLast?.map (·.stop)).getD 0
  let lineStop := ((breaks.drop before.length).head?.map (·.start)).getD source.utf8ByteSize
  (before.length + 1, min offset lineStop - lineStart + 1)

/-! ## Window of lines -/

/-- A range of whole lines. -/
structure Window where
  start : Nat
  stop : Nat
  /-- The number of lines in front of the window. -/
  linesBefore : Nat
deriving DecidableEq

/-- The lines that hold a range and one line of context around them; none if it ends over one byte
past the source. -/
def window? (source : String) (e : Extent) : Option Window :=
  if source.utf8ByteSize + 1 < e.offset + e.length then none else
  let breaks := lineBreaks source
  let before := breaks.filter (·.stop ≤ e.offset)
  let after := breaks.filter (max (e.offset + e.length) 1 ≤ ·.start)
  some {
    start := (before.dropLast.getLast?.map (·.stop)).getD 0
    stop := (after[1]?.map (·.stop)).getD source.utf8ByteSize
    linesBefore := before.length - 1 }

/-! ## Lines -/

structure Line where
  number : Nat
  /-- The offset of the first byte. -/
  start : Nat
  /-- The number of bytes, with the line break. -/
  size : Nat
  /-- The characters, without the line break. -/
  text : List Char
deriving DecidableEq

def Line.stop (l : Line) : Nat := l.start + l.size

def byteSize (cs : List Char) : Nat := cs.foldr (fun c n => c.utf8Size + n) 0

/-- Characters with the offsets of their first bytes, the first one at byte `i`. -/
def withOffsets : Nat → List Char → List (Nat × Char)
  | _, [] => []
  | i, c :: cs => (i, c) :: withOffsets (i + c.utf8Size) cs

def slice (source : String) (w : Window) : List Char :=
  ((withOffsets 0 source.toList).filter fun p => w.start ≤ p.1 && p.1 < w.stop).map (·.2)

/-- Cuts a text behind each line feed. -/
def splitLines : List Char → List (List Char)
  | [] => []
  | c :: cs =>
    if c == '\n' then ['\n'] :: splitLines cs
    else match splitLines cs with
      | [] => [[c]]
      | line :: lines => (c :: line) :: lines

/-- A line without its line feed and the carriage return in front of that. -/
def dropLineBreak (cs : List Char) : List Char :=
  match cs.reverse with
  | '\n' :: '\r' :: rest => rest.reverse
  | '\n' :: rest => rest.reverse
  | _ => cs

/-- Numbers lines from byte `start` behind `before` other lines. A last line that ends in a bare
carriage return counts with the one before. -/
def numberLines (before start : Nat) : List (List Char) → List Line
  | [] => []
  | cs :: lines =>
    { number := if cs.getLast? == some '\r' then before else before + 1
      start
      size := byteSize cs
      text := dropLineBreak cs } :: numberLines (before + 1) (start + byteSize cs) lines

def Window.lines (w : Window) (source : String) : List Line :=
  numberLines w.linesBefore w.start (splitLines (slice source w))

/-! ## Columns -/

def tabWidth : Nat := 4

/-- The width of each character of a text that begins in column `col`. A tab reaches to the next
multiple of the tab width. -/
def widthsFrom : Nat → List Char → List Nat
  | _, [] => []
  | col, c :: cs =>
    let w := if c == '\t' then tabWidth - col % tabWidth else Text.charWidth c
    w :: widthsFrom (col + w) cs

/-- A character of a line with the offset of its first byte and its width. -/
structure Cell where
  offset : Nat
  char : Char
  width : Nat

def Line.cells (l : Line) : List Cell :=
  (withOffsets l.start l.text).zipWith (fun p w => ⟨p.1, p.2, w⟩) (widthsFrom 0 l.text)

def totalWidth (cells : List Cell) : Nat := cells.foldr (fun c n => c.width + n) 0

/-- The text of a line with blanks in place of tabs. -/
def Line.expanded (l : Line) : String :=
  String.ofList <| l.cells.flatMap fun c =>
    if c.char == '\t' then List.replicate c.width ' ' else [c.char]

/-- One more column for an offset behind the text, which lies inside the line break. -/
def Line.overhang (l : Line) (offset : Nat) : Nat :=
  if l.start + byteSize l.text < offset then 1 else 0

/-- The column of the character that holds the byte at an offset. -/
def Line.startColumn (l : Line) (offset : Nat) : Nat :=
  totalWidth (l.cells.filter fun c => c.offset + c.char.utf8Size ≤ offset) + l.overhang offset

/-- The column behind the last character that begins before an offset. -/
def Line.stopColumn (l : Line) (offset : Nat) : Nat :=
  totalWidth (l.cells.filter (·.offset < offset)) + l.overhang offset

end Unroll.Report
