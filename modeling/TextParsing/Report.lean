import TextParsing.Failure
import TextParsing.Text.Quoted

/-!
What a caller is told about a text that did not parse: what was expected and what was found, where,
and a piece of the offending line with a marker. A report does not refer to the text, so of a long
line it keeps only a window.
-/

namespace TextParsing

open Text

inductive Report.Kind
  /-- No alternative matched. -/
  | mismatch
  /-- A committed parser failed. -/
  | committed
  /-- The parser succeeded but did not reach the end. -/
  | trailingInput
deriving DecidableEq

namespace Report.Kind

def name : Kind → String
  | mismatch => "Mismatch"
  | committed => "Committed"
  | trailingInput => "TrailingInput"

def code : Kind → String
  | mismatch => "textcombi::mismatch"
  | committed => "textcombi::committed"
  | trailingInput => "textcombi::trailing_input"

end Report.Kind

/-- A line cut down to at most `width` characters (at least one) around the byte `offset`, and where
that byte is in the cut. A quarter of the width is kept for what stands before the offset. -/
def window (line : List Char) (offset width : Nat) : List Char × Nat :=
  let width := max width 1
  if line.length ≤ width then (line, offset)
  else
    let skip := (takeBytes offset line).length - width / 4
    let piece := (line.drop skip).take width
    (piece, min (offset - byteLength (line.take skip)) (byteLength piece))

structure Report where
  kind : Report.Kind
  expected : Option String
  /-- The character at the failure, unless it is at the end of the text. -/
  found : Option Char
  location : Location
  /-- The line of the failure, or a window of it. -/
  line : List Char
  /-- The byte of `line` at which the marker starts. -/
  markerStart : Nat
  /-- The number of characters under the marker. -/
  markerLength : Nat

namespace Report

/-- The report on a failure, with at most `width` characters of its line. -/
def ofFailure (f : Failure) (kind : Kind) (width : Nat) : Report :=
  let (line, start) := window f.cursor.line f.cursor.lineOffset width
  { kind
    expected := f.expected
    found := f.cursor.peek
    location := f.cursor.location
    line
    markerStart := start
    markerLength := max (dropBytes start line).length 1 }

variable (r : Report)

def message : String :=
  let found := match r.found with
    | some c => quotedChar c
    | none => "end of input"
  match r.expected with
  | some e => "expected " ++ e ++ ", found " ++ found
  | none => "unexpected " ++ found

def display : String := r.location.display ++ ": " ++ r.message

/-- The message, the line and a marker under the failure. -/
def preview : String :=
  r.display ++ "\n" ++ String.ofList r.line ++ "\n" ++
    marker (takeBytes r.markerStart r.line).length r.markerLength

/-- A note on a span of `line`, counted in bytes. -/
structure Label where
  text : String
  start : Nat
  length : Nat
deriving DecidableEq

/-- The span under the marker, with what was expected there. -/
def label : Label where
  text := match r.expected with
    | some e => "expected " ++ e
    | none => "unexpected input"
  start := r.markerStart
  length := byteLength ((dropBytes r.markerStart r.line).take r.markerLength)

end Report

end TextParsing
