import TextParsing.Text.Bytes
import TextParsing.Range

/-!
A place in a source text: what has been read, what is left, and where that is. Every parser takes a
cursor and gives one back, so going back to an earlier place is running from an earlier cursor.
-/

namespace TextParsing

open Text

structure Cursor where
  source : List Char
  rest : List Char
  /-- How many bytes of the source have been read. -/
  offset : Nat
  location : Location

/-- Two cursors on one text are at the same place when they have read the same number of bytes. -/
instance : BEq Cursor := ⟨fun a b => a.offset == b.offset⟩

/-- A caret under the column after `indent` characters, and tildes under the characters after it. A
marker is at least one character wide. -/
def marker (indent width : Nat) : String :=
  String.ofList (List.replicate indent ' ' ++ '^' :: List.replicate (width - 1) '~')

namespace Cursor

def ofText (cs : List Char) : Cursor := ⟨cs, cs, 0, .start⟩

def isEmpty (a : Cursor) : Bool := a.rest.isEmpty

def peek (a : Cursor) : Option Char := a.rest.head?

/-- A list with one character more than are left. It bounds how often something can be read that
reads a character each time but the last. -/
def bound (a : Cursor) : List Char := ' ' :: a.rest

def advance (a : Cursor) : Option (Char × Cursor) :=
  match a.rest with
  | [] => none
  | c :: rest => some (c, ⟨a.source, rest, a.offset + c.utf8Size, a.location.past c⟩)

/-- Read `n` characters, or all that are left if there are fewer. -/
def drop : Nat → Cursor → Cursor
  | 0, a => a
  | n + 1, a =>
    match a.advance with
    | none => a
    | some (_, b) => drop n b

def consume (a : Cursor) (n : Nat) : Cursor :=
  ⟨a.source, dropBytes n a.rest, a.offset + n, a.location.scan (takeBytes n a.rest)⟩

def sliceTo (a b : Cursor) : List Char := takeBytes (b.offset - a.offset) a.rest

def consumed (a : Cursor) : List Char := takeBytes a.offset a.source

def lineBefore (a : Cursor) : List Char :=
  (a.consumed.reverse.takeWhile (· != '\n')).reverse

def lineAfter (a : Cursor) : List Char := a.rest.takeWhile (· != '\n')

/-- The line of the source that the cursor stands on, without its line feed. -/
def line (a : Cursor) : List Char := a.lineBefore ++ a.lineAfter

def lineOffset (a : Cursor) : Nat := byteLength a.lineBefore

def lineRemaining (a : Cursor) : Nat := a.lineAfter.length

def display (a : Cursor) : String :=
  a.location.display ++ ":\n" ++ String.ofList a.line ++ "\n" ++
    marker (a.location.column - 1) a.lineRemaining

@[simp] theorem drop_zero (a : Cursor) : drop 0 a = a := rfl

theorem drop_succ_of_advance {a b : Cursor} {c : Char} (n : Nat) (h : a.advance = some (c, b)) :
    drop (n + 1) a = drop n b := by simp [drop, h]

end Cursor

end TextParsing
