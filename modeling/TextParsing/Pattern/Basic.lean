import TextParsing.Pattern.Search
import TextParsing.Pattern.Token

/-!
Patterns: regular expressions in their written form, anchored at the place where they are tried.
The written form is put into a group after a start anchor, so what it means is what that whole text
means.
-/

namespace TextParsing

/-- A pattern as written, and the program of the expression that its anchored form stands for. -/
structure Pattern where
  source : List Char
  program : Pattern.Program

namespace Pattern

/-- An expression, and how deep what it is written with is nested. -/
structure Item where
  regex : Regex
  depth : Nat

namespace Item

/-- The depth of what is put together from parts: theirs, and a level more if there are several. -/
def depthOf : List Item → Nat
  | [] => 0
  | [i] => i.depth
  | is => (is.map depth).foldl Nat.max 0 + 1

def ofItems (is : List Item) : Item := ⟨.ofItems (is.map regex), depthOf is⟩

def ofBranches (is : List Item) : Item := ⟨.ofBranches (is.map regex), depthOf is⟩

def quantify? (min : Nat) (max : Option Nat) (greedy : Bool) (i : Item) : Option Item :=
  (i.regex.repeated? min max greedy).map (⟨·, i.depth + 1⟩)

def group (numbered : Bool) (i : Item) : Item :=
  ⟨if numbered then .part true i.regex else i.regex, i.depth + 1⟩

end Item

/-- A group under construction: the finished alternatives and the items of the current one, the
latest first. -/
structure Group where
  numbered : Bool
  branches : List Item
  items : List Item

namespace Group

def empty (numbered : Bool) : Group := ⟨numbered, [], []⟩

def push (i : Item) (g : Group) : Group := { g with items := i :: g.items }

def nextBranch (g : Group) : Group :=
  { g with branches := .ofItems g.items.reverse :: g.branches, items := [] }

def content (g : Group) : Item := .ofBranches g.nextBranch.branches.reverse

/-- Put a quantifier on the last item; there has to be one. -/
def quantify? (min : Nat) (max : Option Nat) (greedy : Bool) (g : Group) : Option Group :=
  match g.items with
  | [] => none
  | i :: items => (i.quantify? min max greedy).map fun i => { g with items := i :: items }

end Group

/-- Read one token into the innermost of the open groups. -/
def feed? : Group × List Group → Token → Option (Group × List Group)
  | (g, outer), .atom depth r => some (g.push ⟨r, depth⟩, outer)
  | (g, outer), .openGroup numbered => some (.empty numbered, g :: outer)
  | (g, h :: outer), .closeGroup => some (h.push (g.content.group g.numbered), outer)
  | (_, []), .closeGroup => none
  | (g, outer), .bar => some (g.nextBranch, outer)
  | (g, outer), .quantifier min max greedy =>
    (g.quantify? min max greedy).map fun g => (g, outer)

def depthLimit : Nat := 250

/-- The expression that a text stands for, if it is well formed and not nested too deep. -/
def Regex.ofText? (cs : List Char) : Option Regex := do
  match ← (← Token.scan cs).foldlM feed? (Group.empty false, []) with
  | (g, []) => if g.content.depth ≤ depthLimit then return g.content.regex else none
  | _ => none

/-- The text that is compiled for a pattern. -/
def anchored (source : List Char) : List Char := ['^', '(', '?', ':'] ++ source ++ [')']

/-- The pattern of a written form, unless the form is refused. -/
def compile? (source : List Char) : Option Pattern :=
  (Regex.ofText? (anchored source)).map fun r => ⟨source, .ofRegex r⟩

def search (p : Pattern) (cs : List Char) : Option (Nat × Nat) := p.program.search cs

end Pattern

end TextParsing
