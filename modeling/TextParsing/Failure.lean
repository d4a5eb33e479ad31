import TextParsing.Cursor

/-!
Why a parse did not succeed. A recoverable failure says that the parser did not apply, so something
else may be tried from the same place; a committed one says that it applied and the text is wrong.
A committed failure stays committed.
-/

namespace TextParsing

structure Failure where
  cursor : Cursor
  /-- What was expected, if that has been described. -/
  expected : Option String
  /-- Whether the description was given by a tag; such a description is not replaced. -/
  tagged : Bool
  committed : Bool

namespace Failure

variable (a : Cursor) (f : Failure)

def expecting (d : String) : Failure := ⟨a, some d, false, false⟩

def unexpected : Failure := ⟨a, none, false, false⟩

/-- Text remains where the end was expected. -/
def trailing : Failure := expecting a "end of input"

def location : Location := f.cursor.location

def commit : Failure := { f with committed := true }

def uncommit : Failure := { f with committed := false }

def tag (d : String) : Failure :=
  if f.tagged then f else { f with expected := some d, tagged := true }

/-- Another failure in place of `f`, as committed as `f` is. -/
def replaceBy (g : Failure) : Failure := { g with committed := f.committed }

@[simp] theorem commit_commit : f.commit.commit = f.commit := rfl

@[simp] theorem tag_cursor (d : String) : (f.tag d).cursor = f.cursor := by
  simp only [tag]
  split <;> rfl

@[simp] theorem tag_committed (d : String) : (f.tag d).committed = f.committed := by
  simp only [tag]
  split <;> rfl

@[simp] theorem tag_tagged (d : String) : (f.tag d).tagged = true := by
  simp only [tag]
  split
  · assumption
  · rfl

theorem tag_expected (d : String) :
    (f.tag d).expected = if f.tagged then f.expected else some d := by
  simp only [tag]
  split <;> rfl

@[simp] theorem tag_tag (d e : String) : (f.tag d).tag e = f.tag d := by
  unfold tag; split <;> simp_all

theorem tag_commit (d : String) : f.commit.tag d = (f.tag d).commit := by
  unfold tag commit; split <;> simp_all

end Failure

end TextParsing
