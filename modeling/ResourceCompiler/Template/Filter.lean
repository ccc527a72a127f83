import ResourceCompiler.Text.Blank
import ResourceCompiler.Text.Case
import ResourceCompiler.Text.Quoted

/-!
# Text filters of templates
-/

namespace ResourceCompiler.Filter

open Text

/-- As many blanks as a number says; none for a negative one. -/
def padding (n : Int) : List Char := List.replicate n.toNat ' '

/-- Indents every line that is not blank. -/
def indentChars (n : Int) (cs : List Char) : List Char :=
  joinWith ['\n'] ((lines cs).map fun line => if line.all isBlank then line else padding n ++ line)

def indentLines (n : Int) (s : String) : String :=
  String.ofList (indentChars n s.toList)

/-- A line of a comment, without blanks at its end. -/
def commentLine (n : Int) (line : List Char) : List Char :=
  trimRight isBlank (padding n ++ ' ' :: '*' :: ' ' :: line)

/-- A text as a block comment. What would close the comment is replaced by an entity. -/
def docCommentChars (n : Int) (cs : List Char) : List Char :=
  let safe := replaceAll ['*', '/'] "*&#47;".toList cs
  let body := (lines (trim isBlank safe)).map (commentLine n)
  joinWith ['\n'] ((padding n ++ "/**".toList) :: (body ++ [padding n ++ " */".toList]))

def docComment (n : Int) (s : String) : String :=
  String.ofList (docCommentChars n s.toList)

def capitalizeFirst (s : String) : String :=
  match s.toList with
  | [] => ""
  | c :: cs => String.ofList (upperOf c ++ cs)

end ResourceCompiler.Filter
