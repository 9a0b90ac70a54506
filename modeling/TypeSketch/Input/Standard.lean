import TypeSketch.Input.CommentedJson
import TypeSketch.Input.FieldList
import TypeSketch.Input.VariantList

/-!
# The readers at hand

JSON samples, field lists and variant lists. There is no reader for programs among them.
-/

namespace TypeSketch

/-- The readers, in the order in which they are asked. -/
def InputReader.standard : List InputReader :=
  [CommentedJson.reader, FieldList.reader, VariantList.reader]

end TypeSketch
