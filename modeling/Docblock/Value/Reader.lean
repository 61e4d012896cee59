import Docblock.Failure
import Docblock.Value.Basic

/-!
# Readers of documents

Configuration files and manifests are written in a document language. What a text
of that language stands for is said by a reader; everything else here is about the
value that it gives.
-/

namespace Docblock

/-- What each text stands for as a document, or why it stands for nothing. -/
structure DocumentReader where
  read : Text → Except Failure Value

end Docblock
