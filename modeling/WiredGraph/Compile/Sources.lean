import WiredGraph.Compile.Error
import WiredGraph.Document.Parser.Definition

/-!
# Parsed sources

Compilations start from documents without faults. All sources are read before the first fault, in
input order, is reported.
-/

namespace WiredGraph

/-- A source and its document. -/
structure ParsedSource where
  file : SourceFile
  document : Document

namespace SourceFile

/-- Reads the document of a source. -/
def read (file : SourceFile) : Except CompileError (SourceFile × ParsedDocument) :=
  match Document.parse file.chars with
  | .ok parsed => .ok (file, parsed)
  | .error block => .error (.misalignedBlock (file.locate block.span))

end SourceFile

namespace ParsedSource

/-- The error that a fault in a document is reported as. -/
def faultError (file : SourceFile) (fault : Diagnostic) : CompileError :=
  .malformed (file.locate (fault.primarySpan?.getD (.empty 0)))
    s!"{fault.message} ({fault.code.text})"

/-- The document of a source, which must have no fault. -/
def ofRead (read : SourceFile × ParsedDocument) : Except CompileError ParsedSource :=
  match read.2.fault with
  | some fault => .error (faultError read.1 fault)
  | none => .ok ⟨read.1, read.2.document⟩

/-- The documents of sources, none of which may have a fault. -/
def ofFiles (files : List SourceFile) : Except CompileError (List ParsedSource) := do
  let read ← files.mapM SourceFile.read
  read.mapM ofRead

/-- The location of a span in the source. -/
def locate (source : ParsedSource) (span : Span) : Location := source.file.locate span

end ParsedSource

end WiredGraph
