import WiredGraph.Descriptor.Table
import WiredGraph.Schema.Field

/-!
# Compiling schemas

A schema is compiled to one table for each module. An object type is described in every module that
declares fields for it and in the module of its base definition; each of these descriptors has the
fields of its module only, and everything else of the whole type. A type of another kind is
described once, in the module of its base definition.
-/

namespace WiredGraph

namespace DeclaredType

/-- What errors about the type itself are reported for. -/
def subject (type : DeclaredType) : Subject := ⟨type.name, type.base.location⟩

/-- The callable that the type is wired to by the first directive of a name. -/
def wiring? (type : DeclaredType) (settings : Settings) (name : String) :
    Except CompileError (Option CallableRef) :=
  type.subject.wiring? settings.referenceTokens name type.directives

/-- The contributions that a module makes to the type. -/
def contributionsOf (type : DeclaredType) (module : String) : List Contribution :=
  type.contributions.filter (·.source.module = module)

/-- Whether a module owns the type. -/
def ownedBy (type : DeclaredType) (module : String) : Bool := type.base.source.module = module

/-- Whether a module declares a field of the type. -/
def hasFieldIn (type : DeclaredType) (module : String) : Bool :=
  (type.contributionsOf module).any (·.definition.body.fields ≠ [])

/-- What one module says about an object type. -/
def objectBody (type : DeclaredType) (settings : Settings) (module : String) :
    Except CompileError TypeDescriptor.Body := do
  let fields ← (type.contributionsOf module).mapM (Contribution.fieldDescriptors settings)
  let fieldResolver ← type.wiring? settings settings.wiring.typeFieldResolver
  return .object fields.flatten fieldResolver
    ((type.contributions.flatMap (·.definition.body.interfaces)).map Name.text)

/-- The three static methods of the class behind a scalar. -/
def scalarOfClass (className : String) : TypeDescriptor.Body :=
  .scalar (.staticMethod className "serialize") (.staticMethod className "parseValue")
    (.staticMethod className "parseLiteral")

/-- What is said about a scalar. -/
def scalarBody (type : DeclaredType) (settings : Settings) :
    Except CompileError TypeDescriptor.Body := do
  let some text ← type.subject.wiringText? settings.wiring.scalar type.directives
    | throw (type.subject.missing settings.wiring.scalar)
  let className := Text.trim text.toList
  let reference := String.ofList className
  if let some start := settings.scalarStart then
    unless start.toList.isPrefixOf className do
      throw (type.subject.malformed reference (.wrongStart start))
  unless Reference.isClassName className do
    throw (type.subject.malformed reference .notAClass)
  return scalarOfClass reference

/-- What is said about an input type. -/
def inputBody (type : DeclaredType) (settings : Settings) :
    Except CompileError TypeDescriptor.Body := do
  let fields ← type.contributions.mapM (Contribution.inputFieldDescriptors settings)
  let parseValue ← type.wiring? settings settings.wiring.inputValidator
  return .input fields.flatten parseValue

/-- What is said about an enum; each value stands for its own name. -/
def enumBody (type : DeclaredType) : TypeDescriptor.Body :=
  .enum (.ofList ((type.contributions.flatMap (·.definition.body.values)).map fun value =>
    (value.name.text, value.name.text)))

/-- What is said about an interface. -/
def interfaceBody (type : DeclaredType) (settings : Settings) :
    Except CompileError TypeDescriptor.Body := do
  let fields ← type.contributions.mapM (Contribution.fieldDescriptors settings)
  let typeResolver ← type.wiring? settings settings.wiring.typeResolver
  if typeResolver.isNone ∧ type.name ∉ settings.typeResolverExemptions then
    throw (type.subject.missing settings.wiring.typeResolver)
  return .interface fields.flatten typeResolver

/-- What is said about a union. -/
def unionBody (type : DeclaredType) (settings : Settings) :
    Except CompileError TypeDescriptor.Body := do
  let some typeResolver ← type.wiring? settings settings.wiring.typeResolver
    | throw (type.subject.missing settings.wiring.typeResolver)
  return .union ((type.contributions.flatMap (·.definition.body.members)).map Name.text)
    typeResolver

/-- What one module says about the type. -/
def bodyIn (type : DeclaredType) (settings : Settings) (module : String) :
    Except CompileError TypeDescriptor.Body :=
  match type.kind with
  | .object => type.objectBody settings module
  | .scalar => type.scalarBody settings
  | .input => type.inputBody settings
  | .enum => .ok type.enumBody
  | .interface => type.interfaceBody settings
  | .union => type.unionBody settings

/-- Whether a module has a descriptor of the type. -/
def isDescribedIn (type : DeclaredType) (module : String) : Bool :=
  type.ownedBy module || (type.kind = .object && type.hasFieldIn module)

/-- The descriptor of the type in a module. -/
def describe (type : DeclaredType) (settings : Settings) (module : String) :
    Except CompileError TypeDescriptor := do
  let body ← type.bodyIn settings module
  return {
    name := type.name
    description := type.base.definition.description.map Description.text
    sourceModule := module
    directives := settings.wiring.remaining type.directives
    body := body }

end DeclaredType

namespace SchemaCompiler

/-- The modules of sources, in the order in which they first appear. -/
def modules (sources : List SchemaSource) : List String :=
  (sources.map SchemaSource.module).eraseDups

/-- The table of a module. -/
def table (settings : Settings) (types : List DeclaredType) (module : String) :
    Except CompileError DescriptorTable := do
  let descriptors ← (types.filter (·.isDescribedIn module)).mapM (·.describe settings module)
  return descriptors.foldl DescriptorTable.push (.empty module)

/-- Compiles schema documents to the tables of their modules. -/
def compile (settings : Settings) (files : List SourceFile) :
    Except CompileError (List DescriptorTable) := do
  let parsed ← ParsedSource.ofFiles files
  let sources ← parsed.mapM (SchemaSource.ofParsed settings.moduleLayout)
  let types ← DeclaredType.ofSources sources
  let tables ← (modules sources).mapM (table settings types)
  types.forM DeclaredType.checkDisjoint
  return tables

end SchemaCompiler

end WiredGraph
