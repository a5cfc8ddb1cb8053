import WiredGraph.Json.Decode
import WiredGraph.Json.Reader
import WiredGraph.Json.Writer
import WiredGraph.Module.Layout

/-!
# Compiler settings

The settings name the directives that wire callables, the tokens that give references their
meaning, and how paths give modules. Every setting has a default, also inside the group of wiring
directives.
-/

namespace WiredGraph

/-- The names of the directives that the compiler consumes. -/
structure WiringDirectives where
  /-- The resolver of one field. -/
  fieldResolver : String
  /-- The resolvers of the fields of an object type. -/
  typeFieldResolver : String
  /-- The class behind a scalar. -/
  scalar : String
  /-- The type resolver of an interface or a union. -/
  typeResolver : String
  /-- The function that input values pass through. -/
  inputValidator : String
deriving DecidableEq, Repr

namespace WiringDirectives

/-- The names that are used when none are given. -/
def standard : WiringDirectives := ⟨"r", "f", "scalar", "t", "v"⟩

/-- Whether a directive on a field is consumed by the compiler. -/
def isFieldWiring (wiring : WiringDirectives) (name : String) : Bool :=
  name == wiring.fieldResolver || name == wiring.typeFieldResolver

/-- All names. -/
def names (wiring : WiringDirectives) : List String :=
  [wiring.fieldResolver, wiring.typeFieldResolver, wiring.scalar, wiring.typeResolver,
    wiring.inputValidator]

end WiringDirectives

/-- The settings of the compilers. -/
structure Settings where
  wiring : WiringDirectives
  /-- The root of references to members of the service locator. -/
  locatorToken : String
  /-- The method name that stands for a constructor. -/
  constructorMarker : String
  /-- Interfaces that need no type resolver. -/
  typeResolverExemptions : List String
  /-- What every reference to the class of a scalar has to start with. -/
  scalarStart : Option String
  moduleLayout : ModuleLayout
  /-- The destination of operations that name none. -/
  defaultDestination : String
deriving DecidableEq, Repr

namespace Settings

/-- The settings that are used when none are given. -/
def standard : Settings :=
  ⟨.standard, "Di", "class", ["RecordSet"], none, .fileStem, "default"⟩

end Settings

namespace ModuleLayout

/-- The written form. -/
def toJson : ModuleLayout → Json
  | .fileStem => .object [("kind", .string "file_stem")]
  | .nested root => .object [("kind", .string "nested"), ("root_marker", .string root)]

/-- The layout that a value describes. -/
def ofJson? (value : Json) : Option ModuleLayout := do
  let (tag, record) ← value.variant?
  match tag, record with
  | "file_stem", .array (_ :: _) => none
  | "file_stem", _ => return .fileStem
  | "nested", record =>
      match ← Json.fields? ["root_marker"] record with
      | [root] => return .nested (← Json.required? Json.asString? root)
      | _ => none
  | _, _ => none

end ModuleLayout

namespace WiringDirectives

/-- The written form. -/
def toJson (wiring : WiringDirectives) : Json :=
  .object [
    ("field_resolver", .string wiring.fieldResolver),
    ("type_field_resolver", .string wiring.typeFieldResolver),
    ("scalar", .string wiring.scalar),
    ("type_resolver", .string wiring.typeResolver),
    ("input_validator", .string wiring.inputValidator)]

/-- The names that a value gives, and the standard ones for those it leaves out. -/
def ofJson? (value : Json) : Option WiringDirectives := do
  let string? := Json.defaulted? Json.asString?
  match ← Json.fields? ["field_resolver", "type_field_resolver", "scalar", "type_resolver",
      "input_validator"] value with
  | [fieldResolver, typeFieldResolver, scalar, typeResolver, inputValidator] =>
      return ⟨← string? standard.fieldResolver fieldResolver,
        ← string? standard.typeFieldResolver typeFieldResolver,
        ← string? standard.scalar scalar, ← string? standard.typeResolver typeResolver,
        ← string? standard.inputValidator inputValidator⟩
  | _ => none

end WiringDirectives

namespace Settings

/-- The written form. -/
def toJson (settings : Settings) : Json :=
  .object [
    ("wiring", settings.wiring.toJson),
    ("locator_token", .string settings.locatorToken),
    ("constructor_marker", .string settings.constructorMarker),
    ("type_resolver_exemptions", .array (settings.typeResolverExemptions.map .string)),
    ("scalar_prefix", (settings.scalarStart.map Json.string).getD .null),
    ("module_layout", settings.moduleLayout.toJson),
    ("default_destination", .string settings.defaultDestination)]

/-- The settings that a value gives, and the standard ones for those it leaves out. -/
def ofJson? (value : Json) : Option Settings := do
  let string? := Json.defaulted? Json.asString?
  match ← Json.fields? ["wiring", "locator_token", "constructor_marker",
      "type_resolver_exemptions", "scalar_prefix", "module_layout", "default_destination"]
      value with
  | [wiring, locatorToken, constructorMarker, exemptions, scalarStart, moduleLayout,
      defaultDestination] =>
      return ⟨← Json.defaulted? WiringDirectives.ofJson? standard.wiring wiring,
        ← string? standard.locatorToken locatorToken,
        ← string? standard.constructorMarker constructorMarker,
        ← Json.defaulted? (Json.asList? Json.asString?) standard.typeResolverExemptions exemptions,
        ← Json.optional? Json.asString? scalarStart,
        ← Json.defaulted? ModuleLayout.ofJson? standard.moduleLayout moduleLayout,
        ← string? standard.defaultDestination defaultDestination⟩
  | _ => none

/-- The settings in a text. -/
def ofText? (text : String) : Option Settings := (Json.ofText? text).bind ofJson?

end Settings

/-- Why a text gives no settings. -/
inductive SettingsFault where
  /-- The text is not a value. -/
  | notJson
  /-- A setting has a value that it cannot have. -/
  | unfit (setting : String)
  /-- The value is no record of settings, or it gives one twice. -/
  | noRecord
deriving DecidableEq, Repr

namespace SettingsFault

/-- The wording of the fault. -/
def message : SettingsFault → String
  | .notJson => "the text is not a JSON value"
  | .unfit setting => s!"invalid value for setting `{setting}`"
  | .noRecord => "expected an object that gives each setting at most once"

/-- What is wrong with a value that gives no settings: the first of its members that gives none by
itself, if there is one. -/
def ofValue : Json → SettingsFault
  | .object members =>
      match members.find? fun member => (Settings.ofJson? (.object [member])).isNone with
      | some (setting, _) => .unfit setting
      | none => .noRecord
  | _ => .noRecord

end SettingsFault

namespace Settings

/-- The settings in a text, or why there are none. -/
def read (text : String) : Except SettingsFault Settings :=
  match Json.ofText? text with
  | none => .error .notJson
  | some value =>
      match ofJson? value with
      | some settings => .ok settings
      | none => .error (.ofValue value)

theorem read_eq_ok_iff {text : String} {settings : Settings} :
    read text = .ok settings ↔ ofText? text = some settings := by
  rw [read, ofText?]
  cases Json.ofText? text with
  | none => simp
  | some value => cases given : ofJson? value <;> simp [given]

end Settings

end WiredGraph
