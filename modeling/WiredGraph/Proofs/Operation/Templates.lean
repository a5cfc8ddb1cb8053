import Mathlib.Data.List.Nodup
import Mathlib.Data.Option.Basic
import WiredGraph.Proofs.Operation.Compilation

/-!
# Operations of embedded templates

A host file offers the metadata of all of its templates together, and an operation takes the first
entry for its kind and name. An entry is made for the first operation of a template, so an entry
that an operation takes from a template is the entry of an operation there with its own kind and
name. If no two operations share kind and name, these are one operation: every operation is the
first one of its template, and what it takes is the template's own entry.
-/

namespace WiredGraph

namespace Template

/-- The operations that are written in a template. -/
def operations (template : Template) : List OperationDefinition :=
  (template.source "").document.operations

/-- The metadata entry of a template, made for its first operation that can be persisted. -/
def ownMetadata? (template : Template) : Option OperationMetadata :=
  (template.operations.findSome? OperationDefinition.identity?).map fun (kind, name) =>
    ⟨kind, name, template.constantName, template.destination, template.line.toUInt32⟩

theorem eq_ownMetadata?_of_metadata? {template : Template} {entry : Option OperationMetadata}
    (found : template.metadata? = .ok entry) : template.ownMetadata? = entry := by
  simp only [metadata?, Success.bind_eq_ok, Success.pure_eq_ok] at found
  rcases found with ⟨parsed, read, rfl⟩
  have same : (template.source "").document = parsed.document := by
    simp only [SourceFile.document, SourceFile.chars, source, read]
  rw [ownMetadata?, operations, same]

/-- The entry of a template has the kind and name of an operation in it, the first one if all
operations have kind and name. An operation before the one that is found would have no kind or no
name. -/
theorem exists_of_ownMetadata?_eq_some {template : Template} {entry : OperationMetadata}
    (found : template.ownMetadata? = some entry) :
    ∃ operation ∈ template.operations,
      operation.identity? = some (entry.kind, entry.name) ∧
        ((∀ other ∈ template.operations, other.identity?.isSome) →
          template.operations.head? = some operation) ∧
        entry.constantName = template.constantName ∧ entry.destination = template.destination ∧
          entry.line = template.line.toUInt32 := by
  rcases Option.map_eq_some_iff.mp found with ⟨⟨kind, name⟩, first, rfl⟩
  rcases List.findSome?_eq_some_iff.mp first with ⟨front, operation, back, split, identified, none⟩
  refine ⟨operation, by simp [split], identified, ?_, rfl, rfl, rfl⟩
  intro each
  cases front with
  | nil => rw [split, List.nil_append, List.head?_cons]
  | cons other rest =>
      have persisted := each other (by simp [split])
      rw [none other List.mem_cons_self] at persisted
      exact absurd persisted (by simp)

end Template

/-- A file of client code. -/
structure HostFile where
  path : String
  text : String

namespace HostFile

/-- The templates in a host file. -/
def templates (host : HostFile) : List Template := Template.findAll host.text.toList

/-- The documents and the metadata of the templates of a host file. -/
def embedded (host : HostFile) : EmbeddedDocuments :=
  ⟨host.templates.map (·.source host.path), host.templates.filterMap Template.ownMetadata?⟩

theorem eq_embedded_of_ofHostFile {host : HostFile} {documents : EmbeddedDocuments}
    (extracts : EmbeddedDocuments.ofHostFile host.path host.text = .ok documents) :
    host.embedded = documents := by
  simp only [EmbeddedDocuments.ofHostFile, Success.bind_eq_ok, Success.pure_eq_ok,
    Success.mapM_eq_ok_iff] at extracts
  rcases extracts with ⟨entries, each, rfl⟩
  have same : host.templates.map Template.ownMetadata? = entries := by
    rw [← List.forall₂_eq_eq_eq, List.forall₂_map_left_iff]
    exact each.imp fun _ _ found => Template.eq_ownMetadata?_of_metadata? found
  rw [embedded, ← same, List.filterMap_map]
  rfl

theorem map_embedded_of_mapM {hosts : List HostFile} {documents : List EmbeddedDocuments}
    (extracts : hosts.mapM (fun host => EmbeddedDocuments.ofHostFile host.path host.text) =
      .ok documents) :
    hosts.map embedded = documents := by
  rw [← List.forall₂_eq_eq_eq, List.forall₂_map_left_iff]
  exact (Success.mapM_eq_ok_iff.mp extracts).imp fun _ _ found => eq_embedded_of_ofHostFile found

end HostFile

/-- An operation with the template of a host file that it is written in. -/
structure WrittenOperation where
  host : HostFile
  template : Template
  definition : OperationDefinition

namespace WrittenOperation

/-- The operations that are written in host files, in order. -/
def inHosts (hosts : List HostFile) : List WrittenOperation :=
  hosts.flatMap fun host => host.templates.flatMap fun template =>
    template.operations.map (⟨host, template, ·⟩)

/-- A written operation as it is offered for compilation. -/
def candidate (written : WrittenOperation) : OperationCandidate :=
  ⟨(written.template.source written.host.path).parsed, written.definition,
    written.host.embedded.metadata⟩

/-- How an operation is recorded for a destination: with its own text, and with what its own
template says about it. -/
structure RecordedAs (settings : Settings) (fragments : Fragments) (written : WrittenOperation)
    (destination : String) (record : OperationRecord) : Prop where
  identity : written.definition.identity? = some (record.kind, record.operationName)
  body : ∃ used, fragments.closure written.definition.set = .ok used ∧
    record.body = OperationBody.render fragments written.definition used
  originFile : record.originFile = written.host.path
  constantName : record.constantName = written.template.constantName
  destination : destination = written.template.destination.getD settings.defaultDestination
  originLine : record.originLine = written.template.line.toUInt32

theorem mem_inHosts {hosts : List HostFile} {written : WrittenOperation} :
    written ∈ inHosts hosts ↔ written.host ∈ hosts ∧
      written.template ∈ written.host.templates ∧
        written.definition ∈ written.template.operations := by
  rcases written with ⟨host, template, definition⟩
  simp only [inHosts, List.mem_flatMap, List.mem_map, mk.injEq]
  constructor
  · rintro ⟨_, host_mem, _, template_mem, _, operation_mem, rfl, rfl, rfl⟩
    exact ⟨host_mem, template_mem, operation_mem⟩
  · rintro ⟨host_mem, template_mem, operation_mem⟩
    exact ⟨host, host_mem, template, template_mem, definition, operation_mem, rfl, rfl, rfl⟩

/-- The operations of embedded documents are those written in the host files. -/
theorem operations_embedded (hosts : List HostFile) :
    OperationCompiler.operations (hosts.map (OperationInput.embedded ∘ HostFile.embedded)) =
      (inHosts hosts).map candidate := by
  simp only [OperationCompiler.operations, OperationInput.sources, OperationInput.embedded,
    OperationCompiler.metadataOf, OperationCandidate.ofSources, HostFile.embedded, inHosts,
    Function.comp_apply, List.flatMap_map, List.map_flatMap, List.map_map]
  rfl

section Accepted

variable {hosts : List HostFile} {defined : Fragments} {accepted : List AcceptedOperation}
  (related : List.Forall₂ (fun written operation => written.candidate.AcceptedAs defined operation)
    (inHosts hosts) accepted)
  (distinct : (accepted.map AcceptedOperation.identity).Nodup)

include related

theorem identity?_isSome_of_accepted {written : WrittenOperation}
    (written_mem : written ∈ inHosts hosts) : written.definition.identity?.isSome := by
  rcases Success.exists_right_of_forall₂ related written_mem with ⟨operation, -, accepts⟩
  rw [show written.definition.identity? = _ from accepts.identity, Option.isSome_some]

include distinct

theorem nodup_identity?_of_accepted :
    ((inHosts hosts).map (·.definition.identity?)).Nodup := by
  have identities : (inHosts hosts).map (·.definition.identity?) =
      (accepted.map AcceptedOperation.identity).map some := by
    rw [List.map_map, ← List.forall₂_eq_eq_eq, List.forall₂_map_left_iff,
      List.forall₂_map_right_iff]
    exact related.imp fun _ _ accepts => accepts.identity
  rw [identities]
  exact distinct.map (Option.some_injective _)

/-- The entry that an accepted operation takes is that of its own template, and the operation is the
first one there. The entry was made for an operation of the same kind and name, which is this
operation. -/
theorem ownMetadata?_template_of_accepted {written : WrittenOperation}
    (written_mem : written ∈ inHosts hosts) {operation : AcceptedOperation}
    (accepts : written.candidate.AcceptedAs defined operation) :
    written.template.ownMetadata? = some operation.metadata ∧
      written.template.operations.head? = some written.definition := by
  rcases written with ⟨host, own, definition⟩
  rcases mem_inHosts.mp written_mem with ⟨host_mem, -, -⟩
  have entry_mem : operation.metadata ∈ host.templates.filterMap Template.ownMetadata? :=
    List.mem_of_find?_eq_some accepts.metadata
  have entry_for : (operation.metadata.kind, operation.metadata.name) = operation.identity := by
    have held := List.find?_some accepts.metadata
    rw [decide_eq_true_eq] at held
    exact Prod.ext held.1 held.2
  rcases List.mem_filterMap.mp entry_mem with ⟨template, template_mem, found⟩
  rcases Template.exists_of_ownMetadata?_eq_some found with
    ⟨maker, maker_mem, identified, first, -⟩
  have same : WrittenOperation.mk host template maker = ⟨host, own, definition⟩ := by
    have maker_written : ⟨host, template, maker⟩ ∈ inHosts hosts :=
      mem_inHosts.mpr ⟨host_mem, template_mem, maker_mem⟩
    refine List.inj_on_of_nodup_map (nodup_identity?_of_accepted related distinct) maker_written
      written_mem ?_
    rw [identified, entry_for]
    exact accepts.identity.symm
  obtain ⟨rfl, rfl⟩ : template = own ∧ maker = definition := by simpa using same
  refine ⟨found, first fun other other_mem => ?_⟩
  have other_written : ⟨host, template, other⟩ ∈ inHosts hosts :=
    mem_inHosts.mpr ⟨host_mem, template_mem, other_mem⟩
  exact identity?_isSome_of_accepted related other_written

/-- A template has no operation after its first one. -/
theorem length_operations_le_of_accepted {host : HostFile} (host_mem : host ∈ hosts)
    {template : Template} (template_mem : template ∈ host.templates) :
    template.operations.length ≤ 1 := by
  have first : ∀ definition ∈ template.operations,
      template.operations.head? = some definition := by
    intro definition definition_mem
    have written_mem : ⟨host, template, definition⟩ ∈ inHosts hosts :=
      mem_inHosts.mpr ⟨host_mem, template_mem, definition_mem⟩
    rcases Success.exists_right_of_forall₂ related written_mem with ⟨operation, -, accepts⟩
    exact (ownMetadata?_template_of_accepted related distinct written_mem accepts).2
  have each_once : (template.operations.map OperationDefinition.identity?).Nodup := by
    have here : (template.operations.map (WrittenOperation.mk host template)).Sublist
        (inHosts hosts) := by
      rw [inHosts, List.flatMap_def]
      refine .trans ?_ (List.sublist_flatten_of_mem (List.mem_map_of_mem host_mem))
      rw [List.flatMap_def]
      exact List.sublist_flatten_of_mem (List.mem_map_of_mem template_mem)
    have inherited := (here.map (·.definition.identity?)).nodup
      (nodup_identity?_of_accepted related distinct)
    rwa [List.map_map] at inherited
  match written : template.operations with
  | [] => simp
  | [_] => simp
  | one :: two :: rest =>
      have same : one = two := by simpa [written] using first two (by simp [written])
      simp [written, same] at each_once

theorem recordedAs_of_accepted (settings : Settings) {written : WrittenOperation}
    (written_mem : written ∈ inHosts hosts) {operation : AcceptedOperation}
    (accepts : written.candidate.AcceptedAs defined operation) :
    written.RecordedAs settings defined (operation.destination settings)
      (operation.record defined) := by
  rcases Template.exists_of_ownMetadata?_eq_some
      (ownMetadata?_template_of_accepted related distinct written_mem accepts).1 with
    ⟨-, -, -, -, constantName, destination, line⟩
  have definition : operation.definition = written.definition := accepts.definition
  exact {
    identity := accepts.identity
    body := ⟨operation.fragments, accepts.fragments, by rw [AcceptedOperation.record, definition]⟩
    originFile := congrArg SourceFile.path accepts.file
    constantName := constantName
    destination := congrArg (·.getD settings.defaultDestination) destination
    originLine := line }

end Accepted

end WrittenOperation

namespace OperationCompiler

open WrittenOperation (inHosts)

/-- When the operations embedded in host files can be compiled, every template has at most one
operation, and each operation is recorded with the constant, the destination and the line of the
very template that it is written in. -/
theorem recordedAs_of_compile_embedded {settings : Settings} {hosts : List HostFile}
    {documents : List EmbeddedDocuments} {registries : List OperationRegistry}
    (extracts : hosts.mapM (fun host => EmbeddedDocuments.ofHostFile host.path host.text) =
      .ok documents)
    (compiles : compile settings (documents.map .embedded) = .ok registries) :
    (∀ host ∈ hosts, ∀ template ∈ host.templates, template.operations.length ≤ 1) ∧
      ∃ compiled : List (String × OperationRecord),
        List.Forall₂
          (fun written entry => written.RecordedAs settings
            (fragments (documents.map .embedded)) entry.1 entry.2)
          (inHosts hosts) compiled ∧
        CollectedIn compiled registries := by
  obtain rfl := HostFile.map_embedded_of_mapM extracts
  rw [List.map_map] at compiles ⊢
  rcases compile_eq_ok_iff.mp compiles with ⟨-, accepted, related, distinct, rfl⟩
  rw [WrittenOperation.operations_embedded, List.forall₂_map_left_iff] at related
  refine ⟨?_, _, ?_, collectedIn_values_foldl_route _⟩
  · intro host host_mem template template_mem
    exact WrittenOperation.length_operations_le_of_accepted related distinct host_mem template_mem
  · rw [List.forall₂_map_right_iff]
    refine List.Forall₂.imp ?_
      ((List.forall₂_and_left _ _).mpr ⟨fun written written_mem => written_mem, related⟩)
    rintro written operation ⟨written_mem, accepts⟩
    exact WrittenOperation.recordedAs_of_accepted related distinct settings written_mem accepts

/-- Two host files whose templates share constant names and mention each other's operations. -/
def sharedConstants : List HostFile :=
  [⟨"user.ts",
      "/** @mDest admin */\nexport const DOC = gql\x60mutation Ban \x7b ban \x7b ...P \x7d \x7d\x60\n" ++
        "export const DOC = gql\x60query Me \x7b Ban: me \x7d\x60"⟩,
    ⟨"ban.ts",
      "export const DOC = gql\x60fragment P on User \x7b name \x7d\x60\n" ++
        "export const DOC = gql\x60query Ban \x7b me \x7d\x60"⟩]

theorem recordedAs_of_compile_sharedConstants :
    (inHosts sharedConstants).length = 3 ∧ ∃ documents registries,
      sharedConstants.mapM (fun host => EmbeddedDocuments.ofHostFile host.path host.text) =
          .ok documents ∧
        compile .standard (documents.map .embedded) = .ok registries ∧
        (∀ host ∈ sharedConstants, ∀ template ∈ host.templates,
          template.operations.length ≤ 1) ∧
        ∃ compiled : List (String × OperationRecord),
          List.Forall₂
            (fun written entry => written.RecordedAs .standard
              (fragments (documents.map .embedded)) entry.1 entry.2)
            (inHosts sharedConstants) compiled ∧
          CollectedIn compiled registries := by
  have succeeds : (sharedConstants.mapM fun host =>
      EmbeddedDocuments.ofHostFile host.path host.text).isOk = true := by decide +kernel
  cases extracts : sharedConstants.mapM fun host =>
      EmbeddedDocuments.ofHostFile host.path host.text with
  | error block =>
      rw [extracts] at succeeds
      cases succeeds
  | ok documents =>
      obtain ⟨registries, compiles⟩ : ∃ registries,
          compile .standard (documents.map .embedded) = .ok registries := by
        obtain rfl := HostFile.map_embedded_of_mapM extracts
        exact exists_compile_of_records_ne_nil (by decide +kernel)
      exact ⟨by decide +kernel, documents, registries, rfl, compiles,
        recordedAs_of_compile_embedded extracts compiles⟩

end OperationCompiler

end WiredGraph
