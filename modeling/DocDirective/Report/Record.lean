import DocDirective.AnnotationError
import DocDirective.Descriptor
import DocDirective.Processor

/-!
# Report — Record

Descriptors, readings and errors as records of named fields, the form in which they are printed and
answered.
-/

namespace DocDirective

/-- A list of texts as a value. -/
def Value.ofTexts (ss : List String) : Value := .list (ss.map .text)

/-- The entries of a table as a value. -/
def Value.ofKeyed (t : Keyed Value) : Value := .record t.entries

/-- A route as a record. -/
def RouteEntry.record (r : RouteEntry) : Value := .record [
  ("method",   .text r.method),
  ("path",     .text r.path),
  ("function", .text r.action),
  ("name",     .ofText? r.name)]

/-- A column as a record. -/
def Column.record (c : Column) : Value := .record [
  ("name",           .text c.name),
  ("type",           .text c.type),
  ("nullable",       .bool c.nullable),
  ("primary_key",    .bool c.primaryKey),
  ("auto_increment", .bool c.autoIncrement),
  ("default",        c.default)]

/-- A relation as a record. -/
def Relation.record (r : Relation) : Value := .record [
  ("kind",         .text r.kind),
  ("name",         .text r.name),
  ("target_class", .text r.targetClass),
  ("foreign_key",  .text r.foreignKey),
  ("through",      .ofText? r.through),
  ("on_delete",    .ofText? r.onDelete)]

/-- A descriptor as a record. -/
def Descriptor.record (d : Descriptor) : Value := .record [
  ("class_name",    .text d.className),
  ("routes_prefix", .text d.routesPrefix),
  ("table",         .ofText? d.table),
  ("source",        .ofText? d.source),
  ("primary_key",   .ofText? d.primaryKey),
  ("routes",        .list (d.routes.map (·.record))),
  ("columns",       .list (d.columns.map (·.record))),
  ("relations",     .list (d.relations.map (·.record))),
  ("attributes",    .ofKeyed d.attributes)]

/-- Descriptors by the names of their classes; of two of one name the later one stands at the
earlier place. -/
def Descriptor.byClass (ds : List Descriptor) : Keyed Descriptor :=
  .ofList (ds.map fun d => (d.className, d))

/-- Descriptors by the names of their classes as a record. -/
def Descriptor.recordAll (ds : List Descriptor) : Value :=
  .record ((byClass ds).entries.map fun e => (e.1, e.2.record))

/-- A directive and its parameters as a record. -/
def Reading.record (r : Reading) : Value := .record [
  ("name",       .text r.directive.name),
  ("arguments",  .text r.directive.arguments),
  ("positional", .list r.parameters.positional),
  ("keyed",      .ofKeyed r.parameters.keyed)]

/-- The fields that every error has. -/
def errorFields (type message : String) (directive file : Option String) (line : Option Int) :
    List (String × Value) := [
  ("type",       .text type),
  ("annotation", .ofText? directive),
  ("message",    .text message),
  ("file",       .ofText? file),
  ("line",       .ofInt? line)]

mutual

/-- An error about a directive as a record. -/
def AnnotationError.record : AnnotationError → Value
  | ⟨cause, message, directive, file, line⟩ =>
    .record (errorFields cause.typeName message directive file line ++ causeFields cause)

/-- What a record of an error tells of its cause. -/
def causeFields : AnnotationError.Cause AnnotationError → List (String × Value)
  | .general        => []
  | .malformed      => []
  | .unregistered   => []
  | .closed         => []
  | .invalid f      => [("errors", .ofTexts f.errors), ("type_error", .bool f.misplaced)]
  | .inapplicable f => [("errors", .ofTexts f.errors), ("type_error", .bool f.misplaced)]
  | .several es     => [("errors", .list (recordErrors es))]

/-- Errors as records. -/
def recordErrors : List AnnotationError → List Value
  | []      => []
  | e :: es => e.record :: recordErrors es

end

end DocDirective
