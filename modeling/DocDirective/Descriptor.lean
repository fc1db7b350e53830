import DocDirective.Keyed
import DocDirective.Value.Basic

/-!
# Descriptor

What the directives of one class add up to: its route prefix, table and data source, its routes,
columns and relations in order, and attributes set by other kinds.
-/

namespace DocDirective

/-- A route that a method answers. -/
structure RouteEntry where
  method : String
  path   : String
  action : String
  name   : Option String := none
  deriving DecidableEq, Repr

/-- A column that a property maps to. -/
structure Column where
  name          : String
  type          : String
  nullable      : Bool := true
  primaryKey    : Bool := false
  autoIncrement : Bool := false
  default       : Value := .null

/-- A relation between two classes. -/
structure Relation where
  kind        : String
  name        : String
  targetClass : String
  foreignKey  : String
  through     : Option String := none
  onDelete    : Option String := none
  deriving DecidableEq, Repr

/-- The metadata of one class. -/
structure Descriptor where
  className    : String
  routesPrefix : String := ""
  table        : Option String := none
  source       : Option String := none
  primaryKey   : Option String := none
  routes       : List RouteEntry := []
  columns      : List Column := []
  relations    : List Relation := []
  attributes   : Keyed Value := .empty

namespace Descriptor

/-- Appends a route. -/
def addRoute (d : Descriptor) (r : RouteEntry) : Descriptor :=
  { d with routes := d.routes ++ [r] }

/-- Appends a column; a primary key takes the place of an earlier one. -/
def addColumn (d : Descriptor) (c : Column) : Descriptor :=
  { d with
    columns    := d.columns ++ [c]
    primaryKey := if c.primaryKey then some c.name else d.primaryKey }

/-- Appends a relation. -/
def addRelation (d : Descriptor) (r : Relation) : Descriptor :=
  { d with relations := d.relations ++ [r] }

/-- The first column of a name. -/
def column? (d : Descriptor) (name : String) : Option Column :=
  d.columns.find? fun c => c.name == name

/-- Sets an attribute. -/
def set (d : Descriptor) (key : String) (value : Value) : Descriptor :=
  { d with attributes := d.attributes.insert key value }

/-- The value of an attribute. -/
def get? (d : Descriptor) (key : String) : Option Value := d.attributes.get? key

end Descriptor

end DocDirective
