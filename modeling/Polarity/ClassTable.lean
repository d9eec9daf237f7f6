import Polarity.Expr

/-!
# The classes of a program

Classes are found by name; of several classes with one name, the first one is
the one that is meant.
-/

namespace Polarity

/-- The classes of a program, in source order. -/
structure ClassTable where
  decls : List ClassDecl

namespace ClassTable

/-- No classes. -/
def empty : ClassTable := ⟨[]⟩

/-- The class of a name. -/
def lookup (classes : ClassTable) (name : Text) : Option ClassDecl :=
  classes.decls.find? (·.name == name)

/-- The names of the classes. -/
def names (classes : ClassTable) : List Text := classes.decls.map (·.name)

end ClassTable

namespace ClassDecl

/-- The reference to a parameter of a class. -/
def ref (c : ClassDecl) (param : Text) : ParamRef := ⟨param, c.name, c.signature⟩

/-- The references to all parameters of a class. -/
def refs (c : ClassDecl) : List ParamRef := c.params.map c.ref

end ClassDecl

/-- The references to all parameters of all classes, in source order. -/
def ClassTable.params (classes : ClassTable) : List ParamRef := classes.decls.flatMap ClassDecl.refs

/-- The keys of all parameters of all classes. -/
def ClassTable.keys (classes : ClassTable) : List ParamKey := classes.params.map ParamRef.key

end Polarity
