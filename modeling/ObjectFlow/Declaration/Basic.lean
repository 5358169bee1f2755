import ObjectFlow.Text.Blank

/-!
# Program declarations

A program is a list of classes with fields and methods and the qualified name
of its entry point.  A method body is a list of items: parameters, locals,
exception handlers and statements.  All names of types, variables, methods
and labels are text here; the hierarchy and the loader resolve them.
-/

namespace ObjectFlow.Declaration

structure Field where
  name : String
  type : String
  isStatic : Bool
  deriving DecidableEq, Repr

structure Parameter where
  name : String
  type : String
  deriving DecidableEq, Repr

structure Local where
  name : String
  type : String
  flowSensitive : Bool
  deriving DecidableEq, Repr

/-- An exception handler.  Handlers are tried in the order they are declared. -/
structure Catch where
  type : String
  target : String
  deriving DecidableEq, Repr

inductive Element where
  | new
  | newArray
  | copy
  | phi
  | load
  | store
  | getStatic
  | putStatic
  | arrayLoad
  | arrayStore
  | call
  | return
  | throw
  | classInit
  deriving DecidableEq, Repr

namespace Element

def all : List Element :=
  [.new, .newArray, .copy, .phi, .load, .store, .getStatic, .putStatic, .arrayLoad, .arrayStore,
    .call, .return, .throw, .classInit]

def tag : Element → String
  | .new => "new"
  | .newArray => "newarray"
  | .copy => "copy"
  | .phi => "phi"
  | .load => "load"
  | .store => "store"
  | .getStatic => "getstatic"
  | .putStatic => "putstatic"
  | .arrayLoad => "aload"
  | .arrayStore => "astore"
  | .call => "call"
  | .return => "return"
  | .throw => "throw"
  | .classInit => "clinit"

def ofTag? (tag : String) : Option Element :=
  all.find? fun element => element.tag = tag

end Element

structure Operands where
  target : Option String := none
  source : Option String := none
  sources : Option String := none
  base : Option String := none
  field : Option String := none
  className : Option String := none
  type : Option String := none
  dims : Option Nat := none
  method : Option String := none
  receiver : Option String := none
  args : Option String := none
  kind : Option String := none
  label : Option String := none
  /-- Control goes to the labelled statement instead of the next one. -/
  jump : Option String := none
  /-- Control goes to the labelled statement or to the next one. -/
  branch : Option String := none
  deriving DecidableEq, Repr

inductive Item where
  | param (declared : Parameter)
  | local (declared : Local)
  | catch (declared : Catch)
  | statement (element : Element) (operands : Operands)
  deriving DecidableEq, Repr

structure Method where
  name : String
  /-- The name of the return type; absent means `void`. -/
  returns : Option String
  isStatic : Bool
  isNative : Bool
  isAbstract : Bool
  items : List Item
  deriving DecidableEq, Repr

inductive Member where
  | field (declared : Field)
  | method (declared : Method)
  deriving DecidableEq, Repr

structure Class where
  name : String
  superclass : Option String
  interfaces : Option String
  isInterface : Bool
  members : List Member
  deriving DecidableEq, Repr

structure Program where
  entry : String
  classes : List Class
  deriving DecidableEq, Repr

namespace Method

def params (method : Method) : List Parameter :=
  method.items.filterMap fun
    | .param declared => some declared
    | _ => none

def locals (method : Method) : List Local :=
  method.items.filterMap fun
    | .local declared => some declared
    | _ => none

def catches (method : Method) : List Catch :=
  method.items.filterMap fun
    | .catch declared => some declared
    | _ => none

def statements (method : Method) : List (Element × Operands) :=
  method.items.filterMap fun
    | .statement element operands => some (element, operands)
    | _ => none

end Method

namespace Class

def fields (declared : Class) : List Field :=
  declared.members.filterMap fun
    | .field field => some field
    | _ => none

def methods (declared : Class) : List Method :=
  declared.members.filterMap fun
    | .method method => some method
    | _ => none

end Class

end ObjectFlow.Declaration
