import ObjectFlow.Context
import ObjectFlow.Error
import ObjectFlow.Reachability

/-!
# Class hierarchies

A hierarchy has a table of types, a table of methods and a table of fields;
an id is a position in its table.  The first types are the primitive ones,
then `Object` and `Throwable`, and the first method is the native
`Object.clone`.
-/

namespace ObjectFlow

inductive Primitive where
  | boolean
  | byte
  | char
  | short
  | int
  | long
  | float
  | double
  deriving DecidableEq, Repr

namespace Primitive

def all : List Primitive := [.boolean, .byte, .char, .short, .int, .long, .float, .double]

def name : Primitive → String
  | .boolean => "boolean"
  | .byte => "byte"
  | .char => "char"
  | .short => "short"
  | .int => "int"
  | .long => "long"
  | .float => "float"
  | .double => "double"

end Primitive

structure ClassInfo where
  superclass : Option TypeId
  interfaces : List TypeId
  isInterface : Bool
  /-- Ids of the fields and methods that the class itself declares. -/
  fields : List FieldId
  methods : List MethodId
  classInitializer : Option MethodId
  deriving DecidableEq, Repr

namespace ClassInfo

def empty : ClassInfo := ⟨none, [], false, [], [], none⟩

def parents (info : ClassInfo) : List TypeId := info.superclass.toList ++ info.interfaces

end ClassInfo

inductive TypeKind where
  | primitive (type : Primitive)
  | declared (info : ClassInfo)
  | array (element : TypeId)
  deriving DecidableEq, Repr

namespace TypeKind

def isReference : TypeKind → Bool
  | .primitive _ => false
  | _ => true

def isArray : TypeKind → Bool
  | .array _ => true
  | _ => false

def classInfo? : TypeKind → Option ClassInfo
  | .declared info => some info
  | _ => none

def element? : TypeKind → Option TypeId
  | .array element => some element
  | _ => none

end TypeKind

structure TypeInfo where
  name : String
  kind : TypeKind
  deriving DecidableEq, Repr

structure Selector where
  name : String
  arity : Nat
  deriving DecidableEq, Repr

def Selector.render (selector : Selector) : String := s!"{selector.name}/{selector.arity}"

structure Method where
  declaring : TypeId
  name : String
  params : List TypeId
  returns : Option TypeId
  isStatic : Bool
  isNative : Bool
  isAbstract : Bool
  deriving DecidableEq, Repr

def classInitializerName : String := "<clinit>"

namespace Method

def selector (method : Method) : Selector := ⟨method.name, method.params.length⟩

def isClassInitializer (method : Method) : Bool :=
  method.isStatic && method.name = classInitializerName

/-- A method that a call with the selector can run on an object. -/
def implements (method : Method) (selector : Selector) : Bool :=
  !method.isStatic && !method.isAbstract && method.selector = selector

end Method

structure Field where
  declaring : TypeId
  name : String
  type : TypeId
  isStatic : Bool
  deriving DecidableEq, Repr

structure TypeTable where
  types : List TypeInfo
  methods : List Method
  fields : List Field
  deriving DecidableEq, Repr

namespace TypeTable

def objectType : TypeId := 8

def throwableType : TypeId := 9

def cloneMethod : MethodId := 0

def initial : TypeTable :=
  { types :=
      Primitive.all.map (fun type => ⟨type.name, .primitive type⟩) ++
        [⟨"Object", .declared { ClassInfo.empty with methods := [cloneMethod] }⟩,
          ⟨"Throwable", .declared { ClassInfo.empty with superclass := some objectType }⟩]
    methods := [⟨objectType, "clone", [], some objectType, false, true, false⟩]
    fields := [] }

def kind? (table : TypeTable) (type : TypeId) : Option TypeKind :=
  (table.types[type]?).map TypeInfo.kind

def classInfo? (table : TypeTable) (type : TypeId) : Option ClassInfo :=
  (table.kind? type).bind TypeKind.classInfo?

def typeName? (table : TypeTable) (type : TypeId) : Option String :=
  (table.types[type]?).map TypeInfo.name

def find? (table : TypeTable) (name : String) : Option TypeId :=
  table.types.findIdx? fun info => info.name = name

end TypeTable

end ObjectFlow
