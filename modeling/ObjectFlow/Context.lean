/-!
# Sites, contexts and abstract objects

A context is a chain of call sites, allocation sites and types, the innermost
first.  An abstract object is an allocation site in a heap context, with a tag
that tells the newest object of a site from the older ones where the analysis
distinguishes them.
-/

namespace ObjectFlow

abbrev TypeId := Nat

abbrev MethodId := Nat

abbrev FieldId := Nat

structure CallSite where
  caller : MethodId
  site : Nat
  deriving DecidableEq, Repr

def CallSite.render (call : CallSite) : String := s!"m{call.caller}@{call.site}"

inductive AllocationKind where
  | new
  | dimension (depth : Nat)
  | clone
  deriving DecidableEq, Repr

structure AllocationSite where
  method : MethodId
  site : Nat
  type : TypeId
  kind : AllocationKind
  deriving DecidableEq, Repr

def AllocationSite.render (allocation : AllocationSite) : String :=
  let place := s!"t{allocation.type}@m{allocation.method}:{allocation.site}"
  match allocation.kind with
  | .new => s!"new {place}"
  | .dimension depth => s!"new {place}#{depth}"
  | .clone => s!"clone {place}"

inductive ContextElement where
  | call (site : CallSite)
  | allocation (site : AllocationSite)
  | type (id : TypeId)
  deriving DecidableEq, Repr

def ContextElement.render : ContextElement → String
  | .call site => site.render
  | .allocation site => site.render
  | .type id => s!"t{id}"

structure Context where
  elements : List ContextElement
  deriving DecidableEq, Repr

namespace Context

def empty : Context := ⟨[]⟩

instance : Inhabited Context := ⟨empty⟩

def length (context : Context) : Nat := context.elements.length

/-- An element in front of the chain, cut to at most `limit` elements. -/
def push (context : Context) (element : ContextElement) (limit : Nat) : Context :=
  ⟨(element :: context.elements).take limit⟩

def truncate (context : Context) (limit : Nat) : Context :=
  ⟨context.elements.take limit⟩

def render (context : Context) : String :=
  "[" ++ ", ".intercalate (context.elements.map ContextElement.render) ++ "]"

end Context

inductive Recency where
  | plain
  /-- The object last allocated at its site in its context. -/
  | mostRecent
  /-- All older objects of the site in the context. -/
  | summary
  deriving DecidableEq, Repr

structure HeapObject where
  site : AllocationSite
  context : Context
  recency : Recency
  deriving DecidableEq, Repr

namespace HeapObject

def ofSite (site : AllocationSite) (context : Context) : HeapObject :=
  ⟨site, context, .plain⟩

def type (object : HeapObject) : TypeId := object.site.type

def withRecency (object : HeapObject) (recency : Recency) : HeapObject :=
  { object with recency := recency }

end HeapObject

def Recency.mark : Recency → String
  | .plain => ""
  | .mostRecent => " (recent)"
  | .summary => " (summary)"

def HeapObject.render (object : HeapObject) : String :=
  s!"{object.site.render} in {object.context.render}{object.recency.mark}"

end ObjectFlow
