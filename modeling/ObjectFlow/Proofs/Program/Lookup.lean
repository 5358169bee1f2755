import ObjectFlow.Program.Loader
import ObjectFlow.Proofs.Effect

/-!
# Looking things up while loading

Asking for an operand, a label or the kind of a call leaves the registrar as it
is, so it keeps whatever holds of it.
-/

namespace ObjectFlow.Declaration

variable {holds : Registrar → Prop} {scope : Scope}

theorem require_keeps (value : Option String) (element : Element) (property : String) :
    Keeps holds (require value element property) fun _ => True := by
  unfold require
  split
  · exact .pure trivial
  · exact .fail _

private theorem labelPoint_keeps (points : List (PointId × Operands)) (label : String) :
    Keeps holds (labelPoint scope points label) fun _ => True := by
  unfold labelPoint
  split
  · exact .pure trivial
  · exact .fail _

theorem targets_keeps (points : List (PointId × Operands)) (exit next : PointId)
    (element : Element) (operands : Operands) :
    Keeps holds (targets scope points exit next element operands) fun _ => True := by
  unfold targets
  split
  · exact .pure trivial
  · exact .pure trivial
  · exact (labelPoint_keeps _ _).andThen fun _ => .pure trivial
  · exact (labelPoint_keeps _ _).andThen fun _ => .pure trivial
  · exact .pure trivial

theorem callKind_keeps (kind : Option String) :
    Keeps holds (callKind kind) fun _ => True := by
  unfold callKind
  split
  · exact .pure trivial
  · exact .pure trivial
  · exact .pure trivial
  · exact .pure trivial
  · exact .pure trivial
  · exact .fail _

end ObjectFlow.Declaration
