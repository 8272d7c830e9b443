import BallerinaSyntax.Program.Grammar

/-! Whole definitions are programs as well; only a unit does more. -/

namespace BallerinaSyntax.Programmed

open Grammar Parse

set_option synthInstance.maxSize 1000

/-! ## Services -/

instance : Programmed heading := by unfold heading; infer_instance

instance (h : Heading) (k : Kind) : Programmed (h.finish k) := by
  unfold Heading.finish; infer_instance

instance (opening : Leaf) : Programmed (resourceParameters opening) := by
  unfold resourceParameters; dsimp only; infer_instance

instance : Programmed resourceParameterList := by
  unfold resourceParameterList
  refine andThen fun m => andThen fun opening => andThen fun read => ?_
  split
  infer_instance

section Headed

variable (m : Mark) (metadata : Metadata) (h : Heading)

instance : Programmed (resource m metadata) := by unfold resource; infer_instance

instance (members : ServiceMembers) : Programmed (serviceMember members) := by
  unfold serviceMember; dsimp only; infer_instance

instance : Programmed serviceMembers := by unfold serviceMembers; infer_instance

instance : Programmed serviceBody := by unfold serviceBody; dsimp only; infer_instance

instance : Programmed serviceBinding := by unfold serviceBinding; dsimp only; infer_instance

instance : Programmed serviceEndpointType := by unfold serviceEndpointType; infer_instance

instance : Programmed (service h) := by unfold service; dsimp only; infer_instance

/-! ## Definitions -/

instance : Programmed (function h) := by unfold function; infer_instance

instance : Programmed finiteTypeUnit := by unfold finiteTypeUnit; infer_instance

instance : Programmed finiteType := by unfold finiteType; infer_instance

instance : Programmed (typeDefinition h) := by unfold typeDefinition; infer_instance

instance : Programmed attachPoints := by unfold attachPoints; infer_instance

instance : Programmed (annotationType h) := by unfold annotationType; infer_instance

instance : Programmed (globalEndpoint h) := by unfold globalEndpoint; infer_instance

instance : Programmed (globalVariable h) := by unfold globalVariable; infer_instance

instance : Programmed (missingDefinition h) := by unfold missingDefinition; infer_instance

end Headed

instance : Programmed definition := by
  unfold definition
  refine andThen fun h => andThen fun k => ?_
  split <;> infer_instance

instance (items : UnitItems) (what : String) : Programmed (requireFirst items what) := by
  unfold requireFirst; infer_instance

instance (items : UnitItems) : Programmed (unitItem items) := by
  unfold unitItem
  refine andThen fun k => ?_
  split <;> infer_instance

end BallerinaSyntax.Programmed
