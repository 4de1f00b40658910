-- Descriptors of patterns: the type of the target, and the types of the
-- bindings in order.
import PatternDispatch.Signature

namespace PatternDispatch

structure Descriptor where
  target : Ty
  bindings : List Ty
deriving DecidableEq

namespace Descriptor

def withTarget (d : Descriptor) (target : Ty) : Descriptor := { d with target }

def text (r : Registry) (d : Descriptor) : String :=
  d.target.text r ++ Signature.listText r d.bindings

end Descriptor

end PatternDispatch
