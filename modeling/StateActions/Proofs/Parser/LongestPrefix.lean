import StateActions.Proofs.Parser.FirstError

namespace StateActions

open StateActions.Parser StateActions.PrecedenceClimbing

variable {c next : Cursor} {tree : Arithmetic}

section Begins

end Begins

section Longest

end Longest

end StateActions
