import Arbor.Proofs.Statements

/-! Functions give back what the evaluator says. A call runs in a frame of its own, whose first block
stores the arguments in slots; calls of other functions are served by the same result for a smaller bound. -/

namespace Arbor.Meaning

open IR Run Run.Image Lower Arbor.Tree List Option

variable {img : Image}

/-! ### Parameters -/

end Arbor.Meaning

namespace Arbor.Run.Image

open IR Meaning

variable {img : Image}

end Arbor.Run.Image

namespace Arbor.Run

open IR Meaning Image Lower

end Arbor.Run
