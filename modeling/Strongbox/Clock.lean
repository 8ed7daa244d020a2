import Strongbox.Failure
import Strongbox.Timestamp

/-!
# The clock

It counts microseconds since the start of 1970, and can be read while the time has a calendar date.
-/

namespace Strongbox.Clock

def read (now : Int) : Outcome Int :=
  if Timestamp.isDated now then .ok now else Outcome.fail .overflow

def second (now : Int) : Outcome Int := (read now).map (· / 1000000)

def after (now delay : Int) : Outcome Int := do
  let now ← read now
  read (now + delay)

end Strongbox.Clock
