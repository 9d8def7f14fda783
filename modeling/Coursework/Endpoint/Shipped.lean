import Coursework.Endpoint.Fetch
import Coursework.Endpoint.Roster
import Coursework.Endpoint.Submit
import Coursework.Endpoint.Users

/-!
# The endpoints of every server
-/

set_option autoImplicit false

namespace Coursework
namespace Endpoint

/-- The six routes that every server has. -/
def shipped : List Route :=
  [authRoute, passwordRoute, rosterRoute, submitRoute, peekRoute, historyRoute]

def shippedRegistry : Registry :=
  (Registry.registerAll Table.empty shipped).2

end Endpoint
end Coursework
