import IpRegistry.Config
import IpRegistry.Target
import IpRegistry.Web.Fetch

/-!
What every lookup starts from.
-/

namespace IpRegistry

/-- An address that is looked up, and the settings of the lookups. -/
structure Inquiry where
  target : Target
  config : Config

namespace Inquiry

def address (i : Inquiry) : String :=
  i.target.text

/-- How patiently documents are fetched, with the pause of the settings. -/
def patience (i : Inquiry) (retryCount : Nat) : Web.Patience :=
  ⟨retryCount, i.config.rateLimitTimeout⟩

end Inquiry

end IpRegistry
