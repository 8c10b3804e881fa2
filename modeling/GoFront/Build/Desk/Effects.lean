import GoFront.Build.Notice

/-! What handling a message sets going. -/
namespace GoFront.Build

/-- The messages sent and the work started while a message was handled, each in order. -/
structure Effects where
  deliveries : List Delivery := []
  requests : List CompileRequest := []
  lookups : List Lookup := []
  /-- Files whose task starts. -/
  tasks : List String := []
  deriving Repr

namespace Effects

def append (a b : Effects) : Effects :=
  ⟨a.deliveries ++ b.deliveries, a.requests ++ b.requests, a.lookups ++ b.lookups,
    a.tasks ++ b.tasks⟩

instance : Append Effects := ⟨append⟩

end Effects

end GoFront.Build
