import LedgerBook.Number.Binary64
import LedgerBook.Text.Capital
/-!
When a session repeats a request. Without retries every failure reaches the caller at once.
-/
namespace LedgerBook.Http

/-- When a session repeats a request: how often at most, how waiting times grow, and after which
statuses of which methods. -/
structure RetryPolicy where
  retries : Int
  backoff : Binary64
  statuses : List Int
  methods : List Text
  deriving Repr

namespace RetryPolicy

/-- No retries. If they are allowed, passing troubles of the service are worth one; queries are sent
with POST. -/
def standard : RetryPolicy where
  retries := 0
  backoff := Binary64.ofDecimal false 6 (-1)
  statuses := [408, 425, 429, 500, 502, 503, 504]
  methods := ["GET", "POST"]

def sortedStatuses (policy : RetryPolicy) : List Int :=
  policy.statuses.mergeSort

/-- The methods in capitals, each once, in ascending order. -/
def sortedMethods (policy : RetryPolicy) : List Text :=
  ((policy.methods.map Text.capitalized).eraseDups).mergeSort Text.atMost

end RetryPolicy

end LedgerBook.Http
