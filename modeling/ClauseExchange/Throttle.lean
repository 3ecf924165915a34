/-!
A throttle spaces out requests: it declines them until more have come than its limit, admits the one
that passes the limit, and starts over. The count of requests stops at the largest word.
-/

namespace ClauseExchange

structure Throttle where
  limit : UInt32 := 10000
  /-- The requests since the last one admitted. -/
  waiting : UInt32 := 0
deriving DecidableEq

namespace Throttle

def increment (count : UInt32) : UInt32 :=
  if count = 0xFFFFFFFF then count else count + 1

/-- The throttle after one more request, with the count that admitted it, if any did. -/
def request (throttle : Throttle) : Option UInt32 × Throttle :=
  let requests := increment throttle.waiting
  if throttle.limit < requests then
    (some requests, { throttle with waiting := 0 })
  else
    (none, { throttle with waiting := requests })

end Throttle

end ClauseExchange
