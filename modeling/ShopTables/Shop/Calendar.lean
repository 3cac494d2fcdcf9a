/-!
# The calendar

Instants are counted in nanoseconds from the start of 1970. The calendar has a first and a last
instant, and a span of time has a greatest length; both are far away, but an answer of the shop may
still lead beyond them.
-/

namespace ShopTables

/-- An instant: nanoseconds from the start of 1970. -/
abbrev Instant := Int

namespace Calendar

def second : Int := 1000000000

/-- The first instant, that of the year -262143. -/
def first : Instant := -8334601228800 * second

/-- The last instant, that of the year 262142. -/
def last : Instant := 8210266876800 * second - 1

/-- The greatest number of seconds in a span of time either way: its milliseconds fit 64 bits. -/
def longestSpan : Int := 9223372036854775

/-- A number of seconds as a span of time, if it can be one. -/
def span? (seconds : Int) : Option Int :=
  if -longestSpan ≤ seconds ∧ seconds ≤ longestSpan then some (seconds * second) else none

/-- The instant after a span of time, if the calendar has it. -/
def after? (t : Instant) (span : Int) : Option Instant :=
  if first ≤ t + span ∧ t + span ≤ last then some (t + span) else none

end Calendar

end ShopTables
