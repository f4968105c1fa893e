/-!
# Waits

Times in a rehearsal are whole milliseconds. No sleep is longer than thirty years of 365 days; the time
limit of an observation and the instants of a plan may lie further ahead.
-/
namespace Tripwire.Rehearsal

def longestSleep : Nat := 30 * 365 * 24 * 60 * 60 * 1000

def sleepTime (millis : Nat) : Nat := min millis longestSleep

end Tripwire.Rehearsal
