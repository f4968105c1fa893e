import Tripwire.Config.Basic
import Tripwire.Rehearsal.Bench

/-!
# Launching a configuration

A configured circuit is put on a bench as a daemon sets it up: its conditions, then logic and
constraints where there are any, then its actions.
-/
namespace Tripwire.Rehearsal

def Bench.actAll (b : Bench) : List Act → Except Fault Bench
  | [] => .ok b
  | a :: rest =>
      match b.act a with
      | (_, .refused fault) => .error fault
      | (b, _) => b.actAll rest

def setUp (c : Config) : List Act :=
  [.setConditions (c.watchers.map .pattern)] ++
  (c.logic?.map Act.setLogic).toList ++
  (c.constraints?.map Act.setConstraints).toList ++
  [.setActions c.actions]

def launch (c : Config) : Except Fault Bench :=
  (Bench.new (.echo none) .standard).actAll (setUp c)

end Tripwire.Rehearsal
