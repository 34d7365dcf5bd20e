import StackScript.Machine.Step

/-!
# Running programs

A run takes step after step until the program ends or fails. Bytecode may jump back and never end,
so a run is given a number of steps that it may take.
-/

namespace StackScript

/-- How a run of a machine came out. -/
inductive Run where
  | finished (machine : Machine)
  | failed (error : RuntimeError) (machine : Machine)
  | unfinished (machine : Machine)

/-- The machine after a run, whatever the outcome. -/
def Run.machine : Run → Machine
  | finished machine => machine
  | failed _ machine => machine
  | unfinished machine => machine

/-- Take at most some number of steps. -/
def Machine.run : (steps : Nat) → Machine → Run
  | 0, machine => .unfinished machine
  | steps + 1, machine =>
    match Act.step machine with
    | .ok true machine => run steps machine
    | .ok false machine => .finished machine
    | .error error machine => .failed error machine

/-- More steps than any program is run for. -/
def manySteps : Nat := 4611686018427387904

end StackScript
