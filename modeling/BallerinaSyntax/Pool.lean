import BallerinaSyntax.Session

/-!
Pools. Each unit has a worker that reads it, and all workers share one table of names. Entering a
name is one step; between two steps of a worker any steps of the others may come.
-/

namespace BallerinaSyntax

/-- A worker that reads a unit, as far as it has come. -/
structure Worker where
  file : String
  reading : Asking (Option (Except ParseError ParseTree))

/-- Workers that share a table. -/
structure Pool where
  names : Interner
  workers : List Worker

namespace Pool

/-- A worker for each unit, whatever is in the table. -/
def start (options : Options) (prior : Interner) (units : List SourceUnit) : Pool :=
  ⟨prior, units.map fun u => ⟨u.file, u.dialogue options⟩⟩

/-- It is the turn of a worker: it enters the name that it has come to, if there is one. -/
def turn (p : Pool) (i : Nat) : Pool :=
  match p.workers[i]? with
  | some ⟨file, .ask text resume⟩ =>
    { names := (p.names.intern text).2
      workers := p.workers.set i ⟨file, resume (.handle (p.names.intern text).1)⟩ }
  | _ => p

/-- Workers have their turns in any order. -/
def run (p : Pool) (schedule : List Nat) : Pool := schedule.foldl turn p

def Finished (p : Pool) : Prop := ∀ w ∈ p.workers, w.reading.value?.isSome = true

instance (p : Pool) : Decidable p.Finished := inferInstanceAs (Decidable (∀ w ∈ _, _))

/-- What the workers that are done have read, in the order of the units, with the texts of the names;
the others have no result yet. -/
def results (p : Pool) : List (String × Option (Option (Except ParseError ParseTree))) :=
  p.workers.map fun w => (w.file, w.reading.value?.map p.names.resolved)

end Pool

end BallerinaSyntax
