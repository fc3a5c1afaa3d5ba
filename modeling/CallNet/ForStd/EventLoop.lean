import CallNet.ForStd.Prog

/-!
# Programs on an event loop

A program runs in turns.  In one turn it performs operations that answer at once.  At an
operation that is awaited the turn ends; other events happen until the answer has come and
the program is given its next turn.
-/

namespace EventLoop

variable {S : Signature} {ε α σ : Type}

/-- What a program on the loop is doing. -/
inductive Task (S : Signature) (ε α : Type) where
  | awaiting (o : S.Op) (k : S.Ret o → Prog S ε α)
  /-- The answer has come, and the program has not had its next turn. -/
  | settled (o : S.Op) (x : S.Ret o) (k : S.Ret o → Prog S ε α)
  | returned (r : Except ε α)

/-- How operations act on a state: those that answer at once, and the beginning of those that
    are awaited. -/
structure World (S : Signature) (σ : Type) where
  now : σ → (o : S.Op) → Option (S.Ret o × σ)
  start : σ → S.Op → σ

/-- One turn of a program. -/
def turn (W : World S σ) : Prog S ε α → σ → Task S ε α × σ
  | .pure a, s => (.returned (.ok a), s)
  | .throw e, s => (.returned (.error e), s)
  | .op o k, s =>
    match W.now s o with
    | some (x, s') => turn W (k x) s'
    | none => (.awaiting o k, W.start s o)

end EventLoop
