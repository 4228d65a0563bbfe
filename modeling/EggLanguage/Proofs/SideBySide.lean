/-
# EggLanguage.Proofs.SideBySide -- two computations in step

Two computations are in step if, from stores that correspond, they end alike and leave
stores that correspond again (`Eval.InStep`).  What corresponds is up to a `Comparison`.
It is a matter of the world the computations are in: they make scopes and functions, so
what a world knows of these grows, and computations lead to later worlds only.

As for invariants (`Eval.Keeps`), there is one law for each way of making a computation.
-/
import Mathlib.Data.List.Forall2
import Mathlib.Order.Defs.PartialOrder
import EggLanguage.Proofs.Run

namespace EggLanguage

set_option autoImplicit false

/-! ## Endings -/

/-- Places do not count. -/
abbrev Place.anywhere : Place → Place → Prop :=
  fun _ _ => True

/-- The same crash, or failures of one cause at places that correspond. -/
inductive Stop.Alike (places : Place → Place → Prop) : Stop → Stop → Prop where
  | failure {f f' : Failure} (cause : f.cause = f'.cause) (placed : places f.place f'.place) :
      Stop.Alike places (.failure f) (.failure f')
  | crash (c : Crash) : Stop.Alike places (.crash c) (.crash c)

/-- Two results that correspond, or two stops. -/
inductive EndAlike {α β : Type} (places : Place → Place → Prop) (good : α → β → Prop) :
    Except Stop α → Except Stop β → Prop where
  | ok {a : α} {b : β} (results : good a b) : EndAlike places good (.ok a) (.ok b)
  | error {e e' : Stop} (stops : e.Alike places e') : EndAlike places good (.error e) (.error e')

theorem Stop.Alike.refl {places : Place → Place → Prop} (same : ∀ p, places p p) (e : Stop) :
    e.Alike places e := by
  cases e with
  | failure f => exact .failure rfl (same f.place)
  | crash c => exact .crash c

theorem Stop.Alike.imp {places places' : Place → Place → Prop}
    (placed : ∀ p p', places p p' → places' p p') {e e' : Stop} (stops : e.Alike places e') :
    e.Alike places' e' := by
  cases stops with
  | failure cause known => exact .failure cause (placed _ _ known)
  | crash c => exact .crash c

theorem EndAlike.imp {α β : Type} {places places' : Place → Place → Prop}
    {good good' : α → β → Prop} (placed : ∀ p p', places p p' → places' p p')
    (results : ∀ a b, good a b → good' a b)
    {x : Except Stop α} {x' : Except Stop β} (ends : EndAlike places good x x') :
    EndAlike places' good' x x' := by
  cases ends with
  | ok related => exact .ok (results _ _ related)
  | error stops => exact .error (stops.imp placed)

theorem EndAlike.and_left {α β : Type} {places : Place → Place → Prop} {good : α → β → Prop}
    {P : α → Prop} {x : Except Stop α} {x' : Except Stop β} (ends : EndAlike places good x x')
    (holds : ∀ a, x = .ok a → P a) : EndAlike places (fun a b => good a b ∧ P a) x x' := by
  cases ends with
  | ok related => exact .ok ⟨related, holds _ rfl⟩
  | error stops => exact .error stops

theorem EndAlike.trans {α β γ : Type} {places places' : Place → Place → Prop}
    {good : α → β → Prop} {good' : β → γ → Prop} {good'' : α → γ → Prop}
    (results : ∀ a b c, good a b → good' b c → good'' a c)
    {x : Except Stop α} {y : Except Stop β} {z : Except Stop γ}
    (first : EndAlike places good x y) (second : EndAlike places' good' y z) :
    EndAlike Place.anywhere good'' x z := by
  cases first with
  | ok related =>
      cases second with
      | ok related' => exact .ok (results _ _ _ related related')
  | error stops =>
      cases second with
      | error stops' =>
          cases stops with
          | failure cause placed =>
              cases stops' with
              | failure cause' placed' => exact .error (.failure (cause.trans cause') trivial)
          | crash c =>
              cases stops'
              exact .error (.crash c)

/-- What is compared: stores, as a world sees them, and places. -/
structure Comparison (W : Type) where
  stores : W → Store → Store → Prop
  places : Place → Place → Prop
  unknown : places .unknown .unknown

namespace Eval

variable {W : Type} [Preorder W] {α α' β β' : Type}

/-- From stores that correspond, the computations end alike and leave stores that
correspond. -/
def InStep (c : Comparison W) (w : W) (good : W → α → α' → Prop) (x : Eval α) (x' : Eval α') :
    Prop :=
  ∀ s s', c.stores w s s' → ∃ later, w ≤ later ∧
    c.stores later (x.outcome s).2 (x'.outcome s').2 ∧
      EndAlike c.places (good later) (x.outcome s).1 (x'.outcome s').1

namespace InStep

variable {c : Comparison W} {w : W} {good : W → α → α' → Prop} {good' : W → β → β' → Prop}

theorem pure {a : α} {a' : α'} (related : good w a a') :
    InStep c w good (Pure.pure a) (Pure.pure a') :=
  fun _ _ stores => ⟨w, le_rfl, stores, .ok related⟩

theorem stop {e e' : Stop} (alike : e.Alike c.places e') :
    InStep c w good (throw e : Eval α) (throw e' : Eval α') :=
  fun _ _ stores => ⟨w, le_rfl, stores, .error alike⟩

theorem fail (cause : Cause) :
    InStep c w good (Eval.fail cause : Eval α) (Eval.fail cause : Eval α') :=
  stop (.failure rfl c.unknown)

theorem crash (kind : Crash) :
    InStep c w good (Eval.crash kind : Eval α) (Eval.crash kind : Eval α') :=
  stop (.crash kind)

theorem ofExcept {result : Except Stop α} {result' : Except Stop α'}
    (ends : EndAlike c.places (good w) result result') :
    InStep c w good (Eval.ofExcept result) (Eval.ofExcept result') :=
  fun _ _ stores => ⟨w, le_rfl, stores, ends⟩

theorem step {change : Store → α × Store} {change' : Store → α' × Store}
    (changed : ∀ s s', c.stores w s s' → ∃ later, w ≤ later ∧
      c.stores later (change s).2 (change' s').2 ∧ good later (change s).1 (change' s').1) :
    InStep c w good (Eval.step change) (Eval.step change') := by
  intro s s' stores
  obtain ⟨later, le, stores', results⟩ := changed s s' stores
  exact ⟨later, le, stores', .ok results⟩

theorem bind {x : Eval α} {x' : Eval α'} {next : α → Eval β} {next' : α' → Eval β'}
    (first : InStep c w good x x')
    (second : ∀ later a a', w ≤ later → good later a a' →
      InStep c later good' (next a) (next' a')) :
    InStep c w good' (x >>= next) (x' >>= next') := by
  intro s s' stores
  obtain ⟨later, le, stores', ends⟩ := first s s' stores
  rw [outcome_bind, outcome_bind]
  generalize x.outcome s = left at stores' ends
  generalize x'.outcome s' = right at stores' ends
  obtain ⟨result, s₁⟩ := left
  obtain ⟨result', s₁'⟩ := right
  cases ends with
  | ok results =>
      obtain ⟨last, le', stores'', ends'⟩ := second later _ _ le results s₁ s₁' stores'
      exact ⟨last, le_trans le le', stores'', ends'⟩
  | error stops => exact ⟨later, le, stores', .error stops⟩

theorem onFailure {x : Eval α} {x' : Eval α'} {change change' : Failure → Failure}
    (inStep : InStep c w good x x')
    (changed : ∀ f f' : Failure, f.cause = f'.cause → c.places f.place f'.place →
      (change f).cause = (change' f').cause ∧ c.places (change f).place (change' f').place) :
    InStep c w good (x.onFailure change) (x'.onFailure change') := by
  intro s s' stores
  obtain ⟨later, le, stores', ends⟩ := inStep s s' stores
  rw [outcome_onFailure, outcome_onFailure]
  generalize x.outcome s = left at stores' ends
  generalize x'.outcome s' = right at stores' ends
  obtain ⟨result, s₁⟩ := left
  obtain ⟨result', s₁'⟩ := right
  refine ⟨later, le, ?_⟩
  cases ends with
  | ok results => exact ⟨stores', .ok results⟩
  | error stops =>
      cases stops with
      | failure cause placed =>
          obtain ⟨cause', placed'⟩ := changed _ _ cause placed
          exact ⟨stores', .error (.failure cause' placed')⟩
      | crash kind => exact ⟨stores', .error (.crash kind)⟩

/-- A name that is bound in both stores, or one name that is bound in neither. -/
theorem lookup {scope scope' : ScopeId} {name name' : String} {good : W → Value → Value → Prop}
    (found : ∀ s s', c.stores w s s' →
      Option.Rel (good w) (s.lookup? scope name) (s'.lookup? scope' name') ∧
        (s.lookup? scope name = none → name = name')) :
    InStep c w good (Eval.lookup scope name) (Eval.lookup scope' name') := by
  intro s s' stores
  obtain ⟨related, sameName⟩ := found s s' stores
  rw [outcome_lookup, outcome_lookup]
  generalize s.lookup? scope name = left at related sameName
  generalize s'.lookup? scope' name' = right at related
  refine ⟨w, le_rfl, ?_⟩
  cases related with
  | none => exact ⟨stores, .error (.failure (congrArg Cause.undefined (sameName rfl)) c.unknown)⟩
  | some results => exact ⟨stores, .ok results⟩

/-- Two loops take the same rounds. -/
theorem repeatWhile {round round' : Eval Bool}
    (inStep : ∀ later, w ≤ later →
      InStep c later (fun _ again again' => again = again') round round')
    (rounds : Nat) :
    InStep c w (fun _ _ _ => True) (Eval.repeatWhile round rounds)
      (Eval.repeatWhile round' rounds) := by
  induction rounds generalizing w with
  | zero => exact crash _
  | succ rounds ih =>
      refine (inStep w le_rfl).bind fun later again again' le same => ?_
      subst same
      cases again with
      | true => exact ih fun last le' => inStep last (le_trans le le')
      | false => exact pure trivial

end InStep

end Eval

end EggLanguage
