/-
# EggLanguage.Proofs.Run -- how computations end

A computation over a store ends with a result (`Eval.Gives`) or stops without one
(`Eval.Stops`), and leaves a store either way.  Each way of making a computation has one
law for either ending here, so that later modules take runs apart without unfolding.

`Eval.Keeps` is the form of an invariant: the computation keeps a property of stores,
however it ends, and what it results in has a property too.
-/
import EggLanguage.Dialect

namespace EggLanguage

set_option autoImplicit false

namespace Eval

variable {α β : Type}

/-- How a computation from a store ends, and the store it leaves. -/
def outcome (x : Eval α) (s : Store) : Except Stop α × Store :=
  (x.run.run s).run

/-- The computation ends with a result. -/
def Gives (x : Eval α) (s : Store) (a : α) (s' : Store) : Prop :=
  x.outcome s = (.ok a, s')

/-- The computation ends without a result. -/
def Stops (x : Eval α) (s : Store) (stop : Stop) (s' : Store) : Prop :=
  x.outcome s = (.error stop, s')

/-- The computation ends because the program failed. -/
abbrev Fails (x : Eval α) (s : Store) (f : Failure) (s' : Store) : Prop :=
  x.Stops s (.failure f) s'

theorem stops_of_outcome {x : Eval α} {s : Store} {e : Stop} (ended : (x.outcome s).1 = .error e) :
    x.Stops s e (x.outcome s).2 :=
  Prod.ext ended rfl

theorem Stops.unique {x : Eval α} {s s₁ s₂ : Store} {e e' : Stop} (left : x.Stops s e s₁)
    (right : x.Stops s e' s₂) : e = e' ∧ s₁ = s₂ := by
  cases left.symm.trans right
  exact ⟨rfl, rfl⟩

/-! ## The ways of making a computation -/

@[simp] theorem gives_pure {a b : α} {s s' : Store} :
    Gives (pure a) s b s' ↔ b = a ∧ s' = s := by
  constructor
  · intro given
    cases given
    exact ⟨rfl, rfl⟩
  · rintro ⟨rfl, rfl⟩
    rfl

@[simp] theorem stops_pure {a : α} {s s' : Store} {e : Stop} : ¬ Stops (pure a) s e s' := by
  intro stopped
  cases stopped

@[simp] theorem gives_throw {e : Stop} {a : α} {s s' : Store} :
    ¬ Gives (throw e : Eval α) s a s' := by
  intro given
  cases given

@[simp] theorem stops_throw {e e' : Stop} {s s' : Store} :
    Stops (throw e : Eval α) s e' s' ↔ e' = e ∧ s' = s := by
  constructor
  · intro stopped
    cases stopped
    exact ⟨rfl, rfl⟩
  · rintro ⟨rfl, rfl⟩
    rfl

@[simp] theorem gives_fail {cause : Cause} {a : α} {s s' : Store} :
    ¬ Gives (fail cause) s a s' :=
  gives_throw

@[simp] theorem stops_fail {cause : Cause} {s s' : Store} {e : Stop} :
    Stops (fail cause : Eval α) s e s' ↔ e = .ofCause cause ∧ s' = s :=
  stops_throw

@[simp] theorem gives_crash {c : Crash} {a : α} {s s' : Store} : ¬ Gives (crash c) s a s' :=
  gives_throw

@[simp] theorem stops_crash {c : Crash} {s s' : Store} {e : Stop} :
    Stops (crash c : Eval α) s e s' ↔ e = .crash c ∧ s' = s :=
  stops_throw

@[simp] theorem gives_ofExcept {result : Except Stop α} {a : α} {s s' : Store} :
    Gives (ofExcept result) s a s' ↔ result = .ok a ∧ s' = s := by
  constructor
  · intro given
    cases given
    exact ⟨rfl, rfl⟩
  · rintro ⟨rfl, rfl⟩
    rfl

@[simp] theorem stops_ofExcept {result : Except Stop α} {e : Stop} {s s' : Store} :
    Stops (ofExcept result) s e s' ↔ result = .error e ∧ s' = s := by
  constructor
  · intro stopped
    cases stopped
    exact ⟨rfl, rfl⟩
  · rintro ⟨rfl, rfl⟩
    rfl

@[simp] theorem gives_step {change : Store → α × Store} {a : α} {s s' : Store} :
    Gives (step change) s a s' ↔ change s = (a, s') := by
  constructor
  · intro given
    cases given
    rfl
  · intro changed
    rw [Prod.ext_iff] at changed
    obtain ⟨rfl, rfl⟩ := changed
    rfl

@[simp] theorem stops_step {change : Store → α × Store} {e : Stop} {s s' : Store} :
    ¬ Stops (step change) s e s' := by
  intro stopped
  cases stopped

@[simp] theorem gives_get {a s s' : Store} : Gives get s a s' ↔ a = s ∧ s' = s := by
  constructor
  · intro given
    cases given
    exact ⟨rfl, rfl⟩
  · rintro ⟨rfl, rfl⟩
    rfl

@[simp] theorem stops_get {e : Stop} {s s' : Store} : ¬ Stops get s e s' := by
  intro stopped
  cases stopped

theorem outcome_bind (x : Eval α) (next : α → Eval β) (s : Store) :
    (x >>= next).outcome s =
      match x.outcome s with
      | (.ok a, s') => (next a).outcome s'
      | (.error e, s') => (.error e, s') := by
  show (StateT.run (ExceptT.bindCont next (x.outcome s).1) (x.outcome s).2).run = _
  cases x.outcome s with
  | mk result s' => cases result <;> rfl

theorem gives_bind {x : Eval α} {next : α → Eval β} {b : β} {s s' : Store} :
    Gives (x >>= next) s b s' ↔ ∃ a s₁, x.Gives s a s₁ ∧ (next a).Gives s₁ b s' := by
  simp only [Gives, outcome_bind]
  constructor
  · intro given
    cases ended : x.outcome s with
    | mk result s₁ =>
        rw [ended] at given
        cases result with
        | ok a => exact ⟨a, s₁, rfl, given⟩
        | error e => cases given
  · rintro ⟨a, s₁, first, second⟩
    rw [first]
    exact second

theorem stops_bind {x : Eval α} {next : α → Eval β} {e : Stop} {s s' : Store} :
    Stops (x >>= next) s e s' ↔
      x.Stops s e s' ∨ ∃ a s₁, x.Gives s a s₁ ∧ (next a).Stops s₁ e s' := by
  simp only [Gives, Stops, outcome_bind]
  constructor
  · intro stopped
    cases ended : x.outcome s with
    | mk result s₁ =>
        rw [ended] at stopped
        cases result with
        | ok a => exact .inr ⟨a, s₁, rfl, stopped⟩
        | error e =>
            cases stopped
            exact .inl rfl
  · rintro (first | ⟨a, s₁, first, second⟩)
    · rw [first]
    · rw [first]
      exact second

theorem outcome_onFailure (change : Failure → Failure) (x : Eval α) (s : Store) :
    (x.onFailure change).outcome s =
      match x.outcome s with
      | (.ok a, s') => (.ok a, s')
      | (.error e, s') => (.error (e.mapFailure change), s') := by
  show ((x.outcome s).1.mapError (Stop.mapFailure change), (x.outcome s).2) = _
  cases x.outcome s with
  | mk result s' => cases result <;> rfl

@[simp] theorem gives_onFailure {change : Failure → Failure} {x : Eval α} {a : α} {s s' : Store} :
    Gives (x.onFailure change) s a s' ↔ x.Gives s a s' := by
  simp only [Gives, outcome_onFailure]
  cases x.outcome s with
  | mk result s₁ => cases result <;> simp

theorem stops_onFailure {change : Failure → Failure} {x : Eval α} {e : Stop} {s s' : Store} :
    Stops (x.onFailure change) s e s' ↔ ∃ e', x.Stops s e' s' ∧ e = e'.mapFailure change := by
  simp only [Stops, outcome_onFailure]
  cases x.outcome s with
  | mk result s₁ =>
      cases result with
      | ok a => simp
      | error stop =>
          simp only [Prod.mk.injEq, Except.error.injEq]
          constructor
          · rintro ⟨rfl, rfl⟩
            exact ⟨stop, ⟨rfl, rfl⟩, rfl⟩
          · rintro ⟨_, ⟨rfl, rfl⟩, rfl⟩
            exact ⟨rfl, rfl⟩

theorem fails_onFailure {change : Failure → Failure} {x : Eval α} {f : Failure} {s s' : Store} :
    Fails (x.onFailure change) s f s' ↔ ∃ f', x.Fails s f' s' ∧ f = change f' := by
  rw [Fails, stops_onFailure]
  constructor
  · rintro ⟨e, stopped, same⟩
    cases e with
    | failure f' =>
        cases same
        exact ⟨f', stopped, rfl⟩
    | crash c => cases same
  · rintro ⟨f', stopped, rfl⟩
    exact ⟨_, stopped, rfl⟩

/-! ## Names and loops -/

theorem outcome_lookup (scope : ScopeId) (name : String) (s : Store) :
    (lookup scope name).outcome s =
      match s.lookup? scope name with
      | some value => (.ok value, s)
      | none => (.error (.ofCause (.undefined name)), s) := by
  show ((match s.lookup? scope name with
    | some value => Pure.pure value
    | none => fail (.undefined name) : Eval Value)).outcome s = _
  cases s.lookup? scope name <;> rfl

theorem gives_lookup {scope : ScopeId} {name : String} {v : Value} {s s' : Store} :
    (lookup scope name).Gives s v s' ↔ s.lookup? scope name = some v ∧ s' = s := by
  rw [Gives, outcome_lookup]
  cases s.lookup? scope name <;> simp [eq_comm]

theorem stops_lookup {scope : ScopeId} {name : String} {e : Stop} {s s' : Store} :
    (lookup scope name).Stops s e s' ↔
      s.lookup? scope name = none ∧ e = .ofCause (.undefined name) ∧ s' = s := by
  rw [Stops, outcome_lookup]
  cases s.lookup? scope name <;> simp [eq_comm]

/-- So many rounds were taken, and each of them said that there is another one. -/
def Rounds (round : Eval Bool) : (count : Nat) → Store → Store → Prop
  | 0, s, s' => s' = s
  | count + 1, s, s' => ∃ s₁, round.Gives s true s₁ ∧ Rounds round count s₁ s'

/-- A loop stops without a result in a round, or when it may take no further one. -/
theorem stops_repeatWhile {round : Eval Bool} {rounds : Nat} {s s' : Store} {e : Stop} :
    (repeatWhile round rounds).Stops s e s' ↔
      (∃ count s₁, count < rounds ∧ Rounds round count s s₁ ∧ round.Stops s₁ e s') ∨
        Rounds round rounds s s' ∧ e = .crash .unfinished := by
  induction rounds generalizing s with
  | zero =>
      simp only [repeatWhile, stops_crash, Rounds, Nat.not_lt_zero, false_and, exists_false,
        false_or]
      exact and_comm
  | succ rounds ih =>
      -- The rounds that are counted start with the first one that went on.
      rw [repeatWhile, stops_bind]
      constructor
      · rintro (first | ⟨again, s₁, given, stopped⟩)
        · exact .inl ⟨0, s, Nat.succ_pos _, rfl, first⟩
        · cases again with
          | false => exact (stops_pure stopped).elim
          | true =>
              obtain ⟨count, s₂, fits, taken, failed⟩ | ⟨taken, full⟩ := ih.1 stopped
              · exact .inl ⟨count + 1, s₂, Nat.succ_lt_succ fits, ⟨s₁, given, taken⟩, failed⟩
              · exact .inr ⟨⟨s₁, given, taken⟩, full⟩
      · rintro (⟨count, s₂, fits, taken, failed⟩ | ⟨⟨s₁, given, taken⟩, full⟩)
        · cases count with
          | zero =>
              cases taken
              exact .inl failed
          | succ count =>
              obtain ⟨s₁, given, taken⟩ := taken
              have rest := ih.2 (.inl ⟨count, s₂, Nat.lt_of_succ_lt_succ fits, taken, failed⟩)
              exact .inr ⟨true, s₁, given, rest⟩
        · exact .inr ⟨true, s₁, given, ih.2 (.inr ⟨taken, full⟩)⟩

/-! ## Invariants -/

/-- The computation keeps a property of stores, and its results have a property. -/
structure Keeps (inv : Store → Prop) (good : α → Prop) (x : Eval α) : Prop where
  gives : ∀ {s a s'}, inv s → x.Gives s a s' → inv s' ∧ good a
  stops : ∀ {s e s'}, inv s → x.Stops s e s' → inv s'

namespace Keeps

variable {inv : Store → Prop} {good : α → Prop} {good' : β → Prop}

/-- The store that is left has the property, however the computation ends. -/
theorem outcome {x : Eval α} (keeps : x.Keeps inv good) {s : Store} (start : inv s) :
    inv (x.outcome s).2 := by
  cases ended : x.outcome s with
  | mk result s' =>
      cases result with
      | ok a => exact (keeps.gives start ended).1
      | error e => exact keeps.stops start ended

theorem ofOutcome {x : Eval α} (kept : ∀ s, inv s → inv (x.outcome s).2) :
    x.Keeps inv fun _ => True where
  gives := by
    intro s a s' start given
    have after := kept s start
    rw [given] at after
    exact ⟨after, trivial⟩
  stops := by
    intro s e s' start stopped
    have after := kept s start
    rw [stopped] at after
    exact after

theorem pure {a : α} (goodResult : good a) : Keeps inv good (Pure.pure a : Eval α) where
  gives := by
    intro s b s' start given
    obtain ⟨rfl, rfl⟩ := gives_pure.1 given
    exact ⟨start, goodResult⟩
  stops := fun _ stopped => (stops_pure stopped).elim

theorem stop (e : Stop) : Keeps inv good (throw e : Eval α) where
  gives := fun _ given => (gives_throw given).elim
  stops := by
    intro s e' s' start stopped
    obtain ⟨-, rfl⟩ := stops_throw.1 stopped
    exact start

theorem fail (cause : Cause) : Keeps inv good (Eval.fail cause : Eval α) :=
  stop _

theorem crash (c : Crash) : Keeps inv good (Eval.crash c : Eval α) :=
  stop _

theorem ofExcept {result : Except Stop α} (goodResult : ∀ a, result = .ok a → good a) :
    Keeps inv good (Eval.ofExcept result) where
  gives := by
    intro s a s' start given
    obtain ⟨same, rfl⟩ := gives_ofExcept.1 given
    exact ⟨start, goodResult a same⟩
  stops := by
    intro s e s' start stopped
    obtain ⟨-, rfl⟩ := stops_ofExcept.1 stopped
    exact start

theorem step {change : Store → α × Store}
    (kept : ∀ s, inv s → inv (change s).2 ∧ good (change s).1) :
    Keeps inv good (Eval.step change) where
  gives := by
    intro s a s' start given
    have both := kept s start
    rw [gives_step.1 given] at both
    exact both
  stops := fun _ stopped => (stops_step stopped).elim

theorem bind {x : Eval α} {next : α → Eval β} (first : x.Keeps inv good)
    (second : ∀ a, good a → (next a).Keeps inv good') : Keeps inv good' (x >>= next) where
  gives := by
    intro s b s' start given
    obtain ⟨a, s₁, gives, gives'⟩ := gives_bind.1 given
    obtain ⟨middle, goodFirst⟩ := first.gives start gives
    exact (second a goodFirst).gives middle gives'
  stops := by
    intro s e s' start stopped
    obtain stops | ⟨a, s₁, gives, stops⟩ := stops_bind.1 stopped
    · exact first.stops start stops
    · obtain ⟨middle, goodFirst⟩ := first.gives start gives
      exact (second a goodFirst).stops middle stops

theorem onFailure {x : Eval α} {change : Failure → Failure} (keeps : x.Keeps inv good) :
    Keeps inv good (x.onFailure change) where
  gives := fun start given => keeps.gives start (gives_onFailure.1 given)
  stops := by
    intro s e s' start stopped
    obtain ⟨e', stops, -⟩ := stops_onFailure.1 stopped
    exact keeps.stops start stops

theorem lookup {scope : ScopeId} {name : String} {good : Value → Prop}
    (goodBound : ∀ s v, inv s → s.lookup? scope name = some v → good v) :
    Keeps inv good (Eval.lookup scope name) where
  gives := by
    intro s v s' start given
    obtain ⟨found, rfl⟩ := gives_lookup.1 given
    exact ⟨start, goodBound _ v start found⟩
  stops := by
    intro s e s' start stopped
    obtain ⟨-, -, rfl⟩ := stops_lookup.1 stopped
    exact start

theorem imp {good' : α → Prop} {x : Eval α} (keeps : x.Keeps inv good)
    (implied : ∀ a, good a → good' a) : Keeps inv good' x where
  gives := fun start given => (keeps.gives start given).imp_right (implied _)
  stops := keeps.stops

theorem and {inv' : Store → Prop} {good' : α → Prop} {x : Eval α} (left : x.Keeps inv good)
    (right : x.Keeps inv' good') :
    Keeps (fun s => inv s ∧ inv' s) (fun a => good a ∧ good' a) x where
  gives := by
    rintro s a s' ⟨start, start'⟩ given
    obtain ⟨kept, goodResult⟩ := left.gives start given
    obtain ⟨kept', goodResult'⟩ := right.gives start' given
    exact ⟨⟨kept, kept'⟩, goodResult, goodResult'⟩
  stops := fun start stopped => ⟨left.stops start.1 stopped, right.stops start.2 stopped⟩

theorem repeatWhile {round : Eval Bool} (keeps : round.Keeps inv fun _ => True) (rounds : Nat) :
    Keeps inv (fun _ => True) (Eval.repeatWhile round rounds) := by
  induction rounds with
  | zero => exact crash _
  | succ rounds ih =>
      refine keeps.bind fun again _ => ?_
      cases again with
      | true => exact ih
      | false => exact pure trivial

theorem rounds {round : Eval Bool} (keeps : round.Keeps inv fun _ => True) {count : Nat}
    {s s' : Store} (taken : Rounds round count s s') (start : inv s) : inv s' := by
  induction count generalizing s with
  | zero =>
      cases taken
      exact start
  | succ count ih =>
      obtain ⟨s₁, given, taken⟩ := taken
      exact ih taken (keeps.gives start given).1

end Keeps

end Eval

end EggLanguage
