/-
# EggLanguage.Proofs.Founded -- the scopes that values hold exist

A scope may bind a function that was made in it, so scopes and functions hold each other.  Only
the scopes around scopes do not go in circles: a scope is younger than the one around it.  That
this stays so takes more than the scopes, for the scope that a call makes lies in the one that the
called function holds.  The invariant (`Store.Founded`) is of all values in a store, and of the
functions that stand in the bodies of others: the scopes that they hold exist.

Scopes only become more, so what a value held goes on to exist.  The number of scopes is the world
in which an evaluation is compared to itself (`Correspondence.founded`), and that is all the
induction that is needed.
-/
import Mathlib.Order.Nat
import EggLanguage.Proofs.Chains
import EggLanguage.Proofs.Reads
import EggLanguage.Proofs.UpToSpans

namespace EggLanguage

set_option autoImplicit false

/-! ## Values over existing scopes -/

section

variable (n : Nat)

/-- The functions that stand in the expression hold scopes below a bound. -/
def Expr.Founded (e : Expr) : Prop :=
  ∀ f : Closure, f.StandsIn e → f.scope < n

structure Closure.Founded (f : Closure) : Prop where
  scope : f.scope < n
  body : f.body.Founded n

def Value.Founded (v : Value) : Prop :=
  ∀ f, v = .closure f → f.Founded n

end

section

variable {n m : Nat}

theorem Expr.Founded.mono (le : n ≤ m) {e : Expr} (founded : e.Founded n) : e.Founded m :=
  fun f stands => Nat.lt_of_lt_of_le (founded f stands) le

theorem Closure.Founded.mono (le : n ≤ m) {f : Closure} (founded : f.Founded n) : f.Founded m :=
  ⟨Nat.lt_of_lt_of_le founded.scope le, founded.body.mono le⟩

theorem Value.Founded.mono (le : n ≤ m) {v : Value} (founded : v.Founded n) : v.Founded m :=
  fun f same => (founded f same).mono le

theorem Expr.Founded.node {e x : Expr} (founded : e.Founded n) (node : x ∈ e.nodes) :
    x.Founded n :=
  fun f stands => founded f (stands.of_node node)

/-- Where no function stands, and no other node. -/
theorem Expr.founded_of_leaf {e : Expr} (leaf : e.nodes = [e])
    (other : ∀ identity parameters body scope dialect span,
      e ≠ .function identity parameters body scope dialect span) : e.Founded n := by
  rintro f ⟨span, node⟩
  rw [leaf] at node
  exact absurd (List.mem_singleton.1 node).symm (other _ _ _ _ _ _)

theorem Value.founded_constant (n : Nat) (c : Constant) : (Value.constant c).Founded n :=
  nofun

theorem Closure.Founded.value {f : Closure} (founded : f.Founded n) :
    (Value.closure f).Founded n := by
  rintro _ ⟨⟩
  exact founded

/-- A value that stands in an expression. -/
theorem Value.Founded.node {v : Value} (founded : v.Founded n) (span : Span) :
    (v.node span).Founded n := by
  cases v with
  | constant c => exact Expr.founded_of_leaf rfl nofun
  | closure f =>
      rintro g ⟨at', node⟩
      rcases List.mem_cons.1 node with same | node
      · obtain ⟨-, -, -, scope, -⟩ := Expr.function.inj same
        exact scope ▸ (founded f rfl).scope
      · exact (founded f rfl).body g ⟨at', node⟩

end

/-- Scopes are younger than those around them, those that none lies around are among the roots,
and the scopes that values hold exist. -/
structure Store.Founded (root : ScopeId → Prop) (s : Store) : Prop where
  layered : s.Layered
  rooted : ∀ i < s.scopes.size, s.parent? i = none → root i
  bound : ∀ i, ∀ pair ∈ s.bindings i, pair.2.Founded s.scopes.size
  printed : ∀ v ∈ s.printed, v.Founded s.scopes.size

namespace Store.Founded

variable {root : ScopeId → Prop} {s : Store}

theorem empty (root : ScopeId → Prop) : Store.empty.Founded root where
  layered := nofun
  rooted := nofun
  bound := nofun
  printed := nofun

variable (founded : s.Founded root)

include founded

theorem lookup? {i : ScopeId} {name : String} {v : Value} (found : s.lookup? i name = some v) :
    v.Founded s.scopes.size := by
  obtain ⟨j, -, bound⟩ := List.exists_of_findSome?_eq_some found
  exact founded.bound j _ (Ordered.mem_of_find? bound)

theorem bind {v : Value} (value : v.Founded s.scopes.size) (scope : ScopeId) (name : String) :
    (s.bind scope name v).Founded root where
  layered := founded.layered.bind scope name v
  rooted i old none := by
    rw [size_bind] at old
    rw [parent?_bind] at none
    exact founded.rooted i old none
  bound i := by
    rw [size_bind, bindings_bind]
    split
    · exact Ordered.forall_put (founded.bound i) value
    · exact founded.bound i
  printed := by
    rw [size_bind]
    exact founded.printed

theorem newScope {given : Ordered Value}
    (values : ∀ pair ∈ given, pair.2.Founded s.scopes.size) {parent : Option ScopeId}
    (older : ∀ p, parent = some p → p < s.scopes.size)
    (alone : parent = none → root s.scopes.size) :
    (s.newScope given parent).2.Founded root where
  layered := founded.layered.newScope given older
  rooted i old none := by
    rw [parent?_newScope] at none
    split at none
    · rename_i new
      exact new ▸ alone none
    · rename_i other
      rw [size_newScope] at old
      exact founded.rooted i (Nat.lt_of_le_of_ne (Nat.le_of_lt_succ old) other) none
  bound i := by
    rw [size_newScope, bindings_newScope]
    split
    · exact fun pair member => (values pair member).mono (Nat.le_succ _)
    · exact fun pair member => (founded.bound i pair member).mono (Nat.le_succ _)
  printed := by
    rw [size_newScope]
    exact fun v member => (founded.printed v member).mono (Nat.le_succ _)

theorem print {v : Value} (value : v.Founded s.scopes.size) : (s.print v).Founded root where
  layered := founded.layered
  rooted := founded.rooted
  bound := founded.bound
  printed w member := by
    rcases Array.mem_push.1 member with old | rfl
    · exact founded.printed w old
    · exact value

/-- What numbers functions and sources leaves scopes and printed values as they are. -/
theorem renumbered {s' : Store} (scopes : s'.scopes = s.scopes) (printed : s'.printed = s.printed) :
    s'.Founded root := by
  obtain ⟨layered, rooted, bound, printed'⟩ := founded
  refine ⟨?_, ?_, ?_, ?_⟩
  · simpa only [Layered, parent?, scopes] using layered
  · simpa only [parent?, scopes] using rooted
  · simpa only [bindings, scopes] using bound
  · simpa only [scopes, printed] using printed'

end Store.Founded

/-! ## Evaluation -/

namespace Correspondence

variable {root : ScopeId → Prop} {n : Nat}

/-- An evaluation beside itself. -/
def founded (root : ScopeId → Prop) : Correspondence Nat where
  stores n s s' := s = s' ∧ s.scopes.size = n ∧ s.Founded root
  places := Place.anywhere
  unknown := trivial
  closures n f f' := f = f' ∧ f.Founded n
  tasks n t t' := t = t' ∧ t.expr.Founded n ∧ t.scope < n
  spans _ _ := True

/-- Steps after which there are not fewer scopes. -/
theorem founded_step {α : Type} {good : Nat → α → α → Prop} {change : Store → α × Store}
    (changed : ∀ s, s.scopes.size = n → s.Founded root →
      n ≤ (change s).2.scopes.size ∧ (change s).2.Founded root ∧
        good (change s).2.scopes.size (change s).1 (change s).1) :
    Eval.InStep (founded root).toComparison n good (Eval.step change) (Eval.step change) := by
  refine .step fun s s' => ?_
  rintro ⟨rfl, size, founded⟩
  obtain ⟨le, founded, result⟩ := changed s size founded
  exact ⟨_, le, ⟨rfl, rfl, founded⟩, result⟩

theorem founded_lookup (scope : ScopeId) (name : String) :
    Eval.InStep (founded root).toComparison n (founded root).values (Eval.lookup scope name)
      (Eval.lookup scope name) := by
  refine .lookup fun s s' => ?_
  rintro ⟨rfl, rfl, kept⟩
  refine ⟨?_, fun _ => rfl⟩
  cases found : s.lookup? scope name with
  | none => exact .none
  | some v => exact .some (Value.Paired.same_iff.2 ⟨rfl, kept.lookup? found⟩)

theorem founded_newFunction (parameters : List String) {body : Expr} (built : body.Founded n)
    {scope : ScopeId} (exist : scope < n) (dialect : DialectId) :
    Eval.InStep (founded root).toComparison n (founded root).values
      (Eval.newFunction parameters body scope dialect)
      (Eval.newFunction parameters body scope dialect) := by
  refine founded_step fun s size kept => ?_
  subst size
  exact ⟨Nat.le_refl _, kept.renumbered rfl rfl,
    Value.Paired.same_iff.2 ⟨rfl, Closure.Founded.value ⟨exist, built⟩⟩⟩

/-- The scopes that evaluation makes lie in scopes that exist. -/
theorem founded_simulates (root : ScopeId → Prop) (limits : Limits) :
    (founded root).Simulates (.standard limits) (.standard limits) where
  limits := rfl
  closures_later le related := ⟨related.1, related.2.mono le⟩
  tasks_later le task := ⟨task.1, task.2.1.mono le, Nat.lt_of_lt_of_le task.2.2 le⟩
  settle _ _ := trivial
  bringTo _ _ := trivial
  identity left right := by rw [left.1, right.1]
  arity related := by rw [related.1]
  print := by
    intro n v v' paired
    obtain ⟨rfl, value⟩ := Value.Paired.same_iff.1 paired
    refine founded_step fun s size kept => ?_
    subst size
    exact ⟨Nat.le_refl _, kept.print value, trivial⟩
  enter := by
    rintro n f _ values values' ⟨rfl, callee⟩ _ pairs
    obtain ⟨rfl, good⟩ := Value.Paired.forall₂_same pairs
    refine founded_step fun s size kept => ?_
    subst size
    rw [Store.size_newScope, Store.newScope_fst]
    refine ⟨Nat.le_succ _, kept.newScope (forall_parameters good) ?_ nofun, rfl,
      callee.body.mono (Nat.le_succ _), Nat.lt_succ_self _⟩
    rintro p ⟨⟩
    exact callee.scope
  unfold := by
    rintro n ⟨dialect, e, scope⟩ _ ⟨rfl, founded, exist⟩
    change e.Founded n at founded
    change scope < n at exist
    cases e with
    | literal c span => exact .literal c
    | word name span => exact .word trivial (founded_lookup scope name)
    | abstract => exact .abstract
    | function identity parameters body home dialect' span =>
        refine .function ⟨rfl, ?_, ?_⟩
        · exact founded ⟨identity, parameters, body, home, dialect'⟩
            ⟨span, Expr.mem_nodes_self _⟩
        · exact founded.node (List.mem_cons_of_mem _ (Expr.mem_nodes_self body))
    | apply operator args span =>
        have task : ∀ x ∈ (Expr.apply operator args span).nodes,
            (Correspondence.founded root).tasks n ⟨dialect, x, scope⟩ ⟨dialect, x, scope⟩ :=
          fun x node => ⟨rfl, founded.node node, exist⟩
        have each : args.Forall₂ (fun e e' => (Correspondence.founded root).tasks n
            ⟨dialect, e, scope⟩ ⟨dialect, e', scope⟩) args :=
          List.forall₂_same.2 fun a member => task a (Expr.mem_nodes_argument operator member span)
        refine unfolds_apply _ rfl rfl trivial rfl
          (task operator (Expr.mem_nodes_operator operator args span)) each fun special _ _ => ?_
        refine arguments_of_bare_eq (fun _ _ => trivial) special (fun e e' same => ?_) each
          (fun later name v v' le paired => ?_) fun parameters body body' same => ?_
        · exact congrArg (fun t => t.expr.bare) same.1
        · obtain ⟨rfl, value⟩ := Value.Paired.same_iff.1 paired
          refine founded_step fun s size kept => ?_
          subst size
          exact ⟨Nat.le_of_eq (Store.size_bind ..).symm, kept.bind value scope name, trivial⟩
        · obtain ⟨same, inBody, -⟩ := same
          cases same
          exact founded_newFunction parameters inBody exist dialect

end Correspondence

/-- From a store whose values hold existing scopes, a computation comes to such a store again, with
no fewer scopes, and so does the value that it gives. -/
structure Eval.StaysFounded (root : ScopeId → Prop) (s : Store) (x : Eval Value) : Prop where
  size : s.scopes.size ≤ (x.outcome s).2.scopes.size
  store : (x.outcome s).2.Founded root
  value : ∀ v, (x.outcome s).1 = .ok v → v.Founded (x.outcome s).2.scopes.size

theorem Eval.StaysFounded.of_inStep {root : ScopeId → Prop} {s : Store} {x : Eval Value}
    (inStep : Eval.InStep (Correspondence.founded root).toComparison s.scopes.size
      (Correspondence.founded root).values x x) (founded : s.Founded root) :
    x.StaysFounded root s := by
  obtain ⟨_, le, ⟨-, rfl, store⟩, ends⟩ := inStep s s ⟨rfl, rfl, founded⟩
  refine ⟨le, store, fun v given => ?_⟩
  rw [given] at ends
  cases ends with
  | ok paired => exact (Value.Paired.same_iff.1 paired).2

namespace Setting

variable {root : ScopeId → Prop} {s : Store} (founded : s.Founded root) (limits : Limits)

include founded

theorem run_founded (dialect : DialectId) {e : Expr} (built : e.Founded s.scopes.size)
    {scope : ScopeId} (exist : scope < s.scopes.size) :
    ((standard limits).run dialect e scope).StaysFounded root s := by
  have task : (Correspondence.founded root).tasks s.scopes.size ⟨dialect, e, scope⟩
      ⟨dialect, e, scope⟩ := ⟨rfl, built, exist⟩
  exact .of_inStep ((Correspondence.founded_simulates root limits).evaluate _ task) founded

theorem callValue_founded {callee : Value} (called : callee.Founded s.scopes.size)
    {args : List Value} (given : ∀ v ∈ args, v.Founded s.scopes.size) :
    ((standard limits).callValue callee args).StaysFounded root s := by
  have pairs : args.Forall₂ ((Correspondence.founded root).values s.scopes.size) args :=
    List.forall₂_same.2 fun v member => Value.Paired.same_iff.2 ⟨rfl, given v member⟩
  exact .of_inStep ((Correspondence.founded_simulates root limits).callValue
    (Value.Paired.same_iff.2 ⟨rfl, called⟩) pairs) founded

end Setting

end EggLanguage
