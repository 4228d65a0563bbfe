/-
# EggLanguage.Proofs.Locality -- evaluation writes in one scope

Scopes are shared: a function holds the scope it was defined in, and any number of
functions and calls may hold the same one.  All the same an evaluation writes to the
scope it takes place in and to scopes that it made itself, and to no other
(`Setting.evaluate_local`).  A call writes to no scope that was there before it.

The invariant is `Store.Grown`: what a later store may differ in from an earlier one.  It
names the scopes that may be written, so that the same induction serves an evaluation in
a scope and a call, whose body runs in a scope that the earlier store does not have.
-/
import EggLanguage.Proofs.Invariants

namespace EggLanguage

set_option autoImplicit false

/-- The later store has all scopes of the earlier one, each below the same parent.  Own
bindings differ in the writable scopes at most; there the old names come first, in their
order. -/
structure Store.Grown (writable : ScopeId → Prop) (earlier later : Store) : Prop where
  size : earlier.scopes.size ≤ later.scopes.size
  parent : ∀ i < earlier.scopes.size, later.parent? i = earlier.parent? i
  names : ∀ i < earlier.scopes.size, earlier.names i <+: later.names i
  kept : ∀ i < earlier.scopes.size, ¬ writable i → later.bindings i = earlier.bindings i

namespace Store

namespace Grown

variable {writable : ScopeId → Prop} {earlier later : Store}

theorem refl (writable : ScopeId → Prop) (s : Store) : s.Grown writable s where
  size := Nat.le_refl _
  parent _ _ := rfl
  names _ _ := List.prefix_refl _
  kept _ _ _ := rfl

/-- A scope may be bound in if it is writable or was made later. -/
theorem bind (grown : earlier.Grown writable later) {scope : ScopeId}
    (allowed : scope < earlier.scopes.size → writable scope) (name : String) (value : Value) :
    earlier.Grown writable (later.bind scope name value) where
  size := by
    rw [size_bind]
    exact grown.size
  parent i old := by
    rw [parent?_bind]
    exact grown.parent i old
  names i old := by
    refine (grown.names i old).trans ?_
    rw [Store.names, Store.names, bindings_bind]
    split
    · rw [Ordered.names_put]
      split
      · exact List.prefix_refl _
      · exact List.prefix_append _ _
    · exact List.prefix_refl _
  kept i old locked := by
    rw [bindings_bind, if_neg, grown.kept i old locked]
    rintro ⟨rfl, -⟩
    exact locked (allowed old)

theorem newScope (grown : earlier.Grown writable later) (given : Ordered Value)
    (parent : Option ScopeId) : earlier.Grown writable (later.newScope given parent).2 := by
  have older : ∀ i < earlier.scopes.size, i ≠ later.scopes.size := fun i old =>
    Nat.ne_of_lt (Nat.lt_of_lt_of_le old grown.size)
  refine ⟨?_, fun i old => ?_, fun i old => ?_, fun i old locked => ?_⟩
  · rw [size_newScope]
    exact Nat.le_succ_of_le grown.size
  · rw [parent?_newScope, if_neg (older i old), grown.parent i old]
  · rw [Store.names, Store.names, bindings_newScope, if_neg (older i old)]
    exact grown.names i old
  · rw [bindings_newScope, if_neg (older i old), grown.kept i old locked]

end Grown

end Store

/-! ## Evaluation -/

section

variable {writable : ScopeId → Prop} {earlier : Store}

theorem Store.grown_maintained (writable : ScopeId → Prop) (earlier : Store) :
    Setting.Maintained (earlier.Grown writable) (fun _ => True)
      fun _ scope => scope < earlier.scopes.size → writable scope where
  constant _ := trivial
  function _ := trivial
  lookup _ _ := trivial
  operator allowed := allowed
  argument allowed _ := allowed
  bind allowed grown _ := grown.bind allowed _ _
  made _ grown := ⟨⟨grown.size, grown.parent, grown.names, grown.kept⟩, trivial⟩
  print grown _ := ⟨grown.size, grown.parent, grown.names, grown.kept⟩
  call grown _ _ := ⟨grown.newScope _ _, fun old => absurd old (Nat.not_lt.2 grown.size)⟩

theorem Builtin.call_grown (b : Builtin) (values : List Value) :
    (b.call values).Keeps (earlier.Grown writable) fun _ => True :=
  (Store.grown_maintained writable earlier).call_builtin fun _ _ => trivial

/-- The body of a function runs in a scope that the earlier store does not have. -/
theorem Closure.call_grown {evaluate : DialectId → Expr → ScopeId → Eval Value} (f : Closure)
    (values : List Value)
    (body : ∀ inner, earlier.scopes.size ≤ inner →
      (evaluate f.dialect f.body inner).Keeps (earlier.Grown writable) fun _ => True) :
    (f.call evaluate values).Keeps (earlier.Grown writable) fun _ => True := by
  unfold Closure.call
  split
  · have enters : (Eval.newScope (Ordered.ofList (f.parameters.zip values)) (some f.scope)).Keeps
        (earlier.Grown writable) (earlier.scopes.size ≤ ·) :=
      .step fun _ grown => ⟨grown.newScope _ _, grown.size⟩
    exact enters.bind body
  · exact .fail _

/-- Evaluation in a scope that is writable, or that the earlier store does not have, writes
to nothing else that the earlier store has. -/
theorem Setting.evaluate_grown (limits : Limits) (depth : Nat) (dialect : DialectId) (e : Expr)
    (scope : ScopeId) (allowed : scope < earlier.scopes.size → writable scope) :
    ((standard limits).evaluate depth dialect e scope).Keeps (earlier.Grown writable)
      fun _ => True :=
  (Store.grown_maintained writable earlier).evaluate_maintains depth dialect e scope allowed

end

/-- **Writes are local.**  However it ends, an evaluation changes no parent and no own
bindings of a scope that was there before it, except that names are added after the old
ones, or bound anew, in the scope it takes place in.  A call changes no scope that was
there before it. -/
theorem Setting.evaluate_local (limits : Limits) (depth : Nat) :
    (∀ (dialect : DialectId) (e : Expr) (scope : ScopeId) (s : Store),
      s.Grown (· = scope) (((standard limits).evaluate depth dialect e scope).outcome s).2) ∧
    (∀ (f : Function) (values : List Value) (s : Store),
      s.Grown (fun _ => False)
        ((f.call ((standard limits).evaluate depth) values).outcome s).2) := by
  refine ⟨fun dialect e scope s => ?_, fun f values s => ?_⟩
  · have writes := @evaluate_grown (· = scope) s limits depth dialect e scope fun _ => rfl
    exact writes.outcome (.refl _ s)
  · cases f with
    | builtin b => exact (Builtin.call_grown b values).outcome (.refl _ s)
    | closure f =>
        refine (Closure.call_grown f values fun inner later => ?_).outcome (.refl _ s)
        exact evaluate_grown limits depth f.dialect f.body inner fun old =>
          absurd old (Nat.not_lt.2 later)

end EggLanguage
