/-
# EggLanguage.Proofs.Chains -- which scopes see a binding

A name is searched from a scope outward.  The search ends because every scope is younger than the
scope around it (`Store.Layered`); so the chain of a scope is the scope itself and the chain of the
scope around it (`Store.chain_eq`), and what a scope sees is what it binds, and else what the
scope around it sees (`Store.lookup?_eq`).

A binding is made in one scope.  It is seen from those scopes alone whose search for the name
comes to that scope (`Store.Reaches`), which is to say that no scope on the way binds the name
(`Store.bind_seen`).
-/
import EggLanguage.Proofs.Run

namespace EggLanguage

set_option autoImplicit false

namespace Store

/-! ## Chains -/

/-- Every scope is younger than the scope around it. -/
def Layered (s : Store) : Prop :=
  ∀ i p, s.parent? i = some p → p < i

theorem chainWithin_congr {s s' : Store} (parents : ∀ i, s.parent? i = s'.parent? i)
    (length : Nat) (scope : ScopeId) : s.chainWithin length scope = s'.chainWithin length scope := by
  induction length generalizing scope with
  | zero => rfl
  | succ length ih =>
      rw [chainWithin, chainWithin, parents scope]
      cases s'.parent? scope with
      | none => rfl
      | some parent => exact congrArg (scope :: ·) (ih parent)

namespace Layered

variable {s : Store} (layered : s.Layered)

include layered

/-- Any length that a scope lies below is enough for its chain. -/
theorem chainWithin_eq {length length' : Nat} {i : ScopeId} (fits : i < length)
    (fits' : i < length') : s.chainWithin length i = s.chainWithin length' i := by
  induction length generalizing length' i with
  | zero => exact absurd fits (Nat.not_lt_zero i)
  | succ length ih =>
      cases length' with
      | zero => exact absurd fits' (Nat.not_lt_zero i)
      | succ length' =>
          rw [chainWithin, chainWithin]
          cases around : s.parent? i with
          | none => rfl
          | some p =>
              have older := layered i p around
              have same : s.chainWithin length p = s.chainWithin length' p :=
                ih (Nat.lt_of_lt_of_le older (Nat.le_of_lt_succ fits))
                  (Nat.lt_of_lt_of_le older (Nat.le_of_lt_succ fits'))
              exact congrArg (i :: ·) same

/-- The chain of a scope goes on with that of the scope around it. -/
theorem chain_eq (i : ScopeId) :
    s.chain i = i :: ((s.parent? i).map s.chain).getD [] := by
  rw [chain, chainWithin]
  cases around : s.parent? i with
  | none => rfl
  | some p =>
      exact congrArg (i :: ·) (layered.chainWithin_eq (layered i p around) (Nat.lt_succ_self p))

/-- A scope sees what it binds, and else what the scope around it sees. -/
theorem lookup?_eq (i : ScopeId) (name : String) :
    s.lookup? i name =
      ((s.bindings i).find? name).or ((s.parent? i).bind fun p => s.lookup? p name) := by
  rw [lookup?, layered.chain_eq, List.findSome?_cons]
  cases (s.bindings i).find? name with
  | some v => rfl
  | none =>
      cases s.parent? i with
      | none => rfl
      | some p => rfl

end Layered

/-- Names are members of the scopes that see them. -/
theorem contains_eq (s : Store) (i : ScopeId) (name : String) :
    s.contains i name = (s.lookup? i name).isSome := by
  rw [contains, lookup?, List.isSome_findSome?]

/-! ## Forests of scopes -/

/-- The stores of scopes that were made one after another, each by itself or within an older one
and with any bindings, and that names were bound in.  Whatever else a store keeps does not
matter. -/
inductive Forest : Store → Prop where
  | empty : Forest .empty
  | alone {s : Store} (forest : Forest s) (given : List (String × Value)) :
      Forest (s.newScope (Ordered.ofList given) none).2
  | within {s : Store} (forest : Forest s) (given : List (String × Value)) {around : ScopeId}
      (exist : around < s.scopes.size) :
      Forest (s.newScope (Ordered.ofList given) (some around)).2
  | bind {s : Store} (forest : Forest s) {scope : ScopeId} (exist : scope < s.scopes.size)
      (name : String) (v : Value) : Forest (s.bind scope name v)
  | other {s s' : Store} (forest : Forest s) (same : s'.scopes = s.scopes) : Forest s'

theorem Layered.newScope {s : Store} (layered : s.Layered) (given : Ordered Value)
    {parent : Option ScopeId} (older : ∀ p, parent = some p → p < s.scopes.size) :
    (s.newScope given parent).2.Layered := by
  intro i p
  rw [parent?_newScope]
  split
  · rename_i new
    exact fun around => new ▸ older p around
  · exact layered i p

theorem Layered.bind {s : Store} (layered : s.Layered) (scope : ScopeId) (name : String)
    (v : Value) : (s.bind scope name v).Layered := by
  intro i p
  rw [parent?_bind]
  exact layered i p

theorem Forest.layered {s : Store} (forest : s.Forest) : s.Layered := by
  induction forest with
  | empty => nofun
  | alone _ given ih => exact ih.newScope _ nofun
  | within _ given exist ih =>
      refine ih.newScope _ ?_
      rintro p ⟨⟩
      exact exist
  | bind _ _ name v ih => exact ih.bind _ name v
  | other _ same ih =>
      intro i p
      rw [parent?, same]
      exact ih i p

/-! ## Bindings -/

/-- The search for a name comes from a scope to another one, which lies around it: no scope
before the other one binds the name. -/
inductive Reaches (s : Store) (name : String) (goal : ScopeId) : ScopeId → Prop where
  | here : Reaches s name goal goal
  | outward {i p : ScopeId} (free : name ∉ s.names i) (around : s.parent? i = some p)
      (further : Reaches s name goal p) : Reaches s name goal i

section

variable {s : Store} (layered : s.Layered) {scope : ScopeId} {name : String} (v : Value)

/-- Where a name is free, the search goes on outside. -/
theorem find?_eq_none_iff {i : ScopeId} : (s.bindings i).find? name = none ↔ name ∉ s.names i := by
  rw [names, ← Ordered.find?_isSome_iff, Option.not_isSome_iff_eq_none]

include layered

theorem lookup?_bind_of_reaches (exist : scope < s.scopes.size) {i : ScopeId}
    (reaches : s.Reaches name scope i) : (s.bind scope name v).lookup? i name = some v := by
  have after := layered.bind scope name v
  have found : ((s.bind scope name v).bindings scope).find? name = some v := by
    rw [bindings_bind, if_pos ⟨rfl, exist⟩, Ordered.find?_put, if_pos rfl]
  induction reaches with
  | here => rw [after.lookup?_eq, found, Option.some_or]
  | @outward i p free around _ ih =>
      by_cases here : i = scope
      · rw [after.lookup?_eq, here, found, Option.some_or]
      · rw [after.lookup?_eq, bindings_bind, if_neg fun both => here both.1,
          find?_eq_none_iff.2 free, Option.none_or, parent?_bind, around]
        exact ih

/-- The induction is on the scope, from the outermost inward. -/
theorem lookup?_bind_of_not_reaches {other : String} {i : ScopeId}
    (unseen : ¬ (other = name ∧ s.Reaches name scope i)) :
    (s.bind scope name v).lookup? i other = s.lookup? i other := by
  have after := layered.bind scope name v
  induction i using Nat.strongRecOn with
  | ind i ih =>
      have here : ((s.bind scope name v).bindings i).find? other = (s.bindings i).find? other := by
        rw [bindings_bind]
        split
        · rename_i both
          rw [Ordered.find?_put, if_neg]
          rintro rfl
          exact unseen ⟨rfl, both.1 ▸ .here⟩
        · rfl
      rw [after.lookup?_eq, layered.lookup?_eq i, here, parent?_bind]
      cases found : (s.bindings i).find? other with
      | some w => rw [Option.some_or, Option.some_or]
      | none =>
          rw [Option.none_or, Option.none_or]
          cases around : s.parent? i with
          | none => rfl
          | some p =>
              refine ih p (layered i p around) fun both => unseen ⟨both.1, ?_⟩
              exact .outward (both.1 ▸ find?_eq_none_iff.1 found) around both.2

end

theorem names_bind {s : Store} {scope : ScopeId} (exist : scope < s.scopes.size) (name : String)
    (v : Value) : (s.bind scope name v).names scope =
      if name ∈ s.names scope then s.names scope else s.names scope ++ [name] := by
  rw [names, bindings_bind, if_pos ⟨rfl, exist⟩, Ordered.names_put]
  rfl

theorem names_bind_of_ne (s : Store) {scope i : ScopeId} (other : i ≠ scope) (name : String)
    (v : Value) : (s.bind scope name v).names i = s.names i := by
  rw [names, bindings_bind, if_neg fun both => other both.1, names]

end Store

namespace Eval

/-- Scopes that see the same value for a name, or none, are looked up in alike. -/
theorem lookup_congr {s s' : Store} {i i' : ScopeId} {name : String}
    (same : s.lookup? i name = s'.lookup? i' name) :
    ((lookup i name).outcome s).1 = ((lookup i' name).outcome s').1 := by
  rw [outcome_lookup, outcome_lookup, same]
  cases s'.lookup? i' name <;> rfl

end Eval

namespace Store

/-- Membership and look-up agree. -/
theorem contains_iff (s : Store) (i : ScopeId) (name : String) :
    s.contains i name = true ↔ ∃ v, ((Eval.lookup i name).outcome s).1 = .ok v := by
  rw [contains_eq, Eval.outcome_lookup]
  cases s.lookup? i name with
  | some v => exact ⟨fun _ => ⟨v, rfl⟩, fun _ => rfl⟩
  | none => exact ⟨nofun, nofun⟩

/-- **A binding is seen where the search for its name comes to it.**  In any forest of scopes, after
a name was bound in one of them, the scopes whose search for that name comes to this scope find
the value.  Any other look-up, of this name elsewhere or of another name, ends as it did before:
with the same value, or failing for the same reason.  A name is a member of exactly those scopes
in which it can be looked up.  The name is added after those that the scope bound, unless it is
among them, and the names of all other scopes are as before. -/
theorem bind_seen {s : Store} (forest : s.Forest) {scope : ScopeId} (exist : scope < s.scopes.size)
    (name : String) (v : Value) :
    let after := s.bind scope name v
    (∀ i other,
      (other = name ∧ s.Reaches name scope i → ((Eval.lookup i other).outcome after).1 = .ok v) ∧
      (¬ (other = name ∧ s.Reaches name scope i) →
        ((Eval.lookup i other).outcome after).1 = ((Eval.lookup i other).outcome s).1) ∧
      (after.contains i other = true ↔ ∃ w, ((Eval.lookup i other).outcome after).1 = .ok w)) ∧
    after.names scope =
      (if name ∈ s.names scope then s.names scope else s.names scope ++ [name]) ∧
    ∀ i, i ≠ scope → after.names i = s.names i := by
  intro after
  refine ⟨fun i other => ⟨?_, fun unseen => ?_, after.contains_iff i other⟩,
    names_bind exist name v, fun i different => s.names_bind_of_ne different name v⟩
  · rintro ⟨rfl, reaches⟩
    rw [Eval.outcome_lookup, lookup?_bind_of_reaches forest.layered v exist reaches]
  · exact Eval.lookup_congr (lookup?_bind_of_not_reaches forest.layered v unseen)

/-- A scope that binds two names; within it one that binds the second anew, with an empty scope
inside, and another empty one. -/
def shadowed : Store :=
  let outer := (empty.newScope (Ordered.ofList [("a", .int 1), ("b", .int 2)]) none).2
  let inner := (outer.newScope (Ordered.ofList [("b", .int 20)]) (some 0)).2
  ((inner.newScope (Ordered.ofList []) (some 1)).2.newScope (Ordered.ofList []) (some 0)).2

theorem shadowed_forest : shadowed.Forest :=
  .within (.within (.within (.alone .empty _) _ (by decide)) _ (by decide)) _ (by decide)

/-- The second name, bound again in the outermost scope, is seen from the last scope but not from
the one where a nearer scope binds it, and goes on standing second. -/
theorem bind_seen_shadowed :
    let after := shadowed.bind 0 "b" (.int 3)
    shadowed.Reaches "b" 0 3 ∧ ¬ shadowed.Reaches "b" 0 2 ∧
      ((Eval.lookup 3 "b").outcome after).1 = .ok (.int 3) ∧
      ((Eval.lookup 2 "b").outcome after).1 = ((Eval.lookup 2 "b").outcome shadowed).1 ∧
      after.names 0 = ["a", "b"] := by
  intro after
  have reaches : shadowed.Reaches "b" 0 3 := .outward (by decide) rfl .here
  have hidden : ¬ shadowed.Reaches "b" 0 2 := by
    rintro (_ | ⟨_, around, further⟩)
    cases around
    cases further with
    | outward free _ _ => exact free (by decide)
  have exist : 0 < shadowed.scopes.size := by decide
  obtain ⟨seen, names, -⟩ := bind_seen shadowed_forest exist "b" (.int 3)
  refine ⟨reaches, hidden, (seen 3 "b").1 ⟨rfl, reaches⟩, ?_, names⟩
  exact (seen 2 "b").2.1 fun both => hidden both.2

end Store

end EggLanguage
